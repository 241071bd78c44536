import Mathlib

/-!
# AES-CMAC

`src/autosar/aes_cmac.cpp`: the AES-128 block cipher of FIPS-197 with its tables, the subkeys of RFC 4493
and the MAC. Blocks and round keys are arrays of fixed size, indexed by `size_t`; a loop that fills an
array is one expression for its elements where no element depends on another, and a fold where one does.
-/

namespace Tc8Harness.Autosar.Crypto

abbrev Block := Vector UInt8 16

/-- `v[i]`. Every index of the source is inside its array. -/
def byteOf {n : Nat} (v : Vector UInt8 n) (i : Nat) : UInt8 := v[i]?.getD 0

/-! ## FIPS-197 -/

def kSBox : List UInt8 :=
  [
    0x63, 0x7c, 0x77, 0x7b, 0xf2, 0x6b, 0x6f, 0xc5, 0x30, 0x01, 0x67, 0x2b, 0xfe, 0xd7, 0xab, 0x76,
    0xca, 0x82, 0xc9, 0x7d, 0xfa, 0x59, 0x47, 0xf0, 0xad, 0xd4, 0xa2, 0xaf, 0x9c, 0xa4, 0x72, 0xc0,
    0xb7, 0xfd, 0x93, 0x26, 0x36, 0x3f, 0xf7, 0xcc, 0x34, 0xa5, 0xe5, 0xf1, 0x71, 0xd8, 0x31, 0x15,
    0x04, 0xc7, 0x23, 0xc3, 0x18, 0x96, 0x05, 0x9a, 0x07, 0x12, 0x80, 0xe2, 0xeb, 0x27, 0xb2, 0x75,
    0x09, 0x83, 0x2c, 0x1a, 0x1b, 0x6e, 0x5a, 0xa0, 0x52, 0x3b, 0xd6, 0xb3, 0x29, 0xe3, 0x2f, 0x84,
    0x53, 0xd1, 0x00, 0xed, 0x20, 0xfc, 0xb1, 0x5b, 0x6a, 0xcb, 0xbe, 0x39, 0x4a, 0x4c, 0x58, 0xcf,
    0xd0, 0xef, 0xaa, 0xfb, 0x43, 0x4d, 0x33, 0x85, 0x45, 0xf9, 0x02, 0x7f, 0x50, 0x3c, 0x9f, 0xa8,
    0x51, 0xa3, 0x40, 0x8f, 0x92, 0x9d, 0x38, 0xf5, 0xbc, 0xb6, 0xda, 0x21, 0x10, 0xff, 0xf3, 0xd2,
    0xcd, 0x0c, 0x13, 0xec, 0x5f, 0x97, 0x44, 0x17, 0xc4, 0xa7, 0x7e, 0x3d, 0x64, 0x5d, 0x19, 0x73,
    0x60, 0x81, 0x4f, 0xdc, 0x22, 0x2a, 0x90, 0x88, 0x46, 0xee, 0xb8, 0x14, 0xde, 0x5e, 0x0b, 0xdb,
    0xe0, 0x32, 0x3a, 0x0a, 0x49, 0x06, 0x24, 0x5c, 0xc2, 0xd3, 0xac, 0x62, 0x91, 0x95, 0xe4, 0x79,
    0xe7, 0xc8, 0x37, 0x6d, 0x8d, 0xd5, 0x4e, 0xa9, 0x6c, 0x56, 0xf4, 0xea, 0x65, 0x7a, 0xae, 0x08,
    0xba, 0x78, 0x25, 0x2e, 0x1c, 0xa6, 0xb4, 0xc6, 0xe8, 0xdd, 0x74, 0x1f, 0x4b, 0xbd, 0x8b, 0x8a,
    0x70, 0x3e, 0xb5, 0x66, 0x48, 0x03, 0xf6, 0x0e, 0x61, 0x35, 0x57, 0xb9, 0x86, 0xc1, 0x1d, 0x9e,
    0xe1, 0xf8, 0x98, 0x11, 0x69, 0xd9, 0x8e, 0x94, 0x9b, 0x1e, 0x87, 0xe9, 0xce, 0x55, 0x28, 0xdf,
    0x8c, 0xa1, 0x89, 0x0d, 0xbf, 0xe6, 0x42, 0x68, 0x41, 0x99, 0x2d, 0x0f, 0xb0, 0x54, 0xbb, 0x16]

def kRcon : List UInt8 :=
  [0x00, 0x01, 0x02, 0x04, 0x08, 0x10, 0x20, 0x40, 0x80, 0x1b, 0x36]

/-- `kSBox[b]`. -/
def subByte (b : UInt8) : UInt8 := kSBox.getD b.toNat 0

def xtime (a : UInt8) : UInt8 := (a <<< 1) ^^^ (if a &&& 0x80 != 0 then 0x1b else 0x00)

abbrev RoundKeys := Vector UInt8 176

/-- One turn of the loop over the words of the schedule. -/
def expandWord (rk : RoundKeys) (word : Nat) : RoundKeys :=
  let t0 := byteOf rk (4 * (word - 1) + 0)
  let t1 := byteOf rk (4 * (word - 1) + 1)
  let t2 := byteOf rk (4 * (word - 1) + 2)
  let t3 := byteOf rk (4 * (word - 1) + 3)
  let t : UInt8 × UInt8 × UInt8 × UInt8 :=
    if word % 4 = 0 then
      (subByte t1 ^^^ kRcon.getD (word / 4) 0, subByte t2, subByte t3, subByte t0)
    else (t0, t1, t2, t3)
  let rk := rk.setIfInBounds (4 * word + 0) (byteOf rk (4 * (word - 4) + 0) ^^^ t.1)
  let rk := rk.setIfInBounds (4 * word + 1) (byteOf rk (4 * (word - 4) + 1) ^^^ t.2.1)
  let rk := rk.setIfInBounds (4 * word + 2) (byteOf rk (4 * (word - 4) + 2) ^^^ t.2.2.1)
  rk.setIfInBounds (4 * word + 3) (byteOf rk (4 * (word - 4) + 3) ^^^ t.2.2.2)

def expandKey (key : List UInt8) : RoundKeys :=
  let rk : RoundKeys := Vector.replicate 176 0
  let rk := (List.range 16).foldl (fun rk i => rk.setIfInBounds i (key.getD i 0)) rk
  (List.range' 4 40).foldl expandWord rk

def addRoundKey (state : Block) (rk : RoundKeys) (round : Nat) : Block :=
  Vector.ofFn fun i => state.get i ^^^ byteOf rk (round * 16 + i)

def subBytes (state : Block) : Block := state.map subByte

/-- Row `r` of the column-major state rotates left by `r`; row 0 stays. -/
def shiftRows (state : Block) : Block :=
  Vector.ofFn fun i =>
    let r := i.val % 4
    let c := i.val / 4
    if r = 0 then state.get i else byteOf state (r + 4 * ((c + r) % 4))

def mixColumns (state : Block) : Block :=
  Vector.ofFn fun i =>
    let c := i.val / 4
    let a0 := byteOf state (4 * c + 0)
    let a1 := byteOf state (4 * c + 1)
    let a2 := byteOf state (4 * c + 2)
    let a3 := byteOf state (4 * c + 3)
    match i.val % 4 with
    | 0 => xtime a0 ^^^ (xtime a1 ^^^ a1) ^^^ a2 ^^^ a3
    | 1 => a0 ^^^ xtime a1 ^^^ (xtime a2 ^^^ a2) ^^^ a3
    | 2 => a0 ^^^ a1 ^^^ xtime a2 ^^^ (xtime a3 ^^^ a3)
    | _ => (xtime a0 ^^^ a0) ^^^ a1 ^^^ a2 ^^^ xtime a3

def aes128Encrypt (rk : RoundKeys) (input : Block) : Block :=
  let state := addRoundKey input rk 0
  let state := (List.range' 1 9).foldl
    (fun state round => addRoundKey (mixColumns (shiftRows (subBytes state))) rk round) state
  addRoundKey (shiftRows (subBytes state)) rk 10

/-! ## RFC 4493 -/

/-- The block with the carry that goes into the byte above. -/
def shiftLeftByte (input : Block) (acc : Block × UInt8) (i : Nat) : Block × UInt8 :=
  (acc.1.setIfInBounds i ((byteOf input i <<< 1) ||| acc.2),
    if byteOf input i &&& 0x80 != 0 then 1 else 0)

def shiftLeftOne (input : Block) : Block :=
  ((List.range 16).reverse.foldl (shiftLeftByte input) (Vector.replicate 16 0, 0)).1

def deriveSubkey (input : Block) : Block :=
  let out := shiftLeftOne input
  if byteOf input 0 &&& 0x80 != 0 then out.setIfInBounds 15 (byteOf out 15 ^^^ 0x87) else out

/-- Step 4: the final block under its subkey. -/
def lastBlock (k1 k2 : Block) (msg : List UInt8) (wholeLastBlock : Bool) (lastOff : Nat) : Block :=
  if wholeLastBlock then Vector.ofFn fun j => msg.getD (lastOff + j) 0 ^^^ k1.get j
  else
    let rem := msg.length % 16
    Vector.ofFn fun j =>
      let b := if j.val < rem then msg.getD (lastOff + j) 0 else if j.val = rem then 0x80 else 0x00
      b ^^^ k2.get j

def aesCmac (key msg : List UInt8) : Except String Block :=
  if key.length ≠ 16 then
    .error "tc8::crypto::aesCmac: RFC 4493 requires a 16-byte AES-128 key"
  else
    let rk := expandKey key
    let zero : Block := Vector.replicate 16 0
    let l := aes128Encrypt rk zero
    let k1 := deriveSubkey l
    let k2 := deriveSubkey k1
    let wholeLastBlock := msg.length ≠ 0 && msg.length % 16 = 0
    let blocks := if msg.length = 0 then 1 else (msg.length + 15) / 16
    let lastOff := (blocks - 1) * 16
    let mLast := lastBlock k1 k2 msg wholeLastBlock lastOff
    let x := (List.range (blocks - 1)).foldl
      (fun x i => aes128Encrypt rk (Vector.ofFn fun j => x.get j ^^^ msg.getD (i * 16 + j) 0)) zero
    .ok (aes128Encrypt rk (Vector.ofFn fun j => x.get j ^^^ mLast.get j))

end Tc8Harness.Autosar.Crypto
