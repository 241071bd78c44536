import Tc8Harness.Autosar.Crc

/-!
# E2E protection

`src/autosar/e2e.cpp`: the protectors and checkers of Profile 5 and Profile 11. `protect` writes into
the caller's buffer, so it returns the buffer; a call that throws is an `Except.error`. Offsets are
`size_t` and their sums wrap.

`Sealed` says of each profile what `protect` establishes about a PDU (`protect_sealed`) and what
`check` concludes from (`check_of_sealed`): the stored CRC is the computed one, and the counter is the
protector's.
-/

namespace Tc8Harness.Autosar

/-! ## Shared parts -/

inductive CheckStatus where
  | kOk
  | kRepeated
  | kWrongSequence
  | kError
  deriving DecidableEq, Repr

def kP05HeaderLen : UInt64 := 3
def kP05CounterPos : UInt64 := 2
def kP11HeaderLen : UInt64 := 2
def kP11CounterModulus : Nat := 15

def classifyCounter (delta maxDelta : UInt8) : CheckStatus :=
  if delta = 0 then .kRepeated
  else if delta ≤ maxDelta then .kOk
  else .kWrongSequence

/-- The sender of either profile. -/
structure Protector (Config : Type) where
  config : Config
  counter : UInt8 := 0
  deriving DecidableEq, Repr

/-- The receiver of either profile. -/
structure Checker (Config : Type) where
  config : Config
  lastCounter : UInt8 := 0
  haveLast : Bool := false
  deriving DecidableEq, Repr

/-- `data` at an offset. -/
def byteAt (data : List UInt8) (pos : UInt64) : UInt8 := data.getD pos.toNat 0

/-- The header is inside the PDU, whose length is a `size_t`. -/
structure Covers (offset headerLen : UInt64) (data : List UInt8) : Prop where
  header : offset.toNat + headerLen.toNat ≤ data.length
  sizeT : data.length < 2 ^ 64

/-! ## Profile 5 -/

structure Profile05Config where
  dataId : UInt16
  offset : UInt64
  maxDeltaCounter : UInt8
  deriving DecidableEq, Repr

/-- The Data ID as the CRC covers it. -/
def Profile05Config.dataIdBytes (cfg : Profile05Config) : List UInt8 :=
  [(cfg.dataId &&& 0xFF).toUInt8, ((cfg.dataId >>> 8) &&& 0xFF).toUInt8]

/-- The bytes of the PDU that the CRC covers. -/
def covered05 (data : List UInt8) (cfg : Profile05Config) : List UInt8 :=
  data.take cfg.offset.toNat ++ data.drop (cfg.offset + kP05CounterPos).toNat

def computeCrc (data : List UInt8) (cfg : Profile05Config) : UInt16 :=
  crc16Ccitt (covered05 data cfg ++ cfg.dataIdBytes) 0x0000 true

abbrev Profile05Protector := Protector Profile05Config

abbrev Profile05Checker := Checker Profile05Config

def Profile05Protector.protect (p : Profile05Protector) (data : List UInt8) :
    Except String (List UInt8 × Profile05Protector) :=
  if data.length < (p.config.offset + kP05HeaderLen).toNat then
    .error "tc8::e2e::Profile05Protector: PDU shorter than the E2E header"
  else
    let counter := p.counter + 1
    let data := data.set (p.config.offset + kP05CounterPos).toNat counter
    let crc := computeCrc data p.config
    let data := data.set p.config.offset.toNat (crc &&& 0xFF).toUInt8
    let data := data.set (p.config.offset + 1).toNat ((crc >>> 8) &&& 0xFF).toUInt8
    .ok (data, { p with counter := counter })

/-- The CRC field. -/
def storedCrc (data : List UInt8) (cfg : Profile05Config) : UInt16 :=
  (byteAt data cfg.offset).toUInt16 ||| ((byteAt data (cfg.offset + 1)).toUInt16 <<< 8)

def Profile05Checker.check (c : Profile05Checker) (data : List UInt8) :
    Except String (CheckStatus × Profile05Checker) :=
  if data.length < (c.config.offset + kP05HeaderLen).toNat then
    .error "tc8::e2e::Profile05Checker: PDU shorter than the E2E header"
  else if storedCrc data c.config ≠ computeCrc data c.config then .ok (.kError, c)
  else
    let rx := byteAt data (c.config.offset + kP05CounterPos)
    if !c.haveLast then .ok (.kOk, { c with haveLast := true, lastCounter := rx })
    else
      let delta := rx - c.lastCounter
      .ok (classifyCounter delta c.config.maxDeltaCounter, { c with lastCounter := rx })

/-! ## Profile 11 -/

inductive DataIdMode where
  | kBoth
  | kNibble
  deriving DecidableEq, Repr

structure Profile11Config where
  dataId : UInt16
  dataIdMode : DataIdMode
  offset : UInt64
  maxDeltaCounter : UInt8
  deriving DecidableEq, Repr

def kP11CrcXor : UInt8 := 0xFF

def computeP11Crc (data : List UInt8) (cfg : Profile11Config) : UInt8 :=
  let idLo := (cfg.dataId &&& 0xFF).toUInt8
  let idHi := if cfg.dataIdMode = .kBoth then ((cfg.dataId >>> 8) &&& 0xFF).toUInt8 else 0x00
  let crc := crc8SaeJ1850 [idLo] kP11CrcXor false
  let crc := crc8SaeJ1850 [idHi] crc false
  let crc :=
    if cfg.offset > 0 then crc8SaeJ1850 (data.take cfg.offset.toNat) crc false else crc
  let after := (cfg.offset + 1).toNat
  let crc := if after < data.length then crc8SaeJ1850 (data.drop after) crc false else crc
  crc ^^^ kP11CrcXor

abbrev Profile11Protector := Protector Profile11Config

abbrev Profile11Checker := Checker Profile11Config

/-- The second header byte: the counter below, and in NIBBLE mode the Data ID nibble above. -/
def p11HeaderByte (cfg : Profile11Config) (counter old : UInt8) : UInt8 :=
  let byte : UInt8 := (old &&& 0xF0) ||| counter
  match cfg.dataIdMode with
  | .kBoth => byte
  | .kNibble =>
    let nibble : UInt8 := ((cfg.dataId >>> 8) &&& 0x0F).toUInt8
    (byte &&& (0x0F : UInt8)) ||| (nibble <<< (4 : UInt8))

def Profile11Protector.protect (p : Profile11Protector) (data : List UInt8) :
    Except String (List UInt8 × Profile11Protector) :=
  if data.length < (p.config.offset + kP11HeaderLen).toNat then
    .error "tc8::e2e::Profile11Protector: PDU shorter than the E2E header"
  else
    let hdr1 := p.config.offset + 1
    let counter := UInt8.ofNat ((p.counter.toNat + 1) % kP11CounterModulus)
    let data := data.set hdr1.toNat (p11HeaderByte p.config counter (byteAt data hdr1))
    let data := data.set p.config.offset.toNat (computeP11Crc data p.config)
    .ok (data, { p with counter := counter })

def Profile11Checker.check (c : Profile11Checker) (data : List UInt8) :
    Except String (CheckStatus × Profile11Checker) :=
  if data.length < (c.config.offset + kP11HeaderLen).toNat then
    .error "tc8::e2e::Profile11Checker: PDU shorter than the E2E header"
  else if byteAt data c.config.offset ≠ computeP11Crc data c.config then .ok (.kError, c)
  else
    let rx := byteAt data (c.config.offset + 1) &&& 0x0F
    if !c.haveLast then .ok (.kOk, { c with haveLast := true, lastCounter := rx })
    else
      let delta := UInt8.ofNat
        ((rx.toNat + kP11CounterModulus - c.lastCounter.toNat) % kP11CounterModulus)
      .ok (classifyCounter delta c.config.maxDeltaCounter, { c with lastCounter := rx })

/-! ## Offsets and bytes -/

theorem Covers.add_toNat {offset headerLen : UInt64} {data : List UInt8}
    (h : Covers offset headerLen data) {k : UInt64} (hk : k.toNat ≤ headerLen.toNat) :
    (offset + k).toNat = offset.toNat + k.toNat := by
  have hheader := h.header
  have hsize := h.sizeT
  rw [UInt64.toNat_add, Nat.mod_eq_of_lt (by omega)]

/-- A PDU that covers the header passes the length check. -/
theorem Covers.not_short {offset headerLen : UInt64} {data : List UInt8}
    (h : Covers offset headerLen data) : ¬ data.length < (offset + headerLen).toNat := by
  rw [h.add_toNat (Nat.le_refl _)]
  exact Nat.not_lt.2 h.header

theorem Covers.of_length_eq {offset headerLen : UInt64} {data changed : List UInt8}
    (h : Covers offset headerLen data) (hlength : changed.length = data.length) :
    Covers offset headerLen changed := by
  refine ⟨?_, ?_⟩
  · rw [hlength]
    exact h.header
  · rw [hlength]
    exact h.sizeT

theorem Covers.set {offset headerLen : UInt64} {data : List UInt8}
    (h : Covers offset headerLen data) (i : Nat) (byte : UInt8) :
    Covers offset headerLen (data.set i byte) :=
  h.of_length_eq List.length_set

theorem Covers.p05CrcHigh {offset : UInt64} {data : List UInt8}
    (h : Covers offset kP05HeaderLen data) : (offset + 1).toNat = offset.toNat + 1 :=
  h.add_toNat (by decide)

theorem Covers.p05Counter {offset : UInt64} {data : List UInt8}
    (h : Covers offset kP05HeaderLen data) :
    (offset + kP05CounterPos).toNat = offset.toNat + 2 :=
  h.add_toNat (by decide)

theorem Covers.p11Counter {offset : UInt64} {data : List UInt8}
    (h : Covers offset kP11HeaderLen data) : (offset + 1).toNat = offset.toNat + 1 :=
  h.add_toNat (by decide)

theorem byteAt_set_self {data : List UInt8} {pos : UInt64} (h : pos.toNat < data.length)
    (byte : UInt8) : byteAt (data.set pos.toNat byte) pos = byte := by
  rw [byteAt, List.getD_eq_getElem?_getD, List.getElem?_set_self h, Option.getD_some]

theorem byteAt_set_ne {data : List UInt8} {pos : UInt64} {i : Nat} (h : i ≠ pos.toNat)
    (byte : UInt8) : byteAt (data.set i byte) pos = byteAt data pos := by
  rw [byteAt, byteAt, List.getD_eq_getElem?_getD, List.getElem?_set_ne h,
    ← List.getD_eq_getElem?_getD]

theorem lowByte_toNat (x : UInt16) : (x &&& 0xFF).toUInt8.toNat = x.toNat % 256 := by
  rw [UInt16.toNat_toUInt8, UInt16.toNat_and]
  change (x.toNat &&& (2 ^ 8 - 1)) % 2 ^ 8 = _
  rw [Nat.and_two_pow_sub_one_eq_mod, Nat.mod_mod]

theorem highByte_toNat (x : UInt16) : ((x >>> 8) &&& 0xFF).toUInt8.toNat = x.toNat / 256 := by
  have hlt := x.toNat_lt
  rw [lowByte_toNat, UInt16.toNat_shiftRight]
  change x.toNat >>> 8 % 256 = _
  rw [Nat.shiftRight_eq_div_pow]
  omega

theorem joinBytes (lo hi : UInt8) :
    (lo.toUInt16 ||| (hi.toUInt16 <<< 8)).toNat = 256 * hi.toNat + lo.toNat := by
  have hlo : lo.toNat < 2 ^ 8 := lo.toNat_lt
  have hhi := hi.toNat_lt
  rw [UInt16.toNat_or, UInt16.toNat_shiftLeft, UInt8.toNat_toUInt16, UInt8.toNat_toUInt16]
  change lo.toNat ||| hi.toNat <<< 8 % 65536 = _
  rw [Nat.shiftLeft_eq, Nat.mod_eq_of_lt (by omega), Nat.or_comm, Nat.mul_comm,
    ← Nat.two_pow_add_eq_or_of_lt hlo]

theorem joinBytes_lowByte_highByte (x : UInt16) :
    (x &&& 0xFF).toUInt8.toUInt16 ||| (((x >>> 8) &&& 0xFF).toUInt8.toUInt16 <<< 8) = x := by
  apply UInt16.toNat_inj.1
  rw [joinBytes, highByte_toNat, lowByte_toNat]
  omega

/-! ## What Profile 5 seals -/

/-- A PDU as `protect` leaves it. -/
structure Sealed05 (cfg : Profile05Config) (counter : UInt8) (data : List UInt8) : Prop where
  covers : Covers cfg.offset kP05HeaderLen data
  crc : storedCrc data cfg = computeCrc data cfg
  counter : byteAt data (cfg.offset + kP05CounterPos) = counter

/-- The CRC field is not covered by the CRC. -/
theorem covered05_set {cfg : Profile05Config} {data : List UInt8}
    (h : Covers cfg.offset kP05HeaderLen data) {i : Nat} (hle : cfg.offset.toNat ≤ i)
    (hlt : i < cfg.offset.toNat + 2) (byte : UInt8) :
    covered05 (data.set i byte) cfg = covered05 data cfg := by
  have hout : (data.take cfg.offset.toNat).length ≤ i :=
    le_trans (List.length_take_le _ _) hle
  rw [covered05, covered05, List.take_set, List.set_eq_of_length_le hout, h.p05Counter,
    List.drop_set_of_lt hlt]

/-- Writing a CRC that was computed before makes it the stored and the computed one. -/
theorem storedCrc_set {cfg : Profile05Config} {data : List UInt8}
    (h : Covers cfg.offset kP05HeaderLen data) :
    let crc := computeCrc data cfg
    let out := (data.set cfg.offset.toNat (crc &&& 0xFF).toUInt8).set (cfg.offset + 1).toNat
      ((crc >>> 8) &&& 0xFF).toUInt8
    storedCrc out cfg = crc ∧ computeCrc out cfg = crc := by
  intro crc out
  have hheader : cfg.offset.toNat + 3 ≤ data.length := h.header
  have hpos := h.p05CrcHigh
  refine ⟨?_, ?_⟩
  · rw [storedCrc, byteAt_set_self (by rw [List.length_set]; omega), byteAt_set_ne (by omega),
      byteAt_set_self (by omega), joinBytes_lowByte_highByte]
  · rw [computeCrc, covered05_set (h.set _ _) (by omega) (by omega),
      covered05_set h (by omega) (by omega)]
    rfl

theorem Profile05Protector.protect_sealed {p : Profile05Protector} {data : List UInt8}
    (h : Covers p.config.offset kP05HeaderLen data) :
    ∃ out, p.protect data = .ok (out, { p with counter := p.counter + 1 }) ∧
      Sealed05 p.config (p.counter + 1) out := by
  have hheader : p.config.offset.toNat + 3 ≤ data.length := h.header
  have hpos1 := h.p05CrcHigh
  have hpos2 := h.p05Counter
  have hcounted := h.set (p.config.offset + kP05CounterPos).toNat (p.counter + 1)
  obtain ⟨hstored, hcomputed⟩ := storedCrc_set hcounted
  rw [protect, if_neg h.not_short]
  refine ⟨_, rfl, (hcounted.set _ _).set _ _, hstored.trans hcomputed.symm, ?_⟩
  rw [byteAt_set_ne (by omega), byteAt_set_ne (by omega), byteAt_set_self (by omega)]

theorem Profile05Checker.check_of_sealed {c : Profile05Checker} {counter : UInt8}
    {data : List UInt8} (h : Sealed05 c.config counter data) :
    c.check data =
      .ok (if c.haveLast then classifyCounter (counter - c.lastCounter) c.config.maxDeltaCounter
        else .kOk, { c with haveLast := true, lastCounter := counter }) := by
  rw [check, if_neg h.covers.not_short, if_neg (not_not.2 h.crc), h.counter]
  cases c with
  | mk config lastCounter haveLast => cases haveLast <;> rfl

/-! ## What Profile 11 seals -/

structure Sealed11 (cfg : Profile11Config) (counter : UInt8) (data : List UInt8) : Prop where
  covers : Covers cfg.offset kP11HeaderLen data
  crc : byteAt data cfg.offset = computeP11Crc data cfg
  counter : byteAt data (cfg.offset + 1) &&& 0x0F = counter

theorem and_lowNibble_toNat (byte : UInt8) : (byte &&& 0x0F).toNat = byte.toNat % 16 := by
  rw [UInt8.toNat_and]
  change byte.toNat &&& (2 ^ 4 - 1) = _
  rw [Nat.and_two_pow_sub_one_eq_mod]

theorem or_and_lowNibble (a b : UInt8) :
    (a ||| b) &&& 0x0F = (a &&& 0x0F) ||| (b &&& 0x0F) :=
  UInt8.toBitVec_inj.1 BitVec.and_or_distrib_right

/-- The low nibble of the second header byte is the counter, in either mode. -/
theorem p11HeaderByte_and_lowNibble (cfg : Profile11Config) {counter : UInt8}
    (hcounter : counter.toNat < 16) (old : UInt8) :
    p11HeaderByte cfg counter old &&& 0x0F = counter := by
  have hlow : counter &&& 0x0F = counter := by
    apply UInt8.toNat_inj.1
    rw [and_lowNibble_toNat, Nat.mod_eq_of_lt hcounter]
  have hbyte : ((old &&& 0xF0) ||| counter) &&& 0x0F = counter := by
    rw [or_and_lowNibble, UInt8.and_assoc, hlow]
    change (old &&& 0) ||| counter = counter
    rw [UInt8.and_zero, UInt8.zero_or]
  rw [p11HeaderByte]
  cases cfg.dataIdMode with
  | kBoth => exact hbyte
  | kNibble =>
    have hnibble : (((cfg.dataId >>> 8) &&& 0x0F).toUInt8 <<< (4 : UInt8)) &&& 0x0F = 0 := by
      apply UInt8.toNat_inj.1
      rw [and_lowNibble_toNat, UInt8.toNat_shiftLeft]
      change _ <<< 4 % 256 % 16 = 0
      rw [Nat.shiftLeft_eq]
      omega
    simp only
    rw [hbyte, or_and_lowNibble, hlow, hnibble, UInt8.or_zero]

theorem computeP11Crc_set {cfg : Profile11Config} {data : List UInt8}
    (h : Covers cfg.offset kP11HeaderLen data) (byte : UInt8) :
    computeP11Crc (data.set cfg.offset.toNat byte) cfg = computeP11Crc data cfg := by
  have hpos := h.p11Counter
  have htake : (data.set cfg.offset.toNat byte).take cfg.offset.toNat =
      data.take cfg.offset.toNat := by
    rw [List.take_set, List.set_eq_of_length_le (List.length_take_le _ _)]
  have hdrop : (data.set cfg.offset.toNat byte).drop (cfg.offset + 1).toNat =
      data.drop (cfg.offset + 1).toNat := List.drop_set_of_lt (by omega)
  rw [computeP11Crc, htake, hdrop, List.length_set]
  rfl

theorem Profile11Protector.protect_sealed {p : Profile11Protector} {data : List UInt8}
    (h : Covers p.config.offset kP11HeaderLen data) :
    ∃ out, p.protect data =
        .ok (out, { p with counter := UInt8.ofNat ((p.counter.toNat + 1) % kP11CounterModulus) }) ∧
      Sealed11 p.config (UInt8.ofNat ((p.counter.toNat + 1) % kP11CounterModulus)) out := by
  have hheader : p.config.offset.toNat + 2 ≤ data.length := h.header
  have hpos := h.p11Counter
  have hcounter : (UInt8.ofNat ((p.counter.toNat + 1) % kP11CounterModulus)).toNat < 16 := by
    rw [UInt8.toNat_ofNat', kP11CounterModulus]
    omega
  have hcounted := h.set (p.config.offset + 1).toNat (p11HeaderByte p.config
    (UInt8.ofNat ((p.counter.toNat + 1) % kP11CounterModulus)) (byteAt data (p.config.offset + 1)))
  rw [protect, if_neg h.not_short]
  refine ⟨_, rfl, hcounted.set _ _, ?_, ?_⟩
  · rw [byteAt_set_self (by rw [List.length_set]; omega), computeP11Crc_set hcounted]
  · rw [byteAt_set_ne (by omega), byteAt_set_self (by omega),
      p11HeaderByte_and_lowNibble p.config hcounter]

theorem Profile11Checker.check_of_sealed {c : Profile11Checker} {counter : UInt8}
    {data : List UInt8} (h : Sealed11 c.config counter data) :
    c.check data =
      .ok (if c.haveLast then
          classifyCounter (UInt8.ofNat ((counter.toNat + kP11CounterModulus - c.lastCounter.toNat) %
            kP11CounterModulus)) c.config.maxDeltaCounter
        else .kOk, { c with haveLast := true, lastCounter := counter }) := by
  rw [check, if_neg h.covers.not_short, if_neg (not_not.2 h.crc), h.counter]
  cases c with
  | mk config lastCounter haveLast => cases haveLast <;> rfl

end Tc8Harness.Autosar
