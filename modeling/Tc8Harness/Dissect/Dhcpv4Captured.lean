import Tc8Harness.Dissect.Pipeline
import Tc8Harness.Lib.Tlv

/-!
# What a captured DHCP message says

The option predicates of `src/sce_integration/include/sce_integration/dhcpv4_captured.h`, read off the
frame the capture was filled from, and what the loops over the options see: the items of one parse
(`walkDhcpOptions_eq`, `optionAbsent_eq`, `optionBe32Equals_eq`).
-/

namespace Tc8Harness.Dissect

open Wire

/-- The items of an options area and how it ends: PAD stands alone, END ends it. -/
def dhcpItems (options : List UInt8) : List (UInt8 × List UInt8) × Tlv.Stop :=
  Tlv.parse 0x00 0xFF options.length options

namespace Dhcpv4Frame

variable (f : Dhcpv4Frame)

def hasMessageTypeOption : Bool := f.messageType.isSome

def endsWithEndOption : Bool := f.lastOptionIsEnd

def flagsReservedBitsZero : Bool := f.flags &&& 0xFFFE == 0

def sourceIpIsZero : Bool := f.srcIp == 0

def dstIpIsBroadcast : Bool := f.dstIp == 0xFFFFFFFF

def ciaddrIsZero : Bool := f.ciaddr == 0

def isDhcpDiscover : Bool :=
  f.op == 1 && f.magicCookieValid && f.hasMessageTypeOption && f.messageType.getD 0 == 1

/-- Absent means: not there, and the list ended with END. -/
def optionAbsent (code : UInt8) : Bool :=
  Tlv.walk 0x00 0xFF (fun c _ => if c = code then some false else none) true false f.options
    f.options.length 0

/-- The first option of the code has four bytes, those of the address. -/
def optionBe32Equals (code : UInt8) (expectedBe : UInt32) : Bool :=
  Tlv.walk 0x00 0xFF
    (fun c value =>
      if c = code then some (decide (value.length = 4) && copy32 value 0 == expectedBe) else none)
    false false f.options f.options.length 0

theorem optionAbsent_eq (code : UInt8) :
    f.optionAbsent code =
      Tlv.outcome (fun c _ => if c = code then some false else none) true false
        (dhcpItems f.options) := by
  rw [optionAbsent, Tlv.walk_eq, List.drop_zero]
  rfl

theorem optionBe32Equals_eq (code : UInt8) (expectedBe : UInt32) :
    f.optionBe32Equals code expectedBe =
      Tlv.outcome
        (fun c value =>
          if c = code then some (decide (value.length = 4) && copy32 value 0 == expectedBe) else none)
        false false (dhcpItems f.options) := by
  rw [optionBe32Equals, Tlv.walk_eq, List.drop_zero]
  rfl

end Dhcpv4Frame

/-- What is kept of the DISCOVER while its REQUEST is waited for. -/
structure DiscoverSnapshot where
  secs : UInt16 := 0
  xid : UInt32 := 0
  paramRequestList : Vector UInt8 256 := .replicate 256 0
  paramRequestListLen : UInt8 := 0
  paramRequestListPresent : Bool := false
  taken : Bool := false
  deriving DecidableEq, Repr

namespace DiscoverSnapshot

variable (s : DiscoverSnapshot) (f : Dhcpv4Frame)

/-- Option 55 copied into the array, as far as it has room. -/
def copyList (value : List UInt8) : DiscoverSnapshot :=
  let cap := min value.length 256
  { s with
    paramRequestListPresent := true
    paramRequestListLen := UInt8.ofNat cap
    paramRequestList := .ofFn fun j => if j.val < cap then value.getD j.val 0 else s.paramRequestList[j] }

def snapshotDiscoverFields : DiscoverSnapshot :=
  let s :=
    { s with
      secs := f.secs, xid := f.xid, paramRequestListLen := 0, paramRequestListPresent := false }
  let s := Tlv.walk 0x00 0xFF (fun c value => if c = 55 then some (s.copyList value) else none) s s
    f.options f.options.length 0
  { s with taken := true }

def optionParamRequestListMatchesDiscover : Bool :=
  if s.taken = false then false
  else if s.paramRequestListPresent = false then true
  else
    Tlv.walk 0x00 0xFF
      (fun c value =>
        if c = 55 then
          some (decide (value.length = s.paramRequestListLen.toNat) &&
            (List.range value.length).all fun j =>
              value.getD j 0 == s.paramRequestList.toList.getD j 0)
        else none)
      false false f.options f.options.length 0

end DiscoverSnapshot

/-- The Message Type an item sets. -/
def messageTypeStep (messageType : Option UInt8) (it : UInt8 × List UInt8) : Option UInt8 :=
  if it.1 = 53 ∧ it.2.length = 1 then some (it.2.getD 0 0) else messageType

theorem messageTypeStep_at {options : List UInt8} {i len : Nat} (h : i + 2 + len ≤ options.length)
    (messageType : Option UInt8) (code : UInt8) :
    messageTypeStep messageType (code, (options.drop (i + 2)).take len) =
      if code = 53 ∧ len = 1 then some (options.getD (i + 2) 0) else messageType := by
  have hlen : ((options.drop (i + 2)).take len).length = len := by
    rw [List.length_take, List.length_drop]
    omega
  rw [messageTypeStep, hlen]
  by_cases htype : code = 53 ∧ len = 1
  · obtain ⟨rfl, rfl⟩ := htype
    simp [List.getD_eq_getElem?_getD]
  · rw [if_neg htype, if_neg htype]

/-- The pipeline's loop over the options sees the items of the parse. -/
theorem walkDhcpOptions_eq (options : List UInt8) (steps i : Nat) (messageType : Option UInt8) :
    walkDhcpOptions options steps i messageType =
      ((Tlv.parse 0x00 0xFF steps (options.drop i)).1.foldl messageTypeStep messageType,
        decide ((Tlv.parse 0x00 0xFF steps (options.drop i)).2 = .marker)) := by
  induction steps generalizing i messageType with
  | zero => rfl
  | succ steps ih =>
    rw [walkDhcpOptions, Tlv.parse_drop]
    dsimp only
    split_ifs with hi hfin hpad hone hover htype
    · rfl
    · rfl
    · exact ih (i + 1) messageType
    · rfl
    · rfl
    · rw [ih, List.foldl_cons, messageTypeStep_at (Nat.le_of_not_lt hover), if_pos htype]
    · rw [ih, List.foldl_cons, messageTypeStep_at (Nat.le_of_not_lt hover), if_neg htype]

theorem walkDhcpOptions_dhcpv4FrameFrom (uf : UdpFrame) (bp : List UInt8) :
    walkDhcpOptions (dhcpv4FrameFrom uf bp).options (dhcpv4FrameFrom uf bp).options.length 0 none =
      ((dhcpv4FrameFrom uf bp).messageType, (dhcpv4FrameFrom uf bp).lastOptionIsEnd) := rfl

end Tc8Harness.Dissect
