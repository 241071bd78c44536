import Tc8Harness.Lib.Json

/-!
# The trace as JSON

`TestRunner::dumpTraceJson` of `src/sce_integration/include/sce_integration/test_runner.h`, with
`appendJsonEscaped`, `appendUintJson` and `appendU64Json` of `captured_trace.h` and the records it reads
(`tc8/capture_stats.h`, `tc8/dissection_stats.h`). The names are bytes here, as the source holds them.

The source appends to one string; each definition below is what one piece of it appends. The text is
shown to be an object of the grammar by giving its members (`CaptureRecord.members` and the others).
-/

namespace Tc8Harness.Sce

open Rfc8259

/-- A string literal of the source. -/
def lit (s : String) : List UInt8 := s.toList.map fun c => UInt8.ofNat c.toNat

/-! ## The records -/

/-- `CaptureStats`. -/
structure CaptureRecord where
  iface : List UInt8
  available : Bool := false
  framesReceived : UInt32 := 0
  framesDroppedRing : UInt32 := 0
  framesDroppedIface : UInt32 := 0
  multicastGroups : List (List UInt8) := []
  multicastGroupsFailed : List (List UInt8) := []

def CaptureRecord.multicastMembershipHeld (cs : CaptureRecord) : Bool :=
  cs.multicastGroupsFailed.isEmpty

/-- `DissectionStats`. -/
structure DissectionRecord where
  framesSeen : UInt64 := 0
  framesTruncated : UInt64 := 0
  framesUndissectable : UInt64 := 0
  framesUndissectablePossiblyDut : UInt64 := 0
  firstUndissectableFrame : Option UInt64 := none
  firstUndissectableReason : List UInt8 := []
  consumerFaults : UInt64 := 0
  firstConsumerFaultFrame : Option UInt64 := none
  firstConsumerFaultReason : List UInt8 := []

/-- `TransitionStep`, less its clock reading. -/
structure StepRecord where
  stepIdx : Int
  eventName : List UInt8
  fromStateName : List UInt8
  toStateName : List UInt8
  pcapFrameIdx : Int
  capturedJson : List UInt8

/-- What a runner's dump reads. -/
structure TraceRecord where
  finalState : List UInt8
  captureStats : List CaptureRecord
  dissectionStats : DissectionRecord
  trace : List StepRecord

/-! ## The dump -/

def hexDigit (n : Nat) : UInt8 :=
  if n < 10 then 0x30 + UInt8.ofNat n else 0x61 + UInt8.ofNat (n - 10)

def escapeByte (c : UInt8) : List UInt8 :=
  if c = 0x22 then lit "\\\""
  else if c = 0x5C then lit "\\\\"
  else if c = 0x0A then lit "\\n"
  else if c = 0x0D then lit "\\r"
  else if c = 0x09 then lit "\\t"
  else if c < 0x20 then
    -- "\\u%04x" of a byte
    lit "\\u00" ++ [hexDigit (c.toNat / 16), hexDigit (c.toNat % 16)]
  else [c]

/-- `appendJsonEscaped`. -/
def jsonEscaped (s : List UInt8) : List UInt8 := s.flatMap escapeByte

/-- `appendUintJson`. -/
def uintJson (key : String) (v : UInt32) : List UInt8 := lit key ++ decimalText v.toNat

/-- `appendU64Json`. -/
def u64Json (key : String) (v : UInt64) : List UInt8 := lit key ++ decimalText v.toNat

def boolJson (b : Bool) : List UInt8 := if b then lit "true" else lit "false"

/-- A loop that appends a comma before every element but the first. -/
def listed {α : Type} (f : α → List UInt8) (xs : List α) : List UInt8 :=
  (xs.mapIdx fun i x => (if i ≠ 0 then lit "," else []) ++ f x).flatten

def quotedJson (s : List UInt8) : List UInt8 := lit "\"" ++ jsonEscaped s ++ lit "\""

def captureJson (cs : CaptureRecord) : List UInt8 :=
  lit "\x7b\"iface\":\"" ++ jsonEscaped cs.iface ++ lit "\",\"available\":" ++ boolJson cs.available ++
  (if cs.available then
    uintJson ",\"frames_received\":" cs.framesReceived ++
    uintJson ",\"frames_dropped_ring\":" cs.framesDroppedRing ++
    uintJson ",\"frames_dropped_iface\":" cs.framesDroppedIface
  else []) ++
  (if !cs.multicastGroups.isEmpty then
    lit ",\"multicast_groups\":[" ++ listed quotedJson cs.multicastGroups ++
    lit "],\"multicast_membership_held\":" ++ boolJson cs.multicastMembershipHeld ++
    (if !cs.multicastGroupsFailed.isEmpty then
      lit ",\"multicast_groups_failed\":[" ++ listed quotedJson cs.multicastGroupsFailed ++ lit "]"
    else [])
  else []) ++
  lit "\x7d"

/-- A first frame and its reason, where there is one. -/
def firstFrameJson (frameKey reasonKey : String) (reason : List UInt8) : Option UInt64 → List UInt8
  | some frame => u64Json frameKey frame ++ lit reasonKey ++ jsonEscaped reason ++ lit "\""
  | none => []

def dissectionJson (ds : DissectionRecord) : List UInt8 :=
  lit "\x7b" ++ u64Json "\"frames_seen\":" ds.framesSeen ++
  u64Json ",\"frames_truncated\":" ds.framesTruncated ++
  u64Json ",\"frames_undissectable\":" ds.framesUndissectable ++
  u64Json ",\"frames_undissectable_possibly_dut\":" ds.framesUndissectablePossiblyDut ++
  firstFrameJson ",\"first_undissectable_frame\":" ",\"first_undissectable_reason\":\""
    ds.firstUndissectableReason ds.firstUndissectableFrame ++
  u64Json ",\"consumer_faults\":" ds.consumerFaults ++
  firstFrameJson ",\"first_consumer_fault_frame\":" ",\"first_consumer_fault_reason\":\""
    ds.firstConsumerFaultReason ds.firstConsumerFaultFrame ++
  lit "\x7d"

def stepJson (s : StepRecord) : List UInt8 :=
  lit "\x7b\"step\":" ++ intText s.stepIdx ++
  lit ",\"event\":\"" ++ jsonEscaped s.eventName ++
  lit "\",\"from_state\":\"" ++ jsonEscaped s.fromStateName ++
  lit "\",\"to_state\":\"" ++ jsonEscaped s.toStateName ++
  lit "\",\"pcap_frame_idx\":" ++ (if s.pcapFrameIdx ≥ 0 then intText s.pcapFrameIdx else lit "null") ++
  lit ",\"captured_delta\":" ++ s.capturedJson ++ lit "\x7d"

def dumpTraceJson (t : TraceRecord) : List UInt8 :=
  lit "\x7b\"schema_version\":3" ++
  lit ",\"final_state\":\"" ++ jsonEscaped t.finalState ++
  lit "\",\"capture\":[" ++ listed captureJson t.captureStats ++
  lit "],\"dissection\":" ++ dissectionJson t.dissectionStats ++
  lit ",\"steps\":[" ++ listed stepJson t.trace ++ lit "]\x7d"

/-! ## Its pieces -/

theorem listed_eq {α : Type} (f : α → List UInt8) (xs : List α) :
    listed f xs = separated (xs.map f) := by
  cases xs with
  | nil => rfl
  | cons x xs =>
    have hrest : (xs.mapIdx fun i y => (if i + 1 ≠ 0 then lit "," else []) ++ f y) =
        xs.map fun y => 0x2C :: f y := by
      apply List.ext_getElem (by simp)
      intro i hi hi'
      simp only [List.getElem_mapIdx, List.getElem_map, ne_eq, Nat.add_eq_zero_iff, one_ne_zero,
        and_false, not_false_eq_true, if_true]
      rfl
    rw [listed, List.mapIdx_cons, hrest, List.map_cons, separated, List.flatMap_map]
    rfl

theorem chars_escapeByte (c : UInt8) : Chars (escapeByte c) [c.toUInt16] := by
  have hhex : ∀ n < 0x20, hexCode [0x30, 0x30, hexDigit (n / 16), hexDigit (n % 16)] =
      some (UInt8.ofNat n).toUInt16 := by decide
  unfold escapeByte
  split_ifs with hquote hslash hn hr ht hctl
  · subst hquote
    exact .escape rfl .nil
  · subst hslash
    exact .escape rfl .nil
  · subst hn
    exact .escape rfl .nil
  · subst hr
    exact .escape rfl .nil
  · subst ht
    exact .escape rfl .nil
  · have hcode := hhex c.toNat (UInt8.lt_iff_toNat_lt.1 hctl)
    rw [UInt8.ofNat_toNat] at hcode
    exact .unicode (t := []) rfl hcode .nil
  · exact .plain (UInt8.not_lt.1 hctl) hquote hslash .nil

/-- The escaped text of a byte string is the body of a string that denotes it. -/
theorem chars_jsonEscaped (s : List UInt8) : Chars (jsonEscaped s) (codes s) := by
  induction s with
  | nil => exact .nil
  | cons c s ih => exact (chars_escapeByte c).append ih

/-- The value of a byte string. -/
def stringValue (s : List UInt8) : Json := .string (codes s)

def numberValue (n : Nat) : Json := .number (decimalText n)

theorem value_quotedJson (s : List UInt8) : Value (quotedJson s) (stringValue s) :=
  .string (chars_jsonEscaped s)

theorem value_boolJson (b : Bool) : Value (boolJson b) (.bool b) := by
  cases b
  · exact .false
  · exact .true

theorem value_decimalText (n : Nat) : Value (decimalText n) (numberValue n) :=
  .number (isNumber_decimalText n)

def arrayJson {α : Type} (f : α → List UInt8) (xs : List α) : List UInt8 :=
  lit "[" ++ listed f xs ++ lit "]"

theorem value_arrayJson {α : Type} {f : α → List UInt8} {xs : List α} {values : List Json}
    (h : List.Forall₂ (fun x v => Value (f x) v) xs values) :
    Value (arrayJson f xs) (.array values) := by
  have htexts : List.Forall₂ Value (xs.map f) values := List.forall₂_map_left_iff.2 h
  rw [arrayJson, listed_eq]
  exact .array_of_texts htexts

theorem value_stringsJson (xs : List (List UInt8)) :
    Value (arrayJson quotedJson xs) (.array (xs.map stringValue)) :=
  value_arrayJson (List.forall₂_map_right_iff.2 (List.forall₂_same.2 fun s _ => value_quotedJson s))

/-! ## Members -/

/-- A member with a bare item. -/
def entry (name : String) (text : List UInt8) (value : Json) : Member where
  name := lit name
  chars := codes (lit name)
  item := { text, value }

/-- The member can stand in an object. -/
structure Writes (m : Member) : Prop where
  spaced : m.Spaced
  name : Chars m.name m.chars
  value : Value m.item.text m.item.value

/-- No byte of the name needs an escape. -/
def Plain (name : String) : Prop := ∀ b ∈ lit name, 0x20 ≤ b ∧ b ≠ 0x22 ∧ b ≠ 0x5C

instance (name : String) : Decidable (Plain name) :=
  List.decidableBAll (fun b => 0x20 ≤ b ∧ b ≠ 0x22 ∧ b ≠ 0x5C) (lit name)

theorem writes_entry {name : String} (hname : Plain name) {text : List UInt8} {value : Json}
    (h : Value text value) : Writes (entry name text value) where
  spaced := ⟨fun _ hb => absurd hb List.not_mem_nil, fun _ hb => absurd hb List.not_mem_nil,
    spaced_bare text value⟩
  name := chars_of_plain hname
  value := h

def objectJson (members : List Member) : List UInt8 :=
  lit "\x7b" ++ separated (members.map Member.full) ++ lit "\x7d"

def objectValue (members : List Member) : Json :=
  .object (members.map fun m => (m.chars, m.item.value))

theorem value_objectJson {m : Member} {ms : List Member} (h : ∀ x ∈ m :: ms, Writes x) :
    Value (objectJson (m :: ms)) (objectValue (m :: ms)) :=
  .object (List.cons_ne_nil m ms) (fun x hx => (h x hx).spaced) (fun x hx => (h x hx).name)
    fun x hx => (h x hx).value

/-- Members that follow another one. -/
def further (members : List Member) : List UInt8 := members.flatMap fun m => 0x2C :: m.full

theorem further_append (ms ms' : List Member) : further (ms ++ ms') = further ms ++ further ms' :=
  List.flatMap_append

theorem objectJson_cons (m : Member) (ms : List Member) :
    objectJson (m :: ms) = lit "\x7b" ++ m.full ++ further ms ++ lit "\x7d" := by
  simp only [objectJson, further, separated, List.map_cons, List.flatMap_map, List.append_assoc]

/-! ## The objects of the trace -/

/-- The counters, where they mean something. -/
def CaptureRecord.counters (cs : CaptureRecord) : List Member :=
  if cs.available then
    [entry "frames_received" (decimalText cs.framesReceived.toNat) (numberValue cs.framesReceived.toNat),
      entry "frames_dropped_ring" (decimalText cs.framesDroppedRing.toNat)
        (numberValue cs.framesDroppedRing.toNat),
      entry "frames_dropped_iface" (decimalText cs.framesDroppedIface.toNat)
        (numberValue cs.framesDroppedIface.toNat)]
  else []

/-- The multicast delivery, where the run needed a group. -/
def CaptureRecord.multicast (cs : CaptureRecord) : List Member :=
  if !cs.multicastGroups.isEmpty then
    entry "multicast_groups" (arrayJson quotedJson cs.multicastGroups)
      (.array (cs.multicastGroups.map stringValue)) ::
    entry "multicast_membership_held" (boolJson cs.multicastMembershipHeld)
      (.bool cs.multicastMembershipHeld) ::
    if !cs.multicastGroupsFailed.isEmpty then
      [entry "multicast_groups_failed" (arrayJson quotedJson cs.multicastGroupsFailed)
        (.array (cs.multicastGroupsFailed.map stringValue))]
    else []
  else []

def CaptureRecord.members (cs : CaptureRecord) : List Member :=
  entry "iface" (quotedJson cs.iface) (stringValue cs.iface) ::
  entry "available" (boolJson cs.available) (.bool cs.available) :: (cs.counters ++ cs.multicast)

theorem further_counters (cs : CaptureRecord) : further cs.counters =
    if cs.available then
      uintJson ",\"frames_received\":" cs.framesReceived ++
      uintJson ",\"frames_dropped_ring\":" cs.framesDroppedRing ++
      uintJson ",\"frames_dropped_iface\":" cs.framesDroppedIface
    else [] := by
  unfold CaptureRecord.counters
  cases cs.available
  · rfl
  · simp only [further, List.flatMap_cons, List.flatMap_nil, List.append_assoc, List.append_nil,
      List.cons_append, List.nil_append, if_true, Member.full, entry, Rfc8259.Item.full, uintJson]
    rfl

theorem further_multicast (cs : CaptureRecord) : further cs.multicast =
    if !cs.multicastGroups.isEmpty then
      lit ",\"multicast_groups\":[" ++ listed quotedJson cs.multicastGroups ++
      lit "],\"multicast_membership_held\":" ++ boolJson cs.multicastMembershipHeld ++
      (if !cs.multicastGroupsFailed.isEmpty then
        lit ",\"multicast_groups_failed\":[" ++ listed quotedJson cs.multicastGroupsFailed ++ lit "]"
      else [])
    else [] := by
  unfold CaptureRecord.multicast
  cases !cs.multicastGroups.isEmpty
  · rfl
  · cases !cs.multicastGroupsFailed.isEmpty <;>
      simp only [further, List.flatMap_cons, List.flatMap_nil, List.append_assoc, List.append_nil,
        List.cons_append, List.nil_append, if_true, if_false, Bool.false_eq_true, Member.full, entry,
        Rfc8259.Item.full, arrayJson] <;>
      rfl

theorem captureJson_eq (cs : CaptureRecord) : captureJson cs = objectJson cs.members := by
  have hfirst : lit "\x7b\"iface\":\"" ++ (jsonEscaped cs.iface ++ (lit "\",\"available\":" ++
      boolJson cs.available)) =
      lit "\x7b" ++ (entry "iface" (quotedJson cs.iface) (stringValue cs.iface)).full ++
        0x2C :: (entry "available" (boolJson cs.available) (.bool cs.available)).full := by
    simp only [List.append_assoc, List.append_nil, List.cons_append, List.nil_append, Member.full, entry,
      Rfc8259.Item.full, quotedJson]
    rfl
  have hrest : further (entry "available" (boolJson cs.available) (.bool cs.available) ::
      (cs.counters ++ cs.multicast)) =
      0x2C :: (entry "available" (boolJson cs.available) (.bool cs.available)).full ++
        (further cs.counters ++ further cs.multicast) := by
    rw [← further_append, further, List.flatMap_cons, ← further]
  rw [CaptureRecord.members, objectJson_cons, hrest, ← List.append_assoc, ← hfirst, further_counters,
    further_multicast, captureJson]
  simp only [List.append_assoc]

theorem writes_number {name : String} (hname : Plain name) (n : Nat) :
    Writes (entry name (decimalText n) (numberValue n)) := writes_entry hname (value_decimalText n)

theorem writes_string {name : String} (hname : Plain name) (s : List UInt8) :
    Writes (entry name (quotedJson s) (stringValue s)) := writes_entry hname (value_quotedJson s)

theorem writes_bool {name : String} (hname : Plain name) (b : Bool) :
    Writes (entry name (boolJson b) (.bool b)) := writes_entry hname (value_boolJson b)

theorem writes_strings {name : String} (hname : Plain name) (xs : List (List UInt8)) :
    Writes (entry name (arrayJson quotedJson xs) (.array (xs.map stringValue))) :=
  writes_entry hname (value_stringsJson xs)

theorem CaptureRecord.writes_counters (cs : CaptureRecord) : ∀ m ∈ cs.counters, Writes m := by
  unfold counters
  split
  · simp only [List.forall_mem_cons]
    exact ⟨writes_number (by decide) _, writes_number (by decide) _, writes_number (by decide) _, by simp⟩
  · simp

theorem CaptureRecord.writes_multicast (cs : CaptureRecord) : ∀ m ∈ cs.multicast, Writes m := by
  unfold multicast
  split
  · refine List.forall_mem_cons.2 ⟨writes_strings (by decide) _, List.forall_mem_cons.2
      ⟨writes_bool (by decide) _, ?_⟩⟩
    split
    · exact List.forall_mem_singleton.2 (writes_strings (by decide) _)
    · simp
  · simp

theorem CaptureRecord.writes (cs : CaptureRecord) : ∀ m ∈ cs.members, Writes m := by
  unfold members
  exact List.forall_mem_cons.2 ⟨writes_string (by decide) _, List.forall_mem_cons.2
    ⟨writes_bool (by decide) _, List.forall_mem_append.2 ⟨cs.writes_counters, cs.writes_multicast⟩⟩⟩

def firstFrameMembers (frameName reasonName : String) (reason : List UInt8) :
    Option UInt64 → List Member
  | some frame => [entry frameName (decimalText frame.toNat) (numberValue frame.toNat),
      entry reasonName (quotedJson reason) (stringValue reason)]
  | none => []

def DissectionRecord.members (ds : DissectionRecord) : List Member :=
  entry "frames_seen" (decimalText ds.framesSeen.toNat) (numberValue ds.framesSeen.toNat) ::
  entry "frames_truncated" (decimalText ds.framesTruncated.toNat) (numberValue ds.framesTruncated.toNat) ::
  entry "frames_undissectable" (decimalText ds.framesUndissectable.toNat)
    (numberValue ds.framesUndissectable.toNat) ::
  entry "frames_undissectable_possibly_dut" (decimalText ds.framesUndissectablePossiblyDut.toNat)
    (numberValue ds.framesUndissectablePossiblyDut.toNat) ::
  (firstFrameMembers "first_undissectable_frame" "first_undissectable_reason"
    ds.firstUndissectableReason ds.firstUndissectableFrame ++
  entry "consumer_faults" (decimalText ds.consumerFaults.toNat) (numberValue ds.consumerFaults.toNat) ::
  firstFrameMembers "first_consumer_fault_frame" "first_consumer_fault_reason"
    ds.firstConsumerFaultReason ds.firstConsumerFaultFrame)

theorem further_firstFrame {frameKey reasonKey frameName reasonName : String}
    (hframe : lit frameKey = 0x2C :: 0x22 :: (lit frameName ++ [0x22, 0x3A]))
    (hreason : lit reasonKey = 0x2C :: 0x22 :: (lit reasonName ++ [0x22, 0x3A, 0x22]))
    (reason : List UInt8) (frame : Option UInt64) :
    further (firstFrameMembers frameName reasonName reason frame) =
      firstFrameJson frameKey reasonKey reason frame := by
  cases frame with
  | none => rfl
  | some frame =>
    simp only [further, firstFrameMembers, firstFrameJson, u64Json, hframe, hreason, List.flatMap_cons,
      List.flatMap_nil, List.append_assoc, List.append_nil, List.cons_append, List.nil_append,
      Member.full, entry, Rfc8259.Item.full, quotedJson]
    rfl

theorem dissectionJson_eq (ds : DissectionRecord) : dissectionJson ds = objectJson ds.members := by
  have hframe : lit ",\"first_undissectable_frame\":" =
      0x2C :: 0x22 :: (lit "first_undissectable_frame" ++ [0x22, 0x3A]) := rfl
  have hreason : lit ",\"first_undissectable_reason\":\"" =
      0x2C :: 0x22 :: (lit "first_undissectable_reason" ++ [0x22, 0x3A, 0x22]) := rfl
  have hfault : lit ",\"first_consumer_fault_frame\":" =
      0x2C :: 0x22 :: (lit "first_consumer_fault_frame" ++ [0x22, 0x3A]) := rfl
  have hcause : lit ",\"first_consumer_fault_reason\":\"" =
      0x2C :: 0x22 :: (lit "first_consumer_fault_reason" ++ [0x22, 0x3A, 0x22]) := rfl
  rw [dissectionJson, DissectionRecord.members, ← further_firstFrame hframe hreason,
    ← further_firstFrame hfault hcause, objectJson_cons]
  simp only [further, List.flatMap_cons, List.flatMap_append, List.append_assoc, List.append_nil,
    List.cons_append, List.nil_append, Member.full, entry, Rfc8259.Item.full, u64Json]
  rfl

theorem firstFrame_writes {frameName reasonName : String} (hframe : Plain frameName)
    (hreason : Plain reasonName) (reason : List UInt8) (frame : Option UInt64) :
    ∀ m ∈ firstFrameMembers frameName reasonName reason frame, Writes m := by
  cases frame with
  | none => exact fun m hm => absurd hm List.not_mem_nil
  | some frame =>
    exact List.forall_mem_cons.2 ⟨writes_number hframe _,
      List.forall_mem_singleton.2 (writes_string hreason _)⟩

theorem DissectionRecord.writes (ds : DissectionRecord) : ∀ m ∈ ds.members, Writes m := by
  unfold members
  simp only [List.forall_mem_cons, List.forall_mem_append]
  exact ⟨writes_number (by decide) _, writes_number (by decide) _, writes_number (by decide) _,
    writes_number (by decide) _, firstFrame_writes (by decide) (by decide) _ _,
    writes_number (by decide) _, firstFrame_writes (by decide) (by decide) _ _⟩

/-- `delta` is the item of the step's captured fields, with the blanks they are written with. -/
def StepRecord.members (s : StepRecord) (delta : Rfc8259.Item) : List Member :=
  [entry "step" (intText s.stepIdx) (.number (intText s.stepIdx)),
    entry "event" (quotedJson s.eventName) (stringValue s.eventName),
    entry "from_state" (quotedJson s.fromStateName) (stringValue s.fromStateName),
    entry "to_state" (quotedJson s.toStateName) (stringValue s.toStateName),
    entry "pcap_frame_idx" (if s.pcapFrameIdx ≥ 0 then intText s.pcapFrameIdx else lit "null")
      (if s.pcapFrameIdx ≥ 0 then .number (intText s.pcapFrameIdx) else .null),
    { name := lit "captured_delta", chars := codes (lit "captured_delta"), item := delta }]

theorem stepJson_eq {s : StepRecord} {delta : Rfc8259.Item} (h : s.capturedJson = delta.full) :
    stepJson s = objectJson (s.members delta) := by
  unfold stepJson StepRecord.members
  rw [h]
  simp only [objectJson, separated, List.map_cons, List.map_nil, List.flatMap_cons, List.flatMap_nil,
    List.append_assoc, List.append_nil, List.cons_append, List.nil_append, Member.full, entry, Rfc8259.Item.full,
    quotedJson]
  rfl

theorem StepRecord.writes (s : StepRecord) {delta : Rfc8259.Item} (hspaced : delta.Spaced)
    (hvalue : Value delta.text delta.value) : ∀ m ∈ s.members delta, Writes m := by
  have hindex : Value (if s.pcapFrameIdx ≥ 0 then intText s.pcapFrameIdx else lit "null")
      (if s.pcapFrameIdx ≥ 0 then .number (intText s.pcapFrameIdx) else .null) := by
    split
    · exact .number (isNumber_intText s.pcapFrameIdx)
    · exact .null
  have hblank : AllWs [] := fun _ hb => absurd hb List.not_mem_nil
  unfold members
  simp only [List.forall_mem_cons]
  exact ⟨writes_entry (by decide) (.number (isNumber_intText s.stepIdx)),
    writes_string (by decide) _, writes_string (by decide) _, writes_string (by decide) _,
    writes_entry (by decide) hindex,
    ⟨⟨hblank, hblank, hspaced⟩, chars_of_plain (by decide : Plain "captured_delta"), hvalue⟩, by simp⟩

/-- `capture` and `steps` are the values of the two arrays. -/
def TraceRecord.members (t : TraceRecord) (capture steps : List Json) : List Member :=
  [entry "schema_version" (lit "3") (.number (lit "3")),
    entry "final_state" (quotedJson t.finalState) (stringValue t.finalState),
    entry "capture" (arrayJson captureJson t.captureStats) (.array capture),
    entry "dissection" (dissectionJson t.dissectionStats) (objectValue t.dissectionStats.members),
    entry "steps" (arrayJson stepJson t.trace) (.array steps)]

theorem dumpTraceJson_eq (t : TraceRecord) (capture steps : List Json) :
    dumpTraceJson t = objectJson (t.members capture steps) := by
  unfold dumpTraceJson TraceRecord.members
  simp only [objectJson, separated, List.map_cons, List.map_nil, List.flatMap_cons, List.flatMap_nil,
    List.append_assoc, List.append_nil, List.cons_append, List.nil_append, Member.full, entry, Rfc8259.Item.full,
    quotedJson, arrayJson]
  rfl

theorem TraceRecord.writes (t : TraceRecord) {capture steps : List Json}
    (hcapture : List.Forall₂ (fun cs v => Value (captureJson cs) v) t.captureStats capture)
    (hsteps : List.Forall₂ (fun s v => Value (stepJson s) v) t.trace steps) :
    ∀ m ∈ t.members capture steps, Writes m := by
  have hschema : Value (lit "3") (.number (lit "3")) := .number ⟨.int, rfl, rfl⟩
  have hdissection : Value (dissectionJson t.dissectionStats)
      (objectValue t.dissectionStats.members) := by
    rw [dissectionJson_eq]
    exact value_objectJson t.dissectionStats.writes
  unfold members
  simp only [List.forall_mem_cons]
  exact ⟨writes_entry (by decide) hschema, writes_string (by decide) _,
    writes_entry (by decide) (value_arrayJson hcapture), writes_entry (by decide) hdissection,
    writes_entry (by decide) (value_arrayJson hsteps), by simp⟩

/-! ## What a reader finds -/

/-- The values an object has under a name; other values have none. -/
def named : Json → String → List Json
  | .object members, name => (members.filter fun m => m.1 == codes (lit name)).map Prod.snd
  | _, _ => []

/-- The value reports the source's record: each name stands once, and where the record has it. -/
structure CaptureRecord.Reported (cs : CaptureRecord) (v : Json) : Prop where
  iface : named v "iface" = [stringValue cs.iface]
  available : named v "available" = [.bool cs.available]
  framesReceived : named v "frames_received" =
    if cs.available then [numberValue cs.framesReceived.toNat] else []
  framesDroppedRing : named v "frames_dropped_ring" =
    if cs.available then [numberValue cs.framesDroppedRing.toNat] else []
  framesDroppedIface : named v "frames_dropped_iface" =
    if cs.available then [numberValue cs.framesDroppedIface.toNat] else []
  multicastGroups : named v "multicast_groups" =
    if !cs.multicastGroups.isEmpty then [.array (cs.multicastGroups.map stringValue)] else []
  multicastMembershipHeld : named v "multicast_membership_held" =
    if !cs.multicastGroups.isEmpty then [.bool cs.multicastMembershipHeld] else []
  multicastGroupsFailed : named v "multicast_groups_failed" =
    if !cs.multicastGroups.isEmpty && !cs.multicastGroupsFailed.isEmpty then
      [.array (cs.multicastGroupsFailed.map stringValue)]
    else []

structure DissectionRecord.Reported (ds : DissectionRecord) (v : Json) : Prop where
  framesSeen : named v "frames_seen" = [numberValue ds.framesSeen.toNat]
  framesTruncated : named v "frames_truncated" = [numberValue ds.framesTruncated.toNat]
  framesUndissectable : named v "frames_undissectable" = [numberValue ds.framesUndissectable.toNat]
  framesUndissectablePossiblyDut : named v "frames_undissectable_possibly_dut" =
    [numberValue ds.framesUndissectablePossiblyDut.toNat]
  firstUndissectableFrame : named v "first_undissectable_frame" =
    (ds.firstUndissectableFrame.map fun frame => numberValue frame.toNat).toList
  firstUndissectableReason : named v "first_undissectable_reason" =
    if ds.firstUndissectableFrame.isSome then [stringValue ds.firstUndissectableReason] else []
  consumerFaults : named v "consumer_faults" = [numberValue ds.consumerFaults.toNat]
  firstConsumerFaultFrame : named v "first_consumer_fault_frame" =
    (ds.firstConsumerFaultFrame.map fun frame => numberValue frame.toNat).toList
  firstConsumerFaultReason : named v "first_consumer_fault_reason" =
    if ds.firstConsumerFaultFrame.isSome then [stringValue ds.firstConsumerFaultReason] else []

structure StepRecord.Reported (s : StepRecord) (v : Json) : Prop where
  step : named v "step" = [.number (intText s.stepIdx)]
  event : named v "event" = [stringValue s.eventName]
  fromState : named v "from_state" = [stringValue s.fromStateName]
  toState : named v "to_state" = [stringValue s.toStateName]
  pcapFrameIdx : named v "pcap_frame_idx" =
    [if s.pcapFrameIdx ≥ 0 then .number (intText s.pcapFrameIdx) else .null]
  capturedDelta : ∃ delta, named v "captured_delta" = [delta] ∧ JsonText s.capturedJson delta

/-- The arrays report the recorded sources and steps one by one, in their order. -/
structure TraceRecord.Reported (t : TraceRecord) (v : Json) : Prop where
  finalState : named v "final_state" = [stringValue t.finalState]
  capture : ∃ sources, named v "capture" = [.array sources] ∧
    List.Forall₂ CaptureRecord.Reported t.captureStats sources
  dissection : ∃ d, named v "dissection" = [d] ∧ t.dissectionStats.Reported d
  steps : ∃ steps, named v "steps" = [.array steps] ∧
    List.Forall₂ StepRecord.Reported t.trace steps

theorem CaptureRecord.reported (cs : CaptureRecord) : cs.Reported (objectValue cs.members) := by
  constructor <;> unfold members counters multicast <;> cases cs.available <;> cases !cs.multicastGroups.isEmpty <;>
    cases !cs.multicastGroupsFailed.isEmpty <;> rfl

theorem DissectionRecord.reported (ds : DissectionRecord) : ds.Reported (objectValue ds.members) := by
  constructor <;> unfold members <;> cases ds.firstUndissectableFrame <;>
    cases ds.firstConsumerFaultFrame <;> rfl

theorem StepRecord.reported (s : StepRecord) {delta : Rfc8259.Item}
    (h : JsonText s.capturedJson delta.value) : s.Reported (objectValue (s.members delta)) where
  step := rfl
  event := rfl
  fromState := rfl
  toState := rfl
  pcapFrameIdx := rfl
  capturedDelta := ⟨delta.value, rfl, h⟩

theorem captureJson_value (cs : CaptureRecord) :
    Value (captureJson cs) (objectValue cs.members) := by
  rw [captureJson_eq]
  exact value_objectJson cs.writes

/-- A step whose captured fields are a text of the grammar is one too. -/
theorem stepJson_value {s : StepRecord} (h : ∃ delta, JsonText s.capturedJson delta) :
    ∃ v, Value (stepJson s) v ∧ s.Reported v := by
  obtain ⟨delta, item, hspaced, hvalue, htext, rfl⟩ := h
  refine ⟨objectValue (s.members item), ?_, s.reported ⟨item, hspaced, hvalue, htext, rfl⟩⟩
  rw [stepJson_eq htext]
  exact value_objectJson (s.writes hspaced hvalue)

/-- **Round trip of the trace.** The dump is one text of the grammar, denotes one value, and that value
reports every recorded name, source and step. -/
theorem dumpTraceJson_round_trip (t : TraceRecord)
    (hdelta : ∀ s ∈ t.trace, ∃ delta, JsonText s.capturedJson delta) :
    ∃ v, JsonText (dumpTraceJson t) v ∧ (∀ v', JsonText (dumpTraceJson t) v' → v' = v) ∧
      parse (dumpTraceJson t) = some v ∧ t.Reported v := by
  obtain ⟨steps, hsteps⟩ : ∃ steps, List.Forall₂ (fun s v => Value (stepJson s) v ∧ s.Reported v)
      t.trace steps := by
    have hall : ∀ s ∈ t.trace, ∃ v, Value (stepJson s) v ∧ s.Reported v :=
      fun s hs => stepJson_value (hdelta s hs)
    generalize t.trace = trace at hall
    induction trace with
    | nil => exact ⟨[], .nil⟩
    | cons s trace ih =>
      obtain ⟨v, hv⟩ := hall s List.mem_cons_self
      obtain ⟨steps, hsteps⟩ := ih fun x hx => hall x (List.mem_cons_of_mem s hx)
      exact ⟨v :: steps, .cons hv hsteps⟩
  let capture := t.captureStats.map fun cs => objectValue cs.members
  have hcapture : List.Forall₂ (fun cs v => Value (captureJson cs) v) t.captureStats capture :=
    List.forall₂_map_right_iff.2 (List.forall₂_same.2 fun cs _ => captureJson_value cs)
  have hreported : List.Forall₂ CaptureRecord.Reported t.captureStats capture :=
    List.forall₂_map_right_iff.2 (List.forall₂_same.2 fun cs _ => cs.reported)
  have htext : JsonText (dumpTraceJson t) (objectValue (t.members capture steps)) := by
    rw [dumpTraceJson_eq t capture steps]
    exact (value_objectJson (t.writes hcapture (hsteps.imp fun _ _ h => h.1))).jsonText
  refine ⟨_, htext, fun v' h' => htext.unique h', htext.parse_eq, ?_⟩
  exact {
    finalState := rfl
    capture := ⟨capture, rfl, hreported⟩
    dissection := ⟨_, rfl, t.dissectionStats.reported⟩
    steps := ⟨steps, rfl, hsteps.imp fun _ _ h => h.2⟩ }

/-- A source that failed to join a group, names that need escapes, and two steps. -/
def escapedTrace : TraceRecord where
  finalState := [0x22, 0x5C, 0x00, 0xC3]
  captureStats := [
    ⟨[0x1F, 0x0A], false, 0, 0, 0, [[0x41], []], [[0x41]]⟩,
    ⟨[], true, 12, 0, 3, [], []⟩]
  dissectionStats := ⟨3, 0, 1, 1, some 1, [0x09], 0, none, []⟩
  trace := [
    ⟨0, [0x61], [], [0x7F], -1, [0x7B, 0x7D]⟩,
    ⟨1, [0x08], [0x62], [], 2, [0x20, 0x5B, 0x5D]⟩]

theorem dumpTraceJson_round_trip_escaped : ∃ v, parse (dumpTraceJson escapedTrace) = some v ∧
    escapedTrace.Reported v := by
  have hblank : AllWs [] := fun _ hb => absurd hb List.not_mem_nil
  have hspace : AllWs [0x20] := List.forall_mem_singleton.2 rfl
  have hdelta : ∀ s ∈ escapedTrace.trace, ∃ delta, JsonText s.capturedJson delta := by
    let spaced : Rfc8259.Item := ⟨[0x20], [0x5B, 0x5D], [], .array []⟩
    refine List.forall_mem_cons.2 ⟨⟨_, (Value.emptyObject hblank).jsonText⟩, List.forall_mem_singleton.2 ?_⟩
    exact ⟨.array [], spaced, ⟨hspace, hblank⟩, .emptyArray hblank, rfl, rfl⟩
  obtain ⟨v, -, -, hparse, hreported⟩ := dumpTraceJson_round_trip escapedTrace hdelta
  exact ⟨v, hparse, hreported⟩

end Tc8Harness.Sce
