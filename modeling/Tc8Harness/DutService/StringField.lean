import Tc8Harness.Someip.Wire

/-!
# The dynamic UTF-8 string field

`dut/dut_service/ets_string_field.h`: a string on the wire is its length, the byte-order mark, the
characters and a NUL; the field keeps the characters, answers them, and notifies when a request changes
them. Both handlers hold the mutex, so a run is a sequence of calls. A string is its bytes.

`decodeUtf8Dynamic_eq_some_iff` says what the decoder takes: the encodings of strings without NUL, and
nothing else.
-/

namespace Tc8Harness.DutService

open BigEndian Someip

def encodeUtf8Dynamic (chars : List UInt8) : List UInt8 :=
  let body := UInt32.ofNat (3 + chars.length + 1)
  toBE 4 body.toNat ++ [0xEF, 0xBB, 0xBF] ++ chars ++ [0x00]

def decodeUtf8Dynamic (p : List UInt8) : Option (List UInt8) :=
  if p.length < 4 + 3 + 1 then none
  else
    let body := ofBE (p.take 4)
    if body ≠ p.length - 4 then none
    else if p.getD 4 0 ≠ 0xEF ∨ p.getD 5 0 ≠ 0xBB ∨ p.getD 6 0 ≠ 0xBF then none
    else if p.getD (p.length - 1) 0 ≠ 0x00 then none
    else
      let chars := (p.drop 7).dropLast
      if 0x00 ∈ chars then none else some chars

structure EtsReply where
  messageType : MessageType := .RESPONSE
  returnCode : ReturnCode := .E_OK
  payload : List UInt8 := []
  deriving DecidableEq

/-- The field, and what its notifier was called with; `notifier` is false for an empty function. -/
structure Utf8DynamicField where
  value : List UInt8
  notifier : Bool := true
  notified : List (List UInt8) := []
  deriving DecidableEq

namespace Utf8DynamicField

def response (chars : List UInt8) : EtsReply := ⟨.RESPONSE, .E_OK, encodeUtf8Dynamic chars⟩

def get (f : Utf8DynamicField) : EtsReply := response f.value

def set (f : Utf8DynamicField) (request : List UInt8) : EtsReply × Utf8DynamicField :=
  match decodeUtf8Dynamic request with
  | none => (⟨.ERROR, .E_MALFORMED_MESSAGE, []⟩, f)
  | some chars =>
    let f :=
      if chars ≠ f.value then
        { f with value := chars
                 notified := if f.notifier then f.notified ++ [encodeUtf8Dynamic chars] else f.notified }
      else f
    (response f.value, f)

def reset (f : Utf8DynamicField) (value : List UInt8) : Utf8DynamicField := { f with value }

end Utf8DynamicField

/-! ## The encoding -/

/-- The request is the encoding of a string without NUL whose length its length field holds. -/
structure Carries (p chars : List UInt8) : Prop where
  encoded : p = encodeUtf8Dynamic chars
  noNul : 0x00 ∉ chars
  size : chars.length < 2 ^ 32 - 4

theorem encodeUtf8Dynamic_eq {chars : List UInt8} (hsize : chars.length < 2 ^ 32 - 4) :
    encodeUtf8Dynamic chars =
      toBE 4 (chars.length + 4) ++ (0xEF :: 0xBB :: 0xBF :: (chars ++ [0x00])) := by
  have hbody : (UInt32.ofNat (3 + chars.length + 1)).toNat = chars.length + 4 := by
    rw [UInt32.toNat_ofNat']
    omega
  rw [encodeUtf8Dynamic, hbody]
  simp

/-- A payload that is long enough: its length field, three bytes, the characters and one byte more. -/
theorem payload_split {p : List UInt8} (h : 8 ≤ p.length) :
    p = toBE 4 (ofBE (p.take 4)) ++
      (p.getD 4 0 :: p.getD 5 0 :: p.getD 6 0 :: ((p.drop 7).dropLast ++ [p.getD (p.length - 1) 0])) := by
  have hword : toBE 4 (ofBE (p.take 4)) = p.take 4 := by
    have hlen : (p.take 4).length = 4 := by
      rw [List.length_take]
      omega
    have hback := toBE_ofBE (p.take 4)
    rwa [hlen] at hback
  have hne : p.drop 7 ≠ [] := by
    intro hnil
    rw [List.drop_eq_nil_iff] at hnil
    omega
  have hlast : [p.getD (p.length - 1) 0] = [(p.drop 7).getLast hne] := by
    rw [List.getLast_drop, List.getLast_eq_getElem, List.getD_eq_getElem]
  rw [hword, hlast, List.dropLast_append_getLast, List.getD_eq_getElem _ _ (by omega : 6 < p.length),
    List.getD_eq_getElem _ _ (by omega : 5 < p.length), List.getD_eq_getElem _ _ (by omega : 4 < p.length),
    ← List.drop_eq_getElem_cons, ← List.drop_eq_getElem_cons, ← List.drop_eq_getElem_cons,
    List.take_append_drop]

theorem carries_of_decode {p chars : List UInt8} (h : decodeUtf8Dynamic p = some chars) :
    Carries p chars := by
  unfold decodeUtf8Dynamic at h
  dsimp only at h
  split_ifs at h with hshort hbody hmark hlast hnul
  obtain rfl := Option.some.inj h
  rw [not_or, not_or, not_not, not_not, not_not] at hmark
  rw [not_not] at hbody hlast
  have hword : ofBE (p.take 4) < 256 ^ 4 := by
    have hlt := ofBE_lt (p.take 4)
    rwa [List.length_take, Nat.min_eq_left (by omega)] at hlt
  have hlen : (p.drop 7).dropLast.length = p.length - 8 := by
    rw [List.length_dropLast, List.length_drop]
    omega
  have hsize : (p.drop 7).dropLast.length < 2 ^ 32 - 4 := by
    rw [hlen]
    omega
  refine ⟨?_, hnul, hsize⟩
  have hsplit := payload_split (p := p) (by omega)
  rw [hbody, hmark.1, hmark.2.1, hmark.2.2, hlast] at hsplit
  rw [encodeUtf8Dynamic_eq hsize, hlen, (by omega : p.length - 8 + 4 = p.length - 4)]
  exact hsplit

theorem decode_of_carries {p chars : List UInt8} (h : Carries p chars) :
    decodeUtf8Dynamic p = some chars := by
  obtain ⟨rfl, hnul, hsize⟩ := h
  rw [encodeUtf8Dynamic_eq hsize]
  have hword := length_toBE 4 (chars.length + 4)
  have hlen : (toBE 4 (chars.length + 4) ++ (0xEF :: 0xBB :: 0xBF :: (chars ++ [0x00]))).length =
      chars.length + 8 := by
    simp
    omega
  have hbody : ofBE ((toBE 4 (chars.length + 4) ++ (0xEF :: 0xBB :: 0xBF :: (chars ++ [0x00]))).take 4) =
      chars.length + 4 := ofBE_take_toBE (by omega) _
  have hat : ∀ i, (toBE 4 (chars.length + 4) ++ (0xEF :: 0xBB :: 0xBF :: (chars ++ [0x00]))).getD (4 + i) 0 =
      (0xEF :: 0xBB :: 0xBF :: (chars ++ [0x00])).getD i 0 := by
    intro i
    rw [List.getD_append_right _ _ _ _ (by rw [hword]; omega), hword, Nat.add_sub_cancel_left]
  have hlast : (toBE 4 (chars.length + 4) ++ (0xEF :: 0xBB :: 0xBF :: (chars ++ [0x00]))).getD
      (chars.length + 8 - 1) 0 = 0 := by
    have hend := hat (chars.length + 3)
    rw [(by omega : 4 + (chars.length + 3) = chars.length + 8 - 1)] at hend
    rw [hend]
    simp
  have hchars : ((toBE 4 (chars.length + 4) ++ (0xEF :: 0xBB :: 0xBF :: (chars ++ [0x00]))).drop 7).dropLast =
      chars := by
    rw [List.drop_append, hword, List.drop_eq_nil_of_le (by rw [hword]; decide)]
    simp
  unfold decodeUtf8Dynamic
  dsimp only
  rw [hlen, hbody, hlast, hchars, if_neg (by omega), if_neg (by omega), if_neg, if_neg (by simp), if_neg hnul]
  rw [not_or, not_or, not_not, not_not, not_not]
  exact ⟨hat 0, hat 1, hat 2⟩

/-- **The decoder takes the encodings of strings without NUL**, each back to its string. -/
theorem decodeUtf8Dynamic_eq_some_iff (p chars : List UInt8) :
    decodeUtf8Dynamic p = some chars ↔ Carries p chars :=
  ⟨carries_of_decode, decode_of_carries⟩

theorem decodeUtf8Dynamic_eq_none_iff (p : List UInt8) :
    decodeUtf8Dynamic p = none ↔ ∀ chars, ¬ Carries p chars := by
  rw [Option.eq_none_iff_forall_not_mem]
  exact forall_congr' fun chars => not_congr (decodeUtf8Dynamic_eq_some_iff p chars)

/-! ## Runs -/

namespace Utf8DynamicField

inductive Call where
  | get
  | set (request : List UInt8)
  | reset (value : List UInt8)
  deriving DecidableEq

/-- A call's answer, if it has one, and the field after it. -/
def step (f : Utf8DynamicField) : Call → Option EtsReply × Utf8DynamicField
  | .get => (some f.get, f)
  | .set request => (some (f.set request).1, (f.set request).2)
  | .reset value => (none, f.reset value)

def after (initial : List UInt8) (calls : List Call) : Utf8DynamicField :=
  calls.foldl (fun f c => (f.step c).2) { value := initial }

def Call.isSet : Call → Bool
  | .set _ => true
  | _ => false

/-- The values at the set calls that changed the stored value. -/
def changes (f : Utf8DynamicField) : List Call → List (List UInt8)
  | [] => []
  | c :: calls =>
    let next := (f.step c).2
    (if c.isSet = true ∧ next.value ≠ f.value then [next.value] else []) ++ changes next calls

/-- What is asked of a field's history. -/
structure Faithful (initial : List UInt8) (calls : List Call) : Prop where
  notified : (after initial calls).notified =
    (changes { value := initial } calls).map encodeUtf8Dynamic
  accepted : ∀ before request later chars, calls = before ++ .set request :: later →
    Carries request chars → ((after initial before).step (.set request)).2.value = chars ∧
      ((after initial before).step (.set request)).1 = some (response chars)
  malformed : ∀ before request later, calls = before ++ .set request :: later →
    (∀ chars, ¬ Carries request chars) → ((after initial before).step (.set request)).2 =
      after initial before ∧ ((after initial before).step (.set request)).1 =
      some ⟨.ERROR, .E_MALFORMED_MESSAGE, []⟩
  read : ∀ before later, calls = before ++ .get :: later →
    (after initial before).step .get = (some (response (after initial before).value), after initial before)
  restored : ∀ before value later, calls = before ++ .reset value :: later →
    ((after initial before).step (.reset value)).2 = { after initial before with value }

variable {f : Utf8DynamicField}

theorem set_of_carries {request chars : List UInt8} (h : Carries request chars) :
    (f.set request).1 = response chars ∧ (f.set request).2.value = chars := by
  unfold set
  rw [(decodeUtf8Dynamic_eq_some_iff request chars).2 h]
  dsimp only
  split
  · exact ⟨rfl, rfl⟩
  · next hsame =>
    rw [not_not] at hsame
    rw [hsame]
    exact ⟨rfl, rfl⟩

theorem set_of_malformed {request : List UInt8} (h : ∀ chars, ¬ Carries request chars) :
    f.set request = (⟨.ERROR, .E_MALFORMED_MESSAGE, []⟩, f) := by
  unfold set
  rw [(decodeUtf8Dynamic_eq_none_iff request).2 h]

/-- A request leaves the field, or stores another value and notifies it. -/
theorem set_cases (f : Utf8DynamicField) (request : List UInt8) : (f.set request).2 = f ∨
    ∃ chars, chars ≠ f.value ∧ (f.set request).2 =
      ⟨chars, f.notifier, if f.notifier then f.notified ++ [encodeUtf8Dynamic chars] else f.notified⟩ := by
  unfold set
  cases decodeUtf8Dynamic request with
  | none => exact .inl rfl
  | some chars =>
    by_cases hchange : chars ≠ f.value
    · refine .inr ⟨chars, hchange, ?_⟩
      dsimp only
      rw [if_pos hchange]
    · refine .inl ?_
      dsimp only
      rw [if_neg hchange]

theorem notifier_step (c : Call) : (f.step c).2.notifier = f.notifier := by
  cases c with
  | get => rfl
  | reset value => rfl
  | set request =>
    change (f.set request).2.notifier = f.notifier
    rcases f.set_cases request with hset | ⟨chars, -, hset⟩
    · rw [hset]
    · rw [hset]

/-- A call notifies its change. -/
theorem notified_step (h : f.notifier = true) (c : Call) :
    (f.step c).2.notified = f.notified ++
      (if c.isSet = true ∧ (f.step c).2.value ≠ f.value then [(f.step c).2.value] else []).map
        encodeUtf8Dynamic := by
  have hsilent : ∀ {p : Prop} [Decidable p] {value : List UInt8}, ¬ p →
      f.notified = f.notified ++ (if p then [value] else []).map encodeUtf8Dynamic := by
    intro p _ value hp
    rw [if_neg hp, List.map_nil, List.append_nil]
  cases c with
  | get => exact hsilent fun hc => hc.2 rfl
  | reset value => exact hsilent fun hc => absurd hc.1 Bool.false_ne_true
  | set request =>
    rcases f.set_cases request with hset | ⟨chars, hchange, hset⟩
    · have hstep : (f.step (.set request)).2 = f := hset
      rw [hstep]
      exact hsilent fun hc => hc.2 rfl
    · have hstep : (f.step (.set request)).2 = _ := hset
      rw [hstep, if_pos h, if_pos ⟨rfl, hchange⟩]
      rfl

theorem notified_foldl (h : f.notifier = true) (calls : List Call) :
    (calls.foldl (fun f c => (f.step c).2) f).notified =
      f.notified ++ (changes f calls).map encodeUtf8Dynamic := by
  induction calls generalizing f with
  | nil => exact (List.append_nil _).symm
  | cons c calls ih =>
    rw [List.foldl_cons, ih (by rw [notifier_step, h]), notified_step h, changes, List.map_append,
      List.append_assoc]

/-- It notifies the changes and nothing else, and answers what it keeps. -/
theorem faithful (initial : List UInt8) (calls : List Call) : Faithful initial calls := by
  constructor
  · exact notified_foldl rfl calls
  · intro before request later chars _ h
    obtain ⟨hreply, hvalue⟩ := @set_of_carries (after initial before) _ _ h
    exact ⟨hvalue, congrArg some hreply⟩
  · intro before request later _ h
    have hset := @set_of_malformed (after initial before) _ h
    exact ⟨congrArg Prod.snd hset, congrArg some (congrArg Prod.fst hset)⟩
  · exact fun _ _ _ => rfl
  · exact fun _ _ _ _ => rfl

/-- **The field and its encoding**: the decoder takes what the encoder writes, and every history of
requests, reads and resets is faithful. -/
theorem history_faithful :
    (∀ p chars, decodeUtf8Dynamic p = some chars ↔
      p = encodeUtf8Dynamic chars ∧ 0x00 ∉ chars ∧ chars.length < 2 ^ 32 - 4) ∧
    ∀ initial calls, Faithful initial calls := by
  refine ⟨fun p chars => ?_, faithful⟩
  rw [decodeUtf8Dynamic_eq_some_iff]
  exact ⟨fun h => ⟨h.encoded, h.noNul, h.size⟩, fun h => ⟨h.1, h.2.1, h.2.2⟩⟩

/-- A value that is reset and set again is notified again. -/
example : (after [] [.set (encodeUtf8Dynamic [0x61]), .set (encodeUtf8Dynamic [0x61]), .reset [],
    .set [0x61], .set (encodeUtf8Dynamic [0x61])]).notified =
    [encodeUtf8Dynamic [0x61], encodeUtf8Dynamic [0x61]] := by decide

end Utf8DynamicField

end Tc8Harness.DutService
