import Tc8Harness.Dut.Dhcpv4Reply

/-!
# How the client reads options

`findDhcpOption` finds the first item of a code in the options as their grammar has them, and cuts its
value to the room of the caller. `pollForReply` then compares the length of what it got, not of the item,
with the length it wants: an item that is too long reads as one of the right length (`reads_exactly_iff`).
-/

namespace Tc8Harness.Dut

open BigEndian Wire Dissect

/-! ## The first item of a code -/

/-- The value of the first option of the code. -/
def firstValue (opts : List UInt8) (code : UInt8) : Option (List UInt8) :=
  ((dhcpItems opts).1.find? fun it => it.1 = code).map Prod.snd

/-- The loop of `findDhcpOption` with a bound on its turns. -/
def findDhcpOptionIn (fuel : Nat) (opts : List UInt8) (code : UInt8) (outLen : Nat) :
    Option (Option (List UInt8)) :=
  Tlv.walkFuel 0x00 0xFF (fun c value => if c = code then some (some (value.take outLen)) else none)
    none none opts fuel 0

/-- **What `findDhcpOption` is to do**: end, with the value of the first item of the code among the items
before END or the first malformed one, cut to the caller's room. -/
def FindsFirst (opts : List UInt8) (code : UInt8) (outLen : Nat) : Prop :=
  ∃ fuel items stop, Tlv.Reads 0x00 0xFF opts items stop ∧
    findDhcpOptionIn fuel opts code outLen =
      some ((items.find? fun it => it.1 = code).map fun it => it.2.take outLen)

theorem dhcpItems_reads (opts : List UInt8) :
    Tlv.Reads 0x00 0xFF opts (dhcpItems opts).1 (dhcpItems opts).2 :=
  Tlv.parse_reads le_rfl

theorem findDhcpOption_eq (opts : List UInt8) (code : UInt8) (outLen : Nat) :
    findDhcpOption opts code outLen = (firstValue opts code).map (·.take outLen) := by
  rw [findDhcpOption, Tlv.walk_eq, List.drop_zero, Tlv.outcome_first, firstValue, Option.map_map]
  rw [ite_self, dhcpItems]
  cases (Tlv.parse 0x00 0xFF opts.length opts).1.find? fun it => it.1 = code <;> rfl

/-- The loop ends, whatever the options. -/
theorem findsFirst (opts : List UInt8) (code : UInt8) (outLen : Nat) : FindsFirst opts code outLen := by
  refine ⟨opts.length + 1, _, _, dhcpItems_reads opts, ?_⟩
  rw [findDhcpOptionIn, Tlv.walkFuel_eq _ _ _ _ (by omega) (Nat.zero_le _), Tlv.walk_eq, List.drop_zero,
    Tlv.outcome_first, ite_self,
    (dhcpItems_reads opts).parse_eq (by decide) (Nat.le_succ opts.length)]
  cases (dhcpItems opts).1.find? fun it => it.1 = code <;> rfl

/-! ## The options of a reply -/

/-- A read of an option: where, of which code, and how long it has to be. -/
structure OptionUse where
  region : List UInt8
  code : UInt8
  len : Nat
  deriving DecidableEq, Repr

namespace OptionUse

variable (u : OptionUse)

/-- What `pollForReply` takes the option for. -/
def used : Option (List UInt8) := optionOfLen u.region u.code u.len

/-- What it is to be taken for: the first item of the code if it has the length, and nothing
otherwise. -/
def exact : Option (List UInt8) := (firstValue u.region u.code).filter fun value => value.length = u.len

/-- The first item of the code is longer than that. -/
def Overlong : Prop := ∃ value ∈ firstValue u.region u.code, u.len < value.length

theorem used_eq_exact_iff : u.used = u.exact ↔ ¬ u.Overlong := by
  rw [used, exact, Overlong, optionOfLen, findDhcpOption_eq]
  cases firstValue u.region u.code with
  | none => simp
  | some value =>
    simp only [Option.map_some, Option.mem_def, Option.some.injEq, exists_eq_left', not_lt]
    rcases Nat.lt_trichotomy value.length u.len with hlt | heq | hgt
    · rw [List.take_of_length_le hlt.le]
      exact iff_of_true rfl hlt.le
    · rw [List.take_of_length_le heq.le]
      exact iff_of_true rfl heq.le
    · refine iff_of_false ?_ (by omega)
      have hcut : (value.take u.len).length = u.len := List.length_take_of_le hgt.le
      simp [Option.filter_some, hcut, hgt.ne']

end OptionUse

/-- `extract_router_from` by way of any reading of options. -/
def extractRouterBy (opt : OptionUse → Option (List UInt8)) (region : List UInt8) (routerBe : UInt32) :
    UInt32 :=
  match opt ⟨region, 3, 4⟩ with
  | some value => copy32 value 0
  | none => routerBe

/-- The router by way of any reading of options, with the reads made. -/
def routerBy (opt : OptionUse → Option (List UInt8)) (bp opts : List UInt8) :
    List OptionUse × UInt32 :=
  let routerBe := extractRouterBy opt opts 0
  match opt ⟨opts, 52, 1⟩ with
  | none => ([⟨opts, 3, 4⟩, ⟨opts, 52, 1⟩], routerBe)
  | some value =>
    let overload := value.getD 0 0
    let file := (bp.drop 108).take 128
    let sname := (bp.drop 44).take 64
    let inFile := if overload &&& 0x01 ≠ 0 then [(⟨file, 3, 4⟩ : OptionUse)] else []
    let inSname := if overload &&& 0x02 ≠ 0 then [(⟨sname, 3, 4⟩ : OptionUse)] else []
    let routerBe := if overload &&& 0x01 ≠ 0 then extractRouterBy opt file routerBe else routerBe
    ([⟨opts, 3, 4⟩, ⟨opts, 52, 1⟩] ++ (inFile ++ inSname),
      if overload &&& 0x02 ≠ 0 then extractRouterBy opt sname routerBe else routerBe)

namespace ReplyGate

variable (gate : ReplyGate) (bp : List UInt8)

/-- One turn of `pollForReply` by way of any reading of options: the reads made and the reply. -/
def readBy (opt : OptionUse → Option (List UInt8)) : List OptionUse × Option Reply :=
  if bp.length < kBootpFixedLen + 4 then ([], none)
  else if bp.getD 0 0 ≠ kBootReply then ([], none)
  else if copy32 bp 4 ≠ gate.expectedXidBe ∧ gate.relaxXidGate = false then ([], none)
  else if (bp.drop 28).take 6 ≠ gate.dutMac.toList then ([], none)
  else if (bp.drop 236).take 4 ≠ [0x63, 0x82, 0x53, 0x63] then ([], none)
  else
    let opts := bp.drop kBootpFixedLen
    match opt ⟨opts, 53, 1⟩ with
    | none => ([⟨opts, 53, 1⟩], none)
    | some value =>
      let msgType := value.getD 0 0
      if gate.expectedMsgType ≠ 0 ∧ msgType ≠ gate.expectedMsgType ∧ gate.relaxMsgtypeGate = false then
        ([⟨opts, 53, 1⟩], none)
      else
        ([⟨opts, 53, 1⟩, ⟨opts, 54, 4⟩, ⟨opts, 51, 4⟩] ++ (routerBy opt bp opts).1,
          some
            { yiaddrBe := copy32 bp 16
              serverIdBe := ((opt ⟨opts, 54, 4⟩).map fun value => copy32 value 0).getD 0
              leaseSeconds := ((opt ⟨opts, 51, 4⟩).map fun value => readBe32 value 0).getD 0
              msgType := msgType
              routerBe := (routerBy opt bp opts).2 })

/-- The options `pollForReply` looks at in a reply. -/
def uses : List OptionUse := (gate.readBy bp OptionUse.used).1

/-- **What the reading of a reply is to be**: no option counts whose item has another length. -/
structure ReadsExactly : Prop where
  uses : ∀ u ∈ gate.uses bp, u.used = u.exact
  reply : gate.read bp = (gate.readBy bp OptionUse.exact).2

variable {gate bp} {opt opt' : OptionUse → Option (List UInt8)}

theorem routerOf_eq (bp opts : List UInt8) :
    routerOf bp opts = (routerBy OptionUse.used bp opts).2 := by
  unfold routerOf routerBy
  dsimp only
  change (match optionOfLen opts 52 1 with | none => _ | some value => _) =
    (match optionOfLen opts 52 1 with | none => _ | some value => _ : List OptionUse × UInt32).2
  cases optionOfLen opts 52 1 <;> rfl

theorem read_eq : gate.read bp = (gate.readBy bp OptionUse.used).2 := by
  unfold read readBy
  split
  · rfl
  split
  · rfl
  split
  · rfl
  split
  · rfl
  split
  · rfl
  dsimp only
  change (match optionOfLen (bp.drop kBootpFixedLen) 53 1 with | none => _ | some value => _) =
    (match optionOfLen (bp.drop kBootpFixedLen) 53 1 with
      | none => _ | some value => _ : List OptionUse × Option Reply).2
  cases optionOfLen (bp.drop kBootpFixedLen) 53 1 with
  | none => rfl
  | some value =>
    dsimp only
    split
    · rfl
    · rw [routerOf_eq]
      rfl

/-- The reply is a matter of the options read. -/
theorem routerBy_congr (bp opts : List UInt8)
    (h : ∀ u ∈ (routerBy opt bp opts).1, opt u = opt' u) : routerBy opt bp opts = routerBy opt' bp opts := by
  have hmain : opt ⟨opts, 3, 4⟩ = opt' ⟨opts, 3, 4⟩ := by
    refine h _ ?_
    unfold routerBy
    split <;> simp
  have hoverload : opt ⟨opts, 52, 1⟩ = opt' ⟨opts, 52, 1⟩ := by
    refine h _ ?_
    unfold routerBy
    split <;> simp
  unfold routerBy at h ⊢
  rw [← hoverload]
  cases hopt : opt ⟨opts, 52, 1⟩ with
  | none => simp only [extractRouterBy, hmain]
  | some value =>
    simp only [hopt] at h ⊢
    have hextract : ∀ region routerBe, opt ⟨region, 3, 4⟩ = opt' ⟨region, 3, 4⟩ →
        extractRouterBy opt region routerBe = extractRouterBy opt' region routerBe := by
      intro region routerBe hregion
      rw [extractRouterBy, hregion, extractRouterBy]
    rw [hextract _ _ hmain]
    have hfile : value.getD 0 0 &&& 0x01 ≠ 0 → opt ⟨(bp.drop 108).take 128, 3, 4⟩ =
        opt' ⟨(bp.drop 108).take 128, 3, 4⟩ := by
      intro hbit
      refine h _ ?_
      rw [if_pos hbit]
      simp
    have hsname : value.getD 0 0 &&& 0x02 ≠ 0 → opt ⟨(bp.drop 44).take 64, 3, 4⟩ =
        opt' ⟨(bp.drop 44).take 64, 3, 4⟩ := by
      intro hbit
      refine h _ ?_
      rw [if_pos hbit]
      simp
    by_cases hbit : value.getD 0 0 &&& 0x01 ≠ 0 <;> by_cases hbit' : value.getD 0 0 &&& 0x02 ≠ 0
    · simp only [if_pos hbit, if_pos hbit', hextract _ _ (hfile hbit), hextract _ _ (hsname hbit')]
    · simp only [if_pos hbit, if_neg hbit', hextract _ _ (hfile hbit)]
    · simp only [if_neg hbit, if_pos hbit', hextract _ _ (hsname hbit')]
    · simp only [if_neg hbit, if_neg hbit']

theorem readBy_congr (h : ∀ u ∈ (gate.readBy bp opt).1, opt u = opt' u) :
    gate.readBy bp opt = gate.readBy bp opt' := by
  unfold readBy at h ⊢
  split
  · rfl
  next hlen =>
  split
  · rfl
  next hop =>
  split
  · rfl
  next hxid =>
  split
  · rfl
  next hmac =>
  split
  · rfl
  next hcookie =>
  simp only [if_neg hlen, if_neg hop, if_neg hxid, if_neg hmac, if_neg hcookie] at h
  have htype : opt ⟨bp.drop kBootpFixedLen, 53, 1⟩ = opt' ⟨bp.drop kBootpFixedLen, 53, 1⟩ := by
    refine h _ ?_
    split
    · simp
    · split <;> simp
  dsimp only
  rw [← htype]
  cases hopt : opt ⟨bp.drop kBootpFixedLen, 53, 1⟩ with
  | none => rfl
  | some value =>
    simp only [hopt] at h ⊢
    split
    · rfl
    · next hgate =>
      rw [if_neg hgate] at h
      have hserver := h ⟨bp.drop kBootpFixedLen, 54, 4⟩ (by simp)
      have hlease := h ⟨bp.drop kBootpFixedLen, 51, 4⟩ (by simp)
      have hrouter := routerBy_congr bp (bp.drop kBootpFixedLen)
        fun u hu => h u (List.mem_append_right _ hu)
      rw [hserver, hlease, hrouter]

/-- **Every option has its length exactly when none that is read is too long.** `findDhcpOption` ends and
finds the first item of a code for all options there are; a reply is read by the lengths of its items if
and only if no option that is looked at in it is longer than its length. -/
theorem reads_exactly_iff (gate : ReplyGate) (bp : List UInt8) :
    ((∀ opts code outLen, FindsFirst opts code outLen) ∧ gate.ReadsExactly bp) ↔
      ∀ u ∈ gate.uses bp, ¬ u.Overlong := by
  constructor
  · rintro ⟨-, hexact⟩ u hu
    exact u.used_eq_exact_iff.mp (hexact.uses u hu)
  · intro hfit
    have huses : ∀ u ∈ gate.uses bp, u.used = u.exact :=
      fun u hu => u.used_eq_exact_iff.mpr (hfit u hu)
    refine ⟨findsFirst, huses, ?_⟩
    rw [read_eq, readBy_congr huses]

/-- An ACK for the client 02:00:00:00:00:01 whose lease time of 60 s has two bytes more. -/
def longLeaseReply : List UInt8 :=
  [2, 1, 6, 0] ++ [0, 0, 0, 1] ++ List.replicate 20 0 ++ [2, 0, 0, 0, 0, 1] ++ List.replicate 202 0 ++
    [0x63, 0x82, 0x53, 0x63] ++ [53, 1, 5, 51, 6, 0, 0, 0, 60, 9, 9, 255]

/-- A poll for an ACK with the transaction id 1. -/
def ackGate : ReplyGate := ⟨.None, #v[2, 0, 0, 0, 0, 1], 0x01000000, kDhcpAck⟩

/-- **A lease time of six bytes is taken for one of four.** -/
theorem not_reads_exactly_long_lease :
    pollForReply ackGate [longLeaseReply] = some ⟨0, 0, 60, kDhcpAck, 0⟩ ∧
    firstValue (longLeaseReply.drop kBootpFixedLen) 51 = some [0, 0, 0, 60, 9, 9] ∧
    (ackGate.readBy longLeaseReply OptionUse.exact).2 = some ⟨0, 0, 0, kDhcpAck, 0⟩ ∧
    ¬ ackGate.ReadsExactly longLeaseReply := by
  have hread : ackGate.read longLeaseReply = some ⟨0, 0, 60, kDhcpAck, 0⟩ := by decide +kernel
  have hexact : (ackGate.readBy longLeaseReply OptionUse.exact).2 = some ⟨0, 0, 0, kDhcpAck, 0⟩ := by
    decide +kernel
  refine ⟨by decide +kernel, by decide +kernel, hexact, fun h => ?_⟩
  have hsame := hread.symm.trans (h.reply.trans hexact)
  exact absurd hsame (by decide)

end ReplyGate

end Tc8Harness.Dut
