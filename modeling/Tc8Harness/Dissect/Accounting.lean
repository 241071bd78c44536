import Tc8Harness.Dissect.FrameEnd

/-!
# Every frame is accounted for

A frame is accounted for when, no event of it having reached the listener, something says why, and
when a failure of the case's own code on it is one consumer fault and nothing else.
`frameAccounted_iff` says when one frame is, `runAccounted_iff` when all frames of a run are: each
was captured as Ethernet, and none acknowledged a step on which the marker handler throws. The
pipeline gives the event listener's failures a type of their own and not the marker handler's, so the
latter are counted as undissectable frames (`runAccounted_fails_on_throwing_marker`).
-/

namespace Tc8Harness.Dissect

open Wire

section

variable {σ φ : Type} (env : Env σ φ)

/-! ## What accounting for a frame means -/

/-- The frame is counted in exactly one of the two counters of lost frames. -/
def CountedOnce (before after : DissectionStats) : Prop :=
  (after.framesTruncated = before.framesTruncated + 1 ∧
      after.framesUndissectable = before.framesUndissectable) ∨
    (after.framesTruncated = before.framesTruncated ∧
      after.framesUndissectable = before.framesUndissectable + 1)

/-- One frame, handed in with the pipeline in state `s`, is accounted for. -/
structure FrameAccounted (s : Pipeline σ φ) (f : PcapFrame) : Prop where
  /-- No event of the frame reached the listener: something says why. -/
  silent : (∀ c ∈ (processFrame env s f).calls, c.isEvent = false) →
    OtherEtherType f ∨ Withheld env f ∨ CountedOnce s.stats (processFrame env s f).stats
  /-- The case's own code threw on it: that is one consumer fault, and no undissectable frame. -/
  faulted : (∃ c ∈ (processFrame env s f).calls, c.threw ≠ none) →
    (processFrame env s f).stats.consumerFaults = s.stats.consumerFaults + 1 ∧
      (processFrame env s f).stats.framesUndissectable = s.stats.framesUndissectable

/-- The frame cannot be told to be the tester's own. -/
def possiblyDut (bytes : List UInt8) : Bool :=
  ¬ (env.dutMac ≠ List.replicate 6 0 ∧ bytes.length ≥ 6 + 6 ∧ (bytes.drop 6).take 6 ≠ env.dutMac)

theorem noteUndissectable_counts (bytes : List UInt8) (idx : Nat) (reason : String)
    (st : DissectionStats) :
    (noteUndissectable env bytes idx reason st).framesSeen = st.framesSeen ∧
      (noteUndissectable env bytes idx reason st).framesTruncated = st.framesTruncated ∧
      (noteUndissectable env bytes idx reason st).framesUndissectable =
        st.framesUndissectable + 1 ∧
      (noteUndissectable env bytes idx reason st).consumerFaults = st.consumerFaults ∧
      (noteUndissectable env bytes idx reason st).firstConsumerFaultFrame =
        st.firstConsumerFaultFrame ∧
      (noteUndissectable env bytes idx reason st).firstUndissectableFrame =
        st.firstUndissectableFrame.or (if possiblyDut env bytes then some idx else none) := by
  unfold noteUndissectable
  dsimp only
  by_cases hmac : env.dutMac ≠ List.replicate 6 0 ∧ bytes.length ≥ 6 + 6 ∧
      (bytes.drop 6).take 6 ≠ env.dutMac
  · have hdut : possiblyDut env bytes = false := decide_eq_false (not_not.2 hmac)
    rw [if_pos hmac, hdut]
    exact ⟨rfl, rfl, rfl, rfl, rfl, by simp⟩
  · have hdut : possiblyDut env bytes = true := decide_eq_true hmac
    rw [if_neg hmac, hdut]
    rcases st.firstUndissectableFrame with _ | i
    · exact ⟨rfl, rfl, rfl, rfl, rfl, rfl⟩
    · exact ⟨rfl, rfl, rfl, rfl, rfl, rfl⟩

theorem settle_consumer_counts (bytes : List UInt8) (idx : Nat) (what : String)
    (st : DissectionStats) :
    (settle env bytes idx (.error (.consumer what)) st).framesSeen = st.framesSeen ∧
      (settle env bytes idx (.error (.consumer what)) st).framesUndissectable =
        st.framesUndissectable ∧
      (settle env bytes idx (.error (.consumer what)) st).consumerFaults =
        st.consumerFaults + 1 ∧
      (settle env bytes idx (.error (.consumer what)) st).firstConsumerFaultFrame =
        st.firstConsumerFaultFrame.or (some idx) ∧
      (settle env bytes idx (.error (.consumer what)) st).firstUndissectableFrame =
        st.firstUndissectableFrame := by
  unfold settle
  dsimp only
  rcases st.firstConsumerFaultFrame with _ | i
  · exact ⟨rfl, rfl, rfl, rfl, rfl⟩
  · exact ⟨rfl, rfl, rfl, rfl, rfl⟩

/-- One frame is accounted for exactly when it meets the condition. -/
theorem frameAccounted_iff (s : Pipeline σ φ) (f : PcapFrame) :
    FrameAccounted env s f ↔ MeetsCondition env s f := by
  have hno : ∀ {l : List Call}, l = [] → ¬ ∃ c ∈ l, c.threw ≠ none := by
    rintro _ rfl ⟨c, hc, -⟩
    cases hc
  have hquiet : ∀ {l : List Call}, (∀ c ∈ l, c.threw = none) → ¬ ∃ c ∈ l, c.threw ≠ none :=
    fun h ⟨c, hc, ht⟩ => ht (h c hc)
  have hloud : ∀ {l : List Call}, (∃ c ∈ l, c.isEvent = true) → ¬ ∀ c ∈ l, c.isEvent = false :=
    fun ⟨c, hc, he⟩ h => Bool.noConfusion (he.symm.trans (h c hc))
  cases processFrame_end env s f with
  | notEthernet hdlt hcalls hstats =>
    refine iff_of_false (fun h => ?_) fun h => hdlt h.1
    rcases h.silent (by rw [hcalls]; intro c hc; cases hc) with ho | hw | hc
    · exact hdlt ho.1
    · exact hdlt hw.1
    · rw [hstats] at hc
      rcases hc with ⟨ht, -⟩ | ⟨-, hu⟩
      · exact Nat.succ_ne_self _ ht.symm
      · exact Nat.succ_ne_self _ hu.symm
  | truncated meets hcalls hstats =>
    refine iff_of_true ⟨fun _ => .inr (.inr (.inl ?_)), fun h => absurd h (hno hcalls)⟩ meets
    rw [hstats]
    exact ⟨rfl, rfl⟩
  | notObserved meets other hcalls hstats =>
    exact iff_of_true ⟨fun _ => .inl other, fun h => absurd h (hno hcalls)⟩ meets
  | withheld meets held _ quiet _ =>
    exact iff_of_true ⟨fun _ => .inr (.inl held), fun h => absurd h (hquiet quiet)⟩ meets
  | markerThrew throws threw reason hstats =>
    refine iff_of_false (fun h => ?_) fun h => h.2 throws
    have hu := (h.faulted threw).2
    rw [hstats, (noteUndissectable_counts env _ _ _ _).2.2.1] at hu
    exact Nat.succ_ne_self _ hu
  | handedOn meets event quiet _ =>
    exact iff_of_true ⟨fun h => absurd h (hloud event), fun h => absurd h (hquiet quiet)⟩ meets
  | unreadable meets quiet reason hstats =>
    refine iff_of_true ⟨fun _ => .inr (.inr (.inr ?_)), fun h => absurd h (hquiet quiet)⟩ meets
    obtain ⟨-, htrunc, hundis, -⟩ :=
      noteUndissectable_counts env f.bytes s.stats.framesSeen reason (seenStats s)
    rw [hstats]
    exact ⟨htrunc, hundis⟩
  | consumerFault meets event threw what hstats =>
    refine iff_of_true ⟨fun h => absurd h (hloud event), fun _ => ?_⟩ meets
    obtain ⟨-, hundis, hfaults, -⟩ :=
      settle_consumer_counts env f.bytes s.stats.framesSeen what (seenStats s)
    rw [hstats]
    exact ⟨hfaults, hundis⟩

/-! ## Whole runs -/

/-- What happens to the pipeline from outside: a frame is handed in, or the stimulus side registers
or withdraws an acknowledgement, or the case's own code moves on between two frames. -/
inductive Op (σ : Type) where
  | frame (f : PcapFrame)
  | expect (name : String) (matches_ : List UInt8 → Bool)
  | withdraw (token : Nat)
  | consumer (g : σ → σ)

def step (s : Pipeline σ φ) : Op σ → Pipeline σ φ
  | .frame f => processFrame env s f
  | .expect name m =>
    { s with
      lastToken := s.lastToken + 1
      markers := s.markers ++ [⟨s.lastToken + 1, name, m⟩] }
  | .withdraw token => { s with markers := s.markers.eraseP fun m => m.token == token }
  | .consumer g => { s with consumer := g s.consumer }

def run (s : Pipeline σ φ) (ops : List (Op σ)) : Pipeline σ φ := ops.foldl (step env) s

/-- The calls of `processFrame` in a run, each with the state it started from. -/
def frameSteps (s : Pipeline σ φ) : List (Op σ) → List (Pipeline σ φ × PcapFrame)
  | [] => []
  | .frame f :: ops => (s, f) :: frameSteps (processFrame env s f) ops
  | .expect name m :: ops => frameSteps (step env s (.expect name m)) ops
  | .withdraw token :: ops => frameSteps (step env s (.withdraw token)) ops
  | .consumer g :: ops => frameSteps (step env s (.consumer g)) ops

/-- The call counted its frame as undissectable, and the frame may have been the DUT's. -/
def countedPossiblyDut (c : Pipeline σ φ × PcapFrame) : Bool :=
  (processFrame env c.1 c.2).stats.framesUndissectable != c.1.stats.framesUndissectable &&
    possiblyDut env c.2.bytes

/-- The case's own code threw during the call. -/
def caseThrew (c : Pipeline σ φ × PcapFrame) : Bool :=
  (processFrame env c.1 c.2).calls.any fun call => call.threw.isSome

/-- Every frame of a run is accounted for: all are counted as seen, each is accounted for on its own,
and the two `first` fields name the first frame of their kind. -/
structure RunAccounted (s : Pipeline σ φ) (ops : List (Op σ)) : Prop where
  seen : (run env s ops).stats.framesSeen = (frameSteps env s ops).length
  frames : ∀ c ∈ frameSteps env s ops, FrameAccounted env c.1 c.2
  firstUndissectable : (run env s ops).stats.firstUndissectableFrame =
    (frameSteps env s ops).findIdx? (countedPossiblyDut env)
  firstFault : (run env s ops).stats.firstConsumerFaultFrame =
    (frameSteps env s ops).findIdx? (caseThrew env)

theorem processFrame_framesSeen (s : Pipeline σ φ) (f : PcapFrame) :
    (processFrame env s f).stats.framesSeen = s.stats.framesSeen + 1 := by
  cases processFrame_end env s f with
  | notEthernet _ _ hstats => rw [hstats]; rfl
  | truncated _ _ hstats => rw [hstats]; rfl
  | notObserved _ _ _ hstats => rw [hstats]; rfl
  | withheld _ _ _ _ hstats => rw [hstats]; rfl
  | markerThrew _ _ _ hstats => rw [hstats, (noteUndissectable_counts env _ _ _ _).1]; rfl
  | handedOn _ _ _ hstats => rw [hstats]; rfl
  | unreadable _ _ _ hstats => rw [hstats, (noteUndissectable_counts env _ _ _ _).1]; rfl
  | consumerFault _ _ _ _ hstats => rw [hstats, (settle_consumer_counts env _ _ _ _).1]; rfl

/-- `firstUndissectableFrame` is set by the first call that counts such a frame. -/
theorem processFrame_firstUndissectable (s : Pipeline σ φ) (f : PcapFrame) :
    (processFrame env s f).stats.firstUndissectableFrame = s.stats.firstUndissectableFrame.or
      (if countedPossiblyDut env (s, f) then some s.stats.framesSeen else none) := by
  have hsame : ∀ {st : DissectionStats}, (processFrame env s f).stats = st →
      st.framesUndissectable = s.stats.framesUndissectable →
      st.firstUndissectableFrame = s.stats.firstUndissectableFrame →
      (processFrame env s f).stats.firstUndissectableFrame = s.stats.firstUndissectableFrame.or
        (if countedPossiblyDut env (s, f) then some s.stats.framesSeen else none) := by
    intro st hstats hundis hfirst
    have hcount : countedPossiblyDut env (s, f) = false := by
      simp [countedPossiblyDut, hstats, hundis]
    simp [hstats, hcount, hfirst]
  have hnoted : ∀ {reason : String}, (processFrame env s f).stats =
        noteUndissectable env f.bytes s.stats.framesSeen reason (seenStats s) →
      (processFrame env s f).stats.firstUndissectableFrame = s.stats.firstUndissectableFrame.or
        (if countedPossiblyDut env (s, f) then some s.stats.framesSeen else none) := by
    intro reason hstats
    obtain ⟨-, -, hundis, -, -, hfirst⟩ :=
      noteUndissectable_counts env f.bytes s.stats.framesSeen reason (seenStats s)
    have hcounted : (processFrame env s f).stats.framesUndissectable =
        s.stats.framesUndissectable + 1 := by
      rw [hstats]
      exact hundis
    have hcount : countedPossiblyDut env (s, f) = possiblyDut env f.bytes := by
      simp [countedPossiblyDut, hcounted]
    rw [hcount, hstats, hfirst]
    rfl
  cases processFrame_end env s f with
  | notEthernet _ _ hstats => exact hsame hstats rfl rfl
  | truncated _ _ hstats => exact hsame hstats rfl rfl
  | notObserved _ _ _ hstats => exact hsame hstats rfl rfl
  | withheld _ _ _ _ hstats => exact hsame hstats rfl rfl
  | markerThrew _ _ _ hstats => exact hnoted hstats
  | handedOn _ _ _ hstats => exact hsame hstats rfl rfl
  | unreadable _ _ _ hstats => exact hnoted hstats
  | consumerFault _ _ _ _ hstats =>
    obtain ⟨-, hundis, -, -, hfirst⟩ := settle_consumer_counts env _ _ _ _
    exact hsame hstats hundis hfirst

/-- `firstConsumerFaultFrame` is set by the first call on which the case's code throws. -/
theorem processFrame_firstFault {s : Pipeline σ φ} {f : PcapFrame}
    (meets : MeetsCondition env s f) :
    (processFrame env s f).stats.firstConsumerFaultFrame = s.stats.firstConsumerFaultFrame.or
      (if caseThrew env (s, f) then some s.stats.framesSeen else none) := by
  have hsame : ∀ {st : DissectionStats}, (processFrame env s f).stats = st →
      st.firstConsumerFaultFrame = s.stats.firstConsumerFaultFrame →
      (∀ c ∈ (processFrame env s f).calls, c.threw = none) →
      (processFrame env s f).stats.firstConsumerFaultFrame =
        s.stats.firstConsumerFaultFrame.or
          (if caseThrew env (s, f) then some s.stats.framesSeen else none) := by
    intro st hstats hfirst hquiet
    have hthrew : caseThrew env (s, f) = false := by
      refine List.any_eq_false.2 fun c hc => ?_
      rw [hquiet c hc]
      simp
    simp [hstats, hthrew, hfirst]
  have hnil : ∀ {l : List Call}, l = [] → ∀ c ∈ l, c.threw = none := by
    rintro _ rfl c hc
    cases hc
  cases processFrame_end env s f with
  | notEthernet hdlt _ _ => exact absurd meets.1 hdlt
  | truncated _ hcalls hstats => exact hsame hstats rfl (hnil hcalls)
  | notObserved _ _ hcalls hstats => exact hsame hstats rfl (hnil hcalls)
  | withheld _ _ _ quiet hstats => exact hsame hstats rfl quiet
  | markerThrew throws _ _ _ => exact absurd throws meets.2
  | handedOn _ _ quiet hstats => exact hsame hstats rfl quiet
  | unreadable _ quiet _ hstats =>
    obtain ⟨-, -, -, -, hfault, -⟩ := noteUndissectable_counts env _ _ _ _
    exact hsame hstats hfault quiet
  | consumerFault _ _ threw what hstats =>
    obtain ⟨-, -, -, hfirst, -⟩ :=
      settle_consumer_counts env f.bytes s.stats.framesSeen what (seenStats s)
    have hthrew : caseThrew env (s, f) = true := by
      obtain ⟨c, hc, ht⟩ := threw
      exact List.any_eq_true.2 ⟨c, hc, Option.isSome_iff_ne_none.2 ht⟩
    rw [hstats, hfirst, hthrew]
    rfl

theorem run_framesSeen (s : Pipeline σ φ) (ops : List (Op σ)) :
    (run env s ops).stats.framesSeen = s.stats.framesSeen + (frameSteps env s ops).length := by
  induction ops generalizing s with
  | nil => rfl
  | cons op ops ih =>
    have hrest := ih (step env s op)
    cases op with
    | frame f =>
      have hseen : (step env s (.frame f)).stats.framesSeen = s.stats.framesSeen + 1 :=
        processFrame_framesSeen env s f
      rw [hseen] at hrest
      change (run env (processFrame env s f) ops).stats.framesSeen =
        s.stats.framesSeen + ((frameSteps env (processFrame env s f) ops).length + 1)
      rw [Nat.add_comm _ 1, ← Nat.add_assoc]
      exact hrest
    | expect name m => exact hrest
    | withdraw token => exact hrest
    | consumer g => exact hrest

/-- **Run lemma** for a field that keeps the index of the first call with property `p`. -/
theorem run_first {first : DissectionStats → Option Nat} {p : Pipeline σ φ × PcapFrame → Bool}
    {s : Pipeline σ φ} {ops : List (Op σ)}
    (hstep : ∀ c ∈ frameSteps env s ops, first (processFrame env c.1 c.2).stats =
      (first c.1.stats).or (if p c then some c.1.stats.framesSeen else none)) :
    first (run env s ops).stats = (first s.stats).or
      (((frameSteps env s ops).findIdx? p).map (· + s.stats.framesSeen)) := by
  induction ops generalizing s with
  | nil => exact (Option.or_none).symm
  | cons op ops ih =>
    cases op with
    | frame f =>
      have hrest := @ih (processFrame env s f) fun c hc => hstep c (List.mem_cons_of_mem _ hc)
      have hhead := hstep (s, f) (List.mem_cons_self)
      dsimp only at hhead
      rw [hhead, processFrame_framesSeen, Option.or_assoc] at hrest
      refine hrest.trans (congrArg _ ?_)
      change _ = (((s, f) :: frameSteps env (processFrame env s f) ops).findIdx? p).map _
      rw [List.findIdx?_cons]
      rcases p (s, f) with _ | _
      · simp [Option.map_map, Function.comp_def, Nat.add_comm, Nat.add_left_comm]
      · simp
    | expect name m => exact @ih (step env s (.expect name m)) hstep
    | withdraw token => exact @ih (step env s (.withdraw token)) hstep
    | consumer g => exact @ih (step env s (.consumer g)) hstep

/-- A pipeline as it is constructed. -/
def Pipeline.fresh (consumer : σ) (follower : φ) : Pipeline σ φ :=
  { consumer := consumer, follower := follower }

/-- **Every frame is accounted for.** In a run from a fresh pipeline, with a listener, a marker
handler and a follower that may throw on any call, all frames are accounted for exactly when each was
captured as Ethernet and none acknowledged a step on which the marker handler throws. -/
theorem runAccounted_iff (consumer : σ) (follower : φ) (ops : List (Op σ)) :
    RunAccounted env (Pipeline.fresh consumer follower) ops ↔
      ∀ c ∈ frameSteps env (Pipeline.fresh consumer follower) ops, MeetsCondition env c.1 c.2 := by
  constructor
  · intro h c hc
    exact (frameAccounted_iff env c.1 c.2).1 (h.frames c hc)
  · intro h
    refine ⟨?_, fun c hc => (frameAccounted_iff env c.1 c.2).2 (h c hc), ?_, ?_⟩
    · exact (run_framesSeen env _ ops).trans (Nat.zero_add _)
    · have hfirst := @run_first σ φ env (·.firstUndissectableFrame) (countedPossiblyDut env)
        (Pipeline.fresh consumer follower) ops
        fun c _ => processFrame_firstUndissectable env c.1 c.2
      simpa [Pipeline.fresh] using hfirst
    · have hfirst := @run_first σ φ env (·.firstConsumerFaultFrame) (caseThrew env)
        (Pipeline.fresh consumer follower) ops
        fun c hc => processFrame_firstFault env (h c hc)
      simpa [Pipeline.fresh] using hfirst

end

/-! ## A marker handler that throws -/

/-- A case whose marker handler throws, run with control port 30600. -/
def throwingMarkerEnv : Env Unit Unit where
  listener := fun s _ => (s, none)
  markerListener := some fun s _ => (s, some (.std "no such transition"))
  processPacket := fun s _ => .done s
  controlPlanePort := 30600

/-- The acknowledgement of a step: a UDP datagram from port 30600, captured whole. -/
def ackFrame : PcapFrame where
  bytes := [2, 0, 0, 0, 0, 1, 2, 0, 0, 0, 0, 2, 0x08, 0x00,
    0x45, 0, 0, 28, 0, 0, 0, 0, 64, 17, 0, 0, 10, 0, 0, 2, 10, 0, 0, 1,
    0x77, 0x88, 0xC0, 0, 0, 8, 0, 0]
  len := 42
  tvSec := 0
  tvUsec := 0
  datalink := kDltEn10mb

/-- The run registers the acknowledgement, and the frame then delivers it. -/
def throwingMarkerOps : List (Op Unit) := [.expect "install_static_entry" fun _ => true, .frame ackFrame]

theorem throwingMarker_withheld : Withheld throwingMarkerEnv ackFrame := by
  refine ⟨rfl, by decide, ?_⟩
  exact ⟨_, _, rfl, by decide, rfl, by decide⟩

/-- The one frame of this run is not accounted for: the case's own code threw on it, and it is counted
as undissectable. -/
theorem runAccounted_fails_on_throwing_marker :
    ¬ RunAccounted throwingMarkerEnv (Pipeline.fresh () ()) throwingMarkerOps := by
  intro h
  have hframe := h.frames _ (List.mem_singleton_self _)
  refine ((frameAccounted_iff throwingMarkerEnv _ _).1 hframe).2 ⟨throwingMarker_withheld, ?_⟩
  exact ⟨_, "install_static_entry", rfl, rfl, by simp⟩

end Tc8Harness.Dissect
