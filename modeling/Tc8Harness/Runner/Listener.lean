import Tc8Harness.Dissect.FrameEnd
import Tc8Harness.Runner.Holding

/-!
# The runner as the pipeline's listener

`TestCommand` gives the `PacketPipeline` its two listeners: an event goes to the runner's `onCaptured`, and,
where the case observes markers, the name of an acknowledged step to its `onStimulusApplied`. Before each
frame `RunCapture::dispatchFrom` sets the runner's index slot.

The runner takes a frame as the list of its items. Here is where the items come from: the runner after
`processFrame` is the runner after `onFrame` on the items the pipeline has called it on
(`processFrame_onFrame`), so that a capture of any frames is a run of deliveries
(`captureFrames_run`). What `CallRun` says of a frame holds of any consumer: its calls are made one after the
other, and none is made after one that threw.
-/

namespace Tc8Harness.Dissect

open Wire

section

variable {σ φ α β : Type} (env : Env σ φ)

/-- The case's code, called as `calls` says, goes from one state to another; whether the last call threw. -/
inductive CallRun : σ → List Call → σ → Bool → Prop
  | nil (c : σ) : CallRun c [] c false
  | event {c c' c'' : σ} {ev : CapturedEvent} {calls : List Call} {threw : Bool}
      (hcall : env.listener c ev = (c', none)) (hrest : CallRun c' calls c'' threw) :
      CallRun c (.event ev none :: calls) c'' threw
  | eventThrew {c c' : σ} {ev : CapturedEvent} {t : Thrown} (hcall : env.listener c ev = (c', some t)) :
      CallRun c [.event ev (some t)] c' true
  | marker {c c' c'' : σ} {handler : σ → String → σ × Option Thrown} {name : String} {calls : List Call}
      {threw : Bool} (hlistener : env.markerListener = some handler) (hcall : handler c name = (c', none))
      (hrest : CallRun c' calls c'' threw) : CallRun c (.marker name none :: calls) c'' threw
  | markerThrew {c c' : σ} {handler : σ → String → σ × Option Thrown} {name : String} {t : Thrown}
      (hlistener : env.markerListener = some handler) (hcall : handler c name = (c', some t)) :
      CallRun c [.marker name (some t)] c' true

/-- A computation calls the case's code in this way, and is left by what a call throws. -/
def Consumes (m : M σ φ α) : Prop :=
  ∀ s : Pipeline σ φ, ∃ new threw, (m s).2.calls = s.calls ++ new ∧
    CallRun env s.consumer new (m s).2.consumer threw ∧ (threw = true → ∃ e, (m s).1 = .error e)

variable {env}

theorem CallRun.append {c c' c'' : σ} {calls more : List Call} {threw : Bool}
    (h : CallRun env c calls c' false) (h' : CallRun env c' more c'' threw) :
    CallRun env c (calls ++ more) c'' threw := by
  generalize hnone : false = none' at h
  induction h with
  | nil c => exact h'
  | event hcall _ ih => exact .event hcall (ih h' hnone)
  | eventThrew => cases hnone
  | marker hlistener hcall _ ih => exact .marker hlistener hcall (ih h' hnone)
  | markerThrew => cases hnone

/-- A computation that calls nothing. -/
theorem Consumes.still {m : M σ φ α}
    (h : ∀ s, (m s).2.calls = s.calls ∧ (m s).2.consumer = s.consumer) : Consumes env m := by
  intro s
  refine ⟨[], false, by rw [(h s).1, List.append_nil], ?_, fun hthrew => Bool.noConfusion hthrew⟩
  rw [(h s).2]
  exact .nil _

theorem Consumes.bind {m : M σ φ α} {k : α → M σ φ β} (hm : Consumes env m)
    (hk : ∀ a, Consumes env (k a)) : Consumes env (m >>= k) := by
  intro s
  obtain ⟨new, threw, hcalls, hcallRun, herror⟩ := hm s
  rw [bind_run]
  rcases hrun : m s with ⟨r, s'⟩
  rw [hrun] at hcalls hcallRun herror
  cases r with
  | error e => exact ⟨new, threw, hcalls, hcallRun, fun _ => ⟨e, rfl⟩⟩
  | ok a =>
    have hnone : threw = false := by
      cases threw with
      | false => rfl
      | true =>
        obtain ⟨e, he⟩ := herror rfl
        cases he
    subst hnone
    obtain ⟨new', threw', hcalls', hcallRun', herror'⟩ := hk a s'
    exact ⟨new ++ new', threw', by rw [hcalls', hcalls, List.append_assoc], hcallRun.append hcallRun', herror'⟩

theorem Consumes.forM {l : List α} {f : α → M σ φ Unit} (hf : ∀ a, Consumes env (f a)) :
    Consumes env (l.forM f) := by
  induction l with
  | nil => exact Consumes.still fun _ => ⟨rfl, rfl⟩
  | cons a l ih => exact (hf a).bind fun _ => ih

theorem consumes_callListener (ev : CapturedEvent) : Consumes env (callListener env ev) := by
  intro s
  unfold callListener
  rcases hcall : env.listener s.consumer ev with ⟨consumer, threw⟩
  rcases threw with _ | ⟨what⟩ | _
  · exact ⟨_, false, rfl, .event hcall (.nil _), fun hthrew => Bool.noConfusion hthrew⟩
  · exact ⟨_, true, rfl, .eventThrew hcall, fun _ => ⟨_, rfl⟩⟩
  · exact ⟨_, true, rfl, .eventThrew hcall, fun _ => ⟨_, rfl⟩⟩

theorem consumes_callMarker {handler : σ → String → σ × Option Thrown}
    (hlistener : env.markerListener = some handler) (name : String) : Consumes env (callMarker handler name) := by
  intro s
  unfold callMarker
  rcases hcall : handler s.consumer name with ⟨consumer, threw⟩
  cases threw with
  | none => exact ⟨_, false, rfl, .marker hlistener hcall (.nil _), fun hthrew => Bool.noConfusion hthrew⟩
  | some t => exact ⟨_, true, rfl, .markerThrew hlistener hcall, fun _ => ⟨_, rfl⟩⟩

theorem consumes_get : Consumes env (MonadState.get : M σ φ (Pipeline σ φ)) :=
  Consumes.still fun _ => ⟨rfl, rfl⟩

theorem consumes_feed (t : Transport) (data : List UInt8) : Consumes env (feed env t data) := by
  unfold feed
  refine consumes_get.bind fun s => Consumes.bind (Consumes.still fun _ => ⟨rfl, rfl⟩) fun _ => ?_
  exact (Consumes.forM fun f => consumes_callListener _).bind fun _ => Consumes.still fun _ => ⟨rfl, rfl⟩

theorem consumes_onStreamData (d : StreamData) : Consumes env (onStreamData env d) := by
  unfold onStreamData
  split
  · exact Consumes.still fun _ => ⟨rfl, rfl⟩
  · exact consumes_get.bind fun _ => consumes_feed _ _

theorem consumes_runFollower (run : FollowerRun φ) : Consumes env (runFollower env run) := by
  induction run with
  | done state => exact Consumes.still fun _ => ⟨rfl, rfl⟩
  | throws t state => exact Consumes.still fun _ => ⟨rfl, rfl⟩
  | data d onThrow next ih =>
    intro s
    have hboth := (consumes_onStreamData d).bind (fun _ => ih) s
    rw [bind_run] at hboth
    unfold runFollower
    rcases hrun : onStreamData env d s with ⟨r, s'⟩
    rw [hrun] at hboth
    cases r with
    | ok a => exact hboth
    | error e => exact hboth

theorem consumes_deliver (t : Transport) (data : List UInt8) : Consumes env (deliver env t data) :=
  Consumes.forM fun _ => consumes_callListener _

theorem consumes_dissectUdp (ctx : FrameContext) (eth : EthernetFrame) (ip : Ipv4Header) (l4 : List UInt8) :
    Consumes env (dissectUdp env ctx eth ip l4) := by
  unfold dissectUdp
  split
  · exact Consumes.still fun _ => ⟨rfl, rfl⟩
  · refine (consumes_callListener _).bind fun _ => ?_
    split
    · exact Consumes.still fun _ => ⟨rfl, rfl⟩
    · split
      · exact (consumes_callListener _).bind fun _ => consumes_deliver _ _
      · exact consumes_deliver _ _

theorem consumes_dissectTcp (ctx : FrameContext) (ip : Ipv4Header) (l4 : List UInt8) :
    Consumes env (dissectTcp env ctx ip l4) := by
  unfold dissectTcp
  split
  · exact Consumes.still fun _ => ⟨rfl, rfl⟩
  · exact (consumes_callListener _).bind fun _ => consumes_get.bind fun _ => consumes_runFollower _

theorem consumes_withhold (bytes : List UInt8) : Consumes env (withhold env bytes) := by
  intro s
  rcases hlistener : env.markerListener with _ | handler
  · unfold withhold
    rw [hlistener]
    exact ⟨[], false, (List.append_nil _).symm, .nil _, fun hthrew => Bool.noConfusion hthrew⟩
  · rw [withhold_run_some env hlistener]
    split
    · exact ⟨[], false, (List.append_nil _).symm, .nil _, fun hthrew => Bool.noConfusion hthrew⟩
    · exact consumes_callMarker hlistener _ (withheldState bytes s)

theorem consumes_dissectIcmp (ctx : FrameContext) (ip : Ipv4Header) (l4 : List UInt8) :
    Consumes env (dissectIcmp env ctx ip l4) := by
  unfold dissectIcmp
  split
  · exact Consumes.still fun _ => ⟨rfl, rfl⟩
  · exact consumes_callListener _

theorem consumes_dissectIpv4 (ctx : FrameContext) (eth : EthernetFrame) (ip : Ipv4Header) :
    Consumes env (dissectIpv4 env ctx eth ip) := by
  unfold dissectIpv4
  refine (consumes_callListener _).bind fun _ => ?_
  split
  · exact Consumes.still fun _ => ⟨rfl, rfl⟩
  · dsimp only
    split
    · exact consumes_dissectIcmp _ _ _
    · split
      · exact consumes_dissectUdp _ _ _ _
      · split
        · exact consumes_dissectTcp _ _ _
        · exact Consumes.still fun _ => ⟨rfl, rfl⟩

theorem consumes_dissectFrame (bytes : List UInt8) (frameIdx : Nat) (observedTsUs : Int) :
    Consumes env (dissectFrame env bytes frameIdx observedTsUs) := by
  unfold dissectFrame
  split
  · exact Consumes.still fun _ => ⟨rfl, rfl⟩
  · dsimp only
    split
    · split
      · exact Consumes.still fun _ => ⟨rfl, rfl⟩
      · exact consumes_callListener _
    · split
      · exact Consumes.still fun _ => ⟨rfl, rfl⟩
      · split
        · exact Consumes.still fun _ => ⟨rfl, rfl⟩
        · split
          · exact consumes_withhold bytes
          · exact consumes_dissectIpv4 _ _ _

/-- The calls of one frame lead the case's code from where the frame found it to where the frame left it. -/
theorem processFrame_callRun (env : Env σ φ) (s : Pipeline σ φ) (f : PcapFrame) :
    ∃ threw, CallRun env s.consumer (processFrame env s f).calls (processFrame env s f).consumer threw := by
  by_cases hdlt : f.datalink = kDltEn10mb
  · by_cases hlen : f.len ≤ f.bytes.length
    · have hconsumes : Consumes env (dissectFrame env f.bytes s.stats.framesSeen (observedTsUsOf env f)) :=
        consumes_dissectFrame _ _ _
      obtain ⟨new, threw, hcalls, hcallRun, -⟩ := hconsumes (dissectStart env s f)
      rw [processFrame_eq env s f hdlt hlen]
      refine ⟨threw, ?_⟩
      show CallRun env s.consumer (dissectFrame env f.bytes _ _ _).2.calls _ threw
      rw [hcalls]
      exact hcallRun
    · rw [processFrame_truncated env s f hdlt hlen]
      exact ⟨false, .nil _⟩
  · rw [processFrame_not_ethernet env s f hdlt]
    exact ⟨false, .nil _⟩

end

end Tc8Harness.Dissect

namespace Tc8Harness.Sce.Runner

open Dissect

/-- What the pipeline called the runner on. -/
def itemOf : Call → Item CapturedEvent
  | .event ev _ => .event ev
  | .marker name _ => .marker name

section

variable {κ μ S A O φ : Type} [DecidableEq S] (case : Case κ μ S CapturedEvent A O) (clock : Nat → Int)
  (exception : Runner κ μ S CapturedEvent A O → Thrown)

/-- An item is handed to the runner; what it throws, which `exception` names, goes to the pipeline. -/
def listener (r : Runner κ μ S CapturedEvent A O) (i : Item CapturedEvent) :
    Runner κ μ S CapturedEvent A O × Option Thrown :=
  ({ r.onItem case clock i with thrown := false },
    if (r.onItem case clock i).thrown then some (exception (r.onItem case clock i)) else none)

/-- The pipeline of a run (`TestCommand`): markers have a listener where the case observes them. -/
def listening (env : Env (Runner κ μ S CapturedEvent A O) φ) : Env (Runner κ μ S CapturedEvent A O) φ :=
  { env with
    listener := fun r ev => r.listener case clock exception (.event ev)
    markerListener :=
      if case.onStimulusApplied.isSome then
        some fun r name => r.listener case clock exception (.marker name)
      else none }

/-- `RunCapture::dispatchFrom` on one frame: the index slot, then the pipeline. -/
def dispatchFrame (env : Env (Runner κ μ S CapturedEvent A O) φ)
    (s : Pipeline (Runner κ μ S CapturedEvent A O) φ) (d : Int × PcapFrame) :
    Pipeline (Runner κ μ S CapturedEvent A O) φ :=
  processFrame (listening case clock exception env)
    { s with consumer := s.consumer.setNextPcapFrameIdx d.1 } d.2

variable {case clock exception}

theorem listener_returned {r r' : Runner κ μ S CapturedEvent A O} {i : Item CapturedEvent}
    (h : r.listener case clock exception i = (r', none)) :
    r' = r.onItem case clock i ∧ r'.thrown = false := by
  obtain ⟨rfl, hnone⟩ := Prod.mk.inj h
  have hreturned : (r.onItem case clock i).thrown = false := by
    cases hthrown : (r.onItem case clock i).thrown with
    | false => rfl
    | true =>
      rw [hthrown] at hnone
      cases hnone
  exact ⟨by rw [← hreturned], rfl⟩

theorem listener_threw {r r' : Runner κ μ S CapturedEvent A O} {i : Item CapturedEvent} {t : Thrown}
    (h : r.listener case clock exception i = (r', some t)) :
    r' = { r.onItem case clock i with thrown := false } := (Prod.mk.inj h).1.symm

/-- The calls of the pipeline are the runner's items, one after the other up to one that throws. -/
theorem callRun_onItem {env : Env (Runner κ μ S CapturedEvent A O) φ} {r r' : Runner κ μ S CapturedEvent A O}
    {calls : List Call} {threw : Bool} (h : CallRun (listening case clock exception env) r calls r' threw)
    (hr : r.thrown = false) :
    r' = { (calls.map itemOf).foldl (fun r i => r.andThen (onItem case clock i)) r with thrown := false } := by
  have hmarkers : ∀ handler, (listening case clock exception env).markerListener = some handler →
      handler = fun r name => r.listener case clock exception (.marker name) := by
    intro handler hlistener
    unfold listening at hlistener
    dsimp only at hlistener
    split at hlistener
    · exact (Option.some.inj hlistener).symm
    · cases hlistener
  induction h with
  | nil r => rw [List.map_nil, List.foldl_nil, ← hr]
  | event hcall _ ih =>
    obtain ⟨rfl, hreturned⟩ := listener_returned hcall
    rw [List.map_cons, List.foldl_cons, andThen_of_not_thrown hr]
    exact ih hreturned
  | eventThrew hcall =>
    rw [listener_threw hcall, List.map_singleton, List.foldl_cons, List.foldl_nil, andThen_of_not_thrown hr]
    rfl
  | marker hlistener hcall _ ih =>
    rw [hmarkers _ hlistener] at hcall
    obtain ⟨rfl, hreturned⟩ := listener_returned hcall
    rw [List.map_cons, List.foldl_cons, andThen_of_not_thrown hr]
    exact ih hreturned
  | markerThrew hlistener hcall =>
    rw [hmarkers _ hlistener] at hcall
    rw [listener_threw hcall, List.map_singleton, List.foldl_cons, List.foldl_nil, andThen_of_not_thrown hr]
    rfl

/-- **One frame**: the runner after the pipeline has processed it is the runner after `onFrame` on the items
the pipeline called it on. -/
theorem processFrame_onFrame (env : Env (Runner κ μ S CapturedEvent A O) φ)
    {s : Pipeline (Runner κ μ S CapturedEvent A O) φ} (hr : s.consumer.thrown = false) (d : Int × PcapFrame) :
    (dispatchFrame case clock exception env s d).consumer =
      s.consumer.onFrame case clock d.1
        ((dispatchFrame case clock exception env s d).calls.map itemOf) := by
  obtain ⟨threw, hcallRun⟩ := processFrame_callRun (listening case clock exception env)
    { s with consumer := s.consumer.setNextPcapFrameIdx d.1 } d.2
  exact callRun_onItem hcallRun hr

/-- **A capture is a run of deliveries**: whatever frames the pipeline is handed and whatever it makes of
them, the runner goes through a run, one frame after the other. -/
theorem captureFrames_run (env : Env (Runner κ μ S CapturedEvent A O) φ)
    {s : Pipeline (Runner κ μ S CapturedEvent A O) φ} (hr : s.consumer.thrown = false)
    (frames : List (Int × PcapFrame)) :
    ∃ items : List (List (Item CapturedEvent)), items.length = frames.length ∧
      (frames.foldl (dispatchFrame case clock exception env) s).consumer =
        s.consumer.run case clock (((frames.map (·.1)).zip items).map fun d =>
          .loop (.deliver (.frame d.1 d.2))) := by
  induction frames generalizing s with
  | nil => exact ⟨[], rfl, rfl⟩
  | cons d frames ih =>
    have hone : (dispatchFrame case clock exception env s d).consumer = s.consumer.onFrame case clock d.1
        ((dispatchFrame case clock exception env s d).calls.map itemOf) := processFrame_onFrame env hr d
    have hcaught : (dispatchFrame case clock exception env s d).consumer.thrown = false := by
      rw [hone]
      rfl
    obtain ⟨items, hlen, hrun⟩ := ih hcaught
    refine ⟨(dispatchFrame case clock exception env s d).calls.map itemOf :: items, by simp [hlen], ?_⟩
    rw [List.foldl_cons, hrun, List.map_cons, List.zip_cons_cons, List.map_cons, Runner.run, Runner.run,
      List.foldl_cons, step_of_not_thrown case clock hr, hone]
    rfl

end

end Tc8Harness.Sce.Runner
