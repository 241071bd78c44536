import Mathlib

/-!
# What a run knows about its own observation

`include/tc8/capture_stats.h` and `include/tc8/dissection_stats.h`: the counters of each capture
source and of the dissector, and the predicates over them that the verdict reads. A source that could
not measure is unknown, neither clean nor lossy; `captureProvenComplete_iff` says what the run-level
predicate demands of every source.
-/

namespace Tc8Harness

/-- One capture source's accounting. The interface's name, the number of frames received and the list
of groups asked for are reported, but no decision reads them. -/
structure CaptureStats where
  available : Bool
  framesDroppedRing : UInt32
  framesDroppedIface : UInt32
  multicastGroupsFailed : List String
  deriving DecidableEq, Repr

namespace CaptureStats

def lostFrames (s : CaptureStats) : Bool :=
  s.available && (s.framesDroppedRing != 0 || s.framesDroppedIface != 0)

def multicastMembershipHeld (s : CaptureStats) : Bool := s.multicastGroupsFailed.isEmpty

/-- The source measured, lost nothing and held every group it needed. -/
structure Whole (s : CaptureStats) : Prop where
  measured : s.available = true
  noRingDrop : s.framesDroppedRing = 0
  noIfaceDrop : s.framesDroppedIface = 0
  held : s.multicastGroupsFailed = []

end CaptureStats

def anySourceLostFrames (sources : List CaptureStats) : Bool := sources.any CaptureStats.lostFrames

/-- False of an empty list: no source reporting is no evidence of completeness. -/
def everySourceMeasured (sources : List CaptureStats) : Bool :=
  !sources.isEmpty && sources.all CaptureStats.available

def anySourceMissingMulticastMembership (sources : List CaptureStats) : Bool :=
  sources.any fun s => !s.multicastMembershipHeld

def captureProvenComplete (sources : List CaptureStats) : Bool :=
  everySourceMeasured sources && !anySourceLostFrames sources &&
    !anySourceMissingMulticastMembership sources

/-- The run-level predicate is the three per-source facts, of every source of a non-empty list. -/
theorem captureProvenComplete_iff (sources : List CaptureStats) :
    captureProvenComplete sources = true ↔ sources ≠ [] ∧ ∀ s ∈ sources, s.Whole := by
  simp only [captureProvenComplete, everySourceMeasured, anySourceLostFrames,
    anySourceMissingMulticastMembership, Bool.and_eq_true, Bool.not_eq_true', List.any_eq_false,
    List.all_eq_true, List.isEmpty_eq_false_iff, CaptureStats.lostFrames,
    CaptureStats.multicastMembershipHeld]
  constructor
  · rintro ⟨⟨⟨hne, hmeasured⟩, hlost⟩, hheld⟩
    refine ⟨hne, fun s hs => ?_⟩
    have h1 := hmeasured s hs
    have h2 := hlost s hs
    have h3 := hheld s hs
    simp only [h1, Bool.or_eq_true, bne_iff_ne, ne_eq, true_and, not_or, not_not] at h2
    exact ⟨h1, h2.1, h2.2, by simpa using h3⟩
  · rintro ⟨hne, hall⟩
    refine ⟨⟨⟨hne, fun s hs => (hall s hs).measured⟩, fun s hs => ?_⟩, fun s hs => ?_⟩
    · simp [(hall s hs).noRingDrop, (hall s hs).noIfaceDrop]
    · simp [(hall s hs).held]

/-- What became of every frame the dissector was handed. Counts are natural numbers: a run does not
reach `2 ^ 64` frames. -/
structure DissectionStats where
  framesSeen : Nat := 0
  framesTruncated : Nat := 0
  framesUndissectable : Nat := 0
  framesUndissectablePossiblyDut : Nat := 0
  firstUndissectableFrame : Option Nat := none
  firstUndissectableReason : String := ""
  consumerFaults : Nat := 0
  firstConsumerFaultFrame : Option Nat := none
  firstConsumerFaultReason : String := ""
  deriving DecidableEq, Repr

def DissectionStats.observationComplete (d : DissectionStats) : Bool :=
  d.framesTruncated == 0 && d.framesUndissectablePossiblyDut == 0

theorem DissectionStats.observationComplete_iff (d : DissectionStats) :
    d.observationComplete = true ↔
      d.framesTruncated = 0 ∧ d.framesUndissectablePossiblyDut = 0 := by
  simp [observationComplete]

end Tc8Harness
