import SocksPool.Word

/-!
# Worker slots

A job runs in a *slot*. A `Slots` value counts the slots that may be taken
(`capacity`), those that are (`running`), and remembers whether the workers
are closed to new jobs. Shrinking the capacity interrupts no job: a job
starts only while fewer jobs run than the capacity allows.

## Main results

* `capacity_pos_tune` — tuning leaves room for at least one job.
-/

namespace SocksPool

/-- The slots of a group of workers. -/
structure Slots where
  capacity : Nat
  running : Nat := 0
  closed : Bool := false
deriving DecidableEq, Repr

namespace Slots

/-- Workers with room for `capacity` jobs, and at least one. -/
def new (capacity : Nat) : Slots := { capacity := max capacity 1 }

/-- Changes the capacity, down to none at all. -/
def stretch (s : Slots) (change : Int) : Slots :=
  { s with capacity := Word.saturatingAdd s.capacity change }

/-- Changes the capacity, but not below one. -/
def tune (s : Slots) (change : Int) : Slots :=
  { s with capacity := max (s.stretch change).capacity 1 }

/-- Whether a job may start now. -/
def free (s : Slots) : Bool := !s.closed && s.running < s.capacity

/-- Takes a slot. -/
def take (s : Slots) : Slots := { s with running := s.running + 1 }

/-- Gives a slot back. -/
def release (s : Slots) : Slots := { s with running := s.running - 1 }

/-- Accepts no further job. -/
def close (s : Slots) : Slots := { s with closed := true }

theorem capacity_pos_tune (s : Slots) (change : Int) : 1 ≤ (s.tune change).capacity := by
  simp only [tune]
  omega

end Slots

end SocksPool
