import SocksPool.Proofs.Shift

/-!
# Pools at rest

In a pool at rest no task has a move that needs neither clock nor network. So
every task waits, and what it waits for is read off the move that it does not
have. This module says so for the signal that stops a loop, which every loop and
every idle job watches next to its own work.

## Main results

* `AtRest.stuck` — no task of a pool at rest can move by itself.
* `AtRest.current` — what a pool at rest has launched belongs to its epoch, and
  the pool runs.
-/

open SocksPool.Task (Numbered)

namespace SocksPool

/-- Loops and idle jobs watch for the signal to stop. -/
theorem Task.halt_mem_moves {task : Task} {epoch : Nat} (h : task.epoch? = some epoch) :
    Move.halt ∈ task.moves := by
  cases task with
  | intakeLoop launched stage => exact List.mem_cons_self
  | spawnLoop launched awake => exact List.mem_cons_self
  | scaleLoop launched due => cases due <;> exact List.mem_cons_self
  | idleJob launched => exact List.mem_cons_self
  | round r => cases h
  | requeue endpoint due => cases h
  | caller c => cases h

namespace Pool

variable {p : Pool} {id epoch : Nat} {task : Task}

theorem task?_of_mem_crew (hnum : Numbered p.tasks p.nextTask) (hmem : task ∈ p.crew) :
    ∃ id, p.task? id = some task := by
  obtain ⟨⟨number, found⟩, hentry, rfl⟩ := List.mem_map.1 hmem
  exact ⟨number, hnum.lookup_of_mem hentry⟩

/-- The signal to stop reaches whatever was launched. -/
theorem halt?_ne_none (hfind : p.task? id = some task) (hepoch : task.epoch? = some epoch)
    (hhalted : p.halted epoch = true) : p.halt? id ≠ none := by
  unfold halt?
  rw [hfind]
  cases task with
  | intakeLoop launched stage =>
      obtain rfl := Option.some.inj hepoch
      cases stage <;> simp [hhalted]
  | spawnLoop launched awake =>
      obtain rfl := Option.some.inj hepoch
      simp [hhalted]
  | scaleLoop launched due =>
      obtain rfl := Option.some.inj hepoch
      simp [hhalted]
  | idleJob launched =>
      obtain rfl := Option.some.inj hepoch
      simp [hhalted]
  | round r => cases hepoch
  | requeue endpoint due => cases hepoch
  | caller c => cases hepoch

namespace AtRest

/-- No task of a pool at rest has a move of its own. -/
theorem stuck (h : p.AtRest) (hfind : p.task? id = some task) {move : Move}
    (hmove : move ∈ task.moves) : p.move? id move = none := by
  have htask := List.findSome?_eq_none_iff.1 h (id, task) (Task.mem_of_lookup hfind)
  exact List.findSome?_eq_none_iff.1 htask move hmove

/-- Whatever was launched and is still there belongs to the present epoch of a
running pool. -/
theorem current (h : p.AtRest) (hnum : Numbered p.tasks p.nextTask) (hmem : task ∈ p.crew)
    (hepoch : task.epoch? = some epoch) : p.status = .running ∧ epoch = p.epoch := by
  obtain ⟨id, hfind⟩ := task?_of_mem_crew hnum hmem
  have hnone := h.stuck hfind (Task.halt_mem_moves hepoch)
  cases hhalted : p.halted epoch with
  | true => exact absurd hnone (halt?_ne_none hfind hepoch hhalted)
  | false =>
      unfold halted at hhalted
      rw [Bool.or_eq_false_iff, bne_eq_false_iff_eq, bne_eq_false_iff_eq] at hhalted
      exact ⟨hhalted.1, hhalted.2.symm⟩

end AtRest

end Pool

end SocksPool
