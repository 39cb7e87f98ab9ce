import SocksPool.Proofs.Polls
import SocksPool.Proofs.Rest

/-!
# What spawn loops choose that are told to stop

A spawn loop that is told to stop and finds a slot free chooses at random between its
signal and the slot. The choices of all such loops, one after the other, are taken from a
sequence here. All that is known of the sequence is that it comes out for the signal again
and again, as a coin does.

A loop that follows its signal is gone. So there are no more choices for the signal than
there are spawn loops, and those for a slot end when the sequence has come out for the
signal often enough. Without that a single slot would do for a loop to go on for ever, since
the job that it starts there follows the same signal and frees the slot again.

## Main definitions

* `Step.heeds?` — what a spawn loop chooses in a step.
* `Fair` — sequences that come out for the signal again and again.
* `Follows` — steps whose choices are taken from a sequence.

## Main results

* `Follows.ignores_le` — how many jobs are started by spawn loops that are told to stop.
-/

namespace SocksPool

/-- The deed is a spawn loop following its signal although a slot is free. -/
def Pool.heedsHalt (p : Pool) : Deed → Bool
  | .move id .halt =>
    match p.task? id with
    | some (.spawnLoop epoch true) => p.halted epoch && p.slots.free
    | _ => false
  | _ => false

/-- Whether a spawn loop follows its signal in this step, if it has the choice. -/
def Step.heeds? (s : Step) : Option Bool :=
  if s.ignoresHalt then some false
  else if s.before.heedsHalt s.deed then some true
  else none

/-- A sequence of choices that comes out for the signal again and again. -/
def Fair (choices : Nat → Bool) : Prop := ∀ n, ∃ m, n ≤ m ∧ choices m = true

/-- The choices in these steps are those of the sequence, one after the other. -/
def Follows (choices : Nat → Bool) (steps : List Step) : Prop :=
  ∀ k heeds, (steps.filterMap Step.heeds?)[k]? = some heeds → heeds = choices k

variable {choices : Nat → Bool} {p q : Pool} {steps : List Step} {s : Step}

/-- A fair sequence comes out for the signal as often as may be wanted. -/
theorem Fair.exists_lt_countP (h : Fair choices) (wanted : Nat) :
    ∃ n, wanted < (List.range n).countP choices := by
  induction wanted with
  | zero =>
      obtain ⟨m, -, hheeds⟩ := h 0
      exact ⟨m + 1, List.countP_pos_iff.2 ⟨m, List.mem_range.2 (Nat.lt_succ_self m), hheeds⟩⟩
  | succ wanted ih =>
      obtain ⟨n, hmany⟩ := ih
      obtain ⟨m, hlater, hheeds⟩ := h n
      refine ⟨m + 1, ?_⟩
      have hmore := (List.range_sublist.2 hlater).countP_le (p := choices)
      rw [List.range_succ, List.countP_append, List.countP_singleton, if_pos hheeds]
      omega

/-! ## One choice -/

/-- Who follows its signal is told to stop. -/
theorem Pool.recalls_of_heedsHalt {d : Deed} (h : p.heedsHalt d = true) :
    ∃ id, d = .move id .halt ∧ p.Recalls id := by
  unfold heedsHalt at h
  split at h
  · next id =>
      split at h
      · next epoch hfind =>
          exact ⟨id, rfl, epoch, true, hfind, (Bool.and_eq_true_iff.1 h).1⟩
      · cases h
  · cases h

/-- Who has the choice is told to stop. -/
theorem Step.recalls_of_heeds {heeds : Bool} (h : s.heeds? = some heeds) :
    ∃ id move, s.deed = .move id move ∧ s.before.Recalls id ∧ (heeds = true → move = .halt) := by
  unfold heeds? at h
  split at h
  · next hignores =>
      obtain rfl := Option.some.inj h
      have hlook : ∃ id, s.deed = .move id .look := by
        unfold ignoresHalt Pool.ignoresHalt at hignores
        split at hignores
        · next id hdeed => exact ⟨id, hdeed⟩
        · cases hignores
      obtain ⟨id, hdeed⟩ := hlook
      unfold ignoresHalt at hignores
      rw [hdeed] at hignores
      exact ⟨id, .look, hdeed, Pool.recalls_of_ignoresHalt hignores, nofun⟩
  · split at h
    · next hheeds =>
        obtain ⟨id, hdeed, hrecalls⟩ := Pool.recalls_of_heedsHalt hheeds
        exact ⟨id, .halt, hdeed, hrecalls, fun _ => rfl⟩
    · cases h

/-- A spawn loop that follows its signal is gone. -/
theorem Step.alive_of_heeds (hnum : Task.Numbered s.before.tasks s.before.nextTask)
    (h : s.heeds? = some true) : s.after.alive .spawn + 1 = s.before.alive .spawn := by
  obtain ⟨id, move, hdeed, hrecalls, hhalt⟩ := recalls_of_heeds h
  obtain rfl := hhalt rfl
  have hdone : s.before.move? id .halt = some s.after := by
    have hdone := s.done
    rwa [hdeed] at hdone
  exact (hrecalls.move_cases hnum hdone).resolve_left nofun

/-- A spawn loop that is told to stop can move, whatever it is to choose. -/
theorem Pool.Recalls.exists_step {id : Nat} (h : p.Recalls id) (wanted : Bool) :
    ∃ s : Step, s.before = p ∧ (∃ move, s.deed = .move id move) ∧
      ∀ heeds, s.heeds? = some heeds → heeds = wanted := by
  obtain ⟨epoch, awake, hfind, hhalted⟩ := h
  by_cases htakes : awake = true ∧ p.slots.free = true ∧ wanted = false
  · obtain ⟨rfl, hfree, rfl⟩ := htakes
    have hopen : p.slots.closed = false := by
      unfold Slots.free at hfree
      simpa using (Bool.and_eq_true_iff.1 hfree).1
    obtain ⟨q, hlook⟩ : ∃ q, p.look? id = some q := by
      unfold look?
      simp [hfind, hopen, hfree]
    refine ⟨⟨p, .move id .look, q, hlook⟩, rfl, ⟨.look, rfl⟩, fun heeds hheeds => ?_⟩
    simpa [Step.heeds?, Step.ignoresHalt, ignoresHalt, hfind, hhalted, hfree] using hheeds
  · obtain ⟨q, hhalt⟩ := Option.ne_none_iff_exists'.1 (halt?_ne_none hfind rfl hhalted)
    refine ⟨⟨p, .move id .halt, q, hhalt⟩, rfl, ⟨.halt, rfl⟩, fun heeds hheeds => ?_⟩
    cases awake <;> cases hfree : p.slots.free <;>
      simp_all [Step.heeds?, Step.ignoresHalt, ignoresHalt, heedsHalt]

/-! ## Runs -/

/-- The choices of a run are the first ones of the sequence. -/
theorem Follows.heeds_eq (h : Follows choices steps) :
    steps.filterMap Step.heeds? =
      (List.range (steps.filterMap Step.heeds?).length).map choices := by
  refine List.ext_getElem (by simp) fun k hk _ => ?_
  rw [List.getElem_map, List.getElem_range]
  exact h k _ (List.getElem?_eq_getElem hk)

/-- A run goes on with the next choice of the sequence, or without one. -/
theorem Follows.concat (h : Follows choices steps)
    (hnext : ∀ heeds, s.heeds? = some heeds →
      heeds = choices (steps.filterMap Step.heeds?).length) :
    Follows choices (steps ++ [s]) := by
  intro k heeds hheeds
  rw [List.filterMap_append] at hheeds
  rcases Nat.lt_or_ge k (steps.filterMap Step.heeds?).length with hold | hnew
  · rw [List.getElem?_append_left hold] at hheeds
    exact h k heeds hheeds
  · rw [List.getElem?_append_right hnew] at hheeds
    cases hlast : s.heeds? with
    | none => simp [hlast] at hheeds
    | some chosen =>
        simp only [List.filterMap_cons, hlast, List.filterMap_nil, List.getElem?_singleton,
          Option.ite_none_right_eq_some, Option.some.injEq] at hheeds
        obtain ⟨hk, rfl⟩ := hheeds
        rw [hnext _ hlast]
        congr 1
        omega

/-- In a run of moves, spawn loops choose the signal at most once each. -/
theorem countP_heeds_le (horderly : Orderly p) (hrun : Run p steps q)
    (hmoves : ∀ s ∈ steps, s.deed.isMove = true) :
    (steps.filterMap Step.heeds?).countP id + q.alive .spawn ≤ p.alive .spawn := by
  induction hrun with
  | rest => exact Nat.le_of_eq (Nat.zero_add _)
  | @step steps s hrun ih =>
      obtain ⟨hearlier, hlast⟩ := List.forall_mem_append.1 hmoves
      rw [List.forall_mem_singleton] at hlast
      have hsofar := ih hearlier
      have hnum := (horderly.throughout hrun).1.numbered
      obtain ⟨gone, come, mid, hshift, hswap⟩ := Pool.shifts_of_act? hnum s.done
      have hfewer := hshift.spawners_le hswap hlast
      rw [List.filterMap_append, List.countP_append]
      match hheeds : s.heeds? with
      | none =>
          simp only [List.filterMap_cons, hheeds, List.filterMap_nil, List.countP_nil]
          omega
      | some false =>
          simp only [List.filterMap_cons, hheeds, List.filterMap_nil, List.countP_singleton, id,
            Bool.false_eq_true, if_false]
          omega
      | some true =>
          have hgone := Step.alive_of_heeds hnum hheeds
          simp only [List.filterMap_cons, hheeds, List.filterMap_nil, List.countP_singleton, id,
            if_true]
          omega

/-- So where the sequence has come out for the signal more often than there are spawn loops,
no loop that is told to stop starts another job. -/
theorem Follows.ignores_le {n : Nat} (h : Follows choices steps) (horderly : Orderly p)
    (hrun : Run p steps q) (hmoves : ∀ s ∈ steps, s.deed.isMove = true)
    (hmany : p.alive .spawn < (List.range n).countP choices) :
    steps.countP Step.ignoresHalt ≤ n := by
  have hfew := countP_heeds_le horderly hrun hmoves
  rw [h.heeds_eq, List.countP_map] at hfew
  have hlength : (steps.filterMap Step.heeds?).length < n := by
    refine Nat.lt_of_not_le fun hlong => ?_
    have hmore := (List.range_sublist.2 hlong).countP_le (p := choices)
    rw [Function.id_comp] at hfew
    omega
  have hignores : steps.countP Step.ignoresHalt ≤ (steps.filterMap Step.heeds?).length := by
    rw [List.length_filterMap_eq_countP]
    refine List.countP_mono_left fun s _ hignores => ?_
    simp [Step.heeds?, hignores]
  omega

end SocksPool
