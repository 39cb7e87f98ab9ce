import Mathlib.Data.List.Chain
import SocksPool.Proofs.Effort

/-!
# Spawn loops that are told to stop

A spawn loop that is told to stop chooses at random between its signal and a free slot,
and nothing makes it wait in between. So where a task is left alone until it waits, the
loop goes on looking until it follows the signal or finds every slot taken, and then it
follows the signal too. The jobs that it has started do not end before that, so it
starts no more of them than there are free slots.

Where tasks run side by side, a job may end in between, and the loop may start another
in its slot.

## Main definitions

* `Prompt` — runs that leave spawn loops alone until they have stopped.

## Main results

* `Prompt.ignores_le` — how many jobs are started by spawn loops that are told to stop.
-/

open SocksPool.Task (Numbered)

namespace SocksPool

/-- The spawn loop with this number is told to stop. -/
def Pool.Recalls (p : Pool) (id : Nat) : Prop :=
  ∃ epoch awake, p.task? id = some (.spawnLoop epoch awake) ∧ p.halted epoch = true

/-- In this step a spawn loop that is told to stop starts a job. -/
def Step.ignoresHalt (s : Step) : Bool := s.before.ignoresHalt s.deed

/-- In this step a spawn loop that is told to stop looks for a slot, and is still there. -/
def Step.Lingers (s : Step) (id : Nat) : Prop := s.deed = .move id .look ∧ s.after.Recalls id

/-- No task moves between the look of a spawn loop that is told to stop and the next move
of this loop. -/
def Prompt (steps : List Step) : Prop :=
  steps.IsChain fun s t => ∀ id, s.Lingers id → ∃ move, t.deed = .move id move

namespace Pool

variable {p q mid : Pool} {d : Deed} {gone come : List Task} {id : Nat}

/-! ## Looks -/

/-- A spawn loop that looks for a slot takes one if it is free, unless it goes. -/
theorem look?_cases (hnum : Numbered p.tasks p.nextTask) (hlook : p.look? id = some q) :
    ∃ epoch, p.task? id = some (.spawnLoop epoch true) ∧
      (q.task? id = none ∧ q.alive .spawn + 1 = p.alive .spawn ∧ p.slots.free = false ∨
        (∃ awake, q.task? id = some (.spawnLoop epoch awake)) ∧ q.halted = p.halted ∧
          q.alive .spawn = p.alive .spawn ∧ q.spare + p.slots.free.toNat = p.spare) := by
  unfold look? at hlook
  split at hlook
  · next epoch hfind =>
      refine ⟨epoch, hfind, ?_⟩
      split at hlook
      · next hclosed =>
          obtain rfl := Option.some.inj hlook
          have hcount := (Swap.remove hnum hfind).countP (·.loop? == some .spawn)
          exact .inl ⟨task?_remove p id, hcount, by simp [Slots.free, hclosed]⟩
      · split at hlook
        · next hfree =>
            obtain rfl := Option.some.inj hlook
            have hput := Swap.put (p := { p with slots := p.slots.take }) hnum hfind
              (.spawnLoop epoch true)
            have hcount := (hput.trans (Swap.spawn _ (.idleJob epoch))).countP
              (·.loop? == some .spawn)
            refine .inr ⟨⟨true, task?_spawn (task?_put hnum hfind _) _⟩, rfl, ?_, ?_⟩
            · exact Nat.add_right_cancel hcount
            · show p.slots.capacity - (p.slots.running + 1) + p.slots.free.toNat = p.spare
              rw [hfree, Bool.toNat_true]
              unfold Slots.free at hfree
              rw [Bool.and_eq_true, decide_eq_true_eq] at hfree
              unfold spare
              omega
        · next hfree =>
            obtain rfl := Option.some.inj hlook
            have hcount := (Swap.put hnum hfind (.spawnLoop epoch false)).countP
              (·.loop? == some .spawn)
            refine .inr ⟨⟨false, task?_put hnum hfind _⟩, rfl, Nat.add_right_cancel hcount, ?_⟩
            rw [Bool.not_eq_true] at hfree
            rw [hfree]
            rfl
  · cases hlook

/-- A spawn loop that is told to stop looks once more, or goes. -/
theorem Recalls.move_cases (h : p.Recalls id) (hnum : Numbered p.tasks p.nextTask) {move : Move}
    (hdone : p.move? id move = some q) : move = .look ∨ q.alive .spawn + 1 = p.alive .spawn := by
  obtain ⟨epoch, awake, hfind, hhalted⟩ := h
  cases move with
  | look => exact .inl rfl
  | halt =>
      right
      simp only [move?, halt?, hfind, hhalted, if_true, Option.some.injEq] at hdone
      subst hdone
      exact (Swap.remove hnum hfind).countP (·.loop? == some .spawn)
  | _ => simp [move?, lockIntake?, receive?, forward?, tick?, pick?, deliver?, wake?, comeBack?,
      dispense?, cancel?, abandon?, attempted?, redialled?, dialled?, responded?, hfind] at hdone

/-- No deed leads to more slots than there were or than a word can count. -/
theorem Shift.capacity_mid (h : Shift p q d gone come mid) :
    mid.slots.capacity ≤ max p.slots.capacity Word.limit := by
  cases h with
  | resized _ change _ => exact Nat.le_trans (capacity_tune_le _ change) (Nat.le_max_right _ _)
  | tuned change => exact Nat.le_trans (capacity_tune_le p change) (Nat.le_max_right _ _)
  | ticked _ _ _ _ _ hmid =>
      rcases hmid with rfl | ⟨change, rfl⟩
      · exact Nat.le_max_left _ _
      · exact Nat.le_trans (capacity_tune_le _ change) (Nat.le_max_right _ _)
  | failed _ _ | failedKept _ _ _ | delivered _ _ _ =>
      rw [capacity_vacate]
      exact Nat.le_max_left _ _
  | _ => exact Nat.le_max_left _ _

/-- No move launches a spawn loop. -/
theorem Shift.spawners_le (h : Shift p q d gone come mid) (hswap : Swap gone come mid q)
    (hmove : d.isMove = true) : q.alive .spawn ≤ p.alive .spawn := by
  have hcount : q.alive .spawn + gone.countP (·.loop? == some .spawn) =
      p.alive .spawn + come.countP (·.loop? == some .spawn) :=
    h.countP hswap fun task => by cases task <;> rfl
  have hcome : come.countP (·.loop? == some .spawn) ≤ gone.countP (·.loop? == some .spawn) := by
    have hrecycled (wanted : Bool) (e : String) :
        (recycled wanted e).countP (·.loop? == some .spawn) = 0 :=
      countP_recycled (fun _ _ => rfl) wanted e
    have hgoesOn (next : Option Caller) :
        (goesOn next).countP (·.loop? == some .spawn) = 0 := countP_goesOn (fun _ => rfl) next
    cases h with
    | launched hdeed _ => rcases hdeed with rfl | rfl <;> cases hmove
    | sentBack _ _ | redialled _ _ _ | used _ _ _ _ _ =>
        simp only [List.countP_append, hrecycled, hgoesOn, Nat.zero_add, Nat.le_refl, Nat.zero_le]
    | _ => simp [Task.loop?, List.countP_cons]
  omega

/-- Who ignores the signal is told to stop. -/
theorem recalls_of_ignoresHalt {move : Move} (h : p.ignoresHalt (.move id move) = true) :
    p.Recalls id := by
  unfold ignoresHalt at h
  split at h
  · next other heq =>
      cases heq
      split at h
      · next epoch awake hfind =>
          rw [Bool.and_eq_true] at h
          exact ⟨epoch, awake, hfind, h.1⟩
      · cases h
  · cases h

/-- A spawn loop that is told to stop is a spawn loop. -/
theorem Recalls.alive_pos (h : p.Recalls id) : 1 ≤ p.alive .spawn := by
  obtain ⟨epoch, awake, hfind, -⟩ := h
  exact List.countP_pos_iff.2 ⟨_, mem_crew_of_task? hfind, rfl⟩

/-- The slots of a pool are never more than there were or than a word can count. -/
theorem capacity_le_of_run {steps : List Step} {most : Nat} (horderly : Orderly p)
    (hrun : Run p steps q) (hlimit : Word.limit ≤ most) (hmost : p.slots.capacity ≤ most) :
    q.slots.capacity ≤ most := by
  have hall := (horderly.throughout hrun).2
  refine (hrun.throughout (P := fun r => r.slots.capacity ≤ most) hmost fun s hs hbefore => ?_).1
  obtain ⟨gone, come, mid, hshift, hswap⟩ := shifts_of_act? (hall s hs).1.numbered s.done
  rw [hswap.slots]
  exact Nat.le_trans hshift.capacity_mid (Nat.max_le.2 ⟨hbefore, hlimit⟩)

end Pool

/-! ## Runs -/

/-- After some steps of a run from `p` to `q`, spawn loops that are told to stop have
started so many jobs: each of those that have gone at most one for every slot that there
may be, and one that lingers at most one for every slot that is taken. -/
def Counted (p : Pool) (most : Nat) (steps : List Step) (q : Pool) : Prop :=
  steps.countP Step.ignoresHalt + most * q.alive .spawn ≤ most * p.alive .spawn ∨
    ∃ s id, steps.getLast? = some s ∧ s.Lingers id ∧ q.Recalls id ∧
      steps.countP Step.ignoresHalt + most * q.alive .spawn + q.spare ≤
        most * p.alive .spawn + most

namespace Counted

variable {p q : Pool} {s : Step} {steps : List Step} {most : Nat}

/-- Of a loop that lingers, the next move is a look or its last one. -/
theorem lingers (h : Counted p most steps s.before)
    (hnum : Numbered s.before.tasks s.before.nextTask)
    (hnext : ∀ t, steps.getLast? = some t → ∀ id, t.Lingers id → ∃ move, s.deed = .move id move) :
    steps.countP Step.ignoresHalt + most * s.before.alive .spawn ≤ most * p.alive .spawn ∨
      steps.countP Step.ignoresHalt + most * s.before.alive .spawn + s.before.spare ≤
          most * p.alive .spawn + most ∧
        ((∃ id, s.deed = .move id .look ∧ s.before.Recalls id) ∨
          s.after.alive .spawn + 1 = s.before.alive .spawn) := by
  refine h.imp_right fun ⟨t, id, hlast, hlingers, hrecalls, hfew⟩ => ⟨hfew, ?_⟩
  obtain ⟨move, hdeed⟩ := hnext t hlast id hlingers
  have hdone := s.done
  rw [hdeed] at hdone
  refine (hrecalls.move_cases hnum hdone).imp_left fun hlook => ⟨id, ?_, hrecalls⟩
  rw [hdeed, hlook]

/-- A step of a spawn loop that looks for a slot is counted. -/
theorem look (h : Counted p most steps s.before)
    (hnum : Numbered s.before.tasks s.before.nextTask) (hmost : s.before.slots.capacity ≤ most)
    (hnext : ∀ t, steps.getLast? = some t → ∀ id, t.Lingers id → ∃ move, s.deed = .move id move)
    {id : Nat} (hdeed : s.deed = .move id .look) : Counted p most (steps ++ [s]) s.after := by
  have hdone := s.done
  rw [hdeed] at hdone
  obtain ⟨epoch, hfind, hlooks⟩ := Pool.look?_cases hnum hdone
  have hignores : s.ignoresHalt = (s.before.halted epoch && s.before.slots.free) := by
    simp [Step.ignoresHalt, Pool.ignoresHalt, hdeed, hfind]
  have hbefore := h.lingers hnum hnext
  unfold Counted
  rw [List.countP_append, List.countP_singleton, hignores, List.getLast?_concat]
  rcases hlooks with ⟨-, hgoes, hnone⟩ | ⟨⟨awake, hthere⟩, hepochs, hsame, hspare⟩
  · left
    rw [← hgoes, Nat.mul_add_one] at hbefore
    simp only [hnone, Bool.and_false, Bool.false_eq_true, if_false]
    omega
  · rw [← hsame] at hbefore
    cases hhalted : s.before.halted epoch with
    | true =>
        right
        have hrecalls : s.after.Recalls id :=
          ⟨epoch, awake, hthere, by rw [hepochs, hhalted]⟩
        refine ⟨s, id, rfl, ⟨hdeed, hrecalls⟩, hrecalls, ?_⟩
        have hfits : s.before.spare ≤ most := Nat.le_trans (Nat.sub_le _ _) hmost
        cases hfree : s.before.slots.free <;> simp only [hfree, Bool.toNat_true, Bool.toNat_false,
          Bool.true_and, Bool.false_eq_true, if_true, if_false] at hspare ⊢ <;> omega
    | false =>
        left
        simp only [Bool.false_and, Bool.false_eq_true, if_false]
        rcases hbefore with hfew | ⟨-, ⟨other, hother, hrecalls⟩ | hgoes⟩
        · exact hfew
        · -- The loop that looks is the one that lingered, and is told to stop.
          rw [hdeed] at hother
          cases hother
          obtain ⟨launched, wakes, hfound, hstops⟩ := hrecalls
          rw [hfind] at hfound
          cases hfound
          rw [hhalted] at hstops
          cases hstops
        · omega

/-- Every move is counted. -/
theorem step (h : Counted p most steps s.before)
    (hnum : Numbered s.before.tasks s.before.nextTask) (hmost : s.before.slots.capacity ≤ most)
    (hnext : ∀ t, steps.getLast? = some t → ∀ id, t.Lingers id → ∃ move, s.deed = .move id move)
    (hmove : s.deed.isMove = true) : Counted p most (steps ++ [s]) s.after := by
  by_cases hlook : ∃ id, s.deed = .move id .look
  · obtain ⟨id, hdeed⟩ := hlook
    exact h.look hnum hmost hnext hdeed
  · left
    have hignores : s.ignoresHalt = false := by
      unfold Step.ignoresHalt Pool.ignoresHalt
      split
      · next id hdeed => exact absurd ⟨id, hdeed⟩ hlook
      · rfl
    obtain ⟨gone, come, mid, hshift, hswap⟩ := Pool.shifts_of_act? hnum s.done
    have hfewer := Nat.mul_le_mul_left most (hshift.spawners_le hswap hmove)
    rw [List.countP_append, List.countP_singleton, hignores]
    simp only [Bool.false_eq_true, if_false]
    rcases h.lingers hnum hnext with hfew | ⟨hfew, ⟨id, hdeed, -⟩ | hgoes⟩
    · omega
    · exact absurd ⟨id, hdeed⟩ hlook
    · rw [← hgoes, Nat.mul_add_one] at hfew
      omega

end Counted

/-- In a prompt run of moves, a spawn loop that is told to stop starts at most one job
for every slot. -/
theorem Prompt.ignores_le {p q : Pool} {steps : List Step} {most : Nat} (h : Prompt steps)
    (horderly : Orderly p) (hrun : Run p steps q) (hmoves : ∀ s ∈ steps, s.deed.isMove = true)
    (hlimit : Word.limit ≤ most) (hmost : p.slots.capacity ≤ most) :
    steps.countP Step.ignoresHalt ≤ most * p.alive .spawn := by
  have hcounted : Counted p most steps q := by
    induction hrun with
    | rest => exact .inl (Nat.le_of_eq (Nat.zero_add _))
    | @step steps s hrun ih =>
        obtain ⟨hearlier, -, hlast⟩ := List.isChain_append.1 h
        have hsofar := ih hearlier fun t ht => hmoves t (List.mem_append_left _ ht)
        have hbefore := (horderly.throughout hrun).1
        refine hsofar.step hbefore.numbered
          (Pool.capacity_le_of_run horderly hrun hlimit hmost) (fun t ht => ?_)
          (hmoves s (List.mem_append_right _ (List.mem_singleton.2 rfl)))
        exact hlast t ht s rfl
  rcases hcounted with hfew | ⟨s, id, -, -, hrecalls, hfew⟩
  · omega
  · have hone := Nat.mul_le_mul_left most hrecalls.alive_pos
    omega

end SocksPool
