import SocksPool.Proofs.Orderly
import SocksPool.Proofs.Rest
import SocksPool.Proofs.Shifts

/-!
# One generation of loops

A pool is set running by `start` and by `resume`, and each time it launches one
loop of each kind under a new epoch. Nothing tells the loops of earlier epochs
apart from the present ones but that number, and a pool can be stopped and set
running again before any of them gets to move. So what is counted is loops *of an
epoch*: one of each kind is launched with it, none comes later, and while the
epoch lasts none of them is told to stop. Nothing else stops them either: the intake
loop waits for ever, the spawn loop stops only for closed workers, and a scale loop
whose interval is not empty sets another tick with each one, however late it comes.
Once the pool is at rest, all loops of earlier epochs have stopped.

## Main definitions

* `Step.accepted` — the calls that change the life cycle.
* `Generation` — the present epoch has its loops while the pool runs.

## Main results

* `one_generation` — the life cycle along a run, and the loops that are alive when
  the pool is at rest.
-/

open SocksPool.Task (Numbered)

namespace SocksPool

/-- The kinds of background loops. -/
inductive Loop where
  | intake
  | spawn
  | scale
deriving DecidableEq

/-- The kind of a loop. -/
def Task.loop? : Task → Option Loop
  | .intakeLoop _ _ => some .intake
  | .spawnLoop _ _ => some .spawn
  | .scaleLoop _ _ => some .scale
  | _ => none

/-- The task is a loop of the given kind and epoch. -/
def Task.isLoop (kind : Loop) (epoch : Nat) (task : Task) : Bool :=
  task.loop? == some kind && task.epoch? == some epoch

namespace Pool

/-- How many loops of a kind were launched under an epoch and are alive. -/
def loops (p : Pool) (kind : Loop) (epoch : Nat) : Nat := p.crew.countP (Task.isLoop kind epoch)

/-- How many loops of a kind are alive. -/
def alive (p : Pool) (kind : Loop) : Nat := p.crew.countP (·.loop? == some kind)

end Pool

namespace Step

/-- The step is a call of `start`, `pause` or `resume` that is not rejected. -/
def accepted (s : Step) : Bool :=
  match s.deed with
  | .start => s.before.start.toBool
  | .pause => s.before.pause.toBool
  | .resume => s.before.resume.toBool
  | _ => false

/-- The step fits the life cycle of a pool. -/
structure FitsCycle (s : Step) : Prop where
  starts : s.deed = .start → (s.accepted = true ↔ s.before.status ≠ .running)
  pauses : s.deed = .pause → (s.accepted = true ↔ s.before.status = .running)
  resumes : s.deed = .resume → (s.accepted = true ↔ s.before.status = .paused)
  launched : s.accepted = true → s.deed ≠ .pause →
    s.after.status = .running ∧ s.after.epoch = s.before.epoch + 1
  paused : s.accepted = true → s.deed = .pause →
    s.after.status = .paused ∧ s.after.epoch = s.before.epoch
  kept : s.accepted = false →
    s.after.status = s.before.status ∧ s.after.epoch = s.before.epoch

end Step

namespace Pool

variable {p q mid : Pool} {d : Deed} {gone come : List Task} {kind : Loop} {epoch : Nat}

/-! ## The life cycle -/

/-- Only calls of the life cycle change status and epoch, and those that begin an
epoch launch its loops. -/
theorem Shift.cycle_cases (h : Shift p q d gone come mid) :
    ((d = .start ∨ d = .resume) ∧ gone = [] ∧ come = freshLoops (p.epoch + 1) ∧
        mid = { p with status := .running, epoch := p.epoch + 1 }) ∨
      (d = .pause ∧ mid = { p with status := .paused }) ∨
      mid.status = p.status ∧ mid.epoch = p.epoch := by
  cases h with
  | launched hdeed _ => exact .inl ⟨hdeed, rfl, rfl, rfl⟩
  | paused _ => exact .inr (.inl ⟨rfl, rfl⟩)
  | resized _ change _ =>
      exact .inr (.inr ⟨(alike_tune _ change).status, (alike_tune _ change).epoch⟩)
  | tuned change =>
      exact .inr (.inr ⟨(alike_tune p change).status, (alike_tune p change).epoch⟩)
  | ticked _ _ _ _ _ hmid =>
      right; right
      rcases hmid with rfl | ⟨change, rfl⟩
      · exact ⟨rfl, rfl⟩
      · exact ⟨(alike_tune _ change).status, (alike_tune _ change).epoch⟩
  | failed _ _ | failedKept _ _ _ | delivered _ _ _ =>
      exact .inr (.inr ⟨(alike_vacate _ _).status, (alike_vacate _ _).epoch⟩)
  | _ => exact .inr (.inr ⟨rfl, rfl⟩)

end Pool

namespace Step

variable {s : Step}

/-- Every step fits the life cycle. -/
theorem fitsCycle (hnum : Numbered s.before.tasks s.before.nextTask) : s.FitsCycle := by
  obtain ⟨before, deed, after, hdone⟩ := s
  by_cases hcall : deed = .start ∨ deed = .pause ∨ deed = .resume
  · rcases hcall with rfl | rfl | rfl
    · obtain rfl : before.afterCall before.start = after := Option.some.inj hdone
      cases hstatus : before.status <;>
        constructor <;> simp [accepted, Pool.start, Pool.afterCall, hstatus, Except.toBool,
          Pool.launch, Pool.spawn, Pool.tell]
    · obtain rfl : before.afterCall before.pause = after := Option.some.inj hdone
      cases hstatus : before.status <;>
        constructor <;> simp [accepted, Pool.pause, Pool.afterCall, hstatus, Except.toBool,
          Pool.tell]
    · obtain rfl : before.afterCall before.resume = after := Option.some.inj hdone
      cases hstatus : before.status <;>
        constructor <;> simp [accepted, Pool.resume, Pool.afterCall, hstatus, Except.toBool,
          Pool.launch, Pool.spawn, Pool.tell]
  · simp only [not_or] at hcall
    obtain ⟨hstart, hpause, hresume⟩ := hcall
    have hrejected : accepted ⟨before, deed, after, hdone⟩ = false := by
      cases deed with
      | start => exact absurd rfl hstart
      | pause => exact absurd rfl hpause
      | resume => exact absurd rfl hresume
      | _ => rfl
    obtain ⟨gone, come, mid, hshift, hswap⟩ := Pool.shifts_of_act? hnum hdone
    rcases hshift.cycle_cases with ⟨hlaunch, -, -, -⟩ | ⟨hhalt, -⟩ | ⟨hstatus, hepoch⟩
    · rcases hlaunch with hdeed | hdeed
      · exact absurd hdeed hstart
      · exact absurd hdeed hresume
    · exact absurd hhalt hpause
    · constructor <;> simp [hrejected, hstart, hpause, hresume]
      exact ⟨hswap.status.trans hstatus, hswap.epoch.trans hepoch⟩

end Step

/-! ## Loops -/

/-- Loops of the kind end with their epoch only. -/
def Pool.Lasts (p : Pool) (kind : Loop) : Prop := kind = .scale → p.config.scaleInterval ≠ 0

/-- Nothing was launched under a later epoch than the present one, and the present one
has its loops while the pool runs. -/
structure Generation (p : Pool) : Prop where
  past : ∀ task ∈ p.crew, ∀ epoch, task.epoch? = some epoch → epoch ≤ p.epoch
  accepts : p.slots.closed = false
  manned : p.status = .running → ∀ kind, p.Lasts kind → p.loops kind p.epoch = 1

namespace Pool

variable {p q mid : Pool} {d : Deed} {gone come : List Task} {kind : Loop} {epoch : Nat}

theorem isLoop_wakened (kind : Loop) (epoch : Nat) (task : Task) :
    task.wakened.isLoop kind epoch = task.isLoop kind epoch := by
  cases task <;> rfl

theorem epoch?_wakened (task : Task) : task.wakened.epoch? = task.epoch? := by
  cases task <;> rfl

/-- What comes is launched as an epoch begins, or takes over from a task of the same
epoch. -/
theorem Shift.epoch_come (h : Shift p q d gone come mid) {task : Task} (hmem : task ∈ come)
    (hepoch : task.epoch? = some epoch) :
    ((d = .start ∨ d = .resume) ∧ epoch = mid.epoch) ∨
      ∃ old ∈ gone, old.epoch? = some epoch := by
  cases h.succeeds hmem hepoch with
  | fresh hdeed hbegins _ => exact .inl ⟨hdeed, hbegins⟩
  | intake _ hgone | awake hgone | asleep hgone _ | job hgone | ticks _ hgone _ =>
      exact .inr ⟨_, hgone, rfl⟩

/-- Loops of the present epoch neither go nor come while it lasts. -/
theorem Shift.countP_loops (h : Shift p q d gone come mid) (hstatus : p.status = .running)
    (hopen : p.slots.closed = false) (hlasts : p.Lasts kind) :
    gone.countP (Task.isLoop kind p.epoch) = come.countP (Task.isLoop kind p.epoch) := by
  have hpresent {epoch : Nat} (hhalted : p.halted epoch = true) : epoch ≠ p.epoch := by
    rintro rfl
    simp [halted, hstatus] at hhalted
  cases h with
  | launched _ hrunning => exact absurd hstatus hrunning
  | retired _ hepoch hhalted _ _ =>
      have hne := hpresent hhalted
      simp [Task.isLoop, hepoch, hne]
  | handedBack _ hhalted | dismissed _ hhalted =>
      have hne := hpresent hhalted
      simp [Task.isLoop, Task.epoch?, hne]
  | stopped _ hclosed =>
      rw [hopen] at hclosed
      cases hclosed
  | lapsed _ hzero =>
      have hother : Loop.scale ≠ kind := fun hscale => hlasts hscale.symm hzero
      simp [Task.isLoop, Task.loop?, hother]
  | _ => simp [Task.isLoop, Task.loop?, Task.epoch?, List.countP_cons, countP_recycled,
      countP_goesOn]

end Pool

namespace Generation

variable {s : Step} {steps : List Step} {p : Pool} {kind : Loop}

theorem epoch_le (hnum : Numbered s.before.tasks s.before.nextTask) :
    s.before.epoch ≤ s.after.epoch := by
  have hfits := Step.fitsCycle hnum
  cases haccepted : s.accepted with
  | false => exact Nat.le_of_eq (hfits.kept haccepted).2.symm
  | true =>
      by_cases hpause : s.deed = .pause
      · exact Nat.le_of_eq (hfits.paused haccepted hpause).2.symm
      · rw [(hfits.launched haccepted hpause).2]
        exact Nat.le_succ _

/-- Nothing was launched under an epoch that has not begun. -/
theorem loops_succ (h : Generation p) (kind : Loop) : p.loops kind (p.epoch + 1) = 0 := by
  refine List.countP_eq_zero.2 fun task hmem hloop => ?_
  unfold Task.isLoop at hloop
  rw [Bool.and_eq_true, beq_iff_eq, beq_iff_eq] at hloop
  exact absurd (h.past task hmem _ hloop.2) (Nat.not_succ_le_self _)

/-- A new epoch begins with its loops. -/
theorem launch (h : Generation s.before) {mid : Pool}
    (hswap : Pool.Swap [] (Pool.freshLoops (s.before.epoch + 1)) mid s.after)
    (hmid : mid = { s.before with status := .running, epoch := s.before.epoch + 1 })
    (kind : Loop) : s.after.loops kind s.after.epoch = 1 := by
  have hcount := hswap.countP (Task.isLoop kind (s.before.epoch + 1))
  have hnone : mid.crew.countP (Task.isLoop kind (s.before.epoch + 1)) = 0 := by
    rw [hmid]
    exact h.loops_succ kind
  have hfresh : (Pool.freshLoops (s.before.epoch + 1)).countP
      (Task.isLoop kind (s.before.epoch + 1)) = 1 := by
    cases kind <;> simp [Pool.freshLoops, Task.isLoop, Task.loop?, Task.epoch?]
  rw [hnone, hfresh] at hcount
  rw [hswap.epoch, hmid]
  exact hcount

/-- While an epoch lasts, its loops stay. -/
theorem loops_last {gone come : List Task} {mid : Pool}
    (hshift : Pool.Shift s.before s.after s.deed gone come mid)
    (hswap : Pool.Swap gone come mid s.after) (hstatus : s.before.status = .running)
    (hepoch : s.after.epoch = s.before.epoch) (haccepts : s.before.slots.closed = false)
    (hlasts : s.before.Lasts kind) :
    s.after.loops kind s.after.epoch = s.before.loops kind s.before.epoch := by
  have hsame := hshift.countP_loops hstatus haccepts hlasts
  have hboth := hshift.countP hswap (Pool.isLoop_wakened kind s.before.epoch)
  rw [hsame] at hboth
  rw [hepoch]
  exact Nat.add_right_cancel hboth

/-- A pool that runs was just set running, or it runs on under its epoch. -/
theorem running_cases {gone come : List Task} {mid : Pool}
    (hshift : Pool.Shift s.before s.after s.deed gone come mid)
    (hswap : Pool.Swap gone come mid s.after) (hrunning : s.after.status = .running) :
    ((s.deed = .start ∨ s.deed = .resume) ∧ gone = [] ∧
        come = Pool.freshLoops (s.before.epoch + 1) ∧
        mid = { s.before with status := .running, epoch := s.before.epoch + 1 }) ∨
      s.before.status = .running ∧ s.after.epoch = s.before.epoch := by
  rcases hshift.cycle_cases with hlaunch | ⟨-, hmid⟩ | ⟨hsame, hepochs⟩
  · exact .inl hlaunch
  · rw [hswap.status, hmid] at hrunning
    cases hrunning
  · exact .inr ⟨by rw [← hsame, ← hswap.status, hrunning], by rw [hswap.epoch, hepochs]⟩

/-- Every step keeps to one generation, as long as the workers are not closed. -/
theorem step (h : Generation s.before) (hnum : Numbered s.before.tasks s.before.nextTask)
    (hopen : s.deed ≠ .closeWorkers) : Generation s.after := by
  obtain ⟨gone, come, mid, hshift, hswap⟩ := Pool.shifts_of_act? hnum s.done
  have hle := epoch_le hnum
  have hepoch : s.after.epoch = mid.epoch := hswap.epoch
  refine ⟨?_, ?_, ?_⟩
  · intro task hmem epoch hof
    rcases hshift.mem_cases hswap hmem with ⟨old, hold, rfl | rfl⟩ | hcame
    · exact Nat.le_trans (h.past _ hold epoch hof) hle
    · rw [Pool.epoch?_wakened] at hof
      exact Nat.le_trans (h.past old hold epoch hof) hle
    · rcases hshift.epoch_come hcame hof with ⟨-, rfl⟩ | ⟨old, hgone, hold⟩
      · exact Nat.le_of_eq hepoch.symm
      · exact Nat.le_trans (h.past old (hshift.mem_crew_of_gone hgone) epoch hold) hle
  · rw [hswap.slots, hshift.closed_mid hopen]
    exact h.accepts
  · intro hrunning kind hlasts
    rcases running_cases hshift hswap hrunning with ⟨-, rfl, rfl, hmid⟩ | ⟨hbefore, hsame⟩
    · exact h.launch hswap hmid kind
    · have hinterval : s.after.config.scaleInterval = s.before.config.scaleInterval := by
        rw [hswap.scaleInterval, hshift.config_mid]
      have hearlier : s.before.Lasts kind := fun hscale => hinterval ▸ hlasts hscale
      exact (loops_last hshift hswap hbefore hsame h.accepts hearlier).trans
        (h.manned hbefore kind hearlier)

/-- A pool begins without any loop. -/
theorem of_withSlots {config : Config} {slots : Slots} (hmade : Pool.withSlots config slots = .ok p)
    (haccepts : slots.closed = false) : Generation p := by
  unfold Pool.withSlots at hmade
  split at hmade
  · cases hmade
  · obtain rfl := Except.ok.inj hmade
    refine ⟨?_, haccepts, nofun⟩
    intro task hmem
    cases hmem

/-- Every run keeps to one generation. -/
theorem of_run {q : Pool} (h : Generation p) (horderly : Orderly p) (hrun : Run p steps q)
    (hopen : ∀ s ∈ steps, s.deed ≠ .closeWorkers) : Generation q := by
  induction hrun with
  | rest => exact h
  | @step steps s hrun ih =>
      have hbefore := (horderly.throughout hrun).1
      have hearlier := ih fun t ht => hopen t (List.mem_append_left _ ht)
      exact hearlier.step hbefore.numbered
        (hopen s (List.mem_append_right _ (List.mem_singleton.2 rfl)))

/-- No call changes the interval of the ticks. -/
theorem scaleInterval_of_run {q : Pool} (horderly : Orderly p) (hrun : Run p steps q) :
    q.config.scaleInterval = p.config.scaleInterval := by
  have hall := (horderly.throughout hrun).2
  refine (hrun.throughout (P := fun r => r.config.scaleInterval = p.config.scaleInterval) rfl ?_).1
  intro s hs hbefore
  obtain ⟨gone, come, mid, hshift, hswap⟩ := Pool.shifts_of_act? (hall s hs).1.numbered s.done
  rw [hswap.scaleInterval, hshift.config_mid, hbefore]

/-! ## At rest -/

/-- At rest there is nothing of an earlier epoch, and nothing at all unless the
pool runs. -/
theorem alive_eq (hrest : p.AtRest) (hnum : Numbered p.tasks p.nextTask) (kind : Loop) :
    p.alive kind = if p.status = .running then p.loops kind p.epoch else 0 := by
  have hkind {task : Task} (hloop : (task.loop? == some kind) = true) :
      ∃ epoch, task.epoch? = some epoch := by
    cases task <;> first | exact ⟨_, rfl⟩ | cases hloop
  split
  · refine List.countP_congr fun task hmem => ?_
    unfold Task.isLoop
    rw [Bool.and_eq_true]
    refine ⟨fun hloop => ⟨hloop, ?_⟩, And.left⟩
    obtain ⟨epoch, hepoch⟩ := hkind hloop
    rw [hepoch, (hrest.current hnum hmem hepoch).2]
    exact beq_self_eq_true _
  · next hstatus =>
      refine List.countP_eq_zero.2 fun task hmem hloop => ?_
      obtain ⟨epoch, hepoch⟩ := hkind hloop
      exact hstatus (hrest.current hnum hmem hepoch).1

end Generation

/-- In every run of a pool whose workers accept jobs and whose scale interval is
not empty, the calls of the life cycle are accepted just when they fit the status,
and only they change it. When the pool is at rest, one loop of each kind is alive
if it runs and none otherwise, and no idle job was launched under an earlier epoch. -/
theorem one_generation {config : Config} {slots : Slots} {p q : Pool} {steps : List Step}
    (hmade : Pool.withSlots config slots = .ok p) (haccepts : slots.closed = false)
    (hticks : config.scaleInterval ≠ 0) (hrun : Run p steps q)
    (hopen : ∀ s ∈ steps, s.deed ≠ .closeWorkers) :
    (∀ s ∈ steps, s.FitsCycle) ∧
      (q.AtRest →
        (∀ epoch, .idleJob epoch ∈ q.crew → q.status = .running ∧ epoch = q.epoch) ∧
        (∀ kind, q.alive kind = if q.status = .running then 1 else 0)) := by
  have horderly := orderly_of_withSlots hmade
  obtain ⟨hend, hall⟩ := horderly.throughout hrun
  have hgeneration := (Generation.of_withSlots hmade haccepts).of_run horderly hrun hopen
  refine ⟨fun s hs => Step.fitsCycle (hall s hs).1.numbered, fun hrest => ⟨?_, fun kind => ?_⟩⟩
  · exact fun epoch hmem => hrest.current hend.numbered hmem rfl
  · rw [Generation.alive_eq hrest hend.numbered kind]
    split
    · next hstatus =>
        have hinterval : q.config.scaleInterval ≠ 0 := by
          rw [Generation.scaleInterval_of_run horderly hrun, config_of_withSlots hmade]
          exact hticks
        exact hgeneration.manned hstatus kind fun _ => hinterval
    · rfl

/-- A pool is started, paused and resumed before any of its tasks moves. The first
three loops stop, and of those that were launched last each goes on alone. -/
theorem one_generation_after_resume :
    ∃ p steps q, Pool.new { Config.default with workers := 1 } = .ok p ∧ Run p steps q ∧
      steps.map Step.deed =
        [.start, .pause, .resume, .move 0 .halt, .move 1 .halt, .move 2 .halt,
          .move 3 .lockIntake, .move 4 .look, .move 4 .look, .move 5 .tick] ∧
      q.AtRest ∧ q.status = .running ∧ q.epoch = 2 ∧ ∀ kind, q.alive kind = 1 := by
  obtain ⟨p, hmade, hview⟩ : ∃ p, Pool.new { Config.default with workers := 1 } = .ok p ∧
      (p.perform?
        [.start, .pause, .resume, .move 0 .halt, .move 1 .halt, .move 2 .halt,
          .move 3 .lockIntake, .move 4 .look, .move 4 .look, .move 5 .tick]).map
        (fun q => (decide q.AtRest, q.status, q.epoch)) = some (true, .running, 2) :=
    ⟨_, rfl, by decide +kernel⟩
  obtain ⟨steps, q, hrun, hdeeds, hseen⟩ := Run.of_view _ hview
  simp only [Prod.mk.injEq, decide_eq_true_eq] at hseen
  obtain ⟨hrest, hstatus, hepoch⟩ := hseen
  have hopen : ∀ s ∈ steps, s.deed ≠ .closeWorkers :=
    Step.forall_of_deeds (P := (· ≠ .closeWorkers)) hdeeds (by simp)
  have hgeneration := one_generation hmade rfl (by decide) hrun hopen
  refine ⟨p, steps, q, hmade, hrun, hdeeds, hrest, hstatus, hepoch, fun kind => ?_⟩
  rw [(hgeneration.2 hrest).2 kind, if_pos hstatus]

end SocksPool
