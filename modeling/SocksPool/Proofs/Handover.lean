import SocksPool.Proofs.Generation
import SocksPool.Proofs.Staffing
import SocksPool.Proofs.Typed

/-!
# No work lies idle

An endpoint or a copy waits between two tasks, one that hands it over and one that
takes it. Where it waits although the pool is at rest, neither of them can move. This
module says why not, place by place: the one that hands over has no room, or the one
that takes has no job or no copy to take.

The intake and pending queues are worked off by loops and jobs, so there the reason
holds only while the pool runs. A spawn loop that sleeps is no reason by itself: it
sleeps because every slot is taken, by a job that has a round to finish.

## Main definitions

* `HandedOver` — whatever waits has a reason to wait.

## Main results

* `AtRest.delivering`, `AtRest.returning`, `AtRest.waiting`, `AtRest.intake`,
  `AtRest.pending` — the reason for each place.
* `handed_over_at_rest` — every reachable pool at rest has handed over all it can.
-/

open SocksPool.Task (Numbered)

namespace SocksPool

/-- Whatever waits has a reason to wait. -/
structure HandedOver (p : Pool) : Prop where
  /-- A copy waits for a round to queue it only if its queue is full. -/
  delivering : ∀ r copy, .round r ∈ p.crew → r.stage = .delivering copy →
    (p.outputs.get copy.protocol).length = p.config.bufferSize
  /-- An endpoint waits to come back only if the pending queue is full. -/
  returning : ∀ endpoint, .requeue endpoint none ∈ p.crew →
    p.pending.length = p.config.bufferSize
  /-- A caller waits only if there is no candidate that it may take. -/
  waiting : ∀ c protocol, .caller c ∈ p.crew → c.stage = .waiting →
    Pool.Purpose.accepts c.purpose protocol = true → p.outputs.get protocol = []
  /-- While the pool runs, an endpoint waits on the intake queue, or in the hand of an
  intake loop, only if the pending queue is full. -/
  intake : p.status = .running →
    (p.intake ≠ [] ∨ ∃ epoch endpoint, .intakeLoop epoch (.holding endpoint) ∈ p.crew) →
    p.pending.length = p.config.bufferSize
  /-- While the pool runs, an endpoint waits on the pending queue only if there are as
  many jobs as the capacity allows, and each of them has a round to finish. -/
  pending : p.status = .running → p.pending ≠ [] →
    p.slots.capacity ≤ p.crew.countP Task.isJob ∧
      ∀ task ∈ p.crew, task.isJob = true → ∃ r, task = .round r

/-- A pending queue without room is full. -/
theorem Staffed.length_pending {p : Pool} (h : Staffed p) (hroom : ¬ p.pendingRoom = true) :
    p.pending.length = p.config.bufferSize := by
  unfold Pool.pendingRoom at hroom
  rw [decide_eq_true_eq] at hroom
  exact Nat.le_antisymm h.pending (Nat.le_of_not_lt hroom)

namespace Pool.AtRest

variable {p : Pool}

/-! ## Copies and callers -/

/-- A round that cannot queue its copy has a full queue before it. -/
theorem delivering (h : p.AtRest) (hnum : Numbered p.tasks p.nextTask) (hstaffed : Staffed p)
    (htyped : Typed p) {r : Round} {copy : Proxy} (hmem : .round r ∈ p.crew)
    (hstage : r.stage = .delivering copy) :
    (p.outputs.get copy.protocol).length = p.config.bufferSize := by
  obtain ⟨id, hfind⟩ := task?_of_mem_crew hnum hmem
  have hmove : Move.deliver ∈ (Task.round r).moves := by
    obtain ⟨endpoint, life, probe, inSlot, stage⟩ := r
    obtain rfl : stage = .delivering copy := hstage
    exact List.mem_singleton.2 rfl
  have hstuck := h.stuck hfind hmove
  have hcopy : (Task.round r).copy? = some copy := by
    obtain ⟨endpoint, life, probe, inSlot, stage⟩ := r
    obtain rfl : stage = .delivering copy := hstage
    rfl
  obtain ⟨life, hknown, -⟩ := (typed_of_task? htyped hfind rfl).settled hcopy
  have hroom : ¬ p.outputRoom copy.protocol = true := by
    intro hroom
    simp [move?, deliver?, hfind, hstage, hroom] at hstuck
  unfold outputRoom at hroom
  rw [Bool.and_eq_true, bne_iff_ne, decide_eq_true_eq, not_and] at hroom
  exact Nat.le_antisymm (hstaffed.outputs _) (Nat.le_of_not_lt (hroom hknown))

/-- An endpoint that cannot come back has a full queue before it. -/
theorem returning (h : p.AtRest) (hnum : Numbered p.tasks p.nextTask) (hstaffed : Staffed p)
    {endpoint : String} (hmem : .requeue endpoint none ∈ p.crew) :
    p.pending.length = p.config.bufferSize := by
  obtain ⟨id, hfind⟩ := task?_of_mem_crew hnum hmem
  have hstuck := h.stuck hfind (List.mem_singleton.2 rfl)
  refine hstaffed.length_pending fun hroom => ?_
  simp [move?, comeBack?, hfind, hroom] at hstuck

/-- A caller that takes no candidate finds none. -/
theorem waiting (h : p.AtRest) (hnum : Numbered p.tasks p.nextTask) {c : Caller}
    {protocol : Protocol} (hmem : .caller c ∈ p.crew) (hwaits : c.stage = .waiting)
    (haccepts : Purpose.accepts c.purpose protocol = true) : p.outputs.get protocol = [] := by
  obtain ⟨id, hfind⟩ := task?_of_mem_crew hnum hmem
  cases hqueue : p.outputs.get protocol with
  | nil => rfl
  | cons candidate rest =>
      have hmove : Move.dispense protocol ∈ (Task.caller c).moves := by
        obtain ⟨purpose, patience, stage⟩ := c
        obtain rfl : stage = .waiting := hwaits
        cases protocol with
        | unknown => cases hqueue
        | _ => simp [Task.moves]
      have hstuck := h.stuck hfind hmove
      simp only [move?, dispense?, hfind, hqueue, hwaits, haccepts, true_and, if_true] at hstuck
      split at hstuck <;> cases hstuck

/-! ## Loops and jobs -/

/-- An intake loop that has an endpoint in its hand has a full queue before it. -/
theorem holding (h : p.AtRest) (hnum : Numbered p.tasks p.nextTask) (hstaffed : Staffed p)
    {epoch : Nat} {endpoint : String} (hmem : .intakeLoop epoch (.holding endpoint) ∈ p.crew) :
    p.pending.length = p.config.bufferSize := by
  obtain ⟨id, hfind⟩ := task?_of_mem_crew hnum hmem
  have hmove : Move.forward ∈ (Task.intakeLoop epoch (.holding endpoint)).moves := by
    simp [Task.moves]
  have hstuck := h.stuck hfind hmove
  refine hstaffed.length_pending fun hroom => ?_
  simp [move?, forward?, hfind, hroom] at hstuck

/-- An intake loop that has its turn finds the intake queue empty. -/
theorem receiving (h : p.AtRest) (hnum : Numbered p.tasks p.nextTask) {epoch : Nat}
    (hmem : .intakeLoop epoch .receiving ∈ p.crew) : p.intake = [] := by
  obtain ⟨id, hfind⟩ := task?_of_mem_crew hnum hmem
  have hmove : Move.receive ∈ (Task.intakeLoop epoch .receiving).moves := by simp [Task.moves]
  have hstuck := h.stuck hfind hmove
  cases hqueue : p.intake with
  | nil => rfl
  | cons endpoint rest => simp [move?, receive?, hfind, hqueue] at hstuck

/-- One intake loop has its turn, if there is any. -/
theorem taken (h : p.AtRest) (hnum : Numbered p.tasks p.nextTask) {epoch : Nat}
    {stage : IntakeStage} (hmem : .intakeLoop epoch stage ∈ p.crew) :
    ∃ epoch, .intakeLoop epoch .receiving ∈ p.crew ∨
      ∃ endpoint, .intakeLoop epoch (.holding endpoint) ∈ p.crew := by
  cases stage with
  | receiving => exact ⟨epoch, .inl hmem⟩
  | holding endpoint => exact ⟨epoch, .inr ⟨endpoint, hmem⟩⟩
  | waiting =>
      obtain ⟨id, hfind⟩ := task?_of_mem_crew hnum hmem
      have hmove : Move.lockIntake ∈ (Task.intakeLoop epoch .waiting).moves := by
        simp [Task.moves]
      have hstuck := h.stuck hfind hmove
      have htaken : p.intakeTaken = true := by
        cases htaken : p.intakeTaken with
        | true => rfl
        | false => simp [move?, lockIntake?, hfind, htaken] at hstuck
      obtain ⟨⟨number, task⟩, hentry, hpast⟩ := List.any_eq_true.1 htaken
      have hthere : task ∈ p.crew := List.mem_map.2 ⟨(number, task), hentry, rfl⟩
      cases task with
      | intakeLoop other stage =>
          cases stage with
          | waiting => cases hpast
          | receiving => exact ⟨other, .inl hthere⟩
          | holding endpoint => exact ⟨other, .inr ⟨endpoint, hthere⟩⟩
      | _ => cases hpast

/-- While there is an intake loop, endpoints wait on the intake side only before a full
pending queue. -/
theorem intake (h : p.AtRest) (hnum : Numbered p.tasks p.nextTask) (hstaffed : Staffed p)
    {epoch : Nat} {stage : IntakeStage} (hmem : .intakeLoop epoch stage ∈ p.crew)
    (hwaits : p.intake ≠ []) : p.pending.length = p.config.bufferSize := by
  obtain ⟨other, hreceives | ⟨endpoint, hholds⟩⟩ := h.taken hnum hmem
  · exact absurd (h.receiving hnum hreceives) hwaits
  · exact h.holding hnum hstaffed hholds

/-- A job that takes no endpoint finds none. -/
theorem idle (h : p.AtRest) (hnum : Numbered p.tasks p.nextTask) {epoch : Nat}
    (hmem : .idleJob epoch ∈ p.crew) : p.pending = [] := by
  obtain ⟨id, hfind⟩ := task?_of_mem_crew hnum hmem
  have hmove : Move.pick ∈ (Task.idleJob epoch).moves := by simp [Task.moves]
  have hstuck := h.stuck hfind hmove
  cases hqueue : p.pending with
  | nil => rfl
  | cons endpoint rest =>
      simp only [move?, pick?, hfind, hqueue] at hstuck
      split at hstuck <;> cases hstuck

/-- Every spawn loop sleeps. -/
theorem asleep (h : p.AtRest) (hnum : Numbered p.tasks p.nextTask) {epoch : Nat} {awake : Bool}
    (hmem : .spawnLoop epoch awake ∈ p.crew) : awake = false := by
  obtain ⟨id, hfind⟩ := task?_of_mem_crew hnum hmem
  cases awake with
  | false => rfl
  | true =>
      have hmove : Move.look ∈ (Task.spawnLoop epoch true).moves := by simp [Task.moves]
      have hstuck := h.stuck hfind hmove
      simp only [move?, look?, hfind] at hstuck
      split at hstuck
      · cases hstuck
      · split at hstuck <;> cases hstuck

/-- While there is a spawn loop, endpoints wait on the pending queue only if all slots
are taken by rounds. -/
theorem pending (h : p.AtRest) (hnum : Numbered p.tasks p.nextTask) (hstaffed : Staffed p)
    (haccepts : p.slots.closed = false) {epoch : Nat} {awake : Bool}
    (hmem : .spawnLoop epoch awake ∈ p.crew) (hwaits : p.pending ≠ []) :
    p.slots.capacity ≤ p.crew.countP Task.isJob ∧
      ∀ task ∈ p.crew, task.isJob = true → ∃ r, task = .round r := by
  constructor
  · obtain rfl := h.asleep hnum hmem
    have hfree := hstaffed.sleeps epoch hmem
    unfold Slots.free at hfree
    rw [haccepts, Bool.not_false, Bool.true_and, decide_eq_false_iff_not, Nat.not_lt] at hfree
    rw [← hstaffed.running]
    exact hfree
  · intro task hjob htask
    cases task with
    | idleJob epoch => exact absurd (h.idle hnum hjob) hwaits
    | round r => exact ⟨r, rfl⟩
    | _ => cases htask

end Pool.AtRest

/-- A loop of a kind and an epoch is found where one is counted. -/
theorem Pool.exists_loop {p : Pool} {kind : Loop} {epoch : Nat} (hone : p.loops kind epoch = 1) :
    ∃ task ∈ p.crew, task.loop? = some kind := by
  obtain ⟨task, hmem, hloop⟩ := List.countP_pos_iff.1 (hone ▸ Nat.one_pos)
  unfold Task.isLoop at hloop
  rw [Bool.and_eq_true, beq_iff_eq] at hloop
  exact ⟨task, hmem, hloop.1⟩

/-- Every reachable pool at rest that has slots of its own has handed over all it can. -/
theorem handed_over_at_rest {config : Config} {p q : Pool} {steps : List Step}
    (hmade : Pool.new config = .ok p) (hrun : Run p steps q)
    (hopen : ∀ s ∈ steps, s.deed ≠ .closeWorkers) (hrest : q.AtRest) : HandedOver q := by
  have hbegins := orderly_of_withSlots hmade
  have hnum := (hbegins.throughout hrun).1.numbered
  have hstaffed := ((staffed_of_new hmade).throughout hbegins hrun).1
  have htyped := ((typed_of_blank (blank_of_withSlots hmade)).throughout hbegins hrun).1
  have hgeneration := (Generation.of_withSlots hmade rfl).of_run hbegins hrun hopen
  refine ⟨?_, ?_, ?_, ?_, ?_⟩
  · exact fun r copy => hrest.delivering hnum hstaffed htyped
  · exact fun endpoint => hrest.returning hnum hstaffed
  · exact fun c protocol => hrest.waiting hnum
  · rintro hrunning (hwaits | ⟨epoch, endpoint, hholds⟩)
    · obtain ⟨task, hmem, hloop⟩ :=
        Pool.exists_loop (hgeneration.manned hrunning .intake nofun)
      cases task with
      | intakeLoop epoch stage => exact hrest.intake hnum hstaffed hmem hwaits
      | _ => cases hloop
    · exact hrest.holding hnum hstaffed hholds
  · intro hrunning hwaits
    obtain ⟨task, hmem, hloop⟩ := Pool.exists_loop (hgeneration.manned hrunning .spawn nofun)
    cases task with
    | spawnLoop epoch awake => exact hrest.pending hnum hstaffed hgeneration.accepts hmem hwaits
    | _ => cases hloop

/-- One job and queues of length one are given three endpoints. The first is in a round,
the second is pending, and the third is in the hand of the intake loop. -/
theorem handed_over_when_full :
    ∃ p steps q, Pool.new { Config.default with workers := 1, bufferSize := 1 } = .ok p ∧
      Run p steps q ∧
      steps.map Step.deed =
        [.load "a:1", .load "b:1", .load "c:1", .start, .move 0 .lockIntake, .move 0 .receive,
          .move 0 .forward, .move 1 .look, .move 1 .look, .move 2 .tick, .move 3 .pick,
          .move 0 .receive, .move 0 .forward, .move 0 .receive] ∧
      q.AtRest ∧ q.status = .running ∧ q.pending = ["b:1"] ∧
      .intakeLoop 1 (.holding "c:1") ∈ q.crew ∧ HandedOver q := by
  obtain ⟨p, hmade, hview⟩ : ∃ p,
      Pool.new { Config.default with workers := 1, bufferSize := 1 } = .ok p ∧
      (p.perform?
        [.load "a:1", .load "b:1", .load "c:1", .start, .move 0 .lockIntake, .move 0 .receive,
          .move 0 .forward, .move 1 .look, .move 1 .look, .move 2 .tick, .move 3 .pick,
          .move 0 .receive, .move 0 .forward, .move 0 .receive]).map
        (fun q => (decide q.AtRest, q.status, q.pending,
          decide (.intakeLoop 1 (.holding "c:1") ∈ q.crew))) =
          some (true, .running, ["b:1"], true) := ⟨_, rfl, by decide +kernel⟩
  obtain ⟨steps, q, hrun, hdeeds, hseen⟩ := Run.of_view _ hview
  simp only [Prod.mk.injEq, decide_eq_true_eq] at hseen
  obtain ⟨hrest, hstatus, hpending, hholds⟩ := hseen
  have hopen : ∀ s ∈ steps, s.deed ≠ .closeWorkers :=
    Step.forall_of_deeds (P := (· ≠ .closeWorkers)) hdeeds (by simp)
  have hover := handed_over_at_rest hmade hrun hopen hrest
  exact ⟨p, steps, q, hmade, hrun, hdeeds, hrest, hstatus, hpending, hholds, hover⟩

end SocksPool
