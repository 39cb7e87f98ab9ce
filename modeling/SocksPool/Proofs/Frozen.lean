import SocksPool.Proofs.Course
import SocksPool.Proofs.Generation
import SocksPool.Proofs.Ways

/-!
# A pool that does not run

Once a pool is at rest and does not run, it has neither a loop nor a job that waits
for an endpoint: each of them watches for the signal to stop, and would have a move.
Only `start` and `resume` launch new ones. So whatever else is done to the pool, an
endpoint that is on the intake or the pending queue stays there, no round begins and
the scaler does not tick.

Rounds that are under way know nothing of this, and take their course.

## Main definitions

* `Frozen` — what is done to a pool and what is not.

## Main results

* `frozen_unless_running` — a pool at rest that does not run is frozen until it is set
  running.
* `halted_round_without_end` — a round that stops halfway in a paused pool.
-/

open SocksPool.Task (Numbered)

namespace SocksPool

/-- The deed is a call that changes the number of workers. -/
def Deed.resizes : Deed → Bool
  | .adjust setting => setting.resizes
  | .tune _ => true
  | _ => false

namespace Pool

/-- The pool has neither loops nor idle jobs. -/
def Unmanned (p : Pool) : Prop := ∀ task ∈ p.crew, task.epoch? = none

/-- The round can go on: its attempt can come to any end, and its copy can be queued as
soon as there is room. -/
def CanGoOn (p : Pool) (id : Nat) (r : Round) : Prop :=
  match r.stage with
  | .attempting _ _ _ => ∀ outcome, (p.act? (.move id (.attempted outcome))).isSome = true
  | .delivering copy =>
    p.outputRoom copy.protocol = true → (p.act? (.move id .deliver)).isSome = true

variable {p q mid : Pool} {d : Deed} {gone come : List Task} {id : Nat}

theorem AtRest.unmanned (h : p.AtRest) (hnum : Numbered p.tasks p.nextTask)
    (hstatus : p.status ≠ .running) : p.Unmanned := by
  intro task hmem
  cases hepoch : task.epoch? with
  | none => rfl
  | some epoch => exact absurd (h.current hnum hmem hepoch).1 hstatus

/-- Only `start` and `resume` man a pool. -/
theorem Unmanned.shift (h : p.Unmanned) (hshift : Shift p q d gone come mid)
    (hswap : Swap gone come mid q) (hstart : d ≠ .start) (hresume : d ≠ .resume) :
    q.Unmanned := by
  intro task hmem
  rcases hshift.mem_cases hswap hmem with ⟨old, hold, rfl | rfl⟩ | hcame
  · exact h _ hold
  · rw [epoch?_wakened]
    exact h old hold
  · cases hepoch : task.epoch? with
    | none => rfl
    | some epoch =>
        rcases hshift.epoch_come hcame hepoch with ⟨hdeed, -⟩ | ⟨old, hgone, hold⟩
        · rcases hdeed with hdeed | hdeed
          · exact absurd hdeed hstart
          · exact absurd hdeed hresume
        · rw [h old (hshift.mem_crew_of_gone hgone)] at hold
          cases hold

theorem Unmanned.not_task? (h : p.Unmanned) {task : Task} (hfind : p.task? id = some task)
    {epoch : Nat} (hepoch : task.epoch? = some epoch) : False := by
  rw [h task (mem_crew_of_task? hfind)] at hepoch
  cases hepoch

/-- What an unmanned pool does: nothing leaves the intake and pending queues, the
scaler does not tick, no job takes an endpoint, and calls alone change the capacity. -/
theorem Unmanned.frozen (h : p.Unmanned) (hshift : Shift p q d gone come mid) :
    p.intake <+: mid.intake ∧ p.pending <+: mid.pending ∧
      (mid.slots.capacity = p.slots.capacity ∨ d.resizes = true) ∧
      ∀ id, d ≠ .move id .tick ∧ d ≠ .move id .pick := by
  have hsame {r s : Pool} (h : Alike r s) : r.intake <+: s.intake ∧ r.pending <+: s.pending :=
    ⟨h.intake ▸ List.prefix_rfl, h.pending ▸ List.prefix_rfl⟩
  have hcalls {d : Deed} (hcall : d.isMove = false) (id : Nat) :
      d ≠ .move id .tick ∧ d ≠ .move id .pick := by
    constructor <;> (rintro rfl; cases hcall)
  cases hshift with
  | received htask _ | forwarded htask _ | locked htask | stopped htask _ | hired htask _
  | slept htask _ _ | ticked _ htask _ _ _ _ | lapsed htask _ | skipped htask _
  | deferred htask _ _ | opened _ htask _ _ _ _ | handedBack htask _ | dismissed htask _ =>
      exact (h.not_task? htask rfl).elim
  | retired htask hepoch _ _ _ => exact (h.not_task? htask hepoch).elim
  | idled hcall | called _ hcall _ =>
      exact ⟨List.prefix_rfl, List.prefix_rfl, .inl rfl, hcalls hcall⟩
  | loaded more hcall =>
      exact ⟨List.prefix_append _ more, List.prefix_rfl, .inl rfl, hcalls hcall⟩
  | launched hdeed _ =>
      rcases hdeed with rfl | rfl <;>
        exact ⟨List.prefix_rfl, List.prefix_rfl, .inl rfl, hcalls rfl⟩
  | resized scaler change hsetting =>
      obtain ⟨hintake, hpending⟩ := hsame (alike_tune { p with scaler } change)
      exact ⟨hintake, hpending, .inr hsetting, hcalls rfl⟩
  | tuned change =>
      obtain ⟨hintake, hpending⟩ := hsame (alike_tune p change)
      exact ⟨hintake, hpending, .inr rfl, hcalls rfl⟩
  | @failed id since r _ _ _ _ _ | @failedKept id since r _ _ _ _ _ _ _ =>
      obtain ⟨hintake, hpending⟩ := hsame (alike_vacate p r.inSlot)
      exact ⟨hintake, hpending, .inl (capacity_vacate p r.inSlot), fun _ => ⟨nofun, nofun⟩⟩
  | @delivered id r copy _ _ _ =>
      obtain ⟨hintake, hpending⟩ := hsame (alike_vacate (p.deliver copy) r.inSlot)
      exact ⟨hintake, hpending, .inl (capacity_vacate _ r.inSlot), fun _ => ⟨nofun, nofun⟩⟩
  | cameBack _ _ =>
      exact ⟨List.prefix_rfl, List.prefix_append _ _, .inl rfl, fun _ => ⟨nofun, nofun⟩⟩
  | left hmove _ =>
      rcases hmove with rfl | rfl <;>
        exact ⟨List.prefix_rfl, List.prefix_rfl, .inl rfl, fun _ => ⟨nofun, nofun⟩⟩
  | used _ hmove _ _ _ =>
      rcases hmove with ⟨_, rfl⟩ | ⟨_, rfl⟩ <;>
        exact ⟨List.prefix_rfl, List.prefix_rfl, .inl rfl, fun _ => ⟨nofun, nofun⟩⟩
  | _ => exact ⟨List.prefix_rfl, List.prefix_rfl, .inl rfl, fun _ => ⟨nofun, nofun⟩⟩

/-! ## Rounds -/

/-- Only a job that takes an endpoint counts a round as checked. -/
theorem Effect.stats_checked (h : p.Effect d q) (hpick : ∀ id, d ≠ .move id .pick) :
    q.stats.checked = p.stats.checked := by
  cases h with
  | @loaded d raws hraws => exact congrArg (·.stats.checked) (Quiet.books_loadAll p raws)
  | deferred due hidle hpending => exact absurd rfl (hpick _)
  | opened htask hpending hfind hadmitted hclear => exact absurd rfl (hpick _)
  | reportedOut hplain hfind hmarks => exact checked_evict _ _
  | struckOff hidle hqueue hfind hmarks => exact checked_evict _ _
  | failedOut htask hlast hwindow hmarks => exact checked_evict _ _
  | sentBack hidle hqueue hstats =>
      rw [stats_recycle]
      rcases hstats with rfl | rfl <;> rfl
  | cleared htask hstage hentry =>
      rw [checked_serve, unlock_recycle, stats_recycle]
      rfl
  | voided htask hstage hentry =>
      rw [unlock_recycle, stats_recycle]
      rfl
  | refused htask hstage =>
      rw [unlock_recycle, stats_recycle]
      rfl
  | passed htask hstage hentry => exact Stats.checked_recordValid _ _
  | _ => rfl

/-- Every round that is under way can go on. -/
theorem canGoOn_of_round? {r : Round} (hround : p.round? id = some r) : p.CanGoOn id r := by
  have htask := round?_eq_some.1 hround
  unfold CanGoOn
  split
  · next protocol rest since hstage =>
      intro outcome
      simp only [act?, move?, attempted?, htask, hstage]
      split
      · rfl
      · split <;> rfl
  · next copy hstage =>
      intro hroom
      simp only [act?, move?, deliver?, htask, hstage, hroom, if_true, Option.isSome_some]

end Pool

/-- The step leaves alone the counters, the registry, the limiters and the output
queues. -/
structure Step.KeepsState (s : Step) : Prop where
  stats : s.after.stats = s.before.stats
  registry : s.after.registry = s.before.registry
  usage : s.after.usage = s.before.usage
  backoff : s.after.backoff = s.before.backoff
  outputs : s.after.outputs = s.before.outputs

/-- Pausing and resuming keep the state of the pool. -/
theorem Step.keepsState {s : Step} (hcall : s.deed = .pause ∨ s.deed = .resume) :
    s.KeepsState := by
  obtain ⟨before, deed, after, hdone⟩ := s
  have hquiet : Quiet before after := by
    rcases hcall with rfl | rfl
    · obtain rfl : before.afterCall before.pause = after := Option.some.inj hdone
      cases hpause : before.pause with
      | ok paused => exact Pool.quiet_of_pause hpause
      | error e => exact .refl before
    · obtain rfl : before.afterCall before.resume = after := Option.some.inj hdone
      cases hresume : before.resume with
      | ok resumed => exact Pool.quiet_of_resume hresume
      | error e => exact .refl before
  exact ⟨hquiet.stats, hquiet.registry, hquiet.usage, hquiet.backoff, hquiet.outputs⟩

/-- What is done to a pool that does not run, from `p` to `q`. -/
structure Frozen (p : Pool) (steps : List Step) (q : Pool) : Prop where
  /-- No loop and no idle job is there at the end. -/
  unmanned : q.Unmanned
  /-- No round begins. -/
  begins : ∀ s ∈ steps, ∀ e, s.opens e = false
  checked : q.stats.checked = p.stats.checked
  /-- Endpoints join the queues at their ends, and none leaves. -/
  intake : p.intake <+: q.intake
  pending : p.pending <+: q.pending
  /-- The scaler does not tick, and calls alone change the capacity. -/
  ticks : ∀ s ∈ steps, ∀ id, s.deed ≠ .move id .tick
  capacity : ∀ s ∈ steps, s.after.slots.capacity = s.before.slots.capacity ∨
    s.deed.resizes = true
  /-- Every round under way takes its course, unless its strike overflows, and comes to
  an end soon. -/
  story : ∀ id r, p.round? id = some r →
    (Story id r (steps.filter (·.movesRound id)) (q.round? id) ↔
      ∀ s ∈ steps, ¬ s.OverflowsStrike id)
  short : ∀ id r, p.round? id = some r → (∀ s ∈ steps, ¬ s.OverflowsStrike id) →
    steps.countP (·.movesRound id) + ((q.round? id).map Round.remaining).getD 0 ≤ r.remaining
  canGoOn : ∀ id r, q.round? id = some r → q.CanGoOn id r

/-- What one step does to an unmanned pool, unless it sets it running. -/
structure Step.Freezes (s : Step) : Prop where
  unmanned : s.after.Unmanned
  checked : s.after.stats.checked = s.before.stats.checked
  intake : s.before.intake <+: s.after.intake
  pending : s.before.pending <+: s.after.pending
  capacity : s.after.slots.capacity = s.before.slots.capacity ∨ s.deed.resizes = true
  idle : ∀ id, s.deed ≠ .move id .tick ∧ s.deed ≠ .move id .pick

theorem Step.freezes {s : Step} (hnum : Numbered s.before.tasks s.before.nextTask)
    (h : s.before.Unmanned) (hstart : s.deed ≠ .start) (hresume : s.deed ≠ .resume) :
    s.Freezes := by
  obtain ⟨gone, come, mid, hshift, hswap⟩ := Pool.shifts_of_act? hnum s.done
  obtain ⟨hintake, hpending, hcapacity, hidle⟩ := h.frozen hshift
  obtain ⟨next, heffect, hquiet⟩ := Pool.effects_of_act? hnum s.done
  refine ⟨h.shift hshift hswap hstart hresume, ?_, ?_, ?_, ?_, hidle⟩
  · rw [hquiet.stats]
    exact heffect.stats_checked fun id => (hidle id).2
  · rwa [hswap.intake]
  · rwa [hswap.pending]
  · rwa [hswap.slots]

/-- A step that takes no endpoint begins no round. -/
theorem Step.Freezes.opens {s : Step} (h : s.Freezes) (e : String) : s.opens e = false := by
  unfold Step.opens
  split
  · next id hdeed => exact absurd hdeed (h.idle id).2
  · rfl

/-- As long as a pool at rest is not set running, it is frozen, and every round under
way takes its course unless its strike overflows. Pausing and resuming keep the state of
any pool. -/
theorem frozen_unless_running {config : Config} {slots : Slots} {p q r : Pool}
    {before steps : List Step} (hmade : Pool.withSlots config slots = .ok p)
    (hreach : Run p before q) (hrest : q.AtRest) (hstatus : q.status ≠ .running)
    (hrun : Run q steps r) (hcalls : ∀ s ∈ steps, s.deed ≠ .start ∧ s.deed ≠ .resume) :
    Frozen q steps r ∧
      ∀ s : Step, s.deed = .pause ∨ s.deed = .resume → s.KeepsState := by
  have horderly := ((orderly_of_withSlots hmade).throughout hreach).1
  obtain ⟨hend, hall⟩ := horderly.throughout hrun
  have hfreezes {s : Step} (hs : s ∈ steps) (hunmanned : s.before.Unmanned) : s.Freezes :=
    Step.freezes (hall s hs).1.numbered hunmanned (hcalls s hs).1 (hcalls s hs).2
  obtain ⟨⟨hunmanned, hchecked, hintake, hpending⟩, hsteps⟩ := hrun.throughout
    (P := fun r => r.Unmanned ∧ r.stats.checked = q.stats.checked ∧
      q.intake <+: r.intake ∧ q.pending <+: r.pending)
    ⟨hrest.unmanned horderly.numbered hstatus, rfl, List.prefix_rfl, List.prefix_rfl⟩
    fun s hs ⟨hbefore, hchecked, hintake, hpending⟩ => by
      have hstep := hfreezes hs hbefore
      exact ⟨hstep.unmanned, hstep.checked.trans hchecked, hintake.trans hstep.intake,
        hpending.trans hstep.pending⟩
  have hfrozen {s : Step} (hs : s ∈ steps) : s.Freezes := hfreezes hs (hsteps s hs).1.1
  have hbegins : ∀ s ∈ steps, ∀ e, s.opens e = false := fun s hs => (hfrozen hs).opens
  refine ⟨⟨hunmanned, hbegins, hchecked, hintake, hpending, ?_, ?_, ?_, ?_, ?_⟩, ?_⟩
  · exact fun s hs id => ((hfrozen hs).idle id).1
  · exact fun s hs => (hfrozen hs).capacity
  · exact fun id round hround => story_of_run horderly hround hrun hbegins
  · intro id round hround hfits
    rw [List.countP_eq_length_filter]
    exact ((story_of_run horderly hround hrun hbegins).2 hfits).length_le
  · exact fun id round hround => Pool.canGoOn_of_round? hround
  · exact fun s hcall => Step.keepsState hcall

/-- A pool is paused while a round is under way and its loops stop. An endpoint is loaded,
and the round queues its copy. -/
theorem frozen_while_paused :
    ∃ p before q steps r, Pool.new { Config.default with workers := 1 } = .ok p ∧
      Run p before q ∧
      before.map Step.deed =
        [.load "a:1", .start, .move 0 .lockIntake, .move 0 .receive, .move 0 .forward,
          .move 1 .look, .move 3 .pick, .pause, .move 0 .halt, .move 1 .halt, .move 2 .halt] ∧
      q.AtRest ∧ q.status ≠ .running ∧ Run q steps r ∧
      steps.map Step.deed =
        [.load "b:1", .move 3 (.attempted (.ok (.v4 ⟨198, 51, 100, 7⟩))), .move 3 .deliver] ∧
      (∀ s ∈ steps, s.deed ≠ .start ∧ s.deed ≠ .resume) ∧ Frozen q steps r := by
  obtain ⟨p, hmade, hview⟩ : ∃ p, Pool.new { Config.default with workers := 1 } = .ok p ∧
      (p.perform?
        [.load "a:1", .start, .move 0 .lockIntake, .move 0 .receive, .move 0 .forward,
          .move 1 .look, .move 3 .pick, .pause, .move 0 .halt, .move 1 .halt, .move 2 .halt]).map
        (fun q => (decide q.AtRest, q.status, (q.perform?
          [.load "b:1", .move 3 (.attempted (.ok (.v4 ⟨198, 51, 100, 7⟩))),
            .move 3 .deliver]).isSome)) =
          some (true, .paused, true) := ⟨_, rfl, by decide +kernel⟩
  obtain ⟨before, q, hreach, hdeeds, hseen⟩ := Run.of_view _ hview
  simp only [Prod.mk.injEq, decide_eq_true_eq] at hseen
  obtain ⟨hrest, hpaused, hdone⟩ := hseen
  obtain ⟨r, hdone⟩ := Option.isSome_iff_exists.1 hdone
  obtain ⟨steps, hrun, hmore⟩ := Run.of_perform? Run.rest hdone
  have hstatus : q.status ≠ .running := by
    rw [hpaused]
    decide
  have hcalls : ∀ s ∈ steps, s.deed ≠ .start ∧ s.deed ≠ .resume :=
    Step.forall_of_deeds (P := fun d => d ≠ .start ∧ d ≠ .resume) hmore (by simp)
  have hfrozen := (frozen_unless_running hmade hreach hrest hstatus hrun hcalls).1
  exact ⟨p, before, q, steps, r, hmade, hreach, hdeeds, hrest, hstatus, hrun, hmore, hcalls,
    hfrozen⟩

/-- The first backoff window ends at a time that the clock cannot represent. A round that
is under way as the pool is paused fails, and is counted as bad; but its endpoint is
neither evicted, which the threshold asks for, nor does it come back. -/
theorem halted_round_without_end :
    ∃ p before q steps r,
      Pool.new { Config.default with
        workers := 1, removeAfter := 1, badBackoff := 9223372036854775808 * Span.second,
        maxBadBackoff := 9223372036854775808 * Span.second } = .ok p ∧
      Run p before q ∧
      before.map Step.deed =
        [.load "a:1", .start, .move 0 .lockIntake, .move 0 .receive, .move 0 .forward,
          .move 1 .look, .move 3 .pick, .pause, .move 0 .halt, .move 1 .halt, .move 2 .halt] ∧
      q.AtRest ∧ q.status = .paused ∧ (q.round? 3).isSome = true ∧ Run q steps r ∧
      steps.map Step.deed =
        List.replicate 3 (.move 3 (.attempted (.error (.dialTimeout "a:1")))) ∧
      r.tasks = [] ∧ r.stats.bad = q.stats.bad + 1 ∧ r.stats.evicted = q.stats.evicted ∧
      r.registry.contains "a:1" = true ∧ r.pending = [] := by
  obtain ⟨p, hmade, hview⟩ : ∃ p,
      Pool.new { Config.default with
        workers := 1, removeAfter := 1, badBackoff := 9223372036854775808 * Span.second,
        maxBadBackoff := 9223372036854775808 * Span.second } = .ok p ∧
      (p.perform?
        [.load "a:1", .start, .move 0 .lockIntake, .move 0 .receive, .move 0 .forward,
          .move 1 .look, .move 3 .pick, .pause, .move 0 .halt, .move 1 .halt, .move 2 .halt]).map
        (fun q => (decide q.AtRest, q.status, (q.round? 3).isSome, (q.perform?
          (List.replicate 3 (.move 3 (.attempted (.error (.dialTimeout "a:1")))))).map
            fun r => decide (r.tasks.isEmpty = true ∧ r.stats.bad = q.stats.bad + 1 ∧
              r.stats.evicted = q.stats.evicted ∧ r.registry.contains "a:1" = true ∧
              r.pending = []))) =
          some (true, .paused, true, some true) :=
    ⟨_, rfl, by decide +kernel⟩
  obtain ⟨before, q, hreach, hdeeds, hseen⟩ := Run.of_view _ hview
  simp only [Prod.mk.injEq, decide_eq_true_eq] at hseen
  obtain ⟨hrest, hpaused, hround, hdone⟩ := hseen
  obtain ⟨steps, r, hrun, hmore, hlast⟩ := Run.of_view _ hdone
  rw [decide_eq_true_eq, List.isEmpty_iff] at hlast
  exact ⟨p, before, q, steps, r, hmade, hreach, hdeeds, hrest, hpaused, hround, hrun, hmore, hlast⟩

end SocksPool
