import Mathlib.Algebra.Order.BigOperators.Group.List
import Mathlib.Algebra.Order.Group.Nat
import SocksPool.Proofs.Choices

/-!
# A pool settles while the clock stands

Every move of a task lowers the effort of its pool, so only so many moves are possible
before nothing can happen until the clock moves. This holds whatever the attempts of
rounds and re-dials come to, with recycling, and for endpoints that come back at once.

What ends these circles is that the usage limiter admits a burst of rounds of an endpoint
at one time and no more. The next job that takes the endpoint puts it off, and what is
put off waits for the clock.

A spawn loop that is told to stop may start jobs first. Each of them stops again, and they
are counted. They come to an end as the loops choose their signals.

## Main definitions

* `Pool.effort` — how many moves are possible.
* `Pool.Spent` — no move is possible.

## Main results

* `Step.effort_lt` — every move lowers the effort.
* `settles_at_standing_clock` — how many moves are possible at one time, and how many
  rounds begin.
-/

open SocksPool.Task (Numbered)

namespace SocksPool

/-! ## Room -/

namespace Pool

variable {quota : Quota} {p q mid : Pool} {d : Deed} {gone come : List Task} {e : String}

/-- How many rounds of an endpoint the usage limiter still admits now. -/
def room (p : Pool) (e : String) : Nat :=
  (p.now + p.usage.tolerance + p.usage.pace - p.level e) / p.usage.pace

/-- There is never room for more than a burst of rounds. -/
theorem room_le_burst (p : Pool) (e : String) : p.room e ≤ max p.usage.quota.burst 1 := by
  have hlevel : p.now ≤ p.level e := p.usage.le_level _ e
  have hwhole : p.usage.tolerance + p.usage.pace =
      p.usage.pace * max p.usage.quota.burst 1 := by
    have hburst : max p.usage.quota.burst 1 = p.usage.quota.burst - 1 + 1 := by omega
    rw [hburst, Nat.mul_add_one]
    rfl
  unfold room
  refine Nat.div_le_of_le_mul ?_
  rw [← hwhole]
  omega

/-- While the clock stands, no room is won back. -/
theorem room_le (hsteady : Steady quota p) (hgauged : p.Gauged q) (hnow : q.now = p.now)
    (e : String) : q.room e ≤ p.room e := by
  have hquota := (hsteady.gauged hgauged).quota
  have hlevel := hsteady.level_le hgauged e
  unfold room Usage.tolerance Usage.pace
  rw [hquota, hsteady.quota, hnow]
  exact Nat.div_le_div_right (Nat.sub_le_sub_left hlevel _)

/-- A round that begins takes its room. -/
theorem room_opened (hadmitted : (p.usage.check p.now e).2 = none)
    (husage : q.usage = (p.usage.check p.now e).1) (hnow : q.now = p.now) :
    q.room e + 1 ≤ p.room e := by
  have hlevel : q.level e = p.level e + p.usage.pace := by
    unfold level
    rw [husage, hnow, Usage.level_check hadmitted]
  have hwithin : p.level e ≤ p.now + p.usage.tolerance := by
    rcases p.usage.check_cases p.now e with ⟨hrefused, -⟩ | ⟨-, hwithin, -⟩
    · rw [hadmitted] at hrefused
      cases hrefused
    · exact hwithin
  have hquota : q.usage.quota = p.usage.quota := by rw [husage, Usage.quota_check]
  unfold room Usage.tolerance Usage.pace at *
  rw [hlevel, hquota, hnow, ← Nat.add_div_right _ (Nat.lt_of_lt_of_le Nat.one_pos
    (Nat.le_max_right _ _))]
  refine Nat.div_le_div_right ?_
  omega

/-- The tariff of a pool. -/
def tariff (p : Pool) (spawners : Nat) : Tariff := ⟨spawners, p.now, p.halted, p.room⟩

/-- How many moves are possible while the clock stands, unless spawn loops ignore their
signals. -/
def effort (p : Pool) : Nat := p.effortAt (p.tariff (p.alive .spawn))

/-- How many more moves follow if a spawn loop ignores its signal. -/
def haltCost (p : Pool) : Nat := p.alive .spawn + 2

/-- How many jobs are started by spawn loops that are told to stop, if they are left alone
until they have stopped. -/
def lateJobs (p : Pool) : Nat := max p.slots.capacity Word.limit * p.alive .spawn

/-- No move is possible. -/
def Spent (p : Pool) : Prop := ∀ id move, p.move? id move = none

end Pool

/-! ## Less room -/

namespace Tariff

variable {t : Tariff} {room : String → Nat}

/-- The tariff once the limiter has other room. -/
def withRoom (t : Tariff) (room : String → Nat) : Tariff := { t with room }

theorem endpoint_le (hroom : ∀ e, room e ≤ t.room e) (e : String) (steps : Nat) :
    (t.withRoom room).endpoint e steps ≤ t.endpoint e steps :=
  Nat.add_le_add_right (Nat.mul_le_mul_left _ (hroom e)) _

theorem endpoint_lt {e : String} (hroom : room e + 1 ≤ t.room e) (steps : Nat) :
    (t.withRoom room).endpoint e steps + 10 * t.unit ≤ t.endpoint e steps := by
  have hless := Nat.mul_le_mul_left (10 * t.unit) hroom
  rw [Nat.mul_add_one] at hless
  show 10 * t.unit * room e + steps * t.unit + 10 * t.unit ≤
    10 * t.unit * t.room e + steps * t.unit
  omega

theorem task_le (hroom : ∀ e, room e ≤ t.room e) (task : Task) :
    (t.withRoom room).task task ≤ t.task task := by
  cases task with
  | intakeLoop epoch stage =>
      cases stage with
      | holding e => exact Nat.add_le_add_left (endpoint_le hroom e 2) _
      | _ => exact Nat.le_refl _
  | round r =>
      show (t.withRoom room).round r ≤ t.round r
      unfold round
      split
      · exact endpoint_le hroom _ _
      · exact endpoint_le hroom _ _
  | requeue e due =>
      cases due with
      | none => exact endpoint_le hroom e 2
      | some due => exact endpoint_le hroom e _
  | caller c =>
      show (t.withRoom room).caller c ≤ t.caller c
      unfold caller
      refine Nat.add_le_add_left ?_ _
      split
      · exact Nat.le_refl _
      · exact endpoint_le hroom _ 3
      · exact Nat.le_refl _
  | _ => exact Nat.le_refl _

theorem queues_le (hroom : ∀ e, room e ≤ t.room e) (intake pending : List String)
    (outputs : Outputs) :
    (t.withRoom room).queues intake pending outputs ≤ t.queues intake pending outputs := by
  refine Nat.add_le_add (Nat.add_le_add ?_ ?_) ?_
  · exact List.sum_le_sum fun e _ => endpoint_le hroom e 3
  · exact List.sum_le_sum fun e _ => endpoint_le hroom e 1
  · exact List.sum_le_sum fun copy _ => endpoint_le hroom copy.endpoint 4

end Tariff

/-- What is charged one by one and at one place for less. -/
theorem sum_map_add_le {α : Type} {few many : α → Nat} {l : List α} {x : α} {cost : Nat}
    (hall : ∀ y ∈ l, few y ≤ many y) (hmem : x ∈ l) (hless : few x + cost ≤ many x) :
    (l.map few).sum + cost ≤ (l.map many).sum := by
  obtain ⟨front, back, rfl⟩ := List.append_of_mem hmem
  have hfront : (front.map few).sum ≤ (front.map many).sum :=
    List.sum_le_sum fun y hy => hall y (List.mem_append_left _ hy)
  have hback : (back.map few).sum ≤ (back.map many).sum :=
    List.sum_le_sum fun y hy => hall y (List.mem_append_right _ (List.mem_cons_of_mem _ hy))
  simp only [List.map_append, List.map_cons, List.sum_append, List.sum_cons]
  omega

namespace Pool

variable {quota : Quota} {p q mid : Pool} {d : Deed} {gone come : List Task} {t : Tariff}
  {room : String → Nat}

/-- With less room the effort is less. -/
theorem effortAt_le (hroom : ∀ e, room e ≤ t.room e) (q : Pool) :
    q.effortAt (t.withRoom room) ≤ q.effortAt t := by
  have hqueues := Tariff.queues_le hroom q.intake q.pending q.outputs
  have htasks : q.weigh (t.withRoom room).task ≤ q.weigh t.task :=
    List.sum_le_sum fun task _ => Tariff.task_le hroom task
  unfold effortAt
  omega

/-- And it is much less if an endpoint that is in a round has less room. -/
theorem effortAt_lt (hroom : ∀ e, room e ≤ t.room e) {e : String} {life : Nat}
    (hless : room e + 1 ≤ t.room e) (hmem : .round (p.firstRound e life) ∈ q.crew) :
    q.effortAt (t.withRoom room) + 10 * t.unit ≤ q.effortAt t := by
  have hqueues := Tariff.queues_le hroom q.intake q.pending q.outputs
  have htasks : q.weigh (t.withRoom room).task + 10 * t.unit ≤ q.weigh t.task := by
    refine sum_map_add_le (fun task _ => Tariff.task_le hroom task) hmem ?_
    exact Tariff.endpoint_lt hless 8
  unfold effortAt
  omega

/-! ## Moves keep the tariff -/

/-- A move takes no time and no call of the life cycle. -/
theorem Shift.fixed_mid (h : Shift p q d gone come mid) (hmove : d.isMove = true) :
    mid.now = p.now ∧ mid.halted = p.halted := by
  have hnow : mid.now = p.now := by
    cases h with
    | elapsed _ => cases hmove
    | resized _ _ _ | tuned _ => cases hmove
    | ticked _ _ _ _ _ hmid =>
        rcases hmid with rfl | ⟨change, rfl⟩
        · rfl
        · exact (alike_tune _ change).now
    | failed _ _ | failedKept _ _ _ | delivered _ _ _ => exact (alike_vacate _ _).now
    | _ => rfl
  refine ⟨hnow, ?_⟩
  rcases h.cycle_cases with ⟨hdeed, -⟩ | ⟨rfl, -⟩ | ⟨hstatus, hepoch⟩
  · rcases hdeed with rfl | rfl <;> cases hmove
  · cases hmove
  · funext epoch
    unfold halted
    rw [hstatus, hepoch]

/-- A scale loop that has ticked has an interval. -/
def Timed (p : Pool) : Prop :=
  ∀ epoch due, .scaleLoop epoch (some due) ∈ p.crew → p.config.scaleInterval ≠ 0

theorem Timed.shift (h : p.Timed) (hshift : Shift p q d gone come mid)
    (hswap : Swap gone come mid q) : q.Timed := by
  intro epoch due hmem
  rw [hswap.scaleInterval, hshift.config_mid]
  rcases hshift.mem_cases hswap hmem with ⟨old, hold, hsame⟩ | hcame
  · have hthere : .scaleLoop epoch (some due) ∈ p.crew := by
      rcases hsame with hsame | hsame
      · rwa [hsame]
      · cases old <;> cases hsame
        exact hold
    exact h epoch due hthere
  · cases hshift.succeeds hcame rfl with
    | fresh _ _ hfresh => simp [freshLoops] at hfresh
    | @ticks earlier next hgone hfirst =>
        cases earlier with
        | none => exact hfirst rfl
        | some instant => exact h epoch instant (hshift.mem_crew_of_gone hgone)

theorem timed_of_blank (h : p.Blank) : p.Timed := by
  intro epoch due hmem
  unfold crew at hmem
  rw [h.tasks] at hmem
  cases hmem

end Pool

/-! ## Steps and runs -/

/-- A job that takes an endpoint off the pending queue finds it evicted, or begins a
round, or puts it off until later. -/
def Step.PicksUp (s : Step) : Prop :=
  ∀ id, s.deed = .move id .pick → ∃ e rest, s.before.pending = e :: rest ∧
    (s.before.registry.find? e = none ∨ s.opens e = true ∨
      ∃ due, s.before.now < due ∧ .requeue e (some due) ∈ s.after.crew)

/-- What the bound on the moves of a pool rests on. -/
structure Settles (quota : Quota) (spawners : Nat) (p : Pool) : Prop where
  orderly : Orderly p
  steady : Steady quota p
  timed : p.Timed
  spawners : p.alive .spawn ≤ spawners

/-- The copy of a round is of the round's endpoint. -/
theorem Orderly.endpoint_of_delivering {p : Pool} (h : Orderly p) {r : Round} {copy : Proxy}
    (hmem : .round r ∈ p.crew) (hstage : r.stage = .delivering copy) :
    copy.endpoint = r.endpoint := by
  obtain ⟨id, hfind⟩ := Pool.task?_of_mem_crew h.numbered hmem
  exact (h.backed_of_task? hfind rfl).2 copy hstage

namespace Step

variable {quota : Quota} {spawners : Nat} {s : Step}

theorem settles (h : Settles quota spawners s.before) (hmove : s.deed.isMove = true) :
    Settles quota spawners s.after := by
  obtain ⟨gone, come, mid, hshift, hswap⟩ := Pool.shifts_of_act? h.orderly.numbered s.done
  exact ⟨h.orderly.act s.done, h.steady.gauged (Pool.gauged_of_act? h.orderly s.done),
    h.timed.shift hshift hswap, Nat.le_trans (hshift.spawners_le hswap hmove) h.spawners⟩

theorem now_of_isMove (hnum : Numbered s.before.tasks s.before.nextTask)
    (hmove : s.deed.isMove = true) : s.after.now = s.before.now := by
  obtain ⟨gone, come, mid, hshift, hswap⟩ := Pool.shifts_of_act? hnum s.done
  exact hswap.now.trans (hshift.fixed_mid hmove).1

/-- A move changes the tariff by the room that it takes. -/
theorem tariff_of_isMove (hnum : Numbered s.before.tasks s.before.nextTask)
    (hmove : s.deed.isMove = true) :
    s.after.tariff spawners = (s.before.tariff spawners).withRoom s.after.room := by
  obtain ⟨gone, come, mid, hshift, hswap⟩ := Pool.shifts_of_act? hnum s.done
  have hepochs : s.after.halted = s.before.halted := by
    rw [← (hshift.fixed_mid hmove).2]
    funext epoch
    unfold Pool.halted
    rw [hswap.status, hswap.epoch]
  unfold Pool.tariff
  rw [now_of_isMove hnum hmove, hepochs]
  rfl

/-- A copy that comes with a round is of the round's endpoint. -/
theorem endpoint_of_come (h : Orderly s.before) {gone come : List Task} {mid : Pool}
    (hshift : Pool.Shift s.before s.after s.deed gone come mid)
    (hswap : Pool.Swap gone come mid s.after) {r : Round} {copy : Proxy}
    (hcame : .round r ∈ come) (hstage : r.stage = .delivering copy) :
    copy.endpoint = r.endpoint := by
  rcases hswap.mem_of_come hcame with hthere | hgone
  · exact (h.act s.done).endpoint_of_delivering hthere hstage
  · exact h.endpoint_of_delivering (hshift.mem_crew_of_gone hgone) hstage

/-- Every move lowers the effort, unless a spawn loop ignores its signal. -/
theorem effort_lt (h : Settles quota spawners s.before) (hmove : s.deed.isMove = true) :
    s.after.effortAt (s.after.tariff spawners) + 1 ≤
      s.before.effortAt (s.before.tariff spawners) +
        if s.ignoresHalt then spawners + 2 else 0 := by
  obtain ⟨gone, come, mid, hshift, hswap⟩ := Pool.shifts_of_act? h.orderly.numbered s.done
  have hclock := now_of_isMove h.orderly.numbered hmove
  have hgauged := Pool.gauged_of_act? h.orderly s.done
  have hroom := Pool.room_le h.steady hgauged hclock
  have hfits : Pool.Fits (s.before.tariff spawners) s.before :=
    ⟨h.spawners, rfl, rfl, h.timed⟩
  have hswapped := hswap.effortAt (s.before.tariff spawners)
  rw [tariff_of_isMove h.orderly.numbered hmove]
  rcases hshift.effortAt hfits (fun r copy => endpoint_of_come h.orderly hshift hswap) hmove with
    ⟨e, life, epoch, rfl, rfl, hadmitted, hmetered, hcharged⟩ | hcharged
  · have hopened := Pool.room_opened hadmitted hmetered hclock
    have hround : .round (s.before.firstRound e life) ∈ s.after.crew := by
      rcases hswap.mem_of_come (List.mem_singleton.2 rfl) with hthere | hgone
      · exact hthere
      · cases List.mem_singleton.1 hgone
    have hless := Pool.effortAt_lt (t := s.before.tariff spawners) hroom hopened hround
    have hunit := (s.before.tariff spawners).two_le_unit
    omega
  · have hless := Pool.effortAt_le (t := s.before.tariff spawners) hroom s.after
    have hcost : (s.before.tariff spawners).unit = spawners + 2 := rfl
    rw [hcost] at hcharged
    unfold ignoresHalt
    omega

/-- A job puts off what the limiters do not admit. -/
theorem picksUp (h : Orderly s.before) : s.PicksUp := by
  intro id hdeed
  obtain ⟨gone, come, mid, hshift, hswap⟩ := Pool.shifts_of_act? h.numbered s.done
  rw [hdeed] at hshift
  cases hshift with
  | idled hcall | loaded _ hcall | called _ hcall _ => cases hcall
  | launched hstart _ => rcases hstart with hstart | hstart <;> cases hstart
  | left hmove _ => rcases hmove with hmove | hmove <;> cases hmove
  | used _ hmove _ _ _ => rcases hmove with ⟨_, hmove⟩ | ⟨_, hmove⟩ <;> cases hmove
  | skipped _ hpending hunknown => exact ⟨_, _, hpending, .inl hunknown⟩
  | @deferred id epoch due e rest _ hpending hlater =>
      refine ⟨e, rest, hpending, .inr (.inr ⟨due, hlater, ?_⟩)⟩
      rcases hswap.mem_of_come (List.mem_singleton.2 rfl) with hnow | hgone
      · exact hnow
      · cases List.mem_singleton.1 hgone
  | @opened id epoch e rest life _ hpending _ _ hbegins =>
      refine ⟨e, rest, hpending, .inr (.inl ?_)⟩
      unfold opens
      rw [hdeed]
      dsimp only
      rw [hbegins]
      exact beq_self_eq_true _

end Step

namespace Settles

variable {quota : Quota} {spawners : Nat} {p q : Pool} {steps : List Step}

/-- Every run of moves keeps what the bound rests on. -/
theorem throughout (h : Settles quota spawners p) (hrun : Run p steps q)
    (hmoves : ∀ s ∈ steps, s.deed.isMove = true) :
    Settles quota spawners q ∧ ∀ s ∈ steps, Settles quota spawners s.before :=
  have hall := hrun.throughout h fun s hs hbefore => s.settles hbefore (hmoves s hs)
  ⟨hall.1, fun s hs => (hall.2 s hs).1⟩

/-- A run of moves is paid for by the effort that it saves. -/
theorem length_le (h : Settles quota spawners p) (hrun : Run p steps q)
    (hmoves : ∀ s ∈ steps, s.deed.isMove = true) :
    q.effortAt (q.tariff spawners) + steps.length ≤
      p.effortAt (p.tariff spawners) + (spawners + 2) * steps.countP Step.ignoresHalt := by
  induction hrun with
  | rest => exact Nat.le_refl _
  | @step steps s hrun ih =>
      obtain ⟨hearlier, hlast⟩ := List.forall_mem_append.1 hmoves
      rw [List.forall_mem_singleton] at hlast
      have hless := s.effort_lt (h.throughout hrun hearlier).1 hlast
      have hsofar := ih hearlier
      rw [List.length_append, List.countP_append, List.length_singleton, List.countP_singleton,
        Nat.mul_add]
      cases hignores : s.ignoresHalt with
      | true =>
          simp only [hignores, if_true, Nat.mul_one] at hless ⊢
          omega
      | false =>
          simp only [hignores, Bool.false_eq_true, if_false, Nat.mul_zero] at hless ⊢
          omega

/-- In a run of moves, rounds of an endpoint begin while there is room for them. -/
theorem opens_le (h : Settles quota spawners p) (hrun : Run p steps q)
    (hmoves : ∀ s ∈ steps, s.deed.isMove = true) (e : String) :
    q.room e + steps.countP (·.opens e) ≤ p.room e := by
  induction hrun with
  | rest => exact Nat.le_refl _
  | @step steps s hrun ih =>
      obtain ⟨hearlier, hlast⟩ := List.forall_mem_append.1 hmoves
      rw [List.forall_mem_singleton] at hlast
      have hbefore := (h.throughout hrun hearlier).1
      have hsofar := ih hearlier
      have hclock := s.now_of_isMove hbefore.orderly.numbered hlast
      have hgauged := Pool.gauged_of_act? hbefore.orderly s.done
      rw [List.countP_append, List.countP_singleton]
      cases hopens : s.opens e with
      | true =>
          obtain ⟨hadmitted, -, husage, -⟩ := Step.opened hbefore.orderly hopens
          have hless := Pool.room_opened hadmitted husage hclock
          simp only [if_true]
          omega
      | false =>
          have hless := Pool.room_le hbefore.steady hgauged hclock e
          simp only [Bool.false_eq_true, if_false]
          omega

end Settles

/-- Where a move is possible, one is, whatever a spawn loop that is told to stop is to
choose. -/
theorem Pool.exists_step {p : Pool} (h : ¬ p.Spent) (wanted : Bool) :
    ∃ s : Step, s.before = p ∧ s.deed.isMove = true ∧
      ∀ heeds, s.heeds? = some heeds → heeds = wanted := by
  unfold Spent at h
  push Not at h
  obtain ⟨id, move, hmove⟩ := h
  obtain ⟨q, hdone⟩ := Option.ne_none_iff_exists'.1 hmove
  by_cases hrecalls : p.Recalls id
  · obtain ⟨s, hbefore, ⟨other, hdeed⟩, hheeds⟩ := hrecalls.exists_step wanted
    exact ⟨s, hbefore, by rw [hdeed]; rfl, hheeds⟩
  · refine ⟨⟨p, .move id move, q, hdone⟩, rfl, rfl, fun heeds hheeds => ?_⟩
    obtain ⟨other, choice, hdeed, hrecalled, -⟩ := Step.recalls_of_heeds hheeds
    obtain ⟨rfl, -⟩ := Deed.move.inj hdeed
    exact absurd hrecalled hrecalls

/-- And if a spawn loop lingers, it can be the one that moves. -/
theorem Run.exists_next {p q : Pool} {steps : List Step} (hrun : Run p steps q)
    (h : ¬ q.Spent) (wanted : Bool) :
    ∃ s : Step, s.before = q ∧ s.deed.isMove = true ∧
      (∀ heeds, s.heeds? = some heeds → heeds = wanted) ∧
      ∀ t ∈ steps.getLast?, ∀ id, t.Lingers id → ∃ move, s.deed = .move id move := by
  by_cases hlingers : ∃ t ∈ steps.getLast?, ∃ id, t.Lingers id
  · obtain ⟨t, hlast, id, hlingers⟩ := hlingers
    have hrecalls : q.Recalls id := by
      cases hrun with
      | rest => cases hlast
      | step s _ =>
          rw [List.getLast?_concat, Option.mem_some_iff] at hlast
          subst hlast
          exact hlingers.2
    obtain ⟨s, hbefore, ⟨move, hdeed⟩, hheeds⟩ := hrecalls.exists_step wanted
    refine ⟨s, hbefore, by rw [hdeed]; rfl, hheeds, fun other hother other' hagain => ?_⟩
    obtain rfl := Option.mem_unique hlast hother
    obtain ⟨rfl, -⟩ := Deed.move.inj (hlingers.1.symm.trans hagain.1)
    exact ⟨move, hdeed⟩
  · obtain ⟨s, hbefore, hmove, hheeds⟩ := q.exists_step h wanted
    exact ⟨s, hbefore, hmove, hheeds, fun t hlast id ht => absurd ⟨t, hlast, id, ht⟩ hlingers⟩

/-- As long as a pool is not spent, moves lead on, and they are bounded, so they come to an
end. -/
theorem Run.exists_spent {p q : Pool} {steps : List Step} {choices : Nat → Bool} {bound : Nat}
    (hrun : Run p steps q) (hmoves : ∀ s ∈ steps, s.deed.isMove = true)
    (hfollows : Follows choices steps) (hprompt : Prompt steps)
    (hbound : ∀ more r, Run p more r → (∀ s ∈ more, s.deed.isMove = true) →
      Follows choices more → more.length ≤ bound) :
    ∃ more r, Run p more r ∧ (∀ s ∈ more, s.deed.isMove = true) ∧ Follows choices more ∧
      Prompt more ∧ r.Spent := by
  have hfew := hbound steps q hrun hmoves hfollows
  by_cases hspent : q.Spent
  · exact ⟨steps, q, hrun, hmoves, hfollows, hprompt, hspent⟩
  · obtain ⟨s, rfl, hmove, hheeds, hnext⟩ := hrun.exists_next hspent
      (choices (steps.filterMap Step.heeds?).length)
    have hprompter : Prompt (steps ++ [s]) :=
      List.isChain_append.2 ⟨hprompt, List.isChain_singleton s, fun t ht u hu =>
        Option.mem_some_iff.1 hu ▸ hnext t ht⟩
    exact Run.exists_spent (.step s hrun)
      (List.forall_mem_append.2 ⟨hmoves, List.forall_mem_singleton.2 hmove⟩)
      (hfollows.concat hheeds) hprompter hbound
termination_by bound + 1 - steps.length
decreasing_by
  rw [List.length_append, List.length_singleton]
  omega

/-- From every reachable pool only finitely many moves are possible while the clock stands,
however spawn loops that are told to stop choose, as long as they choose their signal again
and again. How many is known: as many as the effort of the pool, and so many more for each
time that a spawn loop ignores its signal, which is bounded outright if spawn loops are left
alone until they have stopped. No more rounds of an endpoint begin in them than a burst, and
a job that picks up a registered endpoint without a round puts it off until later. And there
are moves after which no move is possible. -/
theorem settles_at_standing_clock {config : Config} {slots : Slots} {p q : Pool}
    {before : List Step} {choices : Nat → Bool} (hmade : Pool.withSlots config slots = .ok p)
    (hreach : Run p before q) (hfair : Fair choices) :
    (∃ bound, ∀ more r, Run q more r → (∀ s ∈ more, s.deed.isMove = true) →
      Follows choices more → more.length ≤ bound) ∧
    (∀ more r, Run q more r → (∀ s ∈ more, s.deed.isMove = true) →
      more.length ≤ q.effort + q.haltCost * more.countP Step.ignoresHalt ∧
      (Prompt more → more.length ≤ q.effort + q.haltCost * q.lateJobs) ∧
      (∀ e, more.countP (·.opens e) ≤ max config.usageQuota.burst 1) ∧
      ∀ s ∈ more, s.PicksUp) ∧
    ∃ more r, Run q more r ∧ (∀ s ∈ more, s.deed.isMove = true) ∧ Follows choices more ∧
      Prompt more ∧ r.Spent := by
  have hbegins := orderly_of_withSlots hmade
  obtain ⟨horderly, hall⟩ := hbegins.throughout hreach
  have hsteady := ((steady_of_withSlots hmade).throughout hbegins hreach).1
  have htimed : q.Timed :=
    (hreach.throughout (Pool.timed_of_blank (blank_of_withSlots hmade)) fun s hs hbefore => by
      obtain ⟨gone, come, mid, hshift, hswap⟩ :=
        Pool.shifts_of_act? (hall s hs).1.numbered s.done
      exact hbefore.shift hshift hswap).1
  have hsettles : Settles config.usageQuota (q.alive .spawn) q :=
    ⟨horderly, hsteady, htimed, Nat.le_refl _⟩
  have hlength (more : List Step) (r : Pool) (hrun : Run q more r)
      (hmoves : ∀ s ∈ more, s.deed.isMove = true) :
      more.length ≤ q.effort + q.haltCost * more.countP Step.ignoresHalt :=
    Nat.le_trans (Nat.le_add_left _ _) (hsettles.length_le hrun hmoves)
  -- Past its `often`-th choice the sequence has told every spawn loop to stop.
  obtain ⟨often, hoften⟩ := hfair.exists_lt_countP (q.alive .spawn)
  have hbound (more : List Step) (r : Pool) (hrun : Run q more r)
      (hmoves : ∀ s ∈ more, s.deed.isMove = true) (hfollows : Follows choices more) :
      more.length ≤ q.effort + q.haltCost * often := by
    have hfew := hfollows.ignores_le horderly hrun hmoves hoften
    exact Nat.le_trans (hlength more r hrun hmoves)
      (Nat.add_le_add_left (Nat.mul_le_mul_left _ hfew) _)
  refine ⟨⟨_, hbound⟩, fun more r hrun hmoves => ?_, ?_⟩
  · refine ⟨hlength more r hrun hmoves, fun hprompt => ?_, fun e => ?_, fun s hs => ?_⟩
    · have hfew : more.countP Step.ignoresHalt ≤ q.lateJobs :=
        hprompt.ignores_le horderly hrun hmoves (Nat.le_max_right _ _) (Nat.le_max_left _ _)
      exact Nat.le_trans (hlength more r hrun hmoves)
        (Nat.add_le_add_left (Nat.mul_le_mul_left _ hfew) _)
    · have hroom := q.room_le_burst e
      rw [hsteady.quota] at hroom
      have hopens := hsettles.opens_le hrun hmoves e
      omega
    · exact s.picksUp ((hsettles.throughout hrun hmoves).2 s hs).orderly
  · exact Run.exists_spent .rest (fun s hs => absurd hs List.not_mem_nil)
      (fun k heeds hnone => by cases hnone) List.isChain_nil hbound

/-- A pool without backoff validates one endpoint as fast as it can. Two rounds of it may
begin, and every run of moves has an end, if spawn loops choose their signal every other
time. -/
theorem settles_without_backoff :
    ∃ p before q,
      Pool.new { Config.default with workers := 1, badBackoff := 0, maxBadBackoff := 0 } =
        .ok p ∧
      Run p before q ∧ before.map Step.deed = [.load "a:1", .start] ∧
      Fair (fun k => k % 2 = 1) ∧
      (∃ bound, ∀ more r, Run q more r → (∀ s ∈ more, s.deed.isMove = true) →
        Follows (fun k => k % 2 = 1) more → more.length ≤ bound) ∧
      (∀ more r, Run q more r → (∀ s ∈ more, s.deed.isMove = true) →
        more.length ≤ Word.limit + 80 + 3 * more.countP Step.ignoresHalt ∧
        (Prompt more → more.length ≤ 4 * Word.limit + 80) ∧
        more.countP (·.opens "a:1") ≤ 2) ∧
      ∃ more r, Run q more r ∧ (∀ s ∈ more, s.deed.isMove = true) ∧
        Follows (fun k => k % 2 = 1) more ∧ Prompt more ∧ r.Spent := by
  obtain ⟨p, hmade, hview⟩ : ∃ p,
      Pool.new { Config.default with workers := 1, badBackoff := 0, maxBadBackoff := 0 } =
        .ok p ∧
      (p.perform? [.load "a:1", .start]).map (fun q => (q.effort, q.haltCost, q.lateJobs)) =
        some (Word.limit + 80, 3, Word.limit) := ⟨_, rfl, by decide +kernel⟩
  obtain ⟨before, q, hreach, hdeeds, hseen⟩ := Run.of_view _ hview
  simp only [Prod.mk.injEq] at hseen
  obtain ⟨heffort, hcost, hjobs⟩ := hseen
  have hfair : Fair (fun k => k % 2 = 1) := fun n => ⟨2 * n + 1, by omega, by simp⟩
  obtain ⟨hfinite, hbound, hspent⟩ := settles_at_standing_clock hmade hreach hfair
  refine ⟨p, before, q, hmade, hreach, hdeeds, hfair, hfinite, fun more r hrun hmoves => ?_,
    hspent⟩
  obtain ⟨hlength, hprompt, hopens, -⟩ := hbound more r hrun hmoves
  rw [heffort, hcost] at hlength hprompt
  rw [hjobs] at hprompt
  refine ⟨hlength, fun hleft => ?_, hopens "a:1"⟩
  have hall := hprompt hleft
  omega

end SocksPool
