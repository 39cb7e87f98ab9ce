import SocksPool.Proofs.Conservation
import SocksPool.Proofs.Course
import SocksPool.Proofs.Waiting

/-!
# Deferred rounds

If a limiter refuses an endpoint that is picked, its round is put off for as long as that
limiter says. A deferral by the backoff limiter can be the cause of one by the usage limiter,
and it is not clear that this ends.

It does, because there is an order between the two. Without a strike the backoff limiter
refuses no more once it has let an endpoint pass. The usage limiter can refuse again, but
only once for each pick that it admitted and that did not lead to a round. So the allowance
of an endpoint falls with every deferral, and it is three at most.

The next pick comes at the end of the wait or later, however long the endpoint is queued.
This is why the timer of a requeue task has to be set to that end, and not before it. And it
is the next pick of that endpoint only because there is no other token of it.

## Main definitions

* `Step.Defers` — a pick puts a round off.
* `Pool.Patient` — an endpoint waits for its next pick, after so many deferrals.

## Main results

* `Step.patient` — an endpoint that is spared stays patient until a round of it begins.
* `round_after_three_deferrals` — an endpoint is deferred three times at most.
-/

open SocksPool.Task (holders)

namespace SocksPool

namespace Pool

variable {p q : Pool} {d : Deed} {id : Nat} {e : String}

/-! ## Where an endpoint waits -/

/-- A requeue task has the endpoint, or it is queued. -/
def Awaits (p : Pool) (e : String) : Prop :=
  (∃ id due, p.task? id = some (.requeue e due)) ∨ e ∈ p.pending

/-- The endpoint waits, and it is not going to be picked before some time. -/
inductive Seeks (p : Pool) (e : String) (ready : Nat) : Prop where
  | asleep {id due : Nat} (htask : p.task? id = some (.requeue e (some due))) (hdue : ready ≤ due)
  | awake {id : Nat} (htask : p.task? id = some (.requeue e none)) (hready : ready ≤ p.now)
  | queued (hmem : e ∈ p.pending) (hready : ready ≤ p.now)

theorem Seeks.awaits {ready : Nat} (h : p.Seeks e ready) : p.Awaits e := by
  cases h with
  | asleep htask hdue => exact .inl ⟨_, _, htask⟩
  | awake htask hready => exact .inl ⟨_, _, htask⟩
  | queued hmem hready => exact .inr hmem

/-- A requeue task that moves wakes when its time is over, or puts its endpoint on the
pending queue. -/
theorem move_of_requeue {due : Option Nat} (htask : p.task? id = some (.requeue e due))
    {move : Move} (h : p.move? id move = some q) :
    (∃ time, due = some time ∧ time ≤ p.now ∧ q = p.put id (.requeue e none)) ∨
      due = none ∧ q = { p.remove id with pending := p.pending ++ [e] } := by
  cases move with
  | wake =>
      simp only [move?, wake?, htask] at h
      split at h
      · next time hsame =>
          split at h
          · next hreached =>
              cases hsame
              exact .inl ⟨time, rfl, Instant.le_of_reached hreached, (Option.some.inj h).symm⟩
          · cases h
      · cases h
  | comeBack =>
      simp only [move?, comeBack?, htask] at h
      split at h
      · next hsame =>
          split at h
          · cases hsame
            exact .inr ⟨rfl, (Option.some.inj h).symm⟩
          · cases h
      · cases h
  | _ =>
      simp [move?, halt?, lockIntake?, receive?, forward?, look?, tick?, pick?, deliver?,
        dispense?, cancel?, abandon?, attempted?, redialled?, dialled?, responded?, htask] at h

/-! ## What only a pick does -/

/-- No endpoint leaves the pending queue, and of the uses at most the past is forgotten. -/
def TakesNone (p q : Pool) : Prop :=
  (q.usage = p.usage ∨ q.usage = p.usage.prune p.now) ∧ ∀ e ∈ p.pending, e ∈ q.pending

theorem takesNone_evict (p : Pool) (endpoint : String) : p.TakesNone (p.evict endpoint) := by
  unfold evict
  split
  · exact ⟨.inl rfl, fun _ hmem => hmem⟩
  · exact ⟨.inr rfl, fun _ hmem => hmem⟩

theorem takesNone_recycle (p : Pool) (wanted : Bool) (endpoint : String) :
    p.TakesNone (p.recycle wanted endpoint) := by
  cases wanted <;> exact ⟨.inl rfl, fun _ hmem => hmem⟩

/-- Only a pick notes a use or takes an endpoint off the pending queue. -/
theorem Effect.takesNone (h : p.Effect d q) (hother : ∀ id, d ≠ .move id .pick) :
    p.TakesNone q := by
  cases h with
  | skipped | deferred | opened => exact absurd rfl (hother _)
  | forwarded | cameBack => exact ⟨.inl rfl, fun _ hmem => List.mem_append_left _ hmem⟩
  | @loaded d raws hraws =>
      obtain ⟨registry, intake, hloaded⟩ := p.loadAll_eq raws
      rw [hloaded]
      exact ⟨.inl rfl, fun _ hmem => hmem⟩
  | @reportedOut d life endpoint hplain hfind hmarks =>
      exact (p.punish life endpoint).takesNone_evict endpoint
  | @struckOff id life protocol candidate rest hidle hqueue hfind hmarks =>
      exact takesNone_evict { p with outputs := p.outputs.set protocol rest } candidate.endpoint
  | @failedOut id since r protocol e htask hlast hwindow hmarks =>
      exact ((p.remove id).miss r).takesNone_evict r.endpoint
  | @sentBack id protocol candidate rest stats hidle hqueue hstats =>
      exact takesNone_recycle { p with outputs := p.outputs.set protocol rest, stats }
        p.config.recycle candidate.endpoint
  | @cleared id life timeout since c candidate wanted entry htask hstage hentry =>
      unfold serve
      split <;> exact (p.remove id).takesNone_recycle wanted candidate.endpoint
  | @voided id life timeout since c candidate wanted htask hstage hentry =>
      exact (p.remove id).takesNone_recycle wanted candidate.endpoint
  | @refused id life timeout since c candidate wanted htask hstage =>
      exact ((p.remove id).markBad life).1.takesNone_recycle wanted candidate.endpoint
  | _ => exact ⟨.inl rfl, fun _ hmem => hmem⟩

end Pool

/-! ## Steps -/

namespace Step

/-- An idle job takes the endpoint off the pending queue. -/
def picks (s : Step) (e : String) : Bool :=
  match s.deed with
  | .move _ .pick => s.before.pending.head? == some e
  | _ => false

/-- The endpoint is neither struck nor evicted: the row of its strikes stays as it is, and
it stays registered. -/
structure Spares (s : Step) (e : String) : Prop where
  row : s.after.backoff.strikes.get? e = s.before.backoff.strikes.get? e
  registered : s.after.registry.contains e = true

instance (s : Step) (e : String) : Decidable (s.Spares e) :=
  decidable_of_iff (s.after.backoff.strikes.get? e = s.before.backoff.strikes.get? e ∧
      s.after.registry.contains e = true)
    ⟨fun h => ⟨h.1, h.2⟩, fun h => ⟨h.row, h.registered⟩⟩

/-- A limiter puts the round off for some time. A requeue task has the endpoint then until
that time is over, and from then on the limiter would not refuse it. -/
structure Defers (s : Step) (e : String) (limiter : Limiter) (wait : Nat) : Prop where
  picked : s.picks e = true
  refused : s.before.refusal? e = some (limiter, wait)
  waits : 0 < wait
  returns : ∃ id, s.after.task? id = some (.requeue e (some (s.before.now + wait)))
  clears : ∀ time, s.before.now + wait ≤ time → limiter.wait? s.after time e = none

variable {quota : Quota} {s : Step} {e : String} {ready : Nat}

theorem exists_of_picks (h : s.picks e = true) :
    ∃ id rest, s.deed = .move id .pick ∧ s.before.pending = e :: rest := by
  unfold picks at h
  split at h
  · next id hdeed =>
      obtain ⟨rest, hpending⟩ := List.head?_eq_some_iff.1 (beq_iff_eq.1 h)
      exact ⟨id, rest, hdeed, hpending⟩
  · cases h

theorem queued_of_picks (h : s.picks e = true) : e ∈ s.before.pending := by
  obtain ⟨id, rest, -, hpending⟩ := exists_of_picks h
  rw [hpending]
  exact List.mem_cons_self

/-- In a step that picks nothing, or another endpoint, nothing is used of the endpoint, and
it is not taken off the pending queue. -/
theorem kept (h : Punctual quota s.before) (hother : s.picks e = false) :
    (∀ time, s.before.now ≤ time →
        s.after.usage.level time e = s.before.usage.level time e) ∧
      (e ∈ s.before.pending → e ∈ s.after.pending) := by
  have hnum := h.orderly.numbered
  by_cases hpick : ∃ id, s.deed = .move id .pick
  · obtain ⟨id, hdeed⟩ := hpick
    have hdone := s.done
    rw [hdeed] at hdone
    obtain ⟨epoch, endpoint, rest, htask, hpending, hcases⟩ := Pool.pick?_cases hnum hdone
    have hne : e ≠ endpoint := by
      rintro rfl
      simp [picks, hdeed, hpending] at hother
    have hrest : e ∈ s.before.pending → e ∈ rest := by
      rw [hpending]
      exact fun hmem => List.mem_of_ne_of_mem hne hmem
    have hunused := s.before.usage.level_check_of_ne s.before.now hne
    rcases hcases with ⟨-, hquiet⟩ | ⟨limiter, wait, -, hquiet⟩ | ⟨life, -, -, hafter⟩
    · rw [hquiet.usage, hquiet.pending]
      exact ⟨fun _ _ => rfl, hrest⟩
    · rw [hquiet.usage, hquiet.pending]
      exact ⟨fun time _ => hunused time, hrest⟩
    · rw [hafter]
      exact ⟨fun time _ => hunused time, hrest⟩
  · obtain ⟨mid, heffect, hquiet⟩ := Pool.effects_of_act? hnum s.done
    obtain ⟨husage, hpending⟩ := heffect.takesNone fun id hdeed => hpick ⟨id, hdeed⟩
    rw [hquiet.usage, hquiet.pending]
    refine ⟨fun time hle => ?_, hpending e⟩
    rcases husage with hsame | hpruned
    · rw [hsame]
    · rw [hpruned]
      exact Usage.level_prune h.steady.distinct hle e

/-- A limiter that would not refuse the endpoint would not do so after such a step. -/
theorem wait?_kept (h : Punctual quota s.before) (hspares : s.Spares e)
    (hother : s.picks e = false) {limiter : Limiter} {time : Nat} (hle : s.before.now ≤ time)
    (hclear : limiter.wait? s.before time e = none) : limiter.wait? s.after time e = none := by
  cases limiter with
  | usage =>
      have hquota : s.after.usage.tolerance = s.before.usage.tolerance := by
        unfold Usage.tolerance Usage.pace
        rw [(h.act s.done).steady.quota, h.steady.quota]
      have hwithin := Usage.check_eq_none.1 hclear
      apply Usage.check_eq_none.2
      rwa [(kept h hother).1 time hle, hquota]
  | backoff =>
      show s.after.backoff.retryAfter? time e = none
      unfold Backoff.retryAfter?
      rw [hspares.row]
      exact hclear

theorem now_le (s : Step) : s.before.now ≤ s.after.now := (Pool.timing_le s.done).1

/-- A requeue task stays as it is, unless it wakes or puts its endpoint on the pending
queue. -/
theorem requeue_cases (h : Punctual quota s.before) {id : Nat} {due : Option Nat}
    (htask : s.before.task? id = some (.requeue e due)) :
    s.after.task? id = some (.requeue e due) ∨
      (∃ time, due = some time ∧ time ≤ s.before.now ∧
        s.after = s.before.put id (.requeue e none)) ∨
      due = none ∧
        s.after = { s.before.remove id with pending := s.before.pending ++ [e] } := by
  by_cases hown : ∃ move, s.deed = .move id move
  · obtain ⟨move, hdeed⟩ := hown
    have hdone := s.done
    rw [hdeed] at hdone
    exact .inr (Pool.move_of_requeue htask hdone)
  · -- It is left alone by all deeds but its own moves.
    obtain ⟨mid, heffect, hquiet⟩ := Pool.effects_of_act? h.orderly.numbered s.done
    have hholds : (id, Task.requeue e due) ∈ holders s.before.tasks :=
      Task.mem_holders.2 ⟨Task.mem_of_lookup htask, rfl⟩
    have hstill := heffect.keeps_holder hholds fun move hdeed => hown ⟨move, hdeed⟩
    rw [← hquiet.holders] at hstill
    have hnum := (h.act s.done).orderly.numbered
    exact .inl (hnum.lookup_of_mem (Task.mem_holders.1 hstill).1)

/-- An endpoint that waits goes on waiting, unless it is picked. -/
theorem seeks (h : Punctual quota s.before) (hseeks : s.before.Seeks e ready)
    (hother : s.picks e = false) : s.after.Seeks e ready := by
  have hnow := s.now_le
  cases hseeks with
  | @asleep id due htask hdue =>
      rcases requeue_cases h htask with hstays | ⟨time, hsame, hover, hafter⟩ | ⟨hawake, -⟩
      · exact .asleep hstays hdue
      · obtain rfl := Option.some.inj hsame
        rw [hafter]
        exact .awake (Pool.task?_put_self _ _ _) (Nat.le_trans hdue hover)
      · cases hawake
  | @awake id htask hready =>
      rcases requeue_cases h htask with hstays | ⟨time, hasleep, -, -⟩ | ⟨-, hafter⟩
      · exact .awake hstays (Nat.le_trans hready hnow)
      · cases hasleep
      · rw [hafter]
        exact .queued (List.mem_append_right _ (List.mem_singleton.2 rfl)) hready
  | queued hmem hready =>
      exact .queued ((kept h hother).2 hmem) (Nat.le_trans hready hnow)

/-- A round of an endpoint that is picked begins, or a limiter puts it off. -/
theorem picked (h : Punctual quota s.before)
    (hclock : Instant.add? s.before.now (max quota.interval 1) ≠ none)
    (hpicks : s.picks e = true) (hin : s.before.registry.contains e = true) :
    s.opens e = true ∨ ∃ limiter wait, s.Defers e limiter wait ∧
      s.after.allowance e (s.before.now + wait) + 1 ≤ s.before.allowance e s.before.now ∧
      s.after.now = s.before.now := by
  obtain ⟨id, queue, hdeed, hqueue⟩ := exists_of_picks hpicks
  have hdone := s.done
  rw [hdeed] at hdone
  obtain ⟨epoch, endpoint, rest, htask, hpending, hcases⟩ :=
    Pool.pick?_cases h.orderly.numbered hdone
  obtain rfl : e = endpoint := (List.cons.inj (hqueue.symm.trans hpending)).1
  rcases hcases with ⟨hout, -⟩ | ⟨limiter, wait, hrefused, hquiet⟩ | ⟨life, -, -, hafter⟩
  · unfold Registry.contains at hin
    rw [hout] at hin
    cases hin
  · right
    have hwait := Pool.wait?_of_refusal? hrefused
    obtain ⟨hclear, hless⟩ := Pool.allowance_of_refusal hrefused hquiet.usage hquiet.backoff
    refine ⟨limiter, wait, ⟨hpicks, hrefused, Limiter.wait_pos hwait, ?_, ?_⟩, hless, hquiet.now⟩
    · rw [Instant.deadline_eq (h.fits hclock hwait)] at hquiet
      have hholds : (s.before.nextTask, Task.requeue e (some (s.before.now + wait))) ∈
          holders s.after.tasks := by
        rw [hquiet.holders]
        exact Task.mem_holders.2 ⟨List.mem_append_right _ (List.mem_singleton.2 rfl), rfl⟩
      have hnum := (h.act s.done).orderly.numbered
      exact ⟨_, hnum.lookup_of_mem (Task.mem_holders.1 hholds).1⟩
    · exact fun time hle => Limiter.wait?_later hle hclear
  · left
    unfold opens
    rw [hdeed]
    dsimp only
    rw [hafter, Pool.task?_put_self]
    exact beq_self_eq_true e

end Step

namespace Pool

variable {p : Pool} {e : String} {ready : Nat}

/-- The endpoint is registered, and has one token at most. -/
structure Single (p : Pool) (e : String) : Prop where
  registered : p.registry.contains e = true
  single : p.tokens.count e ≤ 1

/-- The only token of the endpoint waits for its next pick, after so many deferrals. -/
structure Patient (p : Pool) (e : String) (deferrals : Nat) : Prop extends Single p e where
  place : ∃ ready, p.Seeks e ready ∧ deferrals + p.allowance e (max ready p.now) ≤ 3

/-- If its only token is queued, an endpoint may be picked now. -/
theorem Seeks.ready_le (h : p.Seeks e ready) (hsingle : p.Single e) (hqueued : e ∈ p.pending) :
    ready ≤ p.now := by
  have hfree {id : Nat} {due : Option Nat} (htask : p.task? id = some (.requeue e due)) :
      False := by
    have hheld : e ∈ Task.held p.tasks :=
      List.mem_filterMap.2 ⟨_, Task.mem_of_lookup htask, rfl⟩
    have hfirst := List.count_pos_iff.2 hqueued
    have hsecond := List.count_pos_iff.2 hheld
    have hone := hsingle.single
    rw [count_tokens] at hone
    omega
  cases h with
  | asleep htask hdue => exact (hfree htask).elim
  | awake htask hready => exact hready
  | queued hmem hready => exact hready

end Pool

namespace Step

variable {quota : Quota} {s : Step} {e : String} {deferrals : Nat}

/-- An endpoint that stays registered is given no other token. -/
theorem single (h : Orderly s.before) (hspares : s.Spares e) (hsingle : s.before.Single e) :
    s.after.Single e := by
  obtain ⟨lost, hflow⟩ := Pool.flow_of_act? h s.done
  have hcount := hflow.count e
  have hnone : Pool.admitted s.before s.after e = 0 :=
    Pool.admitted_eq_zero fun _ => hsingle.registered
  have hone := hsingle.single
  exact ⟨hspares.registered, by omega⟩

/-- A pick that begins no round of a patient endpoint is its next deferral. -/
theorem defers (h : Punctual quota s.before)
    (hclock : Instant.add? s.before.now (max quota.interval 1) ≠ none)
    (hpatient : s.before.Patient e deferrals) (hpicks : s.picks e = true)
    (hclosed : s.opens e = false) :
    ∃ limiter wait, s.Defers e limiter wait ∧
      deferrals + 1 + s.after.allowance e (s.before.now + wait) ≤ 3 ∧
      s.after.now = s.before.now := by
  obtain ⟨ready, hseeks, hfew⟩ := hpatient.place
  have hready := hseeks.ready_le hpatient.toSingle (queued_of_picks hpicks)
  rw [Nat.max_eq_right hready] at hfew
  rcases picked h hclock hpicks hpatient.registered with hopens |
    ⟨limiter, wait, hdefers, hless, hnow⟩
  · rw [hclosed] at hopens
    cases hopens
  · exact ⟨limiter, wait, hdefers, by omega, hnow⟩

/-- An endpoint that is spared stays patient until a round of it begins. -/
theorem patient (h : Punctual quota s.before)
    (hclock : Instant.add? s.before.now (max quota.interval 1) ≠ none)
    (hspares : s.Spares e) (hpatient : s.before.Patient e deferrals)
    (hclosed : s.opens e = false) :
    s.after.Patient e (deferrals + if s.picks e then 1 else 0) := by
  refine ⟨single h.orderly hspares hpatient.toSingle, ?_⟩
  cases hpicks : s.picks e with
  | true =>
      obtain ⟨limiter, wait, hdefers, hfew, hnow⟩ := defers h hclock hpatient hpicks hclosed
      obtain ⟨id, hreturns⟩ := hdefers.returns
      refine ⟨s.before.now + wait, .asleep hreturns (Nat.le_refl _), ?_⟩
      rw [hnow, Nat.max_eq_left (Nat.le_add_right ..)]
      simpa using hfew
  | false =>
      obtain ⟨ready, hseeks, hfew⟩ := hpatient.place
      have hnow := s.now_le
      have hless : s.after.allowance e (max ready s.after.now) ≤
          s.before.allowance e (max ready s.before.now) := by
        refine Pool.allowance_le fun limiter hclear => wait?_kept h hspares hpicks ?_ ?_
        · omega
        · exact Limiter.wait?_later (by omega) hclear
      refine ⟨ready, seeks h hseeks hpicks, ?_⟩
      simp only [Bool.false_eq_true, if_false]
      omega

end Step

/-! ## Runs -/

variable {quota : Quota} {p q : Pool} {steps : List Step} {e : String}

/-- An endpoint that is spared is patient until a round of it begins, and every pick of it
has been a deferral. -/
theorem Pool.Patient.of_run (h : Punctual quota p) (hpatient : p.Patient e 0)
    (hrun : Run p steps q) (hclock : Instant.add? q.now (max quota.interval 1) ≠ none)
    (hspared : ∀ s ∈ steps, s.Spares e) (hclosed : ∀ s ∈ steps, s.opens e = false) :
    q.Patient e (steps.countP (·.picks e)) := by
  induction hrun with
  | rest => exact hpatient
  | @step steps s hrun ih =>
      obtain ⟨hsparedBefore, hsparedLast⟩ := List.forall_mem_append.1 hspared
      obtain ⟨hclosedBefore, hclosedLast⟩ := List.forall_mem_append.1 hclosed
      rw [List.forall_mem_singleton] at hsparedLast hclosedLast
      have hclockBefore := Instant.add?_ne_none hclock s.now_le (Nat.le_refl _)
      have hbefore := ih hclockBefore hsparedBefore hclosedBefore
      rw [List.countP_append, List.countP_singleton]
      exact Step.patient (h.throughout hrun).1 hclockBefore hsparedLast hbefore hclosedLast

/-- Until it is picked, an endpoint waits, and a limiter that would not refuse it from some
time on goes on not to do so. -/
theorem Pool.Seeks.of_run {ready : Nat} {limiter : Limiter} (h : Punctual quota p)
    (hseeks : p.Seeks e ready)
    (hclear : ∀ time, ready ≤ time → p.now ≤ time → limiter.wait? p time e = none)
    (hrun : Run p steps q) (hspared : ∀ s ∈ steps, s.Spares e)
    (hother : ∀ s ∈ steps, s.picks e = false) :
    q.Seeks e ready ∧ ∀ time, ready ≤ time → q.now ≤ time → limiter.wait? q time e = none := by
  induction hrun with
  | rest => exact ⟨hseeks, hclear⟩
  | @step steps s hrun ih =>
      obtain ⟨hsparedBefore, hsparedLast⟩ := List.forall_mem_append.1 hspared
      obtain ⟨hotherBefore, hotherLast⟩ := List.forall_mem_append.1 hother
      rw [List.forall_mem_singleton] at hsparedLast hotherLast
      have hbefore := (h.throughout hrun).1
      obtain ⟨hplace, hstill⟩ := ih hsparedBefore hotherBefore
      refine ⟨Step.seeks hbefore hplace hotherLast, fun time hready hnow => ?_⟩
      have hearlier := Nat.le_trans s.now_le hnow
      exact Step.wait?_kept hbefore hsparedLast hotherLast hearlier (hstill time hready hearlier)

/-- In a run of a pool, let the one token of a registered endpoint be picked, and let the
endpoint be neither struck nor evicted from then on, while the clock can represent the end of
an interval. Until a round of it begins, it waits in a requeue task or on the pending queue,
and each pick puts it off, three times at most: a limiter refuses it for some time, at the
end of which its requeue task wakes. It is not picked again before that, and then this
limiter refuses it no more. The fourth pick begins a round, if no earlier one does. -/
theorem round_after_three_deferrals {config : Config} {slots : Slots} {p q : Pool}
    {earlier later : List Step} {x : Step} {e : String}
    (hmade : Pool.withSlots config slots = .ok p) (hrun : Run p (earlier ++ x :: later) q)
    (hclock : Instant.add? q.now (max config.usageQuota.interval 1) ≠ none)
    (hpicks : x.picks e = true) (hin : x.before.registry.contains e = true)
    (hone : x.before.tokens.count e = 1) (hspared : ∀ s ∈ x :: later, s.Spares e) :
    (∀ before s after, x :: later = before ++ s :: after → (∀ t ∈ before, t.opens e = false) →
        (s.opens e = true ∨ s.after.Awaits e) ∧
          (s.picks e = true → s.opens e = true ∨
            before.countP (·.picks e) < 3 ∧ ∃ limiter wait, s.Defers e limiter wait)) ∧
      (∀ before s between y after limiter wait,
        x :: later = before ++ s :: (between ++ y :: after) → s.Defers e limiter wait →
          (∀ t ∈ between, t.picks e = false) → y.picks e = true →
            s.before.now + wait ≤ y.before.now ∧
              limiter.wait? y.before y.before.now e = none) ∧
      (3 < (x :: later).countP (·.picks e) → ∃ s ∈ x :: later, s.opens e = true) := by
  have hpunctual := punctual_of_withSlots hmade
  have hstart := (hpunctual.throughout (hrun.upto rfl)).1
  have hsince := (hrun.since rfl).1
  have hsingle : x.before.Single e := ⟨hin, Nat.le_of_eq hone⟩
  have hpatient : x.before.Patient e 0 := by
    refine ⟨hsingle, 0, .queued (Step.queued_of_picks hpicks) (Nat.zero_le _), ?_⟩
    rw [Nat.zero_add]
    exact x.before.allowance_le_three e _
  refine ⟨fun before s after hsplit hclosed => ?_, ?_, fun hmany => ?_⟩
  · have hmem : s ∈ x :: later := hsplit ▸ List.mem_append_right _ List.mem_cons_self
    have hbefore : ∀ t ∈ before, t ∈ x :: later :=
      fun t ht => hsplit ▸ List.mem_append_left _ ht
    have hnow := (hsince.timing.1 s hmem).1
    have hfits := Instant.add?_ne_none hclock hnow (Nat.le_refl _)
    have hupto := hsince.upto hsplit
    have hhere := (hstart.throughout hupto).1
    have hwaits := Pool.Patient.of_run hstart hpatient hupto hfits
      (fun t ht => hspared t (hbefore t ht)) hclosed
    cases hopens : s.opens e with
    | true => exact ⟨.inl rfl, fun _ => .inl rfl⟩
    | false =>
        obtain ⟨ready, hseeks, -⟩ :=
          (Step.patient hhere hfits (hspared s hmem) hwaits hopens).place
        refine ⟨.inr hseeks.awaits, fun hpick => .inr ?_⟩
        obtain ⟨limiter, wait, hdefers, hfew, -⟩ := Step.defers hhere hfits hwaits hpick hopens
        exact ⟨by omega, limiter, wait, hdefers⟩
  · intro before s between y after limiter wait hsplit hdefers hother hpick
    have hmem : s ∈ x :: later := hsplit ▸ List.mem_append_right _ List.mem_cons_self
    have hlater : ∀ t ∈ between ++ y :: after, t ∈ x :: later :=
      fun t ht => hsplit ▸ List.mem_append_right _ (List.mem_cons_of_mem _ ht)
    have hy : y ∈ x :: later := hlater y (List.mem_append_right _ List.mem_cons_self)
    have hall := hstart.throughout hsince
    have honly := (hsince.throughout (P := (·.Single e)) hsingle fun t ht hbefore =>
      Step.single (hall.2 t ht).1.orderly (hspared t ht) hbefore).2 y hy
    have hbetween := (hsince.since hsplit).2.upto rfl
    obtain ⟨id, hreturns⟩ := hdefers.returns
    obtain ⟨hseeks, hclear⟩ := Pool.Seeks.of_run (hall.2 s hmem).2
      (.asleep hreturns (Nat.le_refl _)) (fun time hover _ => hdefers.clears time hover) hbetween
      (fun t ht => hspared t (hlater t (List.mem_append_left _ ht))) hother
    have hover := hseeks.ready_le honly.1 (Step.queued_of_picks hpick)
    exact ⟨hover, hclear _ hover (Nat.le_refl _)⟩
  · cases hany : (x :: later).any (·.opens e) with
    | true => exact List.any_eq_true.1 hany
    | false =>
        have hclosed : ∀ s ∈ x :: later, s.opens e = false :=
          fun s hs => Bool.eq_false_iff.2 (List.any_eq_false.1 hany s hs)
        obtain ⟨ready, -, hfew⟩ :=
          (Pool.Patient.of_run hstart hpatient hsince hclock hspared hclosed).place
        omega

/-- A use is left, and two strikes are on record, when the endpoint is picked. The usage
limiter puts it off, then the backoff limiter, and then the usage limiter again. -/
theorem deferred_three_times :
    ∃ p earlier x later q,
      Pool.new { Config.default with usageQuota := Quota.every (100 * Span.second) } = .ok p ∧
      Run p (earlier ++ x :: later) q ∧
      (earlier ++ x :: later).map Step.deed =
        [.load "a:1", .start, .move 0 .lockIntake, .move 0 .receive, .move 0 .forward,
          .reportFailure "a:1", .move 1 .look, .move 3 .pick, .advance (60 * Span.second),
          .move 4 .wake, .move 4 .comeBack, .reportFailure "a:1", .move 1 .look,
          .move 5 .pick, .advance (40 * Span.second), .move 6 .wake, .move 6 .comeBack,
          .move 1 .look, .move 7 .pick, .advance (80 * Span.second), .move 8 .wake,
          .move 8 .comeBack, .move 1 .look, .move 9 .pick, .advance (20 * Span.second),
          .move 10 .wake, .move 10 .comeBack, .move 1 .look, .move 11 .pick] ∧
      Instant.add? q.now (max (100 * Span.second) 1) ≠ none ∧
      x.picks "a:1" = true ∧ x.before.registry.contains "a:1" = true ∧
      x.before.tokens.count "a:1" = 1 ∧ (∀ s ∈ x :: later, s.Spares "a:1") ∧
      ((x :: later).filter (·.picks "a:1")).map (·.before.refusal? "a:1") =
        [some (.usage, 40 * Span.second), some (.backoff, 80 * Span.second),
          some (.usage, 20 * Span.second), none] ∧
      ∃ s ∈ x :: later, s.opens "a:1" = true := by
  -- Of each step: whether it is a pick, whether it meets all conditions, and who refuses.
  obtain ⟨view, hmeans, p, hmade, hview⟩ :
      ∃ view : Step → (Bool × Bool) × Option (Limiter × Nat),
        (∀ s, view s = ((s.picks "a:1", decide (s.Spares "a:1" ∧
          s.before.registry.contains "a:1" = true ∧ s.before.tokens.count "a:1" = 1 ∧
          Instant.add? s.after.now (max (100 * Span.second) 1) ≠ none)),
          s.before.refusal? "a:1")) ∧
        ∃ p, Pool.new { Config.default with usageQuota := Quota.every (100 * Span.second) } =
            .ok p ∧
          (p.steps?
            [.load "a:1", .start, .move 0 .lockIntake, .move 0 .receive, .move 0 .forward,
              .reportFailure "a:1", .move 1 .look, .move 3 .pick, .advance (60 * Span.second),
              .move 4 .wake, .move 4 .comeBack, .reportFailure "a:1", .move 1 .look,
              .move 5 .pick, .advance (40 * Span.second), .move 6 .wake, .move 6 .comeBack,
              .move 1 .look, .move 7 .pick, .advance (80 * Span.second), .move 8 .wake,
              .move 8 .comeBack, .move 1 .look, .move 9 .pick, .advance (20 * Span.second),
              .move 10 .wake, .move 10 .comeBack, .move 1 .look, .move 11 .pick]).map
            (fun steps => (steps.drop 13).map view) =
          some (((true, true), some (.usage, 40 * Span.second)) ::
            ([((false, true), some (.usage, 40 * Span.second))] ++
              List.replicate 3 ((false, true), some (.backoff, 80 * Span.second)) ++
              [((true, true), some (.backoff, 80 * Span.second)),
                ((false, true), some (.usage, 100 * Span.second))] ++
              List.replicate 3 ((false, true), some (.usage, 20 * Span.second)) ++
              [((true, true), some (.usage, 20 * Span.second)),
                ((false, true), some (.usage, 20 * Span.second))] ++
              List.replicate 3 ((false, true), none) ++ [((true, true), none)])) :=
    ⟨_, fun _ => rfl, _, rfl, by decide +kernel⟩
  obtain ⟨steps, hdone, hseen⟩ := Option.map_eq_some_iff.1 hview
  obtain ⟨hdeeds, q, hrun⟩ := Run.of_steps? Run.rest hdone
  obtain ⟨x, later, hlast, -, -⟩ := List.map_eq_cons_iff.1 hseen
  rw [hlast] at hseen
  obtain ⟨earlier, rfl⟩ : ∃ earlier, steps = earlier ++ x :: later :=
    ⟨steps.take 13, by rw [← hlast, List.take_append_drop]⟩
  have hall : ∀ s ∈ x :: later, s.Spares "a:1" ∧ s.before.registry.contains "a:1" = true ∧
      s.before.tokens.count "a:1" = 1 ∧
      Instant.add? s.after.now (max (100 * Span.second) 1) ≠ none := by
    have hgood : ∀ seen ∈ (x :: later).map view, seen.1.2 = true := by
      rw [hseen]
      decide
    intro s hs
    have hmeets := hgood _ (List.mem_map_of_mem hs)
    rw [hmeans] at hmeets
    exact of_decide_eq_true hmeets
  have hpicks : x.picks "a:1" = true := by
    have hfirst := (List.cons.inj hseen).1
    rw [hmeans] at hfirst
    exact congrArg (·.1.1) hfirst
  have hrefusals : ((x :: later).filter (·.picks "a:1")).map (·.before.refusal? "a:1") =
      [some (.usage, 40 * Span.second), some (.backoff, 80 * Span.second),
        some (.usage, 20 * Span.second), none] := by
    have hviewed : ((x :: later).filter (·.picks "a:1")).map (·.before.refusal? "a:1") =
        (((x :: later).map view).filter (·.1.1)).map (·.2) := by
      simp only [List.filter_map, List.map_map, Function.comp_def, hmeans]
    rw [hviewed, hseen]
    decide
  have hmany : 3 < (x :: later).countP (·.picks "a:1") := by
    have hlength := congrArg List.length hrefusals
    rw [List.length_map, ← List.countP_eq_length_filter] at hlength
    rw [hlength]
    decide
  obtain ⟨-, hin, hone, -⟩ := hall x List.mem_cons_self
  have hclock : Instant.add? q.now (max (100 * Span.second) 1) ≠ none := by
    rcases (hrun.since rfl).2.last_eq with rfl | ⟨s, hs, rfl⟩
    · exact (hall x List.mem_cons_self).2.2.2
    · exact (hall s (List.mem_cons_of_mem _ hs)).2.2.2
  have hspared : ∀ s ∈ x :: later, s.Spares "a:1" := fun s hs => (hall s hs).1
  exact ⟨p, earlier, x, later, q, hmade, hrun, hdeeds, hclock, hpicks, hin, hone, hspared,
    hrefusals, (round_after_three_deferrals hmade hrun hclock hpicks hin hone hspared).2.2 hmany⟩

end SocksPool
