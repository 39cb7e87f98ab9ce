import SocksPool.Proofs.Limits
import SocksPool.Proofs.Whereabouts

/-!
# The pace of rounds

A round begins only where an idle job takes an endpoint off the pending queue
and both limiters admit it. The usage limiter then raises the level of the
endpoint by one interval, and nothing that ever happens lowers a level: not the
clock, not a pruning eviction, and not a use that the other limiter defers. So
the rounds that begin within a span of time are counted by how far the level
can rise, and it stays within a burst of the clock.

The backoff limiter admits a round only past the deadline of the endpoint's
row. As long as the row stays, the deadline does not move back, so it lies
beyond the deadlines of all strikes since the row was written.

## Main results

* `Effect.gauged` — what a deed does to the clock and the limiters.
* `Step.opened` — a round begins only if both limiters admit it.
* `Step.round_cases` — rounds begin in no other way.
* `rounds_paced` — how many rounds begin within a span, and not before which
  deadline.
-/

namespace SocksPool

/-- The clock and the limiters of a pool. -/
structure Gauges where
  now : Nat
  usage : Usage
  backoff : Backoff

namespace Pool

/-- The clock and the limiters. -/
def gauges (p : Pool) : Gauges := ⟨p.now, p.usage, p.backoff⟩

/-- How far the uses of an endpoint reach now. -/
def level (p : Pool) (endpoint : String) : Nat := p.usage.level p.now endpoint

/-- What a deed can do to the clock and the limiters. -/
inductive Gauged (p q : Pool) : Prop where
  | kept (h : q.gauges = p.gauges)
  | elapsed (span : Nat) (h : q.gauges = { p.gauges with now := p.now + span })
  | metered (endpoint : String)
      (h : q.gauges = { p.gauges with usage := (p.usage.check p.now endpoint).1 })
  | struck (endpoint : String)
      (h : q.gauges = { p.gauges with backoff := (p.backoff.strike p.now endpoint).1 })
  | forgotten (endpoint : String)
      (h : q.gauges = ⟨p.now, p.usage.prune p.now, p.backoff.forget endpoint⟩)
  | struckOut (endpoint : String)
      (h : q.gauges =
        ⟨p.now, p.usage.prune p.now, ((p.backoff.strike p.now endpoint).1).forget endpoint⟩)

variable {p q : Pool} {d : Deed} {id : Nat}

/-! ## Deeds -/

theorem gauges_recycle (p : Pool) (wanted : Bool) (endpoint : String) :
    (p.recycle wanted endpoint).gauges = p.gauges := by
  cases wanted <;> rfl

theorem gauges_serve (p : Pool) (id : Nat) (c : Caller) (proxy : Proxy) :
    (p.serve id c proxy).gauges = p.gauges := by
  unfold serve
  split <;> rfl

theorem gauges_evict (p : Pool) (endpoint : String) :
    (p.evict endpoint).gauges = p.gauges ∨
      (p.evict endpoint).gauges =
        ⟨p.now, p.usage.prune p.now, p.backoff.forget endpoint⟩ := by
  unfold evict
  split
  · exact .inl rfl
  · exact .inr rfl

/-- What a deed does to the clock and the limiters. -/
theorem Effect.gauged (h : p.Effect d q) : p.Gauged q := by
  cases h with
  | elapsed span => exact .elapsed span rfl
  | @loaded d raws hraws =>
      obtain ⟨registry, intake, hloaded⟩ := p.loadAll_eq raws
      rw [hloaded]
      exact .kept rfl
  | @reported d life endpoint hplain hfind => exact .struck endpoint rfl
  | @reportedOut d life endpoint hplain hfind hmarks =>
      rcases (p.punish life endpoint).gauges_evict endpoint with hsame | hgone
      · exact .struck endpoint hsame
      · exact .struckOut endpoint hgone
  | @deferred id endpoint rest due hidle hpending => exact .metered endpoint rfl
  | @opened id epoch life endpoint rest htask hpending hfind hadmitted hclear =>
      exact .metered endpoint rfl
  | @struckOff id life protocol candidate rest hidle hqueue hfind hmarks =>
      rcases gauges_evict { p with outputs := p.outputs.set protocol rest } candidate.endpoint
        with hsame | hgone
      · exact .kept hsame
      · exact .forgotten candidate.endpoint hgone
  | sentBack hidle hqueue hstats => exact .kept (gauges_recycle _ _ _)
  | cleared htask hstage hentry =>
      apply Gauged.kept
      rw [gauges_serve, unlock_recycle, gauges_recycle]
      rfl
  | voided htask hstage hentry =>
      apply Gauged.kept
      rw [unlock_recycle, gauges_recycle]
      rfl
  | refused htask hstage =>
      apply Gauged.kept
      rw [unlock_recycle, gauges_recycle]
      rfl
  | @failedHalfway id since r protocol e htask hlast hwindow => exact .struck r.endpoint rfl
  | @failedOut id since r protocol e htask hlast hwindow hmarks =>
      rcases ((p.remove id).miss r).gauges_evict r.endpoint with hsame | hgone
      · exact .struck r.endpoint hsame
      · exact .struckOut r.endpoint hgone
  | @failedKept id since window r protocol e htask hlast hwindow hmarks =>
      exact .struck r.endpoint rfl
  | _ => exact .kept rfl

theorem gauged_of_act? (h : Orderly p) (hact : p.act? d = some q) : p.Gauged q := by
  obtain ⟨mid, heffect, hquiet⟩ := effects_of_act? h.numbered hact
  have hsame : q.gauges = mid.gauges := by
    unfold gauges
    rw [hquiet.now, hquiet.usage, hquiet.backoff]
  cases heffect.gauged with
  | kept h => exact .kept (hsame.trans h)
  | elapsed span h => exact .elapsed span (hsame.trans h)
  | metered endpoint h => exact .metered endpoint (hsame.trans h)
  | struck endpoint h => exact .struck endpoint (hsame.trans h)
  | forgotten endpoint h => exact .forgotten endpoint (hsame.trans h)
  | struckOut endpoint h => exact .struckOut endpoint (hsame.trans h)

/-- After a pick the job has no endpoint, or both limiters have admitted the
round that it begins. -/
theorem Effect.pick_cases (h : p.Effect (.move id .pick) q) :
    q.Idle id ∨ ∃ life endpoint,
      (id, .round (p.firstRound endpoint life)) ∈ Task.holders q.tasks ∧
      (p.usage.check p.now endpoint).2 = none ∧
      p.backoff.retryAfter? p.now endpoint = none ∧
      q.usage = (p.usage.check p.now endpoint).1 ∧ q.now = p.now := by
  cases h with
  | idled hplain | reported hplain | reportedOut hplain => cases hplain
  | loaded hraws => cases hraws
  | skipped hidle hpending hfind => exact .inl ⟨hidle.below, hidle.free⟩
  | @deferred _ endpoint rest due hidle hpending =>
      have hpopped : Idle { p.meter endpoint with pending := rest } id :=
        ⟨hidle.below, hidle.free⟩
      exact .inl (hpopped.spawn _)
  | @opened _ epoch life endpoint rest htask hpending hfind hadmitted hclear =>
      refine .inr ⟨life, endpoint, Task.mem_holders.2 ⟨?_, rfl⟩, hadmitted, hclear, rfl, rfl⟩
      exact List.mem_append_right _ (List.mem_singleton.2 rfl)

end Pool

/-- The limiters are in order: the quota is the configured one, no endpoint has
two arrival times, and no deadline is too far ahead. -/
structure Steady (quota : Quota) (p : Pool) : Prop where
  quota : p.usage.quota = quota
  distinct : p.usage.arrivals.keys.Nodup
  timely : p.backoff.Timely p.now

namespace Steady

variable {quota : Quota} {p q : Pool} {e : String}

/-- The clock and the limiters are all that matters. -/
theorem of_gauges {g : Gauges} (h : q.gauges = g) (hquota : g.usage.quota = quota)
    (hdistinct : g.usage.arrivals.keys.Nodup) (htimely : g.backoff.Timely g.now) :
    Steady quota q := by
  subst h
  exact ⟨hquota, hdistinct, htimely⟩

/-- Every deed keeps the limiters in order. -/
theorem gauged (h : Steady quota p) (hgauged : p.Gauged q) : Steady quota q := by
  cases hgauged with
  | kept hsame => exact of_gauges hsame h.quota h.distinct h.timely
  | elapsed span hsame =>
      exact of_gauges hsame h.quota h.distinct (h.timely.later (Nat.le_add_right ..))
  | metered endpoint hsame =>
      have hquota := (p.usage.quota_check p.now endpoint).trans h.quota
      have hdistinct := Usage.nodup_check h.distinct p.now endpoint
      exact of_gauges hsame hquota hdistinct h.timely
  | struck endpoint hsame =>
      exact of_gauges hsame h.quota h.distinct (h.timely.strike endpoint)
  | forgotten endpoint hsame =>
      have hdistinct := Usage.nodup_prune h.distinct p.now
      exact of_gauges hsame h.quota hdistinct (h.timely.forget endpoint)
  | struckOut endpoint hsame =>
      have hdistinct := Usage.nodup_prune h.distinct p.now
      exact of_gauges hsame h.quota hdistinct ((h.timely.strike endpoint).forget endpoint)

theorem level_of_gauges {g : Gauges} (h : q.gauges = g) (e : String) :
    q.level e = g.usage.level g.now e := by
  subst h
  rfl

/-- No deed lowers a level. -/
theorem level_le (h : Steady quota p) (hgauged : p.Gauged q) (e : String) :
    p.level e ≤ q.level e := by
  cases hgauged with
  | kept hsame | struck endpoint hsame =>
      rw [level_of_gauges hsame]
      exact Nat.le_refl _
  | elapsed span hsame =>
      rw [level_of_gauges hsame]
      exact p.usage.level_mono (Nat.le_add_right ..) e
  | metered endpoint hsame =>
      rw [level_of_gauges hsame]
      exact p.usage.level_le_check p.now endpoint e
  | forgotten endpoint hsame | struckOut endpoint hsame =>
      rw [level_of_gauges hsame]
      exact Nat.le_of_eq (Usage.level_prune h.distinct (Nat.le_refl _) e).symm

/-- As long as the row of an endpoint stays, its deadline does not move back. -/
theorem deadline_le (h : Steady quota p) (hgauged : p.Gauged q) {row : Strike}
    (hfind : p.backoff.strikes.get? e = some row)
    (hkept : q.backoff.strikes.contains e = true) :
    ∃ new, q.backoff.strikes.get? e = some new ∧ row.deadline ≤ new.deadline := by
  cases hgauged with
  | kept hsame | elapsed span hsame | metered endpoint hsame =>
      rw [show q.backoff = p.backoff from congrArg Gauges.backoff hsame]
      exact ⟨row, hfind, Nat.le_refl _⟩
  | struck endpoint hsame =>
      have hbackoff : q.backoff = (p.backoff.strike p.now endpoint).1 :=
        congrArg Gauges.backoff hsame
      rw [hbackoff]
      exact Backoff.deadline_le_strike h.timely hfind endpoint
  | forgotten endpoint hsame =>
      have hbackoff : q.backoff = p.backoff.forget endpoint := congrArg Gauges.backoff hsame
      rw [hbackoff] at hkept ⊢
      exact ⟨row, Backoff.get?_forget hfind hkept, Nat.le_refl _⟩
  | struckOut endpoint hsame =>
      have hbackoff : q.backoff = ((p.backoff.strike p.now endpoint).1).forget endpoint :=
        congrArg Gauges.backoff hsame
      rw [hbackoff] at hkept ⊢
      obtain ⟨new, hnew, hle⟩ := Backoff.deadline_le_strike h.timely hfind endpoint
      exact ⟨new, Backoff.get?_forget hnew hkept, hle⟩

end Steady

/-- A pool begins with its limiters in order. -/
theorem steady_of_withSlots {config : Config} {slots : Slots} {p : Pool}
    (h : Pool.withSlots config slots = .ok p) : Steady config.usageQuota p := by
  unfold Pool.withSlots at h
  split at h
  · cases h
  · obtain rfl := Except.ok.inj h
    refine ⟨rfl, List.nodup_nil, ?_⟩
    intro endpoint row hfind
    cases hfind

namespace Step

/-- A validation round of the endpoint begins in this step. -/
def opens (s : Step) (endpoint : String) : Bool :=
  match s.deed with
  | .move id .pick =>
    match s.after.task? id with
    | some (.round r) => r.endpoint == endpoint
    | _ => false
  | _ => false

/-- A strike is recorded against the endpoint, and its window ends at the
deadline. -/
def Strikes (s : Step) (endpoint : String) (deadline : Nat) : Prop :=
  ∃ window, s.before.backoff.strike s.before.now endpoint = (s.after.backoff, some window) ∧
    deadline = s.before.now + window

/-- The strikes against the endpoint are forgotten. -/
def Forgets (s : Step) (endpoint : String) : Prop :=
  s.before.backoff.strikes.contains endpoint = true ∧
    s.after.backoff.strikes.contains endpoint = false

variable {s : Step} {e : String}

/-- A round begins only if both limiters admit it, and the use is noted. -/
theorem opened (horderly : Orderly s.before) (hopens : s.opens e = true) :
    (s.before.usage.check s.before.now e).2 = none ∧
      s.before.backoff.retryAfter? s.before.now e = none ∧
      s.after.usage = (s.before.usage.check s.before.now e).1 ∧ s.after.now = s.before.now := by
  unfold opens at hopens
  split at hopens
  · next id hdeed =>
      split at hopens
      · next r hround =>
          obtain ⟨mid, heffect, hquiet⟩ := Pool.effects_of_act? horderly.numbered s.done
          rw [hdeed] at heffect
          have hholds : (id, Task.round r) ∈ Task.holders mid.tasks := by
            rw [← hquiet.holders]
            exact Task.mem_holders.2 ⟨Task.mem_of_lookup hround, rfl⟩
          rcases heffect.pick_cases with hidle |
            ⟨life, endpoint, hbegun, hadmitted, hclear, husage, hnow⟩
          · exact absurd rfl (hidle.free _ hholds)
          · have hnum := (horderly.effect heffect).numbered
            have hfound := hnum.lookup_of_mem (Task.mem_holders.1 hholds).1
            have hsame := hnum.eq_of_lookup hfound (Task.mem_holders.1 hbegun).1 rfl
            have hname : endpoint = e := by
              cases hsame
              exact beq_iff_eq.1 hopens
            subst hname
            exact ⟨hadmitted, hclear, hquiet.usage.trans husage, hquiet.now.trans hnow⟩
      · cases hopens
  · cases hopens

/-- Rounds begin in no other way: a round that is under way after a step was
under way before it, or begins in it. -/
theorem round_cases {id : Nat} {r : Round} (horderly : Orderly s.before)
    (hround : s.after.task? id = some (.round r)) :
    (∃ earlier, s.before.task? id = some (.round earlier) ∧ earlier.life = r.life ∧
        earlier.endpoint = r.endpoint) ∨
      s.opens r.endpoint = true := by
  obtain ⟨mid, heffect, hquiet⟩ := Pool.effects_of_act? horderly.numbered s.done
  have hholds : (id, Task.round r) ∈ Task.holders mid.tasks := by
    rw [← hquiet.holders]
    exact Task.mem_holders.2 ⟨Task.mem_of_lookup hround, rfl⟩
  rcases heffect.holder_cases hholds with hold | harrives
  · left
    exact ⟨r, horderly.numbered.lookup_of_mem (Task.mem_holders.1 hold).1, rfl, rfl⟩
  · generalize hdeed : s.deed = d at harrives
    cases harrives with
    | opened hfind =>
        right
        unfold opens
        rw [hdeed]
        dsimp only
        rw [hround]
        exact beq_self_eq_true _
    | retried htask hstage => exact .inl ⟨_, htask, rfl, rfl⟩
    | passed htask hstage hentry hnoted => exact .inl ⟨_, htask, rfl, rfl⟩

end Step

/-! ## Runs -/

variable {quota : Quota} {p q : Pool} {steps : List Step} {e : String}

/-- Every state of a run has its limiters in order. -/
theorem Steady.throughout (h : Steady quota p) (horderly : Orderly p) (hrun : Run p steps q) :
    Steady quota q ∧ ∀ s ∈ steps, Steady quota s.before ∧ Steady quota s.after := by
  have hall := horderly.throughout hrun
  exact hrun.throughout h fun s hs hbefore =>
    hbefore.gauged (Pool.gauged_of_act? (hall.2 s hs).1 s.done)

/-- A round of the endpoint begins in this step, within the span of time. -/
def Step.opensWithin (s : Step) (endpoint : String) (start stop : Nat) : Bool :=
  s.opens endpoint && decide (start ≤ s.before.now ∧ s.before.now ≤ stop)

/-- Rounds that begin within a span raise the level of their endpoint, and the
last of them leaves it within a burst of the end. -/
theorem opened_within (h : Steady quota p) (horderly : Orderly p)
    (hburst : 1 ≤ quota.burst) (hrun : Run p steps q) (e : String) {start stop : Nat}
    (hspan : start ≤ stop) :
    steps.countP (·.opensWithin e start stop) = 0 ∨
      start + steps.countP (·.opensWithin e start stop) * max quota.interval 1 ≤ q.level e ∧
        steps.countP (·.opensWithin e start stop) * max quota.interval 1 ≤
          stop - start + max quota.interval 1 * quota.burst := by
  induction hrun with
  | rest => exact .inl rfl
  | @step steps s hrun ih =>
      have hbefore := (horderly.throughout hrun).1
      have hsteady := (h.throughout horderly hrun).1
      have hmono := hsteady.level_le (Pool.gauged_of_act? hbefore s.done) e
      rw [List.countP_append]
      cases hcounts : s.opensWithin e start stop with
      | false =>
          have hnone : [s].countP (·.opensWithin e start stop) = 0 := by simp [hcounts]
          rw [hnone, Nat.add_zero]
          omega
      | true =>
          have hone : [s].countP (·.opensWithin e start stop) = 1 := by simp [hcounts]
          rw [hone, Nat.add_mul, Nat.one_mul]
          unfold Step.opensWithin at hcounts
          rw [Bool.and_eq_true, decide_eq_true_eq] at hcounts
          obtain ⟨hopens, hstart, hstop⟩ := hcounts
          obtain ⟨hadmitted, -, husage, hnow⟩ := Step.opened hbefore hopens
          have hpace : s.before.usage.pace = max quota.interval 1 := by
            unfold Usage.pace
            rw [hsteady.quota]
          have hlow : s.before.now ≤ s.before.level e := s.before.usage.le_level _ e
          have hrise : s.after.level e = s.before.level e + max quota.interval 1 := by
            unfold Pool.level
            rw [husage, hnow, Usage.level_check hadmitted, hpace]
          have hcap : s.after.level e ≤
              s.before.now + max quota.interval 1 * quota.burst := by
            have hwithin := Usage.level_check_le (hsteady.quota ▸ hburst) hadmitted
            unfold Pool.level
            rw [husage, hnow]
            rwa [hpace, hsteady.quota] at hwithin
          right
          rcases ih with hnone | ⟨hlevel, -⟩
          · rw [hnone, Nat.zero_mul]
            omega
          · omega

/-- Until its strikes are forgotten, an endpoint keeps a deadline that is not
before that of any of them. -/
theorem struck_until (h : Steady quota p) (horderly : Orderly p) (hrun : Run p steps q)
    {earlier later : List Step} {x : Step} {deadline : Nat}
    (hsplit : steps = earlier ++ x :: later) (hstrikes : x.Strikes e deadline)
    (hkept : ∀ z ∈ later, ¬ z.Forgets e) :
    ∃ row, q.backoff.strikes.get? e = some row ∧ deadline ≤ row.deadline := by
  induction hrun generalizing later with
  | rest =>
      have hempty := congrArg List.length hsplit
      simp at hempty
  | @step steps s hrun ih =>
      rcases List.eq_nil_or_concat later with rfl | ⟨more, last, rfl⟩
      · obtain ⟨-, hlast⟩ := List.append_inj' hsplit rfl
        obtain rfl := List.singleton_inj.1 hlast
        obtain ⟨window, hstruck, rfl⟩ := hstrikes
        obtain ⟨row, hfind, hends⟩ := Backoff.deadline_strike (congrArg Prod.snd hstruck)
        rw [congrArg Prod.fst hstruck] at hfind
        exact ⟨row, hfind, Nat.le_of_eq hends.symm⟩
      · rw [List.concat_eq_append] at hsplit hkept
        rw [← List.cons_append, ← List.append_assoc] at hsplit
        obtain ⟨hinit, hlast⟩ := List.append_inj' hsplit rfl
        obtain rfl := List.singleton_inj.1 hlast
        obtain ⟨row, hfind, hle⟩ := ih hinit fun z hz => hkept z (List.mem_append_left _ hz)
        have hbefore := (horderly.throughout hrun).1
        have hsteady := (h.throughout horderly hrun).1
        have hlisted : s.after.backoff.strikes.contains e = true := by
          cases hgone : s.after.backoff.strikes.contains e with
          | true => rfl
          | false =>
              have hthere : s.before.backoff.strikes.contains e = true :=
                Option.isSome_of_eq_some hfind
              exact absurd ⟨hthere, hgone⟩
                (hkept s (List.mem_append_right _ (List.mem_singleton.2 rfl)))
        obtain ⟨new, hnew, hnot⟩ :=
          hsteady.deadline_le (Pool.gauged_of_act? hbefore s.done) hfind hlisted
        exact ⟨new, hnew, Nat.le_trans hle hnot⟩

/-- In a run of a pool, at most a burst of rounds of one endpoint begin within a
span of time, and one more for every interval that the span lasts. And no round
of it begins before the deadline of a strike that was recorded against it and
has not been forgotten since. -/
theorem rounds_paced {config : Config} {slots : Slots} {p q : Pool} {steps : List Step}
    (hmade : Pool.withSlots config slots = .ok p) (hburst : 1 ≤ config.usageQuota.burst)
    (hrun : Run p steps q) (e : String) :
    (∀ start stop, start ≤ stop →
        steps.countP (·.opensWithin e start stop) ≤
          config.usageQuota.burst + (stop - start) / max config.usageQuota.interval 1) ∧
      ∀ earlier x between y later deadline,
        steps = earlier ++ x :: (between ++ y :: later) → x.Strikes e deadline →
          (∀ z ∈ between, ¬ z.Forgets e) → y.opens e = true → deadline ≤ y.before.now := by
  have horderly := orderly_of_withSlots hmade
  have hsteady := steady_of_withSlots hmade
  constructor
  · intro start stop hspan
    have hpos : 0 < max config.usageQuota.interval 1 := by omega
    rcases opened_within hsteady horderly hburst hrun e hspan with hnone | ⟨-, hrise⟩
    · rw [hnone]
      exact Nat.zero_le _
    · have hcount := (Nat.le_div_iff_mul_le hpos).2 hrise
      rw [Nat.add_mul_div_left _ _ hpos] at hcount
      omega
  · intro earlier x between y later deadline hsplit hstrikes hkept hopens
    have hwhole : steps = (earlier ++ x :: between) ++ y :: later := by
      rw [hsplit, List.append_assoc, List.cons_append]
    have hupto := hrun.upto hwhole
    have hbefore := (horderly.throughout hupto).1
    obtain ⟨row, hfind, hle⟩ := struck_until hsteady horderly hupto rfl hstrikes hkept
    obtain ⟨-, hclear, -, -⟩ := Step.opened hbefore hopens
    exact Nat.le_trans hle (Backoff.deadline_le_of_clear hclear hfind)

/-- All attempts of a round fail. Its endpoint is struck and comes back after
the window of the strike, just when the next round may begin. -/
theorem next_round_at_deadline :
    ∃ p earlier x between y q, Pool.new Config.default = .ok p ∧
      Run p (earlier ++ x :: (between ++ [y])) q ∧
      (earlier ++ x :: (between ++ [y])).map Step.deed =
        [.load "a:1", .start, .move 0 .lockIntake, .move 0 .receive, .move 0 .forward,
          .move 1 .look, .move 3 .pick, .move 3 (.attempted (.error (.dialTimeout "a:1"))),
          .move 3 (.attempted (.error (.dialTimeout "a:1"))),
          .move 3 (.attempted (.error (.dialTimeout "a:1"))), .advance 60000000000,
          .move 4 .wake, .move 4 .comeBack, .move 1 .look, .move 5 .pick] ∧
      x.Strikes "a:1" 60000000000 ∧ (∀ z ∈ between, ¬ z.Forgets "a:1") ∧
      y.opens "a:1" = true ∧ 60000000000 ≤ y.before.now ∧
      (earlier ++ x :: (between ++ [y])).countP (·.opensWithin "a:1" 0 60000000000) ≤ 4 := by
  obtain ⟨p, blank, struck, hmade, hstrike, hlisted, hview⟩ : ∃ p blank struck,
      Pool.new Config.default = .ok p ∧
      Backoff.strike blank 0 "a:1" = (struck, some 60000000000) ∧
      struck.strikes.contains "a:1" = true ∧
      (p.steps?
        [.load "a:1", .start, .move 0 .lockIntake, .move 0 .receive, .move 0 .forward,
          .move 1 .look, .move 3 .pick, .move 3 (.attempted (.error (.dialTimeout "a:1"))),
          .move 3 (.attempted (.error (.dialTimeout "a:1"))),
          .move 3 (.attempted (.error (.dialTimeout "a:1"))), .advance 60000000000,
          .move 4 .wake, .move 4 .comeBack, .move 1 .look, .move 5 .pick]).map
        (List.map fun s => ((s.before.now, s.opens "a:1"), s.before.backoff, s.after.backoff)) =
      some (List.replicate 6 ((0, false), blank, blank) ++ [((0, true), blank, blank)] ++
        List.replicate 2 ((0, false), blank, blank) ++ ((0, false), blank, struck) ::
          (((0, false), struck, struck) ::
            List.replicate 3 ((60000000000, false), struck, struck) ++
              [((60000000000, true), struck, struck)])) :=
    ⟨_, Backoff.new Config.default.badBackoff Config.default.maxBadBackoff, _, rfl, rfl, rfl, rfl⟩
  obtain ⟨steps, q, hrun, hdeeds, hseen⟩ := Run.of_views _ hview
  obtain ⟨earlier, rest, rfl, -, hrest⟩ := List.map_eq_append_iff.1 hseen
  obtain ⟨x, rest, rfl, hx, hrest⟩ := List.map_eq_cons_iff.1 hrest
  obtain ⟨between, rest, rfl, hbetween, hrest⟩ := List.map_eq_append_iff.1 hrest
  obtain ⟨y, rest, rfl, hy, hrest⟩ := List.map_eq_cons_iff.1 hrest
  obtain rfl := List.map_eq_nil_iff.1 hrest
  simp only [Prod.mk.injEq] at hx hy
  obtain ⟨⟨hstart, -⟩, hxbefore, hxafter⟩ := hx
  obtain ⟨⟨hnow, hopens⟩, -, -⟩ := hy
  have hstrikes : x.Strikes "a:1" 60000000000 := by
    refine ⟨60000000000, ?_, ?_⟩
    · rw [hxbefore, hstart, hxafter]
      exact hstrike
    · rw [hstart]
  have hkept : ∀ z ∈ between, ¬ z.Forgets "a:1" := by
    rintro z hz ⟨-, hgone⟩
    have hmem := List.mem_map_of_mem (f := fun s : Step =>
      ((s.before.now, s.opens "a:1"), s.before.backoff, s.after.backoff)) hz
    rw [hbetween] at hmem
    have hafter : z.after.backoff = struck := by
      simp at hmem
      rcases hmem with ⟨-, -, hafter⟩ | ⟨-, -, hafter⟩ <;> exact hafter
    rw [hafter, hlisted] at hgone
    cases hgone
  obtain ⟨hcount, hwaits⟩ := rounds_paced hmade (by decide) hrun "a:1"
  refine ⟨p, earlier, x, between, y, q, hmade, hrun, hdeeds, hstrikes, hkept, hopens, ?_, ?_⟩
  · exact hwaits earlier x between y [] 60000000000 rfl hstrikes hkept hopens
  · exact hcount 0 60000000000 (Nat.zero_le _)

end SocksPool
