import SocksPool.Proofs.Overflow
import SocksPool.Proofs.Pace

/-!
# Waits of an endpoint

A limiter that refuses an endpoint says how long, and that is long enough: as long as the
endpoint is neither used nor struck, it refuses no more at the end of the wait, nor later. So
what an endpoint still has in front of it can be counted at the next time that it may be
picked: would the usage limiter refuse it then, and would the backoff limiter.

The second counts twice. A job asks the usage limiter first, which then notes a use even if
the backoff limiter refuses. Such a deferral takes the two away and may bring the one back.

Timers are set to the ends of waits. That the clock can represent these ends follows from
what the limiters keep: the usage limiter never refuses for longer than an interval, and the
deadlines of the backoff limiter were represented when they were set.

## Main definitions

* `Pool.allowance` — how many deferrals may still come.
* `Punctual` — what holds of the tasks and the limiters of every reachable pool.

## Main results

* `Limiter.wait?_over` — a wait is long enough.
* `Pool.allowance_of_refusal` — a deferral takes more from the allowance than it gives.
* `Punctual.fits` — the clock can represent the end of every wait.
-/

namespace SocksPool

/-! ## What limiters answer later -/

namespace Limiter

variable {limiter : Limiter} {p : Pool} {time later : Nat} {e : String}

/-- A limiter that would not refuse an endpoint would not do so later. -/
theorem wait?_later (hle : time ≤ later) (h : limiter.wait? p time e = none) :
    limiter.wait? p later e = none := by
  cases limiter with
  | usage =>
      have hwithin := Usage.check_eq_none.1 h
      apply Usage.check_eq_none.2
      rw [p.usage.level_later hle]
      omega
  | backoff =>
      unfold wait? Backoff.retryAfter? at h ⊢
      dsimp only at h ⊢
      split at h
      · split at h
        · cases h
        · rw [if_neg (by omega)]
      · rfl

/-- Nor would it once its wait is over. -/
theorem wait?_over {wait : Nat} (h : limiter.wait? p time e = some wait)
    (hover : time + wait ≤ later) : limiter.wait? p later e = none := by
  cases limiter with
  | usage =>
      obtain ⟨-, hlevel⟩ := Usage.check_eq_some.1 h
      apply Usage.check_eq_none.2
      rw [p.usage.level_later (Nat.le_trans (Nat.le_add_right time wait) hover)]
      omega
  | backoff =>
      unfold wait? Backoff.retryAfter? at h ⊢
      dsimp only at h ⊢
      split at h
      · split at h
        · obtain rfl := Option.some.inj h
          rw [if_neg (by omega)]
        · cases h
      · cases h

end Limiter

namespace Pool

variable {p q : Pool} {d : Deed} {id : Nat} {e : String}

/-- How many deferrals may still come if the endpoint is picked at some time or later. -/
def allowance (p : Pool) (e : String) (time : Nat) : Nat :=
  (Limiter.usage.wait? p time e).isSome.toNat + 2 * (Limiter.backoff.wait? p time e).isSome.toNat

theorem allowance_le_three (p : Pool) (e : String) (time : Nat) : p.allowance e time ≤ 3 := by
  have husage := (Limiter.usage.wait? p time e).isSome.toNat_le
  have hbackoff := (Limiter.backoff.wait? p time e).isSome.toNat_le
  unfold allowance
  omega

/-- What would not be refused later if it were not now is counted no higher. -/
theorem toNat_le {first second : Option Nat} (h : first = none → second = none) :
    second.isSome.toNat ≤ first.isSome.toNat := by
  cases first with
  | none => exact Nat.le_of_eq (congrArg (·.isSome.toNat) (h rfl))
  | some wait => exact second.isSome.toNat_le

/-- Where no limiter would refuse that would not before, the allowance has not grown. -/
theorem allowance_le {time later : Nat}
    (h : ∀ limiter : Limiter, limiter.wait? p time e = none → limiter.wait? q later e = none) :
    q.allowance e later ≤ p.allowance e time := by
  have husage := toNat_le (h .usage)
  have hbackoff := toNat_le (h .backoff)
  unfold allowance
  omega

/-- The backoff limiter is asked only if the usage limiter admits. -/
theorem usage_of_refusal? {wait : Nat} (h : p.refusal? e = some (.backoff, wait)) :
    Limiter.usage.wait? p p.now e = none := by
  unfold refusal? at h
  cases husage : Limiter.usage.wait? p p.now e with
  | none => rfl
  | some found =>
      rw [husage] at h
      cases h

/-- The limiter that refuses would not do so at the end of the wait, and the deferral takes
more from the allowance than it gives to it. -/
theorem allowance_of_refusal {limiter : Limiter} {wait : Nat}
    (hrefused : p.refusal? e = some (limiter, wait))
    (husage : q.usage = (p.usage.check p.now e).1) (hbackoff : q.backoff = p.backoff) :
    limiter.wait? q (p.now + wait) e = none ∧
      q.allowance e (p.now + wait) + 1 ≤ p.allowance e p.now := by
  have hwait := wait?_of_refusal? hrefused
  have hover := Limiter.wait?_over hwait (Nat.le_refl _)
  have hsame : ∀ time, Limiter.backoff.wait? q time e = Limiter.backoff.wait? p time e := by
    intro time
    show q.backoff.retryAfter? time e = p.backoff.retryAfter? time e
    rw [hbackoff]
  cases limiter with
  | usage =>
      -- No use is noted, and the backoff limiter has not been asked.
      have hkept : q.usage = p.usage := husage.trans (Usage.check_of_refused hwait)
      have hclear : Limiter.usage.wait? q (p.now + wait) e = none := by
        show (q.usage.check (p.now + wait) e).2 = none
        rw [hkept]
        exact hover
      have hlater : (Limiter.backoff.wait? p (p.now + wait) e).isSome.toNat ≤
          (Limiter.backoff.wait? p p.now e).isSome.toNat :=
        toNat_le (Limiter.wait?_later (Nat.le_add_right p.now wait))
      refine ⟨hclear, ?_⟩
      unfold allowance
      rw [hclear, hwait, hsame, Option.isSome_none, Option.isSome_some]
      simp only [Bool.toNat_false, Bool.toNat_true]
      omega
  | backoff =>
      have hclear : Limiter.backoff.wait? q (p.now + wait) e = none := (hsame _).trans hover
      have husage := (Limiter.usage.wait? q (p.now + wait) e).isSome.toNat_le
      refine ⟨hclear, ?_⟩
      unfold allowance
      rw [hclear, hwait, usage_of_refusal? hrefused, Option.isSome_none, Option.isSome_some]
      simp only [Bool.toNat_false, Bool.toNat_true]
      omega

end Pool

/-! ## Waits that end -/

/-- The tasks and the limiters are in order, and the clock can represent the end of every
wait that is at most an interval from now. -/
structure Punctual (quota : Quota) (p : Pool) : Prop where
  orderly : Orderly p
  steady : Steady quota p
  tight : p.usage.Tight p.now
  dated : p.backoff.Dated p.now

namespace Punctual

variable {quota : Quota} {p q : Pool} {d : Deed} {e : String}

theorem of_gauges {g : Gauges} (hsame : q.gauges = g) (htight : g.usage.Tight g.now)
    (hdated : g.backoff.Dated g.now) : q.usage.Tight q.now ∧ q.backoff.Dated q.now := by
  subst hsame
  exact ⟨htight, hdated⟩

/-- Every deed keeps a pool punctual. -/
theorem act (h : Punctual quota p) (hact : p.act? d = some q) : Punctual quota q := by
  have hgauged := Pool.gauged_of_act? h.orderly hact
  have hdistinct := h.steady.distinct
  have hlimits : q.usage.Tight q.now ∧ q.backoff.Dated q.now := by
    cases hgauged with
    | kept hsame => exact of_gauges hsame h.tight h.dated
    | elapsed span hsame =>
        have hlater := Nat.le_add_right p.now span
        exact of_gauges hsame (h.tight.later hlater) (h.dated.later hlater)
    | metered endpoint hsame => exact of_gauges hsame (h.tight.check endpoint) h.dated
    | struck endpoint hsame => exact of_gauges hsame h.tight (h.dated.strike endpoint)
    | forgotten endpoint hsame =>
        exact of_gauges hsame (h.tight.prune hdistinct) (h.dated.forget endpoint)
    | struckOut endpoint hsame =>
        have hdated := (h.dated.strike endpoint).forget endpoint
        exact of_gauges hsame (h.tight.prune hdistinct) hdated
  exact ⟨h.orderly.act hact, h.steady.gauged hgauged, hlimits.1, hlimits.2⟩

/-- Every state of a run is punctual. -/
theorem throughout {steps : List Step} (h : Punctual quota p) (hrun : Run p steps q) :
    Punctual quota q ∧ ∀ s ∈ steps, Punctual quota s.before ∧ Punctual quota s.after :=
  hrun.throughout h fun s _ hbefore => hbefore.act s.done

/-- The clock can represent the end of every wait. -/
theorem fits (h : Punctual quota p) (hclock : Instant.add? p.now (max quota.interval 1) ≠ none)
    {limiter : Limiter} {wait : Nat} (hwait : limiter.wait? p p.now e = some wait) :
    Instant.add? p.now wait ≠ none := by
  cases limiter with
  | usage =>
      have hshort : wait ≤ max quota.interval 1 := by
        have hle := h.tight.wait_le hwait
        unfold Usage.pace at hle
        rwa [h.steady.quota] at hle
      exact Instant.add?_ne_none hclock (Nat.le_refl _) hshort
  | backoff => exact h.dated.fits hwait

end Punctual

/-- A pool begins punctual. -/
theorem punctual_of_withSlots {config : Config} {slots : Slots} {p : Pool}
    (h : Pool.withSlots config slots = .ok p) : Punctual config.usageQuota p where
  orderly := orderly_of_withSlots h
  steady := steady_of_withSlots h
  tight := by
    unfold Pool.withSlots at h
    split at h
    · cases h
    · obtain rfl := Except.ok.inj h
      exact fun endpoint => Nat.zero_le _
  dated endpoint row hfind := by
    rw [(blank_of_withSlots h).strikes] at hfind
    cases hfind

end SocksPool
