import Mathlib.Algebra.GroupWithZero.Nat
import Mathlib.Data.List.Induction
import SocksPool.Proofs.Limits

/-!
# Quotas kept to the letter

A quota allows a burst of uses and one more for every interval that passes. So a use is
due exactly if no span of time that ends with it sees too many uses, and there are as
many such spans as there were uses. The limiter decides this by one instant for each
endpoint.

The instant is the place that the uses *reach*: every use begins where the ones before
it end, or at its own time if that is later, and lasts an interval. Then the reach is
within a bound exactly if it would be within it from every single use on, as if this
and all later ones came without a gap. A check compares the reach with the present,
give or take a burst, and so it compares every span at once.

A refused check is told how far the reach lies ahead, and nothing but a use of the same
endpoint moves the reach. So the wait is not a guess.

## Main definitions

* `Usage.Order` — what can be asked of a limiter; `Usage.Record.obeyAll` asks it.
* `Usage.Record` — a limiter under its clock, with the uses that it admitted.
* `Usage.reach` — where uses one after the other come to an end.

## Main results

* `Usage.reach_le_iff` — the reach is within a bound if it is from every use on.
* `admitted_within_quota` — what a check answers, and how long it lets wait.
-/

namespace SocksPool

namespace Usage

/-- What can be asked of a usage limiter, and the time that passes in between. -/
inductive Order where
  | check (endpoint : String)
  | prune
  | advance (span : Nat)
deriving DecidableEq

/-- The order can bear on the uses of an endpoint. -/
def Order.concerns (endpoint : String) : Order → Bool
  | .check other => other == endpoint
  | .prune => false
  | .advance _ => true

/-- How much time passes by an order. -/
def Order.span : Order → Nat
  | .advance span => span
  | _ => 0

/-- How much time passes by some orders. -/
def elapsed (orders : List Order) : Nat := (orders.map Order.span).sum

/-- A usage limiter under its clock. For each endpoint there are the times at which a use
of it was admitted, the earliest first. -/
structure Record where
  now : Nat
  usage : Usage
  uses : String → List Nat

namespace Record

/-- A new limiter, at some time. -/
def new (quota : Quota) (start : Nat) : Record := ⟨start, { quota }, fun _ => []⟩

/-- What a check of the endpoint is answered now: nothing if it is admitted, and else
how long to wait. -/
def answer (r : Record) (endpoint : String) : Option Nat := (r.usage.check r.now endpoint).2

/-- The limiter after an order. A use that it admits goes on record. -/
def obey (r : Record) : Order → Record
  | .check endpoint =>
    { r with
      usage := (r.usage.check r.now endpoint).1
      uses := fun e =>
        if e = endpoint ∧ r.answer endpoint = none then r.uses e ++ [r.now] else r.uses e }
  | .prune => { r with usage := r.usage.prune r.now }
  | .advance span => { r with now := r.now + span }

/-- The limiter after orders that are given one after the other. -/
def obeyAll (r : Record) : List Order → Record
  | [] => r
  | order :: more => (r.obey order).obeyAll more

end Record

/-! ## Reach -/

/-- Where uses come to an end, the earliest first, if each lasts for `pace` and begins at
its own time, or at the end of the one before if that is later. -/
def reach (pace : Nat) (uses : List Nat) : Nat :=
  uses.foldl (fun far use => max far use + pace) 0

theorem reach_concat (pace : Nat) (uses : List Nat) (use : Nat) :
    reach pace (uses ++ [use]) = max (reach pace uses) use + pace := by
  simp [reach, List.foldl_append]

/-- The reach is within a bound exactly if from every use on that one and all later ones
would be, without a gap between them. -/
theorem reach_le_iff {pace : Nat} {uses : List Nat} {bound : Nat} :
    reach pace uses ≤ bound ↔ ∀ earlier use later, uses = earlier ++ use :: later →
      use + (later.length + 1) * pace ≤ bound := by
  induction uses using List.reverseRecOn generalizing bound with
  | nil =>
      refine ⟨fun _ earlier use later hsplit => ?_, fun _ => Nat.zero_le _⟩
      have hempty := congrArg List.length hsplit
      simp at hempty
  | append_singleton uses last ih =>
      rw [reach_concat]
      constructor
      · intro hle earlier use later hsplit
        rcases List.eq_nil_or_concat later with rfl | ⟨more, final, rfl⟩
        · obtain ⟨-, hlast⟩ := List.append_inj' hsplit rfl
          obtain rfl := List.singleton_inj.1 hlast
          simp only [List.length_nil]
          omega
        · rw [List.concat_eq_append, ← List.cons_append, ← List.append_assoc] at hsplit
          obtain ⟨hbefore, -⟩ := List.append_inj' hsplit rfl
          have hshort : reach pace uses ≤ bound - pace := by omega
          have huse := ih.1 hshort earlier use more hbefore
          rw [List.concat_eq_append, List.length_append, List.length_singleton, Nat.add_mul]
          omega
      · intro hall
        have hlast := hall uses last [] rfl
        simp only [List.length_nil] at hlast
        have hbefore : reach pace uses ≤ bound - pace := by
          apply ih.2
          rintro earlier use later rfl
          have huse := hall earlier use (later ++ [last]) (by simp)
          rw [List.length_append, List.length_singleton, Nat.add_mul] at huse
          omega
        omega

/-- Uses without a gap end within a burst of the present exactly if, with one more, they
are at most a burst and one for every interval since they began. -/
theorem end_le_iff {pace burst use now count : Nat} (hpace : 0 < pace) (hburst : 1 ≤ burst)
    (hpast : use ≤ now) :
    use + count * pace ≤ now + pace * (burst - 1) ↔ count + 1 ≤ burst + (now - use) / pace := by
  have hfloor : count + 1 - burst ≤ (now - use) / pace ↔
      (count + 1 - burst) * pace ≤ now - use := Nat.le_div_iff_mul_le hpace
  rw [Nat.mul_comm pace]
  generalize (now - use) / pace = intervals at hfloor ⊢
  -- The uses that the burst does not cover are those that the intervals have to.
  rcases Nat.le_total (count + 1) burst with hfew | hmany
  · have hcovered : count * pace ≤ (burst - 1) * pace := Nat.mul_le_mul_right pace (by omega)
    omega
  · obtain ⟨beyond, hbeyond⟩ := Nat.exists_eq_add_of_le hmany
    have hcount : count = burst - 1 + beyond := by omega
    have hrest : count + 1 - burst = beyond := by omega
    rw [hrest] at hfloor
    rw [hcount, Nat.add_mul]
    omega

/-! ## What stays true of a record -/

namespace Record

variable {r : Record} {e : String}

/-- The limiter knows what is on record: the level of an endpoint is where its uses come
to an end. -/
structure Faithful (quota : Quota) (r : Record) : Prop where
  quota : r.usage.quota = quota
  distinct : r.usage.arrivals.keys.Nodup
  past : ∀ e, ∀ use ∈ r.uses e, use ≤ r.now
  level : ∀ e, r.usage.level r.now e = max (reach r.usage.pace (r.uses e)) r.now

variable {quota : Quota}

theorem faithful_new (quota : Quota) (start : Nat) : Faithful quota (new quota start) where
  quota := rfl
  distinct := List.nodup_nil
  past _ _ hmem := absurd hmem List.not_mem_nil
  level e := by
    show max start start = max 0 start
    omega

namespace Faithful

theorem check (h : Faithful quota r) (endpoint : String) :
    Faithful quota (r.obey (.check endpoint)) where
  quota := (r.usage.quota_check r.now endpoint).trans h.quota
  distinct := nodup_check h.distinct r.now endpoint
  past e use hmem := by
    dsimp only [obey] at hmem ⊢
    split at hmem
    · rcases List.mem_append.1 hmem with hold | hnew
      · exact h.past e use hold
      · exact Nat.le_of_eq (List.mem_singleton.1 hnew)
    · exact h.past e use hmem
  level e := by
    have hpace : (r.usage.check r.now endpoint).1.pace = r.usage.pace :=
      congrArg (max ·.interval 1) (r.usage.quota_check r.now endpoint)
    have hbefore := h.level e
    dsimp only [obey]
    rw [hpace]
    by_cases he : e = endpoint
    · subst he
      cases hanswer : r.answer e with
      | none =>
          rw [if_pos ⟨rfl, rfl⟩, reach_concat, level_check hanswer, hbefore]
          omega
      | some wait =>
          rw [if_neg (fun hadmitted => nomatch hadmitted.2), check_of_refused hanswer]
          exact hbefore
    · rw [if_neg (fun hnew => he hnew.1), level_check_of_ne _ _ he]
      exact hbefore

theorem obey (h : Faithful quota r) (order : Order) : Faithful quota (r.obey order) := by
  cases order with
  | check endpoint => exact h.check endpoint
  | prune =>
      exact ⟨h.quota, nodup_prune h.distinct r.now, h.past, fun e =>
        (level_prune h.distinct (Nat.le_refl _) e).trans (h.level e)⟩
  | advance span =>
      refine ⟨h.quota, h.distinct, fun e use hmem => ?_, fun e => ?_⟩
      · exact Nat.le_add_right_of_le (h.past e use hmem)
      · have hlater := r.usage.level_later (Nat.le_add_right r.now span) e
        have hbefore := h.level e
        dsimp only [Record.obey]
        omega

/-- The limiter knows what is on record after any orders. -/
theorem obeyAll (h : Faithful quota r) (orders : List Order) :
    Faithful quota (r.obeyAll orders) := by
  induction orders generalizing r with
  | nil => exact h
  | cons order more ih => exact ih (h.obey order)

end Faithful

/-! ## Answers -/

namespace Faithful

variable {other : Record} {wait : Nat}

theorem pace_eq (h : Faithful quota r) : r.usage.pace = max quota.interval 1 := by
  unfold pace
  rw [h.quota]

theorem tolerance_eq (h : Faithful quota r) :
    r.usage.tolerance = max quota.interval 1 * (quota.burst - 1) := by
  unfold tolerance
  rw [h.pace_eq, h.quota]

/-- A check compares the reach with the present. -/
theorem answer_eq_none (h : Faithful quota r) :
    r.answer e = none ↔ reach r.usage.pace (r.uses e) ≤ r.now + r.usage.tolerance := by
  have hlevel := h.level e
  unfold answer
  rw [check_eq_none]
  omega

/-- A refused check is told how far the reach is ahead. -/
theorem answer_eq_some (h : Faithful quota r) :
    r.answer e = some wait ↔
      0 < wait ∧ reach r.usage.pace (r.uses e) = r.now + r.usage.tolerance + wait := by
  have hlevel := h.level e
  unfold answer
  rw [check_eq_some]
  omega

/-- What a check is answered depends on the time and on the uses of its endpoint. -/
theorem answer_congr (h : Faithful quota r) (hother : Faithful quota other)
    (hnow : r.now = other.now) (huses : r.uses e = other.uses e) :
    r.answer e = other.answer e := by
  have hpace : r.usage.pace = other.usage.pace := h.pace_eq.trans hother.pace_eq.symm
  have htolerance : r.usage.tolerance = other.usage.tolerance :=
    h.tolerance_eq.trans hother.tolerance_eq.symm
  apply Option.ext
  intro wait
  show r.answer e = some wait ↔ other.answer e = some wait
  rw [h.answer_eq_some, hother.answer_eq_some, hpace, htolerance, hnow, huses]

/-- A check is admitted exactly if no span that ends with it sees too many uses. -/
theorem answer_eq_none_iff (h : Faithful quota r) (hburst : 1 ≤ quota.burst) :
    r.answer e = none ↔ ∀ earlier use later, r.uses e = earlier ++ use :: later →
      (use :: later).length + 1 ≤ quota.burst + (r.now - use) / max quota.interval 1 := by
  have hpos : 0 < max quota.interval 1 := by omega
  rw [h.answer_eq_none, reach_le_iff, h.pace_eq, h.tolerance_eq]
  refine forall_congr' fun earlier => forall_congr' fun use => forall_congr' fun later =>
    imp_congr_right fun hsplit => ?_
  have hpast : use ≤ r.now := h.past e use (by rw [hsplit]; simp)
  exact end_le_iff hpos hburst hpast

/-- A refused check leaves the record as it is. -/
theorem obey_of_refused (hrefused : r.answer e = some wait) : r.obey (.check e) = r := by
  have huses : (r.obey (.check e)).uses = r.uses := by
    funext other
    apply if_neg
    rintro ⟨-, hadmitted⟩
    rw [hrefused] at hadmitted
    cases hadmitted
  exact congrArg₂ (Record.mk r.now) (check_of_refused hrefused) huses

end Faithful

/-! ## Orders that do not concern an endpoint -/

theorem now_obeyAll (r : Record) (orders : List Order) :
    (r.obeyAll orders).now = r.now + elapsed orders := by
  induction orders generalizing r with
  | nil => rfl
  | cons order more ih =>
      have hstep : (r.obey order).now = r.now + order.span := by cases order <;> rfl
      show ((r.obey order).obeyAll more).now = r.now + elapsed (order :: more)
      rw [ih, hstep, Nat.add_assoc]
      rfl

theorem uses_obey {order : Order} (hspared : order ≠ .check e) :
    (r.obey order).uses e = r.uses e := by
  cases order with
  | check endpoint => exact if_neg fun hnew => hspared (congrArg Order.check hnew.1.symm)
  | prune | advance => rfl

theorem uses_obeyAll {orders : List Order} (hspared : ∀ order ∈ orders, order ≠ .check e) :
    (r.obeyAll orders).uses e = r.uses e := by
  induction orders generalizing r with
  | nil => rfl
  | cons order more ih =>
      have hmore : ∀ next ∈ more, next ≠ Order.check e :=
        fun next hnext => hspared next (List.mem_cons_of_mem _ hnext)
      exact (ih hmore).trans (uses_obey (hspared order List.mem_cons_self))

/-- A refused check would be admitted when its wait is over, and not before, whatever
happens to other endpoints meanwhile. -/
theorem Faithful.admitted_after {wait : Nat} (h : Faithful quota r)
    (hrefused : r.answer e = some wait) {orders : List Order}
    (hspared : ∀ order ∈ orders, order ≠ .check e) :
    (r.obeyAll orders).answer e = none ↔ wait ≤ elapsed orders := by
  have hlater := h.obeyAll orders
  have hpace : (r.obeyAll orders).usage.pace = r.usage.pace := hlater.pace_eq.trans h.pace_eq.symm
  have htolerance : (r.obeyAll orders).usage.tolerance = r.usage.tolerance :=
    hlater.tolerance_eq.trans h.tolerance_eq.symm
  obtain ⟨-, hreach⟩ := h.answer_eq_some.1 hrefused
  rw [hlater.answer_eq_none, hpace, htolerance, uses_obeyAll hspared, now_obeyAll, hreach]
  omega

/-- Orders that do not concern an endpoint can be left out. -/
theorem alike_obeyAll {other : Record} (h : Faithful quota r) (hother : Faithful quota other)
    (hnow : r.now = other.now) (huses : r.uses e = other.uses e) (orders : List Order) :
    let all := r.obeyAll orders
    let few := other.obeyAll (orders.filter (·.concerns e))
    all.now = few.now ∧ all.uses e = few.uses e := by
  induction orders generalizing r other with
  | nil => exact ⟨hnow, huses⟩
  | cons order more ih =>
      cases order with
      | advance span =>
          exact ih (h.obey _) (hother.obey _) (congrArg (· + span) hnow) huses
      | prune => exact ih (h.obey .prune) hother hnow huses
      | check endpoint =>
          by_cases he : endpoint = e
          · subst he
            have hanswer := h.answer_congr hother hnow huses
            have hsame : (r.obey (.check endpoint)).uses endpoint =
                (other.obey (.check endpoint)).uses endpoint := by
              dsimp only [obey]
              rw [hanswer, huses, hnow]
            have hfew := ih (h.obey (.check endpoint)) (hother.obey (.check endpoint)) hnow hsame
            rwa [List.filter_cons_of_pos (by simp [Order.concerns])]
          · have hkept : (r.obey (.check endpoint)).uses e = other.uses e :=
              (uses_obey (fun hcheck => he (Order.check.inj hcheck))).trans huses
            have hfew := ih (h.obey (.check endpoint)) hother hnow hkept
            rwa [List.filter_cons_of_neg (by simp [Order.concerns, he])]

end Record

end Usage

open Usage (Record Order elapsed)

/-- After any orders to a new limiter a check is admitted exactly if, from every admitted
use of the endpoint on, the uses and this one are at most a burst, and one more for every
interval since. Otherwise it has to wait; nothing is stored, and the check would be admitted
as soon as that time has passed, and no sooner, whatever is ordered for other endpoints
meanwhile. What is ordered for other endpoints, or pruned, does not bear on the answer. -/
theorem admitted_within_quota {quota : Quota} (hburst : 1 ≤ quota.burst) (start : Nat)
    (orders : List Order) (e : String) :
    let r := (Record.new quota start).obeyAll orders
    (r.answer e = none ↔ ∀ earlier use later, r.uses e = earlier ++ use :: later →
        (use :: later).length + 1 ≤ quota.burst + (r.now - use) / max quota.interval 1) ∧
      (∀ wait, r.answer e = some wait → 0 < wait ∧ r.obey (.check e) = r ∧
        ∀ more : List Order, (∀ order ∈ more, order ≠ .check e) →
          ((r.obeyAll more).answer e = none ↔ wait ≤ elapsed more)) ∧
      r.answer e = ((Record.new quota start).obeyAll (orders.filter (·.concerns e))).answer e := by
  intro r
  have hstart := Record.faithful_new quota start
  have hfaithful : r.Faithful quota := hstart.obeyAll orders
  refine ⟨hfaithful.answer_eq_none_iff hburst, fun wait hrefused => ⟨?_, ?_, ?_⟩, ?_⟩
  · exact (hfaithful.answer_eq_some.1 hrefused).1
  · exact Record.Faithful.obey_of_refused hrefused
  · exact fun more hspared => hfaithful.admitted_after hrefused hspared
  · obtain ⟨hnow, huses⟩ := Record.alike_obeyAll (e := e) hstart hstart rfl rfl orders
    exact hfaithful.answer_congr (hstart.obeyAll _) hnow huses

/-- Two uses an hour: the third has to wait until half an hour has passed since the first
two, ten minutes of which are over. -/
theorem admitted_within_quota_of_two :
    let orders : List Order :=
      [.check "a:1", .check "b:1", .check "a:1", .prune, .advance (600 * Span.second)]
    let r := (Record.new (Quota.per (3600 * Span.second) 2) 0).obeyAll orders
    1 ≤ (Quota.per (3600 * Span.second) 2).burst ∧ r.uses "a:1" = [0, 0] ∧
      r.answer "a:1" = some (1200 * Span.second) ∧ r.obey (.check "a:1") = r ∧
      ∀ more : List Order, (∀ order ∈ more, order ≠ .check "a:1") →
        ((r.obeyAll more).answer "a:1" = none ↔ 1200 * Span.second ≤ elapsed more) := by
  intro orders r
  have hburst : 1 ≤ (Quota.per (3600 * Span.second) 2).burst := by decide
  have hanswer : r.answer "a:1" = some (1200 * Span.second) := by decide
  obtain ⟨-, hwaits, -⟩ := admitted_within_quota hburst 0 orders "a:1"
  obtain ⟨-, hkept, hafter⟩ := hwaits _ hanswer
  exact ⟨hburst, by decide, hanswer, hkept, hafter⟩

end SocksPool
