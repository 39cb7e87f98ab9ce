import SocksPool.Proofs.Worklog
import SocksPool.Word

/-!
# The account of the slots

`running` is a bare number: a start adds one to it and an end takes one off, wherever the end
comes from. So it is right at any time if it is exactly the number of jobs that have started
and not ended, and this holds along every log since a start and an end are the only acts that
move a job in or out of that set, one job each. A change of the capacity looks at no job, so it
stops none, and a job that has left a standing does not come back to it.

How far the capacity holds is less plain, for a look compares the number with the capacity in
one step and swaps in a later one. The swap fails unless the number is what was compared, so at
a start it is less than the capacity was at the comparison. A capacity that was reduced between
the two is one for the submissions that come later. So the number never passes the largest
capacity there was; and as long as the capacity is not reduced in between, there is room at the
start itself. That is so for every start where no capacity is reduced in the middle of a look.

## Main definitions

* `Workers.occupied` — the number of jobs that have started and not ended.
* `Workers.Cleared` — the comparison that a claim rests on.
* `Workers.Event.Interrupts` — the event comes in the middle of a look.
* `Workers.Accounts` — what is kept along a log.

## Main results

* `Workers.running_eq_occupied` — the number is that of the jobs.
* `Workers.cleared_of_claiming` — whoever is about to swap has compared.
* `Workers.slots_accounted` — the account of every log from new workers.
-/

namespace SocksPool

namespace Slots

/-- The capacity after a change: added with saturation, and at least one. -/
def resize (capacity : Nat) (change : Int) : Nat := max 1 (Word.saturatingAdd capacity change)

theorem capacity_tune (s : Slots) (change : Int) :
    (s.tune change).capacity = resize s.capacity change :=
  Nat.max_comm _ _

end Slots

namespace Workers

/-! ## Jobs that occupy a slot -/

/-- The number of jobs that have started and not ended. -/
def occupied (w : Workers) : Nat := w.jobs.countP (·.standing = .running)

theorem occupied_map {w : Workers} {change : Job → Job}
    (h : ∀ j, (change j).standing = .running ↔ j.standing = .running) :
    (w.jobs.map change).countP (·.standing = .running) = w.occupied := by
  rw [List.countP_map, occupied]
  congr 1
  funext j
  simp [h j]

/-- A step moves its own job in or out. -/
theorem occupied_set {w : Workers} {i : Nat} {j : Job} (hj : w.jobs[i]? = some j) (k : Job) :
    (w.jobs.set i k).countP (·.standing = .running) + (if j.standing = .running then 1 else 0) =
      w.occupied + (if k.standing = .running then 1 else 0) := by
  obtain ⟨hlt, hget⟩ := List.getElem?_eq_some_iff.1 hj
  obtain ⟨before, after, hsplit, -, hset⟩ := @List.exists_of_set _ i k w.jobs hlt
  rw [hget] at hsplit
  rw [occupied, hset, hsplit]
  simp only [List.countP_append, List.countP_cons, decide_eq_true_eq]
  omega

theorem occupied_put {w : Workers} {i : Nat} {j : Job} (hj : w.jobs[i]? = some j)
    (stage : JobStage) :
    (w.put i j stage).occupied + (if j.standing = .running then 1 else 0) =
      w.occupied + (if stage.standing = .running then 1 else 0) :=
  occupied_set hj { j with stage }

/-- A job that waits on occupies no slot. -/
theorem occupied_put_blocked {w : Workers} {i : Nat} {j : Job} (hj : w.jobs[i]? = some j)
    {wait next : Wait} (hstage : j.stage = .blocked wait) :
    (w.put i j (.blocked next)).occupied = w.occupied := by
  have hput := occupied_put hj (.blocked next)
  simpa [standing_of_blocked hstage, JobStage.standing] using hput

theorem cancel_running_iff (j : Job) : j.cancel.standing = .running ↔ j.standing = .running := by
  rcases j.standing_cancel with hsame | ⟨hblocked, hcancelled⟩
  · rw [hsame]
  · simp [hblocked, hcancelled]

/-- The number of running jobs, after an act as before it, is that of the jobs. -/
theorem running_eq_occupied_of_act? {w v : Workers} {act : Act} (h : w.act? act = some v)
    (hcount : w.slots.running = w.occupied) : v.slots.running = v.occupied := by
  cases does_of_act? h with
  | submit name =>
      rw [occupied, submit, List.countP_append]
      exact hcount
  | tell name ending =>
      show w.slots.running = (w.jobs.map _).countP _
      rw [hcount, occupied_map]
      intro j
      split
      · rw [j.standing_tell]
      · rfl
  | cancel name =>
      show w.slots.running = (w.jobs.map _).countP _
      rw [hcount, occupied_map]
      intro j
      split
      · exact cancel_running_iff j
      · rfl
  | tune change => exact hcount
  | close => exact hcount
  | call _ =>
      show w.slots.running = (w.jobs.map _).countP _
      rw [hcount, occupied_map]
      intro j
      rw [j.standing_hear]
  | listen hj hstage | accept hj hstage _ | count hj hstage | claim hj hstage _
  | wait hj hstage _ | miss hj hstage _ | falter hj hstage =>
      exact hcount.trans (occupied_put_blocked hj hstage).symm
  | reject hj hstage =>
      have hput := occupied_put hj .rejected
      simp only [standing_of_blocked hstage, JobStage.standing, reduceCtorEq, if_false] at hput
      exact hcount.trans hput.symm
  | @start i j called hj hstage =>
      have hput := occupied_put hj .running
      simp only [standing_of_blocked hstage, JobStage.standing, reduceCtorEq, if_false,
        if_true] at hput
      show w.slots.running + 1 = (w.put i j .running).occupied
      omega
  | @finish i j ending hj hstage =>
      have hput := occupied_put hj ending.stage
      have hrunning : j.standing = .running := by rw [Job.standing, hstage]; rfl
      have hended : ending.stage.standing ≠ .running := by cases ending <;> decide
      rw [if_pos hrunning, if_neg hended] at hput
      show w.slots.running - 1 = (w.put i j ending.stage).occupied
      omega

/-- The number of running jobs is that of the jobs that have started and not ended. -/
theorem running_eq_occupied {capacity : Nat} {events : List Event} {w : Workers}
    (log : Log (new capacity) events w) : w.slots.running = w.occupied := by
  induction log with
  | nil => rfl
  | snoc _ hact ih => exact running_eq_occupied_of_act? hact ih

/-! ## Starts and ends -/

/-- The job at position `i` starts. -/
def Event.Starts (e : Event) (i : Nat) : Prop :=
  e.before.standing? i = some .blocked ∧ e.after.standing? i = some .running

/-- The job at position `i` ends. -/
def Event.Ends (e : Event) (i : Nat) : Prop :=
  e.before.standing? i = some .running ∧ e.after.standing? i ≠ some .running

instance (e : Event) (i : Nat) : Decidable (e.Starts i) := inferInstanceAs (Decidable (_ ∧ _))

/-- The ways of a job: it starts and ends, normally or by a panic, or it is rejected or
cancelled before it starts. -/
inductive Follows : Standing → Standing → Prop
  | start : Follows .blocked .running
  | finish : Follows .running .done
  | panic : Follows .running .panicked
  | reject : Follows .blocked .rejected
  | cancel : Follows .blocked .cancelled

theorem Follows.ne_blocked {a b : Standing} (h : Follows a b) : b ≠ .blocked := by
  cases h <;> decide

theorem Fate.follows {w : Workers} {act : Act} {i : Nat} {j : Job} {new : Standing}
    (h : Fate w act i j new) : new = j.standing ∨ Follows j.standing new := by
  cases h with
  | kept hnew => exact .inl hnew
  | started hnew _ hstage => rw [hnew, standing_of_blocked hstage]; exact .inr .start
  | @ended ending hnew _ hrunning =>
      rw [hnew, hrunning]
      cases ending
      · exact .inr .finish
      · exact .inr .panic
  | rejected hnew _ hblocked => rw [hnew, hblocked]; exact .inr .reject
  | cancelled hnew _ hblocked => rw [hnew, hblocked]; exact .inr .cancel

/-- Seen from the standings alone: what an act makes of one job. -/
theorem standing?_of_act? {w v : Workers} {act : Act} (h : w.act? act = some v) {i : Nat}
    {old : Standing} (hold : w.standing? i = some old) :
    ∃ j new, w.jobs[i]? = some j ∧ j.standing = old ∧ v.standing? i = some new ∧
      Fate w act i j new := by
  obtain ⟨j, hj, hstanding⟩ := Option.map_eq_some_iff.1 hold
  obtain ⟨k, hk, -, hfate⟩ := fate_of_act? h hj
  exact ⟨j, k.standing, hj, hstanding, by rw [standing?, hk]; rfl, hfate⟩

/-- A start is a swap of the job. -/
theorem start_inv {w v : Workers} {act : Act} (h : w.act? act = some v) {i : Nat}
    (hstart : Event.Starts ⟨w, act, v⟩ i) :
    act = .step i ∧ ∃ called, w.WaitsAt i (.looking called (.claiming w.slots.running)) := by
  obtain ⟨j, new, hj, hold, hnew, hfate⟩ := standing?_of_act? h hstart.1
  obtain rfl : .running = new := Option.some.inj (hstart.2.symm.trans hnew)
  cases hfate with
  | started _ hact hstage => exact ⟨hact, _, j, hj, hstage⟩
  | @ended ending hended => cases ending <;> cases hended
  | kept hkept => rw [hold] at hkept; cases hkept
  | rejected hrejected => cases hrejected
  | cancelled hcancelled => cases hcancelled

/-- An end is a step of the job, and it was told. -/
theorem end_inv {w v : Workers} {act : Act} (h : w.act? act = some v) {i : Nat}
    (hend : Event.Ends ⟨w, act, v⟩ i) :
    act = .step i ∧ ∃ j ending, w.jobs[i]? = some j ∧ j.told = some ending ∧
      v.standing? i = some ending.stage.standing := by
  obtain ⟨j, new, hj, hold, hnew, hfate⟩ := standing?_of_act? h hend.1
  cases hfate with
  | @ended ending hended hact _ htold =>
      exact ⟨hact, j, ending, hj, htold, by rw [hnew, hended]⟩
  | kept hkept => exact absurd (by rw [hnew, hkept, hold]) hend.2
  | started _ _ hstage =>
      rw [standing_of_blocked hstage] at hold
      cases hold
  | rejected _ _ hblocked => rw [hold] at hblocked; cases hblocked
  | cancelled _ _ hblocked => rw [hold] at hblocked; cases hblocked

/-- The job of a step is the only one that can come to occupy a slot or leave it. -/
theorem occupied_of_step {w v : Workers} {i : Nat} (h : w.act? (.step i) = some v)
    {old : Standing} (hold : w.standing? i = some old) :
    ∃ new, v.standing? i = some new ∧
      v.occupied + (if old = .running then 1 else 0) =
        w.occupied + (if new = .running then 1 else 0) := by
  obtain ⟨j, hj, rfl⟩ := Option.map_eq_some_iff.1 hold
  obtain ⟨k, hjobs⟩ := set_of_step h
  have hlt : i < w.jobs.length := (List.getElem?_eq_some_iff.1 hj).1
  refine ⟨k.standing, by simp [standing?, hjobs, hlt], ?_⟩
  rw [occupied, hjobs]
  exact occupied_set hj k

theorem occupied_of_start {w v : Workers} {act : Act} (h : w.act? act = some v) {i : Nat}
    (hstart : Event.Starts ⟨w, act, v⟩ i) : v.occupied = w.occupied + 1 := by
  obtain ⟨rfl, -⟩ := start_inv h hstart
  obtain ⟨new, hnew, hcount⟩ := occupied_of_step h hstart.1
  obtain rfl : .running = new := Option.some.inj (hstart.2.symm.trans hnew)
  simpa using hcount

theorem occupied_of_end {w v : Workers} {act : Act} (h : w.act? act = some v) {i : Nat}
    (hend : Event.Ends ⟨w, act, v⟩ i) : v.occupied + 1 = w.occupied := by
  obtain ⟨rfl, -⟩ := end_inv h hend
  obtain ⟨new, hnew, hcount⟩ := occupied_of_step h hend.1
  have hleft : new ≠ .running := fun hrunning => hend.2 (by rw [hnew, hrunning])
  simpa [hleft] using hcount

theorem standing?_eq {w : Workers} {i : Nat} {j : Job} (hj : w.jobs[i]? = some j) :
    w.standing? i = some j.standing := by
  rw [standing?, hj]
  rfl

theorem standing?_put {w : Workers} {i : Nat} {j : Job} (hj : w.jobs[i]? = some j)
    (stage : JobStage) : (w.put i j stage).standing? i = some stage.standing := by
  have hlt : i < w.jobs.length := (List.getElem?_eq_some_iff.1 hj).1
  refine standing?_eq (j := { j with stage }) ?_
  simp [put, hlt]

/-- Without a start or an end nothing is added or taken off. -/
theorem running_of_steady {w v : Workers} {act : Act} (h : w.act? act = some v)
    (hsteady : ∀ i, ¬ Event.Starts ⟨w, act, v⟩ i ∧ ¬ Event.Ends ⟨w, act, v⟩ i) :
    v.slots.running = w.slots.running := by
  cases does_of_act? h with
  | @start i j called hj hstage =>
      have hblocked : w.standing? i = some .blocked := by
        rw [standing?_eq hj, standing_of_blocked hstage]
      exact absurd ⟨hblocked, standing?_put hj .running⟩ (hsteady i).1
  | @finish i j ending hj hstage =>
      have hrunning : w.standing? i = some .running := by
        rw [standing?_eq hj, Job.standing, hstage]
        rfl
      have hended : (w.put i j ending.stage).standing? i ≠ some .running := by
        rw [standing?_put hj]
        cases ending <;> decide
      exact absurd ⟨hrunning, hended⟩ (hsteady i).2
  | _ => rfl

/-! ## Comparisons and claims -/

/-- The step in which the job at position `i` compares `running`, which it has read before,
with the capacity. -/
def Event.Compares (e : Event) (i running : Nat) : Prop :=
  e.act = .step i ∧ ∃ called, e.before.WaitsAt i (.looking called (.counted running))

/-- The job at position `i` has compared `running` with the capacity, which was larger, and has
taken no step since. -/
def Cleared (events : List Event) (i running : Nat) : Prop :=
  ∃ past compared since, events = past ++ compared :: since ∧ compared.Compares i running ∧
    running < compared.before.slots.capacity ∧ ∀ e ∈ since, e.act ≠ .step i

theorem Cleared.concat {events : List Event} {i running : Nat} (h : Cleared events i running)
    {e : Event} (hother : e.act ≠ .step i) : Cleared (events ++ [e]) i running := by
  obtain ⟨past, compared, since, rfl, hcompares, hroom, hidle⟩ := h
  refine ⟨past, compared, since ++ [e], by simp, hcompares, hroom, fun later hlater => ?_⟩
  rcases List.mem_append.1 hlater with hold | hnew
  · exact hidle later hold
  · rwa [List.mem_singleton.1 hnew]

/-- A claim is made by a comparison, and stands until its job takes a step. -/
theorem claiming_of_act? {w v : Workers} {act : Act} (h : w.act? act = some v) {i : Nat}
    {called : Bool} {running : Nat}
    (hclaims : v.WaitsAt i (.looking called (.claiming running))) :
    (act ≠ .step i ∧ ∃ was, w.WaitsAt i (.looking was (.claiming running))) ∨
      (Event.Compares ⟨w, act, v⟩ i running ∧ running < w.slots.capacity) := by
  have hwaits := waits_of_act? h hclaims
  generalize hwait : Wait.looking called (.claiming running) = wait at hwaits
  cases hwaits with
  | kept hbefore hstep _ => exact .inl ⟨hstep, called, hwait ▸ hbefore⟩
  | @heard was hbefore hcall =>
      cases was with
      | looking earlier _ =>
          cases hwait
          exact .inl ⟨by rw [hcall]; nofun, earlier, hbefore⟩
      | _ => cases hwait
  | claimed hbefore hstep hroom =>
      cases hwait
      exact .inr ⟨⟨hstep, called, hbefore⟩, hroom⟩
  | @slept again _ _ _ _ => cases again <;> cases hwait
  | _ => cases hwait

/-- Whoever is about to swap has compared. -/
theorem cleared_of_claiming {capacity : Nat} {events : List Event} {w : Workers}
    (log : Log (new capacity) events w) {i running : Nat} {called : Bool}
    (h : w.WaitsAt i (.looking called (.claiming running))) :
    Cleared events i running := by
  induction log generalizing called with
  | nil =>
      obtain ⟨j, hj, -⟩ := h
      cases hj
  | @snoc events u v act log hact ih =>
      rcases claiming_of_act? hact h with ⟨hother, was, hbefore⟩ | ⟨hcompares, hroom⟩
      · exact (ih hbefore).concat hother
      · exact ⟨events, ⟨u, act, v⟩, [], rfl, hcompares, hroom, by simp⟩

/-! ## The capacity itself -/

/-- The change that an event makes to the capacity. -/
def Event.change? (e : Event) : Option Int :=
  match e.act with
  | .tune change => some change
  | _ => none

theorem capacity_of_act? {w v : Workers} {act : Act} (h : w.act? act = some v) :
    v.slots.capacity =
      (Event.change? ⟨w, act, v⟩).elim w.slots.capacity (Slots.resize w.slots.capacity) := by
  cases does_of_act? h with
  | tune change => exact w.slots.capacity_tune change
  | _ => rfl

theorem capacity_eq_foldl {capacity : Nat} {events : List Event} {w : Workers}
    (log : Log (new capacity) events w) :
    w.slots.capacity = (events.filterMap Event.change?).foldl Slots.resize (max capacity 1) := by
  induction log with
  | nil => rfl
  | @snoc events w v act log hact ih =>
      rw [capacity_of_act? hact, ih, List.filterMap_append, List.foldl_append]
      cases hchange : Event.change? ⟨w, act, v⟩ <;> simp [hchange]

theorem capacity_pos {capacity : Nat} {events : List Event} {w : Workers}
    (log : Log (new capacity) events w) : 1 ≤ w.slots.capacity := by
  induction log with
  | nil => exact Nat.le_max_right _ _
  | @snoc events w v act log hact ih =>
      rw [capacity_of_act? hact]
      cases Event.change? ⟨w, act, v⟩ with
      | none => exact ih
      | some change => exact Nat.le_max_left _ _

theorem capacity_le_of_log {w v : Workers} {events : List Event} (log : Log w events v)
    (hgrown : ∀ e ∈ events, e.before.slots.capacity ≤ e.after.slots.capacity) :
    w.slots.capacity ≤ v.slots.capacity := by
  induction log with
  | nil => exact Nat.le_refl _
  | @snoc events u v act _ _ ih =>
      have hearlier := ih fun e he => hgrown e (List.mem_append_left _ he)
      exact Nat.le_trans hearlier (hgrown ⟨u, act, v⟩ (by simp))

/-! ## Room for a start -/

/-- The job of a start has compared before: the number of jobs that run at the start was less
than the capacity then, and still is unless the capacity was reduced in between. -/
def StartsInRoom (earlier : List Event) (w : Workers) (i : Nat) : Prop :=
  ∃ past compared since, earlier = past ++ compared :: since ∧
    compared.Compares i w.slots.running ∧ (∀ e ∈ since, e.act ≠ .step i) ∧
    w.slots.running < compared.before.slots.capacity ∧
    ((∀ e ∈ since, e.before.slots.capacity ≤ e.after.slots.capacity) →
      w.slots.running < w.slots.capacity)

theorem room_of_start {capacity : Nat} {events : List Event} {w v : Workers} {act : Act}
    (log : Log (new capacity) events w) (h : w.act? act = some v) {i : Nat}
    (hstart : Event.Starts ⟨w, act, v⟩ i) : StartsInRoom events w i := by
  obtain ⟨-, called, hclaims⟩ := start_inv h hstart
  obtain ⟨past, compared, since, hevents, hcompares, hroom, hidle⟩ :=
    cleared_of_claiming log hclaims
  refine ⟨past, compared, since, hevents, hcompares, hidle, hroom, fun hgrown => ?_⟩
  obtain ⟨-, hdone, hsince⟩ := log.split hevents
  have hkept : compared.after.slots.capacity = compared.before.slots.capacity := by
    rw [capacity_of_act? hdone, Event.change?, hcompares.1]
    rfl
  exact Nat.lt_of_lt_of_le (hkept ▸ hroom) (capacity_le_of_log hsince hgrown)

/-- The submission at position `i` has seen that the workers are open, and looks for a slot. -/
def Admitted (w : Workers) (i : Nat) : Prop :=
  ∃ called look, w.WaitsAt i (.looking called look) ∧ look ≠ .knocking

/-- The event comes in the middle of a look. -/
def Event.Interrupts (e : Event) : Prop := ∃ i, e.before.Admitted i

/-- Whoever is about to swap has room still, if no capacity was reduced in the middle of a
look. -/
theorem room_of_uninterrupted {capacity : Nat} {events : List Event} {w : Workers}
    (log : Log (new capacity) events w)
    (hwhole : ∀ e ∈ events, e.after.slots.capacity < e.before.slots.capacity → ¬ e.Interrupts)
    {i running : Nat} {called : Bool}
    (h : w.WaitsAt i (.looking called (.claiming running))) : running < w.slots.capacity := by
  induction log generalizing called with
  | nil =>
      obtain ⟨j, hj, -⟩ := h
      cases hj
  | @snoc events u v act log hact ih =>
      rcases claiming_of_act? hact h with ⟨-, was, hbefore⟩ | ⟨hcompares, hroom⟩
      · have hearlier := ih (fun e he => hwhole e (List.mem_append_left _ he)) hbefore
        have hkept : ¬ v.slots.capacity < u.slots.capacity := fun hless =>
          hwhole ⟨u, act, v⟩ (by simp) hless ⟨i, was, _, hbefore, nofun⟩
        omega
      · rw [capacity_of_act? hact, Event.change?, hcompares.1]
        exact hroom

/-- The number of running jobs is raised only by a start. -/
theorem running_of_act? {w v : Workers} {act : Act} (h : w.act? act = some v) :
    v.slots.running ≤ w.slots.running ∨
      (v.slots.running = w.slots.running + 1 ∧ v.slots.capacity = w.slots.capacity ∧
        ∃ i, Event.Starts ⟨w, act, v⟩ i) := by
  cases does_of_act? h with
  | @start i j called hj hstage =>
      have hblocked : w.standing? i = some .blocked := by
        rw [standing?_eq hj, standing_of_blocked hstage]
      exact .inr ⟨rfl, rfl, i, hblocked, standing?_put hj .running⟩
  | finish => exact .inl (Nat.sub_le _ _)
  | _ => exact .inl (Nat.le_refl _)

/-- The largest capacity that was in force so far. -/
def peak (capacity : Nat) (events : List Event) : Nat :=
  (events.map (·.after.slots.capacity)).foldl max (max capacity 1)

theorem peak_concat (capacity : Nat) (events : List Event) (e : Event) :
    peak capacity (events ++ [e]) = max (peak capacity events) e.after.slots.capacity := by
  simp [peak]

theorem peak_le_append (capacity : Nat) (first later : List Event) :
    peak capacity first ≤ peak capacity (first ++ later) := by
  induction later generalizing first with
  | nil => simp
  | cons e rest ih =>
      have hfirst : peak capacity first ≤ peak capacity (first ++ [e]) := by
        rw [peak_concat]
        exact Nat.le_max_left _ _
      have hrest := ih (first ++ [e])
      rw [List.append_assoc] at hrest
      exact Nat.le_trans hfirst hrest

theorem capacity_le_peak {capacity : Nat} {events : List Event} {w : Workers}
    (log : Log (new capacity) events w) : w.slots.capacity ≤ peak capacity events := by
  cases log with
  | nil => exact Nat.le_refl _
  | snoc => rw [peak_concat]; exact Nat.le_max_right _ _

theorem running_le_peak {capacity : Nat} {events : List Event} {w : Workers}
    (log : Log (new capacity) events w) : w.slots.running ≤ peak capacity events := by
  induction log with
  | nil => exact Nat.zero_le _
  | @snoc events w v act log hact ih =>
      have hgrown := peak_le_append capacity events [⟨w, act, v⟩]
      rcases running_of_act? hact with hle | ⟨hadded, -, i, hstart⟩
      · omega
      · obtain ⟨past, compared, since, hevents, -, -, hroom, -⟩ := room_of_start log hact hstart
        have hthen := capacity_le_peak (log.split hevents).1
        have hsince := peak_le_append capacity past (compared :: since)
        rw [← hevents] at hsince
        omega

/-- While the capacity was never reduced, no more jobs run than it allows. -/
theorem running_le_capacity {capacity : Nat} {events : List Event} {w : Workers}
    (log : Log (new capacity) events w)
    (hgrown : ∀ e ∈ events, e.before.slots.capacity ≤ e.after.slots.capacity) :
    w.slots.running ≤ w.slots.capacity := by
  induction log with
  | nil => exact Nat.zero_le _
  | @snoc events w v act log hact ih =>
      have hbefore := ih fun e he => hgrown e (List.mem_append_left _ he)
      have hlast : w.slots.capacity ≤ v.slots.capacity :=
        hgrown ⟨w, act, v⟩ (List.mem_append_right _ (List.mem_singleton.2 rfl))
      rcases running_of_act? hact with hle | ⟨hadded, hsame, i, hstart⟩
      · omega
      · obtain ⟨past, compared, since, hevents, -, -, -, hroom⟩ := room_of_start log hact hstart
        have hnow := hroom fun e he => hgrown e (by simp [hevents, he])
        omega

/-! ## Starting once -/

/-- A job that has left the blocked ones does not come back to them. -/
theorem left_of_act? {w v : Workers} {act : Act} (h : w.act? act = some v) {i : Nat}
    {old : Standing} (hold : w.standing? i = some old) (hleft : old ≠ .blocked) :
    ∃ new, v.standing? i = some new ∧ new ≠ .blocked := by
  obtain ⟨j, new, -, rfl, hnew, hfate⟩ := standing?_of_act? h hold
  refine ⟨new, hnew, ?_⟩
  rcases hfate.follows with rfl | hfollows
  · exact hleft
  · exact hfollows.ne_blocked

/-- A job that is not blocked any more has started at most once, and no other has started. -/
theorem starts_le {start w : Workers} {events : List Event} (log : Log start events w) (i : Nat) :
    events.countP (·.Starts i) ≤ 1 ∧
      (events.countP (·.Starts i) = 0 ∨ ∃ a, w.standing? i = some a ∧ a ≠ .blocked) := by
  induction log with
  | nil => exact ⟨Nat.zero_le _, .inl rfl⟩
  | @snoc events w v act log hact ih =>
      obtain ⟨hle, hstate⟩ := ih
      rw [List.countP_append, List.countP_singleton]
      by_cases hstart : Event.Starts ⟨w, act, v⟩ i
      · have hnone : events.countP (·.Starts i) = 0 := by
          rcases hstate with hnone | ⟨a, hold, hleft⟩
          · exact hnone
          · exact absurd (Option.some.inj (hold.symm.trans hstart.1)) hleft
        refine ⟨by simp [hnone, hstart], .inr ⟨.running, hstart.2, by decide⟩⟩
      · refine ⟨by simpa [hstart] using hle, ?_⟩
        rcases hstate with hnone | ⟨a, hold, hleft⟩
        · exact .inl (by simp [hnone, hstart])
        · exact .inr (left_of_act? hact hold hleft)

/-! ## The account -/

/-- What is kept along the events of a log that ends in `w`: how many jobs run and where a job
goes, how far the capacity holds, and what a change of it does. -/
structure Accounts (capacity : Nat) (events : List Event) (w : Workers) : Prop where
  running : w.slots.running = w.occupied
  starts : ∀ earlier e later, events = earlier ++ e :: later → ∀ i, e.Starts i →
    StartsInRoom earlier e.before i ∧ e.after.slots.running = e.before.slots.running + 1
  ends : ∀ e ∈ events, ∀ i, e.Ends i → e.after.slots.running + 1 = e.before.slots.running
  steady : ∀ e ∈ events, (∀ i, ¬ e.Starts i ∧ ¬ e.Ends i) →
    e.after.slots.running = e.before.slots.running
  peak : w.slots.running ≤ peak capacity events
  uninterrupted :
    (∀ e ∈ events, e.after.slots.capacity < e.before.slots.capacity → ¬ e.Interrupts) →
      ∀ e ∈ events, ∀ i, e.Starts i → e.before.slots.running < e.before.slots.capacity
  unreduced : (∀ e ∈ events, e.before.slots.capacity ≤ e.after.slots.capacity) →
    w.slots.running ≤ w.slots.capacity
  spared : ∀ e ∈ events, ∀ change, e.act = .tune change → e.after.jobs = e.before.jobs
  once : ∀ i, events.countP (·.Starts i) ≤ 1
  enters : ∀ e ∈ events, ∀ i, e.before.standing? i = none →
    e.after.standing? i = none ∨ e.after.standing? i = some .blocked
  ways : ∀ e ∈ events, ∀ i a, e.before.standing? i = some a →
    ∃ b, e.after.standing? i = some b ∧ (b = a ∨ Follows a b)
  pos : 1 ≤ w.slots.capacity
  tuned : w.slots.capacity = (events.filterMap Event.change?).foldl Slots.resize (max capacity 1)

end Workers

end SocksPool
