import SocksPool.Proofs.Occupancy

/-!
# Nobody sleeps through a call

A submission that finds no slot goes to sleep, and nothing but a call wakes it. So a call must
not be missed: not by one that sleeps, and not by one that has looked in vain and is about to.
The reason that none is missed is the order of things on both sides. Who changes the slots
calls afterwards, and a submission listens before it looks. So each thing that a look has read
is still as it was or worse, unless a call is due since: the workers are open, no fewer jobs run
than it has counted, and once it sleeps they are as many as the capacity allows. When nothing
moves any more no call is due, and only the first is left.

That nothing moves any more is a matter of time. A job ends once, and its end owes one call;
a call makes each job look once more; a start or an end makes each other job fail once to swap.
So the moves that are left can be counted.

When the workers close, a submission may have seen already that they are open. It is one that
they have accepted, and it may still start. Nobody else does.

## Main definitions

* `Workers.AtRest` — no move is possible.
* `Workers.Attended` — what a look has read still holds, or a call is due.
* `Workers.Shut` — what happens from a state in which the workers are closed.

## Main results

* `Workers.effort_lt` — every move leaves fewer moves.
* `Workers.attended` — no wake-up is lost.
* `Workers.wakeups_reach` — at rest a submission is blocked only by open and full workers;
  closed ones reject it.
-/

namespace SocksPool.Workers

/-! ## Coming to rest -/

/-- No move is possible. -/
def AtRest (w : Workers) : Prop := ∀ act : Act, act.isMove = true → w.act? act = none

theorem steps_hear_le (running : Nat) (wait : Wait) :
    wait.hear.steps running ≤ wait.steps running + 4 := by
  cases wait with
  | looking called look => cases called <;> simp [Wait.hear, Wait.steps]
  | _ => simp [Wait.hear, Wait.steps]

theorem cost_hear_le (n running : Nat) (j : Job) :
    cost n running j.hear ≤ cost n running j + 4 := by
  unfold Job.hear
  split
  · next wait hstage =>
    have hsteps := steps_hear_le running wait
    simp only [cost, hstage]
    omega
  · exact Nat.le_add_right _ _

/-- Whoever has read another number fails once more to swap. -/
theorem cost_recount_le (n running now : Nat) (j : Job) : cost n now j ≤ cost n running j + 2 := by
  have hlook (look : Look) : look.steps now ≤ look.steps running + 2 := by
    cases look with
    | knocking | admitted => exact Nat.le_add_right _ _
    | counted read | claiming read =>
        simp only [Look.steps]
        split <;> split <;> omega
  unfold cost
  split
  · next wait _ =>
    cases wait with
    | looking called look =>
        have hsteps := hlook look
        simp only [Wait.steps]
        omega
    | _ => exact Nat.le_add_right _ _
  · exact Nat.le_add_right _ _
  · exact Nat.zero_le _

theorem costs_append (n running : Nat) (first later : List Job) :
    costs n running (first ++ later) = costs n running first + costs n running later := by
  induction first with
  | nil => exact (Nat.zero_add _).symm
  | cons j rest ih =>
      simp only [List.cons_append, costs, ih]
      omega

theorem costs_hear_le (n running : Nat) (jobs : List Job) :
    costs n running (jobs.map Job.hear) ≤ costs n running jobs + 4 * jobs.length := by
  induction jobs with
  | nil => exact Nat.le_refl _
  | cons j rest ih =>
      have hfirst := cost_hear_le n running j
      simp only [List.map_cons, costs, List.length_cons]
      omega

theorem costs_recount_le (n running now : Nat) (jobs : List Job) :
    costs n now jobs ≤ costs n running jobs + swapCost jobs.length := by
  induction jobs with
  | nil => exact Nat.le_refl _
  | cons j rest ih =>
      have hfirst := cost_recount_le n running now j
      simp only [costs, swapCost, List.length_cons] at ih ⊢
      omega

theorem costs_put {w : Workers} {i : Nat} {j : Job} (hj : w.jobs[i]? = some j)
    (stage : JobStage) (n running : Nat) :
    costs n running (w.put i j stage).jobs + cost n running j =
      costs n running w.jobs + cost n running { j with stage } := by
  obtain ⟨hlt, hget⟩ := List.getElem?_eq_some_iff.1 hj
  obtain ⟨before, after, hsplit, -, hset⟩ := @List.exists_of_set _ i { j with stage } w.jobs hlt
  rw [hget] at hsplit
  rw [put, hset, hsplit]
  simp only [costs_append, costs]
  omega

@[simp]
theorem length_put (w : Workers) (i : Nat) (j : Job) (stage : JobStage) :
    (w.put i j stage).jobs.length = w.jobs.length := by
  simp [put]

/-- A step that changes no number costs what its job has less to go. -/
theorem effort_put_lt {w : Workers} {i : Nat} {j : Job} (hj : w.jobs[i]? = some j)
    {stage : JobStage}
    (hless : cost w.jobs.length w.slots.running { j with stage } <
      cost w.jobs.length w.slots.running j) : (w.put i j stage).effort < w.effort := by
  have hsum := costs_put hj stage w.jobs.length w.slots.running
  have hcalls : (w.put i j stage).calls = w.calls := rfl
  have hslots : (w.put i j stage).slots = w.slots := rfl
  simp only [effort, length_put, hcalls, hslots]
  omega

/-- A step from one wait to a shorter one. -/
theorem effort_wait_lt {w : Workers} {i : Nat} {j : Job} {wait next : Wait}
    (hj : w.jobs[i]? = some j) (hstage : j.stage = .blocked wait)
    (hless : next.steps w.slots.running < wait.steps w.slots.running) :
    (w.put i j (.blocked next)).effort < w.effort := by
  refine effort_put_lt hj ?_
  simp only [cost, hstage]
  omega

/-- A start or an end costs each job a swap, and may owe calls. -/
theorem effort_turn_lt {w : Workers} {i : Nat} {j : Job} {stage : JobStage}
    (hj : w.jobs[i]? = some j) (slots : Slots) (owed : Nat)
    (hless : cost w.jobs.length w.slots.running { j with stage } + swapCost w.jobs.length +
      owed * callCost w.jobs.length < cost w.jobs.length w.slots.running j) :
    effort { w.put i j stage with slots, calls := w.calls + owed } < w.effort := by
  have hsum := costs_put hj stage w.jobs.length w.slots.running
  have hswaps := costs_recount_le w.jobs.length w.slots.running slots.running
    (w.put i j stage).jobs
  simp only [effort, length_put, Nat.add_mul] at hswaps ⊢
  omega

/-- Every move leaves fewer moves. -/
theorem effort_lt {w v : Workers} {act : Act} (h : w.act? act = some v)
    (hmove : act.isMove = true) : v.effort < w.effort := by
  cases does_of_act? h with
  | @call calls hdue =>
      have hhear := costs_hear_le w.jobs.length w.slots.running w.jobs
      simp only [effort, List.length_map, hdue, Nat.succ_mul]
      simp only [callCost] at hhear ⊢
      omega
  | listen hj hstage => exact effort_wait_lt hj hstage (by simp [Wait.steps, Look.steps])
  | reject hj hstage =>
      refine effort_put_lt hj ?_
      simp only [cost, hstage, endCost]
      omega
  | accept hj hstage => exact effort_wait_lt hj hstage (by simp [Wait.steps, Look.steps])
  | count hj hstage => exact effort_wait_lt hj hstage (by simp [Wait.steps, Look.steps])
  | claim hj hstage _ =>
      refine effort_wait_lt hj hstage ?_
      simp only [Wait.steps, Look.steps]
      split <;> omega
  | @wait i running j called hj hstage _ =>
      have hcounted : 2 ≤ (Look.counted running).steps w.slots.running := by
        simp only [Look.steps]
        split <;> omega
      refine effort_wait_lt hj hstage ?_
      cases called <;> simp only [Wait.steps, if_true, Bool.false_eq_true, if_false] <;> omega
  | miss hj hstage hchanged =>
      exact effort_wait_lt hj hstage (by simp [Wait.steps, Look.steps, hchanged])
  | @start i j called hj hstage =>
      have hless : cost w.jobs.length w.slots.running { j with stage := .running } +
          swapCost w.jobs.length < cost w.jobs.length w.slots.running j := by
        simp only [cost, hstage, Wait.steps, Look.steps, if_true]
        omega
      exact effort_turn_lt hj w.slots.take 0 (by simpa using hless)
  | @finish i j ending hj hstage =>
      refine effort_turn_lt hj w.slots.release 1 ?_
      cases ending <;> simp [cost, hstage, Ending.stage, endCost]
  | _ => cases hmove

theorem length_le_effort {w v : Workers} {events : List Event} (log : Log w events v)
    (hmoves : ∀ e ∈ events, e.act.isMove = true) : events.length + v.effort ≤ w.effort := by
  induction log with
  | nil => simp
  | @snoc events u v act log hact ih =>
      have hbefore := ih fun e he => hmoves e (List.mem_append_left _ he)
      have hlast := effort_lt hact (hmoves ⟨u, act, v⟩ (by simp))
      rw [List.length_append, List.length_singleton]
      omega

theorem next?_eq_some {w v : Workers} (h : w.next? = some v) :
    ∃ act : Act, act.isMove = true ∧ w.act? act = some v := by
  unfold next? at h
  split at h
  · next called hcall =>
    cases h
    exact ⟨.call, rfl, hcall⟩
  · obtain ⟨i, -, hstep⟩ := List.exists_of_findSome?_eq_some h
    exact ⟨.step i, rfl, hstep⟩

theorem atRest_of_next? {w : Workers} (h : w.next? = none) : w.AtRest := by
  unfold next? at h
  split at h
  · cases h
  · next hcall =>
    intro act hmove
    cases act with
    | call => exact hcall
    | step i =>
        by_cases hlt : i < w.jobs.length
        · exact List.findSome?_eq_none_iff.1 h i (List.mem_range.2 hlt)
        · simp [act?, step?, List.getElem?_eq_none (Nat.le_of_not_lt hlt)]
    | _ => cases hmove

theorem settleMoves_log {n : Nat} {w : Workers} (h : w.effort ≤ n) :
    (∃ events, Log w events (settleMoves n w) ∧ ∀ e ∈ events, e.act.isMove = true) ∧
      (settleMoves n w).AtRest := by
  induction n generalizing w with
  | zero =>
      rw [settleMoves]
      cases hnext : w.next? with
      | none => exact ⟨⟨[], .nil, by simp⟩, atRest_of_next? hnext⟩
      | some v =>
          obtain ⟨act, hmove, hact⟩ := next?_eq_some hnext
          have hless := effort_lt hact hmove
          omega
  | succ n ih =>
      rw [settleMoves]
      split
      · next v hnext =>
        obtain ⟨act, hmove, hact⟩ := next?_eq_some hnext
        have hless := effort_lt hact hmove
        obtain ⟨⟨events, log, hmoves⟩, hrest⟩ := @ih v (by omega)
        refine ⟨⟨⟨w, act, v⟩ :: events, .cons hact log, ?_⟩, hrest⟩
        intro e he
        rcases List.mem_cons.1 he with rfl | hmem
        · exact hmove
        · exact hmoves e hmem
      · next hnext => exact ⟨⟨[], .nil, by simp⟩, atRest_of_next? hnext⟩

/-! ## No lost wake-up -/

/-- What a submission has read holds still, or the slots are worse now. One that was called is
to look again, and relies on nothing. -/
def Holds (s : Slots) : Wait → Prop
  | .looking false .admitted => s.closed = false
  | .looking false (.counted running) => s.closed = false ∧ running ≤ s.running
  | .looking false (.claiming _) => s.closed = false
  | .sleeping => s.closed = false ∧ s.capacity ≤ s.running
  | _ => True

/-- What the submissions have read holds still, or a call is due. -/
def Attended (w : Workers) : Prop := w.calls = 0 → ∀ i wait, w.WaitsAt i wait → Holds w.slots wait

theorem Holds.mono {s t : Slots} {wait : Wait} (h : Holds s wait) (hclosed : t.closed = s.closed)
    (hcapacity : t.capacity ≤ s.capacity) (hrunning : s.running ≤ t.running) : Holds t wait := by
  cases wait with
  | entering => trivial
  | sleeping =>
      obtain ⟨hopen, hfull⟩ := h
      exact ⟨hclosed.trans hopen, Nat.le_trans hcapacity (Nat.le_trans hfull hrunning)⟩
  | looking called look =>
      cases called with
      | true => trivial
      | false =>
          cases look with
          | knocking => trivial
          | admitted | claiming _ => exact hclosed.trans h
          | counted running => exact ⟨hclosed.trans h.1, Nat.le_trans h.2 hrunning⟩

/-- Whoever has seen the workers open relies on that, if it was not called since. -/
theorem Holds.closed_eq_false {s : Slots} {look : Look} (h : Holds s (.looking false look))
    (hlook : look ≠ .knocking) : s.closed = false := by
  cases look with
  | knocking => exact absurd rfl hlook
  | admitted | claiming _ => exact h
  | counted _ => exact h.1

/-- The capacity is raised only by a growth. -/
theorem capacity_tune_le {s : Slots} {change : Int} (hpos : 1 ≤ s.capacity)
    (hshrink : ¬ 0 < change) : (s.tune change).capacity ≤ s.capacity := by
  rw [Slots.capacity_tune]
  unfold Slots.resize Word.saturatingAdd
  omega

/-- An act that owes no call leaves the slots no better. -/
theorem slots_of_quiet {w v : Workers} {act : Act} (h : w.act? act = some v)
    (hpos : 1 ≤ w.slots.capacity) (hquiet : v.calls = 0) :
    (act = .call ∨ w.calls = 0) ∧ v.slots.closed = w.slots.closed ∧
      v.slots.capacity ≤ w.slots.capacity ∧ w.slots.running ≤ v.slots.running := by
  have hsame : w.slots.running ≤ w.slots.running := Nat.le_refl _
  cases does_of_act? h with
  | tune change =>
      by_cases hgrows : 0 < change
      · simp [tune, hgrows] at hquiet
      · have hcalls : w.calls = 0 := by simpa [tune, hgrows] using hquiet
        exact ⟨.inr hcalls, rfl, capacity_tune_le hpos hgrows, hsame⟩
  | close => exact absurd hquiet (Nat.succ_ne_zero _)
  | finish => exact absurd hquiet (Nat.succ_ne_zero _)
  | call _ => exact ⟨.inl rfl, rfl, Nat.le_refl _, hsame⟩
  | start _ _ => exact ⟨.inr hquiet, rfl, Nat.le_refl _, Nat.le_succ _⟩
  | _ => exact ⟨.inr hquiet, rfl, Nat.le_refl _, hsame⟩

theorem attended_of_act? {w v : Workers} {act : Act} (h : w.act? act = some v)
    (hpos : 1 ≤ w.slots.capacity) (hw : w.Attended) : v.Attended := by
  intro hquiet i wait hwait
  obtain ⟨hcalls, hclosed, hcapacity, hrunning⟩ := slots_of_quiet h hpos hquiet
  have hstill {was : Wait} (hcall : act ≠ .call) (hold : w.WaitsAt i was) : Holds v.slots was :=
    (hw (hcalls.resolve_left hcall) i was hold).mono hclosed hcapacity hrunning
  cases waits_of_act? h hwait with
  | kept hold _ hcall => exact hstill hcall hold
  | @heard was _ _ => cases was <;> trivial
  | entered _ _ _ | listened _ _ => trivial
  | @admitted called _ _ hopen =>
      cases called with
      | true => trivial
      | false => exact hclosed.trans hopen
  | @counted called look hold hlook hcall =>
      cases called with
      | true => trivial
      | false => exact ⟨(hstill hcall hold).closed_eq_false hlook, hrunning⟩
  | @claimed called _ hold hact _ =>
      cases called with
      | true => trivial
      | false => exact (hstill (hact ▸ nofun) hold).1
  | @slept called _ hold hact hfull =>
      cases called with
      | true => trivial
      | false =>
          obtain ⟨hopen, hcounted⟩ := hstill (hact ▸ nofun) hold
          exact ⟨hopen, Nat.le_trans hcapacity (Nat.le_trans hfull hcounted)⟩

/-- No wake-up is lost. -/
theorem attended {capacity : Nat} {events : List Event} {w : Workers}
    (log : Log (new capacity) events w) : w.Attended := by
  induction log with
  | nil =>
      rintro - i wait ⟨j, hj, -⟩
      cases hj
  | snoc log hact ih => exact attended_of_act? hact (capacity_pos log) ih

/-- At rest whoever is blocked is asleep, and no call is due. -/
theorem sleeping_of_atRest {w : Workers} (hrest : w.AtRest) {i : Nat}
    (h : w.standing? i = some .blocked) : w.calls = 0 ∧ w.WaitsAt i .sleeping := by
  have hcall : w.call? = none := hrest .call rfl
  have hstep : w.step? i = none := hrest (.step i) rfl
  obtain ⟨j, hj, hblocked⟩ := Option.map_eq_some_iff.1 h
  refine ⟨?_, j, hj, ?_⟩
  · unfold call? at hcall
    split at hcall
    · next hnone => exact hnone
    · cases hcall
  · unfold step? at hstep
    simp only [hj] at hstep
    cases hstage : j.stage with
    | blocked wait =>
        cases wait with
        | sleeping => rfl
        | _ => simp [hstage] at hstep
    | _ => simp [Job.standing, hstage, JobStage.standing] at hblocked

theorem full_at_rest {capacity : Nat} {events : List Event} {w : Workers}
    (log : Log (new capacity) events w) (hrest : w.AtRest) {i : Nat}
    (h : w.standing? i = some .blocked) :
    w.slots.closed = false ∧ w.slots.capacity ≤ w.slots.running := by
  obtain ⟨hnone, hsleeps⟩ := sleeping_of_atRest hrest h
  exact attended log hnone i .sleeping hsleeps

/-! ## Closed workers -/

/-- A running job goes on, or ends as it was told. -/
def Event.Spares (e : Event) (i : Nat) : Prop :=
  e.before.standing? i = some .running →
    e.after.standing? i = some .running ∨
      (e.act = .step i ∧ ∃ j ending, e.before.jobs[i]? = some j ∧ j.told = some ending ∧
        e.after.standing? i = some ending.stage.standing)

/-- An order gives up the submission at position `i`. -/
def Event.Cancels (e : Event) (i : Nat) : Prop :=
  ∃ j, e.before.jobs[i]? = some j ∧ e.act = .cancel j.name

/-- What happens between a state `w` in which the workers are closed and a later one. Nobody
starts but who was admitted before they closed, and whoever was blocked or came later is
rejected, unless it started or an order gave it up. -/
structure Shut (w : Workers) (later : List Event) (v : Workers) : Prop where
  closed : v.slots.closed = true
  starts : ∀ e ∈ later, ∀ i, e.Starts i → w.Admitted i
  rejects : v.AtRest → ∀ i, w.standing? i = none ∨ w.standing? i = some .blocked →
    ∀ a, v.standing? i = some a → a = .rejected ∨ (a = .cancelled ∧ ∃ e ∈ later, e.Cancels i) ∨
      ∃ e ∈ later, e.Starts i

theorem closed_of_act? {w v : Workers} {act : Act} (h : w.act? act = some v)
    (hclosed : w.slots.closed = true) : v.slots.closed = true := by
  cases does_of_act? h with
  | close => rfl
  | _ => exact hclosed

/-- Only an order closes. -/
theorem close_of_act? {w v : Workers} {act : Act} (h : w.act? act = some v)
    (hopen : w.slots.closed = false) (hclosed : v.slots.closed = true) : act = .close := by
  cases does_of_act? h with
  | close => rfl
  | _ => exact absurd hclosed (Bool.eq_false_iff.1 hopen)

theorem spares_of_act? {w v : Workers} {act : Act} (h : w.act? act = some v) (i : Nat) :
    Event.Spares ⟨w, act, v⟩ i := by
  intro hrunning
  by_cases hstays : v.standing? i = some .running
  · exact .inl hstays
  · exact .inr (end_inv h ⟨hrunning, hstays⟩)

theorem closed_of_log {w v : Workers} {later : List Event} (log : Log w later v)
    (hclosed : w.slots.closed = true) : v.slots.closed = true := by
  induction log with
  | nil => exact hclosed
  | snoc _ hact ih => exact closed_of_act? hact ih

/-- Nobody gets into closed workers. -/
theorem admitted_of_act? {w v : Workers} {act : Act} (h : w.act? act = some v)
    (hclosed : w.slots.closed = true) {i : Nat} (hlooks : v.Admitted i) : w.Admitted i := by
  obtain ⟨called, look, hwait, hlook⟩ := hlooks
  have hwaits := waits_of_act? h hwait
  generalize hshape : Wait.looking called look = wait at hwaits
  cases hwaits with
  | kept hold _ _ => exact ⟨called, look, hshape ▸ hold, hlook⟩
  | @heard was hold _ =>
      cases was with
      | looking earlier _ =>
          cases hshape
          exact ⟨earlier, look, hold, hlook⟩
      | _ => cases hshape
  | entered | listened =>
      cases hshape <;> exact absurd rfl hlook
  | admitted _ _ hopen =>
      rw [hclosed] at hopen
      cases hopen
  | counted hold hearlier _ => exact ⟨_, _, hold, hearlier⟩
  | claimed hold _ _ | slept hold _ _ => exact ⟨_, _, hold, nofun⟩

theorem admitted_of_log {w v : Workers} {later : List Event} (log : Log w later v)
    (hclosed : w.slots.closed = true) {i : Nat} (hlooks : v.Admitted i) : w.Admitted i := by
  induction log with
  | nil => exact hlooks
  | snoc log hact ih => exact ih (admitted_of_act? hact (closed_of_log log hclosed) hlooks)

/-- Closed workers have let nobody in, if they did not close in the middle of a look. -/
theorem not_admitted_of_closed {capacity : Nat} {events : List Event} {w : Workers}
    (log : Log (new capacity) events w)
    (hwhole : ∀ e ∈ events, e.act = .close → ¬ e.Interrupts)
    (hclosed : w.slots.closed = true) (i : Nat) : ¬ w.Admitted i := by
  induction log with
  | nil => cases hclosed
  | @snoc events u v act log hact ih =>
      intro hlooks
      by_cases hbefore : u.slots.closed = true
      · have hearlier := ih (fun e he => hwhole e (List.mem_append_left _ he)) hbefore
        exact hearlier (admitted_of_act? hact hbefore hlooks)
      · obtain rfl := close_of_act? hact (Bool.eq_false_iff.2 hbefore) hclosed
        have hnobody := hwhole ⟨u, .close, v⟩ (by simp) rfl
        cases Option.some.inj hact
        exact hnobody ⟨i, hlooks⟩

/-- Where a job can be later on that was blocked or not yet there. -/
theorem later_standing {w v : Workers} {later : List Event} (log : Log w later v) {i : Nat}
    (h : w.standing? i = none ∨ w.standing? i = some .blocked) :
    (∃ e ∈ later, e.Starts i) ∨ v.standing? i = none ∨ v.standing? i = some .blocked ∨
      v.standing? i = some .rejected ∨
      (v.standing? i = some .cancelled ∧ ∃ e ∈ later, e.Cancels i) := by
  induction log with
  | nil =>
      rcases h with hnone | hblocked
      · exact .inr (.inl hnone)
      · exact .inr (.inr (.inl hblocked))
  | @snoc later u v act log hact ih =>
      have hlonger {P : Event → Prop} (hearlier : ∃ e ∈ later, P e) :
          ∃ e ∈ later ++ [⟨u, act, v⟩], P e := by
        obtain ⟨e, he, hp⟩ := hearlier
        exact ⟨e, List.mem_append_left _ he, hp⟩
      rcases ih with hstarted | hstate
      · exact .inl (hlonger hstarted)
      cases hold : u.standing? i with
      | none =>
          have hnone : u.jobs[i]? = none := by simpa [standing?] using hold
          cases hnew : v.jobs[i]? with
          | none => exact .inr (.inl (by simp [standing?, hnew]))
          | some k =>
              have hblocked := (submitted_of_act? hact hnone hnew).2
              exact .inr (.inr (.inl (by rw [standing?_eq hnew, hblocked])))
      | some old =>
          obtain ⟨j, new, hj, rfl, hnew, hfate⟩ := standing?_of_act? hact hold
          rw [hnew]
          cases hfate with
          | kept hkept =>
              rw [hkept, ← hold]
              right
              rcases hstate with hnone | hblocked | hrejected | ⟨hcancelled, hcancels⟩
              · exact .inl hnone
              · exact .inr (.inl hblocked)
              · exact .inr (.inr (.inl hrejected))
              · exact .inr (.inr (.inr ⟨hcancelled, hlonger hcancels⟩))
          | started hrunning _ hstage =>
              rw [standing_of_blocked hstage] at hold
              exact .inl ⟨⟨u, act, v⟩, by simp, hold, hrunning ▸ hnew⟩
          | ended _ _ hrunning => simp [hold, hrunning] at hstate
          | rejected hrejected => exact .inr (.inr (.inr (.inl (by rw [hrejected]))))
          | cancelled hcancelled hcancel =>
              refine .inr (.inr (.inr (.inr ⟨by rw [hcancelled], ⟨u, act, v⟩, by simp, ?_⟩)))
              exact ⟨j, hj, hcancel⟩

/-- From closed workers nobody starts who was not admitted before, and whoever does not start
is rejected. -/
theorem shut_of_log {capacity : Nat} {events later : List Event} {w v : Workers}
    (log : Log (new capacity) events w) (hclosed : w.slots.closed = true)
    (hlater : Log w later v) : Shut w later v where
  closed := closed_of_log hlater hclosed
  starts e he i hstart := by
    obtain ⟨earlier, hbefore⟩ := hlater.before_of_mem he
    obtain ⟨-, called, hclaims⟩ := start_inv (hlater.act?_of_mem he) hstart
    exact admitted_of_log hbefore hclosed ⟨called, _, hclaims, nofun⟩
  rejects hrest i h a ha := by
    obtain hstarted | hnone | hblocked | hrejected | ⟨hcancelled, hcancels⟩ :=
      later_standing hlater h
    · exact .inr (.inr hstarted)
    · rw [hnone] at ha
      cases ha
    · have hopen := (full_at_rest (log.append hlater) hrest hblocked).1
      rw [closed_of_log hlater hclosed] at hopen
      cases hopen
    · exact .inl (Option.some.inj (ha.symm.trans hrejected))
    · exact .inr (.inl ⟨Option.some.inj (ha.symm.trans hcancelled), hcancels⟩)

/-! ## What wakes up -/

/-- What holds in a state `w` that a log leads to: the tasks come to rest whatever they do
next, and `settle` is one way; at rest a submission is blocked only by open and full workers;
and once the workers are closed, nobody starts who was not admitted before, and the others are
rejected. Nobody starts at all if the closing did not come in the middle of a look. Along the
log no job is stopped but by its own end. -/
structure Wakes (events : List Event) (w : Workers) : Prop where
  bounded : ∀ later v, Log w later v → (∀ e ∈ later, e.act.isMove = true) →
    later.length ≤ w.effort
  settles : (∃ later, Log w later w.settle ∧ ∀ e ∈ later, e.act.isMove = true) ∧ w.settle.AtRest
  full : w.AtRest → ∀ i, w.standing? i = some .blocked →
    w.slots.closed = false ∧ w.slots.capacity ≤ w.slots.running
  shut : w.slots.closed = true → ∀ later v, Log w later v → Shut w later v
  uninterrupted : (∀ e ∈ events, e.act = .close → ¬ e.Interrupts) → w.slots.closed = true →
    ∀ later v, Log w later v → ∀ e ∈ later, ∀ i, ¬ e.Starts i
  spares : ∀ e ∈ events, ∀ i, e.Spares i

end SocksPool.Workers
