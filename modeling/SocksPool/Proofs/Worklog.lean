import SocksPool.Workers

/-!
# What happens to workers

Orders come to workers from outside and moves come from the tasks behind them, and any of
them may come next. A swap may also *falter*: it fails although nobody has changed the number
that it reads. A *log* is a list of such acts with the states between them, and every
statement about workers is one about all logs. What one act does is said here once, with
everything that had to hold for it: `Does` for the workers and `Fate` for one job among
them. The proofs about logs are by cases on these and never open an operation again.

## Main definitions

* `Workers.Act`, `Workers.act?` — an order or a move, and the state after it.
* `Workers.Log` — acts one after the other.
* `Workers.Does` — the acts with what they need and what they leave.
* `Workers.Fate` — what an act makes of one job.
* `Workers.Waits` — how a job waits after an act, and what it did before.

## Main results

* `Workers.does_of_act?` — an act does what `Does` says.
* `Workers.fate_of_act?` — a job stays where it is, starts, ends as told, is rejected by
  closed workers, or is cancelled by an order.
* `Workers.waits_of_act?` — a look goes on from where it was.
-/

namespace SocksPool

/-- Where a job is, as an answer tells it. -/
inductive Standing where
  | blocked
  | running
  | done
  | panicked
  | rejected
  | cancelled
deriving DecidableEq, Repr

/-- The standing of a job in a stage. -/
def JobStage.standing : JobStage → Standing
  | .blocked _ => .blocked
  | .running => .running
  | .done => .done
  | .panicked => .panicked
  | .rejected => .rejected
  | .cancelled => .cancelled

namespace Job

/-- The standing of a job. -/
def standing (j : Job) : Standing := j.stage.standing

@[simp]
theorem name_hear (j : Job) : j.hear.name = j.name := by
  unfold hear
  split <;> rfl

@[simp]
theorem standing_hear (j : Job) : j.hear.standing = j.standing := by
  unfold hear
  split
  · next hstage => simp [standing, JobStage.standing, hstage]
  · rfl

@[simp]
theorem name_tell (j : Job) (ending : Ending) : (j.tell ending).name = j.name := by
  unfold tell
  split <;> rfl

@[simp]
theorem stage_tell (j : Job) (ending : Ending) : (j.tell ending).stage = j.stage := by
  unfold tell
  split <;> rfl

@[simp]
theorem standing_tell (j : Job) (ending : Ending) : (j.tell ending).standing = j.standing := by
  rw [standing, stage_tell, standing]

@[simp]
theorem name_cancel (j : Job) : j.cancel.name = j.name := by
  unfold cancel
  split <;> rfl

/-- An order to give up a submission reaches it only before it starts. -/
theorem standing_cancel (j : Job) :
    j.cancel = j ∨ (j.standing = .blocked ∧ j.cancel.standing = .cancelled) := by
  unfold cancel
  split
  · next hstage => exact .inr ⟨by rw [standing, hstage]; rfl, rfl⟩
  · next hstage => exact .inr ⟨by rw [standing, hstage]; rfl, rfl⟩
  · exact .inl rfl

/-- A submission that is still blocked after an order to give it up was left alone. -/
theorem stage_of_cancel {wait : Wait} (j : Job) (h : j.cancel.stage = .blocked wait) :
    j.stage = .blocked wait := by
  rcases j.standing_cancel with hsame | ⟨-, hcancelled⟩
  · rwa [hsame] at h
  · rw [standing, h] at hcancelled
    cases hcancelled

theorem stage_of_hear {wait : Wait} (j : Job) (h : j.hear.stage = .blocked wait) :
    ∃ was, j.stage = .blocked was ∧ wait = was.hear := by
  unfold hear at h
  split at h
  · next was hstage => exact ⟨was, hstage, (JobStage.blocked.inj h).symm⟩
  · next hnot => exact absurd h (hnot wait)

end Job

namespace Workers

/-! ## Acts -/

/-- An order from outside, a move of the tasks, or a swap that falters. -/
inductive Act where
  | submit (name : String)
  | tell (name : String) (ending : Ending)
  | cancel (name : String)
  | tune (change : Int)
  | close
  | call
  | step (i : Nat)
  | falter (i : Nat)
deriving DecidableEq, Repr

/-- Whether an act is a move. -/
def Act.isMove : Act → Bool
  | .call | .step _ => true
  | _ => false

/-- The workers after an act, if it can happen. Orders always can. -/
def act? (w : Workers) : Act → Option Workers
  | .submit name => some (w.submit name)
  | .tell name ending => some (w.update name (·.tell ending))
  | .cancel name => some (w.update name Job.cancel)
  | .tune change => some (w.tune change)
  | .close => some w.close
  | .call => w.call?
  | .step i => w.step? i
  | .falter i => w.falter? i

/-- The standing of the job at a position. -/
def standing? (w : Workers) (i : Nat) : Option Standing := w.jobs[i]?.map Job.standing

/-- An act with the workers before and after it. -/
structure Event where
  before : Workers
  act : Act
  after : Workers
deriving DecidableEq, Repr

/-- Acts one after the other. -/
inductive Log (start : Workers) : List Event → Workers → Prop
  | nil : Log start [] start
  | snoc {events : List Event} {w v : Workers} {act : Act} (log : Log start events w)
      (hact : w.act? act = some v) : Log start (events ++ [⟨w, act, v⟩]) v

/-- The log of a list of acts, if they can happen. -/
def log? (start : Workers) : List Act → Option (List Event × Workers)
  | [] => some ([], start)
  | act :: rest => do
    let next ← start.act? act
    let (events, w) ← next.log? rest
    return (⟨start, act, next⟩ :: events, w)

theorem Log.cons {start next w : Workers} {act : Act} {events : List Event}
    (hact : start.act? act = some next) (log : Log next events w) :
    Log start (⟨start, act, next⟩ :: events) w := by
  induction log with
  | nil => exact .snoc .nil hact
  | snoc _ hlast ih => exact .snoc ih hlast

theorem log_of_log? {start w : Workers} {acts : List Act} {events : List Event}
    (h : start.log? acts = some (events, w)) : Log start events w := by
  induction acts generalizing start events with
  | nil =>
      cases h
      exact .nil
  | cons act rest ih =>
      obtain ⟨next, hact, h⟩ := Option.bind_eq_some_iff.1 h
      obtain ⟨⟨more, last⟩, hrest, h⟩ := Option.bind_eq_some_iff.1 h
      cases h
      exact .cons hact (ih hrest)

/-- A log can be taken up where another ends. -/
theorem Log.append {start middle w : Workers} {first second : List Event}
    (hfirst : Log start first middle) (hsecond : Log middle second w) :
    Log start (first ++ second) w := by
  induction hsecond with
  | nil => simpa using hfirst
  | snoc _ hact ih =>
      rw [← List.append_assoc]
      exact .snoc ih hact

/-- A log can be cut at each of its events. -/
theorem Log.split {start w : Workers} {events earlier later : List Event} {e : Event}
    (log : Log start events w) (hsplit : events = earlier ++ e :: later) :
    Log start earlier e.before ∧ e.before.act? e.act = some e.after ∧ Log e.after later w := by
  induction log generalizing later with
  | nil => simp at hsplit
  | @snoc events w v act log hact ih =>
      rcases List.eq_nil_or_concat later with rfl | ⟨more, last, rfl⟩
      · obtain ⟨rfl, hlast⟩ := List.append_inj' hsplit rfl
        cases hlast
        exact ⟨log, hact, .nil⟩
      · have hcut : events ++ [⟨w, act, v⟩] = (earlier ++ e :: more) ++ [last] := by
          simpa using hsplit
        obtain ⟨hevents, hlast⟩ := List.append_inj' hcut rfl
        cases hlast
        obtain ⟨hbefore, hdone, hafter⟩ := ih hevents
        exact ⟨hbefore, hdone, by simpa using hafter.snoc hact⟩

theorem Log.act?_of_mem {start w : Workers} {events : List Event} (log : Log start events w)
    {e : Event} (he : e ∈ events) : e.before.act? e.act = some e.after := by
  induction log with
  | nil => cases he
  | snoc _ hact ih =>
      rcases List.mem_append.1 he with hmem | hlast
      · exact ih hmem
      · rw [List.mem_singleton.1 hlast]
        exact hact

/-- A log leads to the state before each of its events. -/
theorem Log.before_of_mem {start w : Workers} {events : List Event} (log : Log start events w)
    {e : Event} (he : e ∈ events) : ∃ earlier, Log start earlier e.before := by
  induction log with
  | nil => cases he
  | snoc log _ ih =>
      rcases List.mem_append.1 he with hmem | hlast
      · exact ih hmem
      · rw [List.mem_singleton.1 hlast]
        exact ⟨_, log⟩

/-! ## What an act does -/

/-- The acts, with what they need and what they leave. -/
inductive Does (w : Workers) : Act → Workers → Prop
  | submit (name : String) : Does w (.submit name) (w.submit name)
  | tell (name : String) (ending : Ending) :
      Does w (.tell name ending) (w.update name (·.tell ending))
  | cancel (name : String) : Does w (.cancel name) (w.update name Job.cancel)
  | tune (change : Int) : Does w (.tune change) (w.tune change)
  | close : Does w .close w.close
  | call {calls : Nat} (hdue : w.calls = calls + 1) :
      Does w .call { w with jobs := w.jobs.map Job.hear, calls }
  | listen {i : Nat} {j : Job} (hj : w.jobs[i]? = some j) (hstage : j.stage = .blocked .entering) :
      Does w (.step i) (w.put i j (.blocked (.looking false .knocking)))
  | reject {i : Nat} {j : Job} {called : Bool} (hj : w.jobs[i]? = some j)
      (hstage : j.stage = .blocked (.looking called .knocking)) (hclosed : w.slots.closed = true) :
      Does w (.step i) (w.put i j .rejected)
  | accept {i : Nat} {j : Job} {called : Bool} (hj : w.jobs[i]? = some j)
      (hstage : j.stage = .blocked (.looking called .knocking)) (hopen : w.slots.closed = false) :
      Does w (.step i) (w.put i j (.blocked (.looking called .admitted)))
  | count {i : Nat} {j : Job} {called : Bool} (hj : w.jobs[i]? = some j)
      (hstage : j.stage = .blocked (.looking called .admitted)) :
      Does w (.step i) (w.recount i j called)
  | claim {i running : Nat} {j : Job} {called : Bool} (hj : w.jobs[i]? = some j)
      (hstage : j.stage = .blocked (.looking called (.counted running)))
      (hroom : running < w.slots.capacity) :
      Does w (.step i) (w.put i j (.blocked (.looking called (.claiming running))))
  | wait {i running : Nat} {j : Job} {called : Bool} (hj : w.jobs[i]? = some j)
      (hstage : j.stage = .blocked (.looking called (.counted running)))
      (hfull : w.slots.capacity ≤ running) :
      Does w (.step i) (w.put i j (.blocked (if called then .entering else .sleeping)))
  | start {i : Nat} {j : Job} {called : Bool} (hj : w.jobs[i]? = some j)
      (hstage : j.stage = .blocked (.looking called (.claiming w.slots.running))) :
      Does w (.step i) { w.put i j .running with slots := w.slots.take }
  | miss {i running : Nat} {j : Job} {called : Bool} (hj : w.jobs[i]? = some j)
      (hstage : j.stage = .blocked (.looking called (.claiming running)))
      (hchanged : running ≠ w.slots.running) : Does w (.step i) (w.recount i j called)
  | falter {i running : Nat} {j : Job} {called : Bool} (hj : w.jobs[i]? = some j)
      (hstage : j.stage = .blocked (.looking called (.claiming running))) :
      Does w (.falter i) (w.recount i j called)
  | finish {i : Nat} {j : Job} {ending : Ending} (hj : w.jobs[i]? = some j)
      (hstage : j.stage = .running) (htold : j.told = some ending) :
      Does w (.step i)
        { w.put i j ending.stage with slots := w.slots.release, calls := w.calls + 1 }

theorem does_look {w : Workers} {i : Nat} {j : Job} {called : Bool} {look : Look}
    (hj : w.jobs[i]? = some j) (hstage : j.stage = .blocked (.looking called look)) :
    Does w (.step i) (w.look i j called look) := by
  cases look with
  | knocking =>
      rw [Workers.look]
      split
      · next hclosed => exact .reject hj hstage hclosed
      · next hopen => exact .accept hj hstage (Bool.eq_false_iff.2 hopen)
  | admitted => exact .count hj hstage
  | counted running =>
      rw [Workers.look]
      split
      · next hroom => exact .claim hj hstage hroom
      · next hfull => exact .wait hj hstage (Nat.le_of_not_lt hfull)
  | claiming running =>
      rw [Workers.look]
      split
      · next hsame => exact .start hj (hsame ▸ hstage)
      · next hchanged => exact .miss hj hstage (Ne.symm hchanged)

/-- An act does what `Does` says. -/
theorem does_of_act? {w v : Workers} {act : Act} (h : w.act? act = some v) : Does w act v := by
  cases act with
  | submit name => cases h; exact .submit name
  | tell name ending => cases h; exact .tell name ending
  | cancel name => cases h; exact .cancel name
  | tune change => cases h; exact .tune change
  | close => cases h; exact .close
  | call =>
      simp only [act?, call?] at h
      split at h
      · cases h
      · next calls hdue => cases h; exact .call hdue
  | step i =>
      simp only [act?, step?] at h
      split at h
      · cases h
      · next j hj =>
        split at h
        · next _ hstage => cases h; exact .listen hj hstage
        · next called look _ hstage => cases h; exact does_look hj hstage
        · next ending hstage htold => cases h; exact .finish hj hstage htold
        · cases h
  | falter i =>
      simp only [act?, falter?] at h
      split at h
      · cases h
      · next j hj =>
        split at h
        · next hstage => cases h; exact .falter hj hstage
        · cases h

/-- A step changes one job at most, the one at its position. -/
theorem set_of_step {w v : Workers} {i : Nat} (h : w.act? (.step i) = some v) :
    ∃ k, v.jobs = w.jobs.set i k := by
  cases does_of_act? h with
  | listen | reject | accept | count | claim | wait | start | miss | finish => exact ⟨_, rfl⟩

/-! ## The fate of a job -/

/-- What an act makes of the job `j` at position `i`, whose standing is then `new`. -/
inductive Fate (w : Workers) (act : Act) (i : Nat) (j : Job) (new : Standing) : Prop
  | kept (hnew : new = j.standing)
  | started {called : Bool} (hnew : new = .running) (hact : act = .step i)
      (hstage : j.stage = .blocked (.looking called (.claiming w.slots.running)))
  | ended {ending : Ending} (hnew : new = ending.stage.standing) (hact : act = .step i)
      (hrunning : j.standing = .running) (htold : j.told = some ending)
  | rejected (hnew : new = .rejected) (hact : act = .step i) (hblocked : j.standing = .blocked)
      (hclosed : w.slots.closed = true)
  | cancelled (hnew : new = .cancelled) (hact : act = .cancel j.name)
      (hblocked : j.standing = .blocked)

theorem standing_of_blocked {j : Job} {wait : Wait} (h : j.stage = .blocked wait) :
    j.standing = .blocked := by
  rw [Job.standing, h]
  rfl

/-- A change of all jobs, one by one, makes of a job what it makes of it alone. -/
theorem fate_map {w : Workers} {act : Act} {i : Nat} {j : Job} (hj : w.jobs[i]? = some j)
    {change : Job → Job} (hname : (change j).name = j.name)
    (hfate : Fate w act i j (change j).standing) :
    ∃ k, (w.jobs.map change)[i]? = some k ∧ k.name = j.name ∧ Fate w act i j k.standing :=
  ⟨change j, by rw [List.getElem?_map, hj]; rfl, hname, hfate⟩

/-- A step changes the stage of its own job only. -/
theorem fate_put {w : Workers} {act : Act} {i n : Nat} {j k : Job} (hj : w.jobs[i]? = some j)
    (hk : w.jobs[n]? = some k) {stage : JobStage}
    (hfate : i = n → Fate w act n k stage.standing) :
    ∃ l, (w.put i j stage).jobs[n]? = some l ∧ l.name = k.name ∧ Fate w act n k l.standing := by
  by_cases hpos : i = n
  · subst hpos
    obtain rfl : j = k := Option.some.inj (hj.symm.trans hk)
    have hlt : i < w.jobs.length := (List.getElem?_eq_some_iff.1 hj).1
    exact ⟨{ j with stage }, by simp [put, hlt], rfl, hfate rfl⟩
  · exact ⟨k, by simp [put, List.getElem?_set_ne hpos, hk], rfl, .kept rfl⟩

/-- A job stays where it is, starts, ends as told, is rejected by closed workers, or is
cancelled by an order. -/
theorem fate_of_act? {w v : Workers} {act : Act} (h : w.act? act = some v) {n : Nat} {k : Job}
    (hk : w.jobs[n]? = some k) :
    ∃ l, v.jobs[n]? = some l ∧ l.name = k.name ∧ Fate w act n k l.standing := by
  have hsame {i : Nat} {j : Job} (hj : w.jobs[i]? = some j) (hpos : i = n) : j = k := by
    subst hpos
    exact Option.some.inj (hj.symm.trans hk)
  cases does_of_act? h with
  | submit name =>
      have hlt : n < w.jobs.length := (List.getElem?_eq_some_iff.1 hk).1
      exact ⟨k, by rw [submit, List.getElem?_append_left hlt, hk], rfl, .kept rfl⟩
  | tell name ending =>
      refine fate_map hk ?_ ?_ <;> split
      · exact k.name_tell ending
      · rfl
      · exact .kept (k.standing_tell ending)
      · exact .kept rfl
  | cancel name =>
      refine fate_map hk ?_ ?_ <;> split
      · exact k.name_cancel
      · rfl
      · next hname =>
        have hcancel := k.standing_cancel
        rcases hcancel with hsame | ⟨hblocked, hcancelled⟩
        · exact .kept (congrArg Job.standing hsame)
        · exact .cancelled hcancelled (by rw [hname]) hblocked
      · exact .kept rfl
  | tune change => exact ⟨k, hk, rfl, .kept rfl⟩
  | close => exact ⟨k, hk, rfl, .kept rfl⟩
  | call _ => exact fate_map hk k.name_hear (.kept k.standing_hear)
  | reject hj hstage hclosed =>
      refine fate_put hj hk fun hpos => ?_
      rw [← hsame hj hpos]
      exact .rejected rfl (by rw [hpos]) (standing_of_blocked hstage) hclosed
  | start hj hstage =>
      refine @fate_put w _ _ n _ k hj hk .running fun hpos => ?_
      rw [← hsame hj hpos]
      exact .started rfl (by rw [hpos]) hstage
  | listen hj hstage | accept hj hstage _ | count hj hstage | claim hj hstage _
  | wait hj hstage _ | miss hj hstage _ | falter hj hstage =>
      refine fate_put hj hk fun hpos => ?_
      rw [← hsame hj hpos]
      exact .kept (standing_of_blocked hstage).symm
  | finish hj hstage htold =>
      refine fate_put hj hk fun hpos => ?_
      rw [← hsame hj hpos]
      exact .ended rfl (by rw [hpos]) (by rw [Job.standing, hstage]; rfl) htold

/-! ## The wait of a job -/

/-- The job at position `i` waits in the given way. -/
def WaitsAt (w : Workers) (i : Nat) (wait : Wait) : Prop :=
  ∃ j, w.jobs[i]? = some j ∧ j.stage = .blocked wait

/-- How the job at position `i` waits after an act: it is left alone, hears a call, was
submitted, or goes one step on from where its look was. -/
inductive Waits (w : Workers) (act : Act) (i : Nat) : Wait → Prop
  | kept {wait : Wait} (hbefore : w.WaitsAt i wait) (hstep : act ≠ .step i) (hcall : act ≠ .call) :
      Waits w act i wait
  | heard {wait : Wait} (hbefore : w.WaitsAt i wait) (hact : act = .call) :
      Waits w act i wait.hear
  | entered (hnew : w.jobs[i]? = none) (hstep : act ≠ .step i) (hcall : act ≠ .call) :
      Waits w act i .entering
  | listened (hbefore : w.WaitsAt i .entering) (hact : act = .step i) :
      Waits w act i (.looking false .knocking)
  | admitted {called : Bool} (hbefore : w.WaitsAt i (.looking called .knocking))
      (hact : act = .step i) (hopen : w.slots.closed = false) :
      Waits w act i (.looking called .admitted)
  | counted {called : Bool} {look : Look} (hbefore : w.WaitsAt i (.looking called look))
      (hlook : look ≠ .knocking) (hcall : act ≠ .call) :
      Waits w act i (.looking called (.counted w.slots.running))
  | claimed {called : Bool} {running : Nat}
      (hbefore : w.WaitsAt i (.looking called (.counted running))) (hact : act = .step i)
      (hroom : running < w.slots.capacity) :
      Waits w act i (.looking called (.claiming running))
  | slept {called : Bool} {running : Nat}
      (hbefore : w.WaitsAt i (.looking called (.counted running))) (hact : act = .step i)
      (hfull : w.slots.capacity ≤ running) :
      Waits w act i (if called then .entering else .sleeping)

/-- A step puts its own job where it says and leaves the others. -/
theorem waits_put {w : Workers} {act : Act} {i n : Nat} {k : Job} {stage : JobStage} {wait : Wait}
    (h : (w.put i k stage).WaitsAt n wait) (hact : act = .step i ∨ act = .falter i)
    (hown : i = n → stage = .blocked wait → Waits w act n wait) : Waits w act n wait := by
  obtain ⟨j, hj, hstage⟩ := h
  by_cases hpos : i = n
  · refine hown hpos ?_
    subst hpos
    have hlt : i < w.jobs.length := by
      have := (List.getElem?_eq_some_iff.1 hj).1
      simpa [put] using this
    obtain rfl : ({ k with stage } : Job) = j := by
      simpa [put, hlt] using hj
    exact hstage
  · have hold : w.jobs[n]? = some j := by
      simpa [put, List.getElem?_set_ne hpos] using hj
    refine .kept ⟨j, hold, hstage⟩ ?_ ?_
    · rcases hact with rfl | rfl
      · simpa using hpos
      · nofun
    · rcases hact with rfl | rfl <;> nofun

/-- A change of all jobs that leaves waits as they are, or ends them. -/
theorem waitsAt_of_map {w : Workers} {i : Nat} {wait : Wait} {change : Job → Job}
    {jobs : List Job} (hjobs : jobs = w.jobs.map change)
    (hsame : ∀ j, (change j).stage = .blocked wait → j.stage = .blocked wait)
    (h : ∃ j, jobs[i]? = some j ∧ j.stage = .blocked wait) : w.WaitsAt i wait := by
  subst hjobs
  obtain ⟨j, hj, hstage⟩ := h
  rw [List.getElem?_map] at hj
  obtain ⟨k, hk, rfl⟩ := Option.map_eq_some_iff.1 hj
  exact ⟨k, hk, hsame k hstage⟩

/-- A look goes on from where it was. -/
theorem waits_of_act? {w v : Workers} {act : Act} (h : w.act? act = some v) {n : Nat}
    {wait : Wait} (hwait : v.WaitsAt n wait) : Waits w act n wait := by
  cases does_of_act? h with
  | submit name =>
      obtain ⟨j, hj, hstage⟩ := hwait
      rcases Nat.lt_or_ge n w.jobs.length with hlt | hge
      · rw [submit, List.getElem?_append_left hlt] at hj
        exact .kept ⟨j, hj, hstage⟩ nofun nofun
      · rw [submit, List.getElem?_append_right hge, List.getElem?_singleton] at hj
        split at hj
        · obtain rfl := Option.some.inj hj
          obtain rfl : Wait.entering = wait := JobStage.blocked.inj hstage
          exact .entered (List.getElem?_eq_none hge) nofun nofun
        · cases hj
  | tell name ending =>
      refine .kept (waitsAt_of_map rfl (fun j hstage => ?_) hwait) nofun nofun
      split at hstage
      · rwa [j.stage_tell] at hstage
      · exact hstage
  | cancel name =>
      refine .kept (waitsAt_of_map rfl (fun j hstage => ?_) hwait) nofun nofun
      split at hstage
      · exact j.stage_of_cancel hstage
      · exact hstage
  | tune change => exact .kept hwait nofun nofun
  | close => exact .kept hwait nofun nofun
  | call _ =>
      obtain ⟨j, hj, hstage⟩ := hwait
      rw [List.getElem?_map] at hj
      obtain ⟨k, hk, rfl⟩ := Option.map_eq_some_iff.1 hj
      obtain ⟨was, hbefore, rfl⟩ := k.stage_of_hear hstage
      exact .heard ⟨k, hk, hbefore⟩ rfl
  | listen hj hstage =>
      refine waits_put hwait (.inl rfl) fun hpos hnew => ?_
      subst hpos
      cases hnew
      exact .listened ⟨_, hj, hstage⟩ rfl
  | reject => exact waits_put hwait (.inl rfl) nofun
  | accept hj hstage hopen =>
      refine waits_put hwait (.inl rfl) fun hpos hnew => ?_
      subst hpos
      cases hnew
      exact .admitted ⟨_, hj, hstage⟩ rfl hopen
  | claim hj hstage hroom =>
      refine waits_put hwait (.inl rfl) fun hpos hnew => ?_
      subst hpos
      cases hnew
      exact .claimed ⟨_, hj, hstage⟩ rfl hroom
  | wait hj hstage hfull =>
      refine waits_put hwait (.inl rfl) fun hpos hnew => ?_
      subst hpos
      cases hnew
      exact .slept ⟨_, hj, hstage⟩ rfl hfull
  | @start i j called hj hstage =>
      have hput : (w.put i j .running).WaitsAt n wait := hwait
      exact waits_put hput (.inl rfl) nofun
  | @finish i j ending hj hstage htold =>
      have hput : (w.put i j ending.stage).WaitsAt n wait := hwait
      refine waits_put hput (.inl rfl) fun _ hnew => ?_
      cases ending <;> cases hnew
  | count hj hstage =>
      refine waits_put hwait (.inl rfl) fun hpos hnew => ?_
      subst hpos
      cases hnew
      exact .counted ⟨_, hj, hstage⟩ nofun nofun
  | miss hj hstage _ =>
      refine waits_put hwait (.inl rfl) fun hpos hnew => ?_
      subst hpos
      cases hnew
      exact .counted ⟨_, hj, hstage⟩ nofun nofun
  | falter hj hstage =>
      refine waits_put hwait (.inr rfl) fun hpos hnew => ?_
      subst hpos
      cases hnew
      exact .counted ⟨_, hj, hstage⟩ nofun nofun

/-- A job that was not there before was submitted by the act. -/
theorem submitted_of_act? {w v : Workers} {act : Act} (h : w.act? act = some v) {n : Nat}
    {k : Job} (hold : w.jobs[n]? = none) (hnew : v.jobs[n]? = some k) :
    act = .submit k.name ∧ k.standing = .blocked := by
  have hlength : w.jobs.length ≤ n := List.getElem?_eq_none_iff.1 hold
  have hlt : n < v.jobs.length := (List.getElem?_eq_some_iff.1 hnew).1
  cases does_of_act? h with
  | submit name =>
      rw [submit, List.getElem?_append_right hlength] at hnew
      obtain rfl : ({ name } : Job) = k := by
        rw [List.getElem?_singleton] at hnew
        split at hnew
        · exact Option.some.inj hnew
        · cases hnew
      exact ⟨rfl, rfl⟩
  | _ => simp [put, recount, update, tune, close] at hlt; omega

end Workers

end SocksPool
