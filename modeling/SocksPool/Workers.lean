import SocksPool.Slots

/-!
# Workers

Jobs are submitted under a name and run in slots. A submission listens for
calls, then looks for a free slot; if there is none it sleeps until it is
called and begins anew. Whoever frees a slot, adds one or closes the workers
first makes the change and then calls everyone who listens. A submission
that finds the workers closed is rejected. A job runs until it is told to
end, normally or by a panic, and its slot is free either way.

The numbers that a look needs are shared by all tasks and are read one after
the other: whether the workers are closed, how many jobs run, and the
capacity. If the second was less than the third, the look claims a slot by a
*swap*: the number of running jobs goes up by one if it still is what was
read, and is read again if it is not. Anything may happen between two of
these steps.

Orders to the workers change the state at once; what the tasks behind them
do is a *move*: a call that is due, or the next step of one job. A call may
come between a step and the next one, and anything may come between a change
and its call. `settle` makes moves until none is left.

## Main definitions

* `Workers.step?` — the step of one job.
* `Workers.call?` — the call that is due after a change.
* `Workers.effort` — a bound of the moves that are left.
* `Workers.settle` — all moves, calls first and then the oldest submission.
-/

namespace SocksPool

/-- How a job is told to end. -/
inductive Ending where
  | finish
  | panic
deriving DecidableEq, Repr

/-- How far a look for a slot is. -/
inductive Look where
  /-- Has to see whether the workers are closed. -/
  | knocking
  /-- Has seen that they are not. -/
  | admitted
  /-- Has read how many jobs run. -/
  | counted (running : Nat)
  /-- Has read a capacity that is larger, and is about to swap. -/
  | claiming (running : Nat)
deriving DecidableEq, Repr

/-- How far a submission is that has not started. One that looks for a slot
listens, and knows whether it was called since. -/
inductive Wait where
  | entering
  | looking (called : Bool) (look : Look)
  | sleeping
deriving DecidableEq, Repr

/-- Where a job is. -/
inductive JobStage where
  | blocked (wait : Wait)
  | running
  | done
  | panicked
  | rejected
  | cancelled
deriving DecidableEq, Repr

/-- A submitted job. -/
structure Job where
  name : String
  stage : JobStage := .blocked .entering
  told : Option Ending := none
deriving DecidableEq, Repr

/-- Workers and all jobs ever submitted to them, oldest first. `calls` are
the calls that are due. -/
structure Workers where
  slots : Slots
  jobs : List Job := []
  calls : Nat := 0
deriving DecidableEq, Repr

/-- The name of a stage in answers. -/
def JobStage.name : JobStage → String
  | .blocked _ => "blocked"
  | .running => "running"
  | .done => "done"
  | .panicked => "panicked"
  | .rejected => "rejected"
  | .cancelled => "cancelled"

/-- The stage of a job that has ended as told. -/
def Ending.stage : Ending → JobStage
  | .finish => .done
  | .panic => .panicked

/-- A call reaches whoever listens, asleep or not. -/
def Wait.hear : Wait → Wait
  | .entering => .entering
  | .looking _ look => .looking true look
  | .sleeping => .entering

/-- How many steps a look takes while `running` jobs run and nobody else
moves. A look that has read another number fails once to swap. -/
def Look.steps (running : Nat) : Look → Nat
  | .knocking => 4
  | .admitted => 3
  | .counted read => if read = running then 2 else 4
  | .claiming read => if read = running then 1 else 3

/-- The steps of a submission until it starts or sleeps. One that was called
looks once more. -/
def Wait.steps (running : Nat) : Wait → Nat
  | .entering => 5
  | .looking called look => look.steps running + if called then 4 else 0
  | .sleeping => 1

namespace Job

/-- Hears a call. -/
def hear (j : Job) : Job :=
  match j.stage with
  | .blocked wait => { j with stage := .blocked wait.hear }
  | _ => j

/-- Tells a job how to end, unless it was told before or has ended. -/
def tell (j : Job) (ending : Ending) : Job :=
  match j.stage, j.told with
  | .blocked _, none => { j with told := some ending }
  | .running, none => { j with told := some ending }
  | _, _ => j

/-- Gives up a submission that has not started. While it looks for a slot it
is not given up: the task that could do so is the one that looks. -/
def cancel (j : Job) : Job :=
  match j.stage with
  | .blocked .entering => { j with stage := .cancelled }
  | .blocked .sleeping => { j with stage := .cancelled }
  | _ => j

end Job

namespace Workers

/-- Workers with room for `capacity` jobs. -/
def new (capacity : Nat) : Workers := { slots := Slots.new capacity }

/-! ## Orders -/

/-- Submits a job. -/
def submit (w : Workers) (name : String) : Workers := { w with jobs := w.jobs ++ [{ name }] }

/-- Changes the jobs of a name. -/
def update (w : Workers) (name : String) (change : Job → Job) : Workers :=
  { w with jobs := w.jobs.map fun j => if j.name = name then change j else j }

/-- Changes the capacity. A call is due after growth. -/
def tune (w : Workers) (change : Int) : Workers :=
  { w with
    slots := w.slots.tune change
    calls := if 0 < change then w.calls + 1 else w.calls }

/-- Accepts no further job. -/
def close (w : Workers) : Workers := { w with slots := w.slots.close, calls := w.calls + 1 }

/-! ## Moves -/

/-- Moves the job at position `i` to a stage. -/
def put (w : Workers) (i : Nat) (j : Job) (stage : JobStage) : Workers :=
  { w with jobs := w.jobs.set i { j with stage } }

/-- The job at position `i` reads how many jobs run. -/
def recount (w : Workers) (i : Nat) (j : Job) (called : Bool) : Workers :=
  w.put i j (.blocked (.looking called (.counted w.slots.running)))

/-- The next step of a look. It ends in a rejection, in a start, or in a
wait; one that was called since it listens does not sleep. -/
def look (w : Workers) (i : Nat) (j : Job) (called : Bool) : Look → Workers
  | .knocking =>
    if w.slots.closed then w.put i j .rejected
    else w.put i j (.blocked (.looking called .admitted))
  | .admitted => w.recount i j called
  | .counted running =>
    if running < w.slots.capacity then
      w.put i j (.blocked (.looking called (.claiming running)))
    else w.put i j (.blocked (if called then .entering else .sleeping))
  | .claiming running =>
    if w.slots.running = running then { w.put i j .running with slots := w.slots.take }
    else w.recount i j called

/-- The step of the job at position `i`. -/
def step? (w : Workers) (i : Nat) : Option Workers :=
  match w.jobs[i]? with
  | none => none
  | some j =>
    match j.stage, j.told with
    | .blocked .entering, _ => some (w.put i j (.blocked (.looking false .knocking)))
    | .blocked (.looking called look), _ => some (w.look i j called look)
    | .running, some ending =>
      some { w.put i j ending.stage with slots := w.slots.release, calls := w.calls + 1 }
    | _, _ => none

/-- The swap of the job at position `i` fails for no reason. -/
def falter? (w : Workers) (i : Nat) : Option Workers :=
  match w.jobs[i]? with
  | none => none
  | some j =>
    match j.stage with
    | .blocked (.looking called (.claiming _)) => some (w.recount i j called)
    | _ => none

/-- Makes a call that is due: everyone who listens hears it. -/
def call? (w : Workers) : Option Workers :=
  match w.calls with
  | 0 => none
  | calls + 1 => some { w with jobs := w.jobs.map Job.hear, calls }

/-- The next move: a call, or the step of the first job that has one. -/
def next? (w : Workers) : Option Workers :=
  match w.call? with
  | some called => some called
  | none => (List.range w.jobs.length).findSome? w.step?

/-- At most `n` moves. -/
def settleMoves : Nat → Workers → Workers
  | 0, w => w
  | n + 1, w =>
    match w.next? with
    | some next => settleMoves n next
    | none => w

/-- What one call costs among `n` jobs: each of them looks once more. -/
def callCost (n : Nat) : Nat := 4 * n + 1

/-- What a change of the number of running jobs costs among `n` jobs: each of
them fails once to swap, and reads the number and the capacity again. -/
def swapCost (n : Nat) : Nat := 2 * n

/-- What the end of a job costs, with the change and the call after it. -/
def endCost (n : Nat) : Nat := swapCost n + callCost n + 1

/-- What the moves of a job cost up to its end, among `n` jobs of which
`running` run. -/
def cost (n running : Nat) (j : Job) : Nat :=
  match j.stage with
  | .blocked wait => wait.steps running + swapCost n + endCost n
  | .running => endCost n
  | _ => 0

/-- What jobs cost together. -/
def costs (n running : Nat) : List Job → Nat
  | [] => 0
  | j :: rest => cost n running j + costs n running rest

/-- A bound of the moves that are left. -/
def effort (w : Workers) : Nat :=
  costs w.jobs.length w.slots.running w.jobs + w.calls * callCost w.jobs.length

/-- Makes moves until there is none. -/
def settle (w : Workers) : Workers := settleMoves w.effort w

end Workers

end SocksPool
