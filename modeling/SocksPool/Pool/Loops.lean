import SocksPool.Pool.Lifecycle

/-!
# Steps of the background loops

Each function is one step of one loop: it answers the pool after the step,
or nothing if the loop cannot take that step now. A loop that has to stop
takes the step `halt?`; until it does, it may still take another one.

## Main definitions

* `Pool.lockIntake?`, `Pool.receive?`, `Pool.forward?` — the intake loop.
* `Pool.look?` — the spawn loop.
* `Pool.tick?` — the scale loop.
-/

namespace SocksPool.Pool

/-- Whether some intake loop is past its wait for the queue. -/
def intakeTaken (p : Pool) : Bool :=
  p.tasks.any fun entry =>
    match entry.2 with
    | .intakeLoop _ .waiting => false
    | .intakeLoop _ _ => true
    | _ => false

/-- An intake loop gets its turn at the intake queue. -/
def lockIntake? (p : Pool) (id : Nat) : Option Pool :=
  match p.task? id with
  | some (.intakeLoop epoch .waiting) =>
    if p.intakeTaken then none else some (p.put id (.intakeLoop epoch .receiving))
  | _ => none

/-- An intake loop takes an endpoint off the intake queue. -/
def receive? (p : Pool) (id : Nat) : Option Pool :=
  match p.task? id, p.intake with
  | some (.intakeLoop epoch .receiving), endpoint :: rest =>
    some (put { p with intake := rest } id (.intakeLoop epoch (.holding endpoint)))
  | _, _ => none

/-- An intake loop puts its endpoint on the pending queue. -/
def forward? (p : Pool) (id : Nat) : Option Pool :=
  match p.task? id with
  | some (.intakeLoop epoch (.holding endpoint)) =>
    if p.pendingRoom then
      some (put { p with pending := p.pending ++ [endpoint] } id (.intakeLoop epoch .receiving))
    else none
  | _ => none

/-- A spawn loop looks for a free slot: it starts a job, or falls asleep, or
stops because the workers are closed. -/
def look? (p : Pool) (id : Nat) : Option Pool :=
  match p.task? id with
  | some (.spawnLoop epoch true) =>
    if p.slots.closed then some ((p.remove id).tell (.spawnerStopped .closed))
    else if p.slots.free then
      some ((put { p with slots := p.slots.take } id (.spawnLoop epoch true)).spawn
        (.idleJob epoch))
    else some (p.put id (.spawnLoop epoch false))
  | _ => none

/-- How late a tick may be before the next one is counted from it. -/
def tickTolerance : Nat := 5 * Span.milli

/-- When the tick after one that was due at `due` and came at `now` is due. -/
def nextTick (due now period : Nat) : Nat :=
  if due + tickTolerance < now then Instant.deadline now period
  else Instant.deadline due period

/-- Ticks the scaler for a scale loop and sets its next tick. -/
def tickAt (p : Pool) (id epoch due : Nat) : Pool :=
  p.tickScaler.1.put id (.scaleLoop epoch (some (nextTick due p.now p.config.scaleInterval)))

/-- A scale loop ticks, at once when it begins and then as often as the
configured interval has passed. A loop with an empty interval stops halfway. -/
def tick? (p : Pool) (id : Nat) : Option Pool :=
  match p.task? id with
  | some (.scaleLoop epoch none) =>
    if p.config.scaleInterval = 0 then some { p.remove id with crashes := p.crashes + 1 }
    else some (p.tickAt id epoch p.now)
  | some (.scaleLoop epoch (some due)) =>
    if Instant.reached due p.now then some (p.tickAt id epoch due) else none
  | _ => none

/-- A loop or an idle job of another epoch, or of a pool that does not run,
stops. An intake loop hands its endpoint back; a job frees its slot. -/
def halt? (p : Pool) (id : Nat) : Option Pool :=
  match p.task? id with
  | some (.intakeLoop epoch stage) =>
    if p.halted epoch then
      match stage with
      | .holding endpoint => some { p.remove id with intake := p.intake ++ [endpoint] }
      | _ => some (p.remove id)
    else none
  | some (.spawnLoop epoch _) => if p.halted epoch then some (p.remove id) else none
  | some (.scaleLoop epoch _) => if p.halted epoch then some (p.remove id) else none
  | some (.idleJob epoch) => if p.halted epoch then some (p.remove id).releaseSlot else none
  | _ => none

/-- A requeue task wakes up. -/
def wake? (p : Pool) (id : Nat) : Option Pool :=
  match p.task? id with
  | some (.requeue endpoint (some due)) =>
    if Instant.reached due p.now then some (p.put id (.requeue endpoint none)) else none
  | _ => none

/-- A requeue task that is awake puts its endpoint on the pending queue. -/
def comeBack? (p : Pool) (id : Nat) : Option Pool :=
  match p.task? id with
  | some (.requeue endpoint none) =>
    if p.pendingRoom then some { p.remove id with pending := p.pending ++ [endpoint] } else none
  | _ => none

end SocksPool.Pool
