import SocksPool.Pool.Dispense
import SocksPool.Pool.Loops
import SocksPool.Pool.Validation

/-!
# Moves of tasks

A *move* is one step of one task. This module names the moves, says which of
them a task may take next, and when a task's timer takes one. Whether a move
is possible is decided by the step itself: `Pool.move?` answers nothing if
it is not.

The moves of a task fall in three groups. Some need nothing but the state of
the pool (`Task.moves`), some wait for the clock (`Task.timers`), and some
bring news from the network.

A pool is *at rest* when no task has a move of the first group.

## Main definitions

* `Pool.move?` — takes a move.
* `Pool.AtRest` — nothing can happen without the clock or the network.
-/

namespace SocksPool

/-- A step of a task. -/
inductive Move where
  | halt
  | lockIntake
  | receive
  | forward
  | look
  | tick
  | pick
  | deliver
  | wake
  | comeBack
  | dispense (protocol : Protocol)
  | cancel
  | abandon
  /-- An attempt of a round has come to an end. -/
  | attempted (outcome : Except PoolError Address)
  /-- The re-dial of a candidate has come to an end. -/
  | redialled (good : Bool)
  /-- A tunnel is open or has failed. -/
  | dialled (outcome : Except PoolError Unit)
  /-- A request has come to an end. -/
  | responded (outcome : Pool.Exchange)

namespace Pool

/-- Takes a move of a task, if it is possible. -/
def move? (p : Pool) (id : Nat) : Move → Option Pool
  | .halt => p.halt? id
  | .lockIntake => p.lockIntake? id
  | .receive => p.receive? id
  | .forward => p.forward? id
  | .look => p.look? id
  | .tick => p.tick? id
  | .pick => p.pick? id
  | .deliver => p.deliver? id
  | .wake => p.wake? id
  | .comeBack => p.comeBack? id
  | .dispense protocol => p.dispense? id protocol
  | .cancel => p.cancel? id
  | .abandon => p.abandon? id
  | .attempted outcome => p.attempted? id outcome
  | .redialled good => p.redialled? id good
  | .dialled outcome => p.dialled? id outcome
  | .responded outcome => p.responded? id outcome

end Pool

namespace Task

/-- The moves of a task that need neither clock nor network, in the order
in which it tries them. A task that waits for the clock or the network has
none. -/
def moves : Task → List Move
  | .intakeLoop _ _ => [.halt, .lockIntake, .receive, .forward]
  | .spawnLoop _ _ => [.halt, .look]
  | .scaleLoop _ none => [.halt, .tick]
  | .scaleLoop _ (some _) => [.halt]
  | .idleJob _ => [.halt, .pick]
  | .round ⟨_, _, _, _, .delivering _⟩ => [.deliver]
  | .round ⟨_, _, _, _, .attempting _ _ _⟩ => []
  | .requeue _ none => [.comeBack]
  | .requeue _ (some _) => []
  | .caller ⟨_, _, .waiting⟩ => [.dispense .socks5, .dispense .socks4, .dispense .socks4a]
  | .caller _ => []

/-- The deadlines of a task, and the moves that it takes when they have
passed. -/
def timers : Task → List (Nat × Move)
  | .requeue _ (some due) => [(due, .wake)]
  | .scaleLoop _ (some due) => [(due, .tick)]
  | .caller ⟨_, some patience, _⟩ => [(patience, .cancel)]
  | _ => []

/-- When the task's exchange with the network is given up, if it has one. -/
def networkDeadline? : Task → Option Nat
  | .round ⟨_, _, probe, _, .attempting _ _ since⟩ => some (Instant.deadline since probe.timeout)
  | .caller ⟨_, _, .checking _ _ timeout _ since⟩ => some (Instant.deadline since timeout)
  | .caller ⟨_, _, .using _ timeout since⟩ => some (Instant.deadline since timeout)
  | _ => none

end Task

namespace Pool

/-- The first move of a task that is possible. -/
def firstMove? (p : Pool) (id : Nat) (task : Task) : Option Pool :=
  task.moves.findSome? (p.move? id)

/-- The pool after the first possible move of the task that was idle for
longest. -/
def proceed? (p : Pool) : Option Pool :=
  p.tasks.findSome? fun entry => p.firstMove? entry.1 entry.2

/-- Nothing can happen without the clock or the network. -/
def AtRest (p : Pool) : Prop := p.proceed? = none

instance (p : Pool) : Decidable p.AtRest :=
  match h : p.proceed? with
  | none => isTrue h
  | some _ => isFalse fun rest => by simp [AtRest, h] at rest

/-- Every timer that has gone off, with the task it belongs to. -/
def dueTimers (p : Pool) (timers : Nat × Task → List (Nat × Move)) : List (Nat × Nat × Move) :=
  p.tasks.flatMap fun entry =>
    (timers entry).filterMap fun timer =>
      if Instant.reached timer.1 p.now then some (timer.1, entry.1, timer.2) else none

end Pool

end SocksPool
