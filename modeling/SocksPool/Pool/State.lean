import SocksPool.Backoff
import SocksPool.Config
import SocksPool.Event
import SocksPool.Pool.Task
import SocksPool.Slots
import SocksPool.Stats
import SocksPool.Usage

/-!
# State of a pool

A pool is one value. It holds the clock, the configuration, the registry
with its limiters and counters, the queues, the worker slots, and the list
of tasks under way. Tasks are numbered as they begin and keep their numbers;
in the list they stand in the order of their last activity.

## Main definitions

* `Pool.new` — a stopped pool.
* `Pool.spawn`, `Pool.put`, `Pool.remove` — tasks begin, move on and end.
-/

namespace SocksPool

/-- Whether a pool runs. -/
inductive Status where
  | stopped
  | running
  | paused
deriving DecidableEq, Repr

/-- The name of a status. -/
def Status.name : Status → String
  | .stopped => "Stopped"
  | .running => "Running"
  | .paused => "Paused"

/-- The queues of validated copies. -/
structure Outputs where
  socks4 : List Proxy := []
  socks4a : List Proxy := []
  socks5 : List Proxy := []
deriving DecidableEq, Repr

namespace Outputs

/-- The queue of a protocol; there is none for an unknown one. -/
def get (o : Outputs) : Protocol → List Proxy
  | .unknown => []
  | .socks4 => o.socks4
  | .socks4a => o.socks4a
  | .socks5 => o.socks5

/-- Replaces the queue of a protocol. -/
def set (o : Outputs) (p : Protocol) (queue : List Proxy) : Outputs :=
  match p with
  | .unknown => o
  | .socks4 => { o with socks4 := queue }
  | .socks4a => { o with socks4a := queue }
  | .socks5 => { o with socks5 := queue }

end Outputs

/-- A pool of proxies. -/
structure Pool where
  now : Nat := 0
  config : Config
  registry : Registry := {}
  stats : Stats := {}
  usage : Usage
  backoff : Backoff
  scaler : Scaler
  slots : Slots
  status : Status := .stopped
  /-- How often the pool was set running. -/
  epoch : Nat := 0
  /-- Freshly loaded endpoints. -/
  intake : List String := []
  /-- Endpoints that wait for a worker. -/
  pending : List String := []
  outputs : Outputs := {}
  tasks : List (Nat × Task) := []
  nextTask : Nat := 0
  /-- What finished calls came to, by the number of their task. -/
  answers : List (Nat × Answer) := []
  log : List Event := []
  /-- How many tasks and calls stopped halfway. -/
  crashes : Nat := 0

namespace Pool

/-- A stopped pool that validates in the given slots. -/
def withSlots (config : Config) (slots : Slots) : Except PoolError Pool :=
  match config.validate with
  | .error e => .error e
  | .ok () =>
    let scaler := Scaler.new config.scaleThreshold config.maxWorkers
    .ok {
      config, slots
      usage := { quota := config.usageQuota }
      backoff := Backoff.new config.badBackoff config.maxBadBackoff
      scaler := if config.autoscale then scaler.enable else scaler }

/-- A stopped pool with slots of its own. -/
def new (config : Config) : Except PoolError Pool :=
  withSlots config (Slots.new config.workers)

/-! ## Log and tasks -/

/-- Adds an event to the log. -/
def tell (p : Pool) (e : Event) : Pool := { p with log := p.log ++ [e] }

/-- The task with a number. -/
def task? (p : Pool) (id : Nat) : Option Task := p.tasks.lookup id

/-- Begins a task. -/
def spawn (p : Pool) (task : Task) : Pool :=
  { p with tasks := p.tasks ++ [(p.nextTask, task)], nextTask := p.nextTask + 1 }

/-- Ends a task. -/
def remove (p : Pool) (id : Nat) : Pool :=
  { p with tasks := p.tasks.filter fun entry => entry.1 != id }

/-- Moves a task on, to the end of the list. -/
def put (p : Pool) (id : Nat) (task : Task) : Pool :=
  { p with tasks := (p.remove id).tasks ++ [(id, task)] }

/-- Ends a call with its answer. -/
def finish (p : Pool) (id : Nat) (answer : Answer) : Pool :=
  { p.remove id with answers := p.answers ++ [(id, answer)] }

/-- Whether a loop or an idle job of the given epoch has to stop. -/
def halted (p : Pool) (epoch : Nat) : Bool := p.status != .running || p.epoch != epoch

/-! ## Queues and slots -/

/-- Whether the pending queue has room. -/
def pendingRoom (p : Pool) : Bool := p.pending.length < p.config.bufferSize

/-- Whether the output queue of a protocol has room. -/
def outputRoom (p : Pool) (protocol : Protocol) : Bool :=
  protocol != .unknown && (p.outputs.get protocol).length < p.config.bufferSize

/-- Puts a copy at the end of the output queue of its protocol. -/
def deliver (p : Pool) (copy : Proxy) : Pool :=
  { p with outputs := p.outputs.set copy.protocol (p.outputs.get copy.protocol ++ [copy]) }

/-- Wakes every spawn loop that sleeps for want of a slot. -/
def wakeSpawners (p : Pool) : Pool :=
  { p with tasks := p.tasks.map fun entry =>
      match entry.2 with
      | .spawnLoop epoch _ => (entry.1, .spawnLoop epoch true)
      | _ => entry }

/-- Frees a slot. -/
def releaseSlot (p : Pool) : Pool := wakeSpawners { p with slots := p.slots.release }

/-- Changes the worker capacity. Growth wakes the spawn loops. -/
def tune (p : Pool) (change : Int) : Pool :=
  let tuned := { p with slots := p.slots.tune change }
  if 0 < change then tuned.wakeSpawners else tuned

/-- Closes the workers. -/
def closeWorkers (p : Pool) : Pool := wakeSpawners { p with slots := p.slots.close }

/-- Moves the clock. -/
def advance (p : Pool) (span : Nat) : Pool := { p with now := p.now + span }

end Pool

end SocksPool
