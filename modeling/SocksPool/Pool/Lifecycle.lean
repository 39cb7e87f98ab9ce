import SocksPool.Pool.State

/-!
# Life cycle and settings

A pool is stopped, running or paused. Starting or resuming it begins a new
*epoch* with loops of its own; the loops of an older epoch stop as soon as
they notice. A call that does not fit the status, or a value that the
configuration gate would refuse, is rejected and changes nothing.

## Main definitions

* `Pool.start`, `Pool.pause`, `Pool.resume`.
* `Pool.setWorkers`, `Pool.setMaxWorkers` — resize a pool that does not run.
-/

namespace SocksPool.Pool

/-- Sets the pool running in a new epoch, with one loop of each kind. -/
def launch (p : Pool) : Pool :=
  let epoch := p.epoch + 1
  spawn (spawn (spawn { p with status := .running, epoch }
    (.intakeLoop epoch .waiting)) (.spawnLoop epoch true)) (.scaleLoop epoch none)

/-- Sets a pool running that does not run. -/
def start (p : Pool) : Except PoolError Pool :=
  match p.status with
  | .running => .error .alreadyRunning
  | .stopped | .paused => .ok (p.launch.tell .started)

/-- Stops the loops of a running pool. -/
def pause (p : Pool) : Except PoolError Pool :=
  match p.status with
  | .running => .ok (tell { p with status := .paused } .paused)
  | .paused => .error .alreadyPaused
  | .stopped => .error .notRunning

/-- Sets a paused pool running again. -/
def resume (p : Pool) : Except PoolError Pool :=
  match p.status with
  | .paused => .ok (p.launch.tell .resumed)
  | .stopped | .running => .error .notPaused

/-! ## Settings -/

/-- Changes the configuration. -/
def configure (p : Pool) (change : Config → Config) : Pool := { p with config := change p.config }

/-- Sets the age at which a copy is stale. -/
def setStaleAfter (p : Pool) (age : Nat) : Pool := p.configure ({ · with staleAfter := age })

/-- Sets the time allowed for an attempt, which is not zero. -/
def setValidationTimeout (p : Pool) (timeout : Nat) : Except PoolError Pool :=
  if timeout = 0 then .error (.invalidConfig Config.timeoutReason)
  else .ok (p.configure ({ · with validationTimeout := timeout }))

/-- Sets whether candidates are validated again. -/
def setRecycling (p : Pool) (recycle : Bool) : Pool := p.configure ({ · with recycle })

/-- Sets the bad marks at which an endpoint is evicted, at least one. -/
def setRemoveAfter (p : Pool) (count : Nat) : Except PoolError Pool :=
  if count = 0 then .error (.invalidConfig Config.removeAfterReason)
  else .ok (p.configure ({ · with removeAfter := count }))

/-- Sets the echo pages, at least one. -/
def setEchoEndpoints (p : Pool) (urls : List String) : Except PoolError Pool :=
  if urls = [] then .error (.invalidConfig Config.echoReason)
  else .ok (p.configure ({ · with echoEndpoints := urls }))

/-- Sets the client names. -/
def setUserAgents (p : Pool) (agents : List String) : Pool :=
  p.configure ({ · with userAgents := agents })

/-- Sets the worker ceiling of a pool that does not run, and cuts workers
and capacity down to it. -/
def setMaxWorkers (p : Pool) (ceiling : Nat) : Except PoolError Pool :=
  if p.status = .running then .error (.running "max workers")
  else if ceiling = 0 then .error (.invalidConfig Config.maxWorkersReason)
  else
    let p := p.configure fun c => { c with maxWorkers := ceiling, workers := min c.workers ceiling }
    let p := { p with scaler := p.scaler.setCeiling ceiling }
    .ok (if ceiling < p.slots.capacity then p.tune (Word.difference ceiling p.slots.capacity)
      else p)

/-- Sets the worker count of a pool that does not run, within its ceiling. -/
def setWorkers (p : Pool) (count : Nat) : Except PoolError Pool :=
  if p.status = .running then .error (.running "worker count")
  else if count = 0 ∨ p.config.maxWorkers < count then
    .error (.invalidConfig (Config.workersReason p.config.maxWorkers))
  else
    let p := p.configure ({ · with workers := count })
    .ok (p.tune (Word.difference count p.slots.capacity))

/-- Sets the backlog that the scaler aims at. -/
def setScaleThreshold (p : Pool) (threshold : Nat) : Pool :=
  let p := p.configure ({ · with scaleThreshold := threshold })
  { p with scaler := p.scaler.setThreshold threshold }

/-- Enables the scaler. -/
def enableScaler (p : Pool) : Pool :=
  let p := p.configure ({ · with autoscale := true })
  { p with scaler := p.scaler.enable }

/-- Disables the scaler. -/
def disableScaler (p : Pool) : Pool :=
  let p := p.configure ({ · with autoscale := false })
  { p with scaler := p.scaler.disable }

/-- One tick of the scaler. Answers the change of capacity. -/
def tickScaler (p : Pool) : Pool × Int :=
  let backlog := p.stats.backlog
  let t := p.scaler.tick backlog p.slots.capacity p.slots.closed
  let p := { p with scaler := t.scaler, log := p.log ++ t.events backlog }
  (if t.change = 0 then p else p.tune t.change, t.change)

end SocksPool.Pool
