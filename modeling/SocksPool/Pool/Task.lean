import SocksPool.Registry

/-!
# Tasks of a pool

Everything that goes on in a pool beside a call that returns at once is a
*task*: the three background loops, the worker jobs, the timers that bring
an endpoint back to the pending queue, and the calls that wait for a proxy.

A task is data. It says where the task is between two of its steps, and what
it holds there: the endpoint in an intake loop's hand, the life that a round
validates, the candidate under a check. The steps themselves are functions
of the pool.
-/

namespace SocksPool

/-- Where an intake loop is. Only one loop at a time is past `waiting`. -/
inductive IntakeStage where
  /-- Waits for its turn at the intake queue. -/
  | waiting
  /-- Waits for an endpoint on the intake queue. -/
  | receiving
  /-- Holds an endpoint and waits for room on the pending queue. -/
  | holding (endpoint : String)
deriving DecidableEq, Repr

/-- The settings that a round copies when it begins. -/
structure Probe where
  timeout : Nat
  echoEndpoints : List String
  userAgents : List String
deriving DecidableEq, Repr

/-- Where a validation round is. -/
inductive RoundStage where
  /-- Tries a protocol since the given time; `rest` come after it. -/
  | attempting (protocol : Protocol) (rest : List Protocol) (since : Nat)
  /-- Waits for room on the output queue of its copy. -/
  | delivering (copy : Proxy)
deriving DecidableEq, Repr

/-- The stage of a round that begins at the time `now`: it tries the first protocol of the
order, and the others come after it. -/
def RoundStage.opening (now : Nat) : RoundStage :=
  .attempting (Protocol.negotiationOrder.head (by decide)) Protocol.negotiationOrder.tail now

/-- A validation round. It validates the life that its endpoint had when it
began. `inSlot` tells a worker job from a direct call. -/
structure Round where
  endpoint : String
  life : Nat
  probe : Probe
  inSlot : Bool
  stage : RoundStage
deriving DecidableEq, Repr

/-- What a caller wants a proxy for. -/
inductive Purpose where
  /-- To have it; `none` takes a proxy of any protocol. -/
  | take (wanted : Option Protocol)
  /-- To know whether one given candidate is still good. -/
  | recheck
  /-- To open a tunnel to an address. -/
  | dial (address : String)
  /-- To send a request. `failures` proxies have failed so far, of which
  `retries` are forgiven. Each wait for a proxy takes at most `wait`. -/
  | send (failures retries wait timeout : Nat) (cloneable : Bool)
deriving DecidableEq, Repr

/-- Where a caller is. -/
inductive CallerStage where
  /-- Waits for a candidate. -/
  | waiting
  /-- Re-dials a candidate whose life it has locked, since the given time. -/
  | checking (candidate : Proxy) (life : Nat) (timeout : Nat) (recycle : Bool) (since : Nat)
  /-- Uses the proxy that it was given, since the given time. -/
  | using (proxy : Proxy) (timeout : Nat) (since : Nat)
deriving DecidableEq, Repr

/-- A call that waits for a proxy. After `patience` it is cancelled. -/
structure Caller where
  purpose : Purpose
  patience : Option Nat
  stage : CallerStage
deriving DecidableEq, Repr

/-- What a call came to. -/
inductive Answer where
  | proxy (proxy : Proxy)
  | verdict (proxy : Option Proxy)
  | failed (error : PoolError)
  /-- The tunnel through the given proxy is open. -/
  | connected (proxy : Proxy)
  /-- A response came through the given proxy. -/
  | responded (proxy : Proxy)
  | requestFailed (fault : HttpFault)
  | noProxy
  | notCloneable
  /-- The call stopped halfway, because a backoff deadline does not exist. -/
  | overflowed
deriving DecidableEq, Repr

/-- A task of a pool. -/
inductive Task where
  | intakeLoop (epoch : Nat) (stage : IntakeStage)
  /-- Submits jobs; `awake` while it is about to look for a free slot. -/
  | spawnLoop (epoch : Nat) (awake : Bool)
  /-- Ticks the scaler; `next` is `none` until the first tick. -/
  | scaleLoop (epoch : Nat) (next : Option Nat)
  /-- A job that waits for an endpoint on the pending queue. -/
  | idleJob (epoch : Nat)
  | round (round : Round)
  /-- Puts an endpoint back on the pending queue, after `due` if there is one. -/
  | requeue (endpoint : String) (due : Option Nat)
  | caller (caller : Caller)
deriving DecidableEq, Repr

end SocksPool
