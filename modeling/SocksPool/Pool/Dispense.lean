import SocksPool.Pool.Circulation

/-!
# Dispensing proxies

A caller takes candidates off the output queues, oldest first, until one
passes the *gate*. The gate looks at what the registry knows now, not at the
queued copy: the endpoint is registered and its life unlocked, has fewer bad
marks than the threshold, is not backed off, was validated recently, and
accepts a connection. The soft lock is held from the second test to the
final copy. A candidate that fails is discarded, with the effect of the
first test that it fails; with recycling on, it and the winner are validated
again.

A cancelled caller puts the candidate under check back. Dropping a caller
releases its lock and loses the candidate.

Whether a re-dial, a tunnel or a request succeeds is an input here.

## Main definitions

* `Pool.dispense?` — a caller takes a candidate.
* `Pool.redialled?` — the re-dial of a candidate has come to an end.
* `Pool.dialled?`, `Pool.responded?` — the proxy was used.
* `Pool.cancel?`, `Pool.abandon?` — a caller gives up.
-/

namespace SocksPool.Pool

/-- Validates the endpoint again, if that is asked for. -/
def recycle (p : Pool) (wanted : Bool) (endpoint : String) : Pool :=
  if wanted then p.requeue endpoint 0 else p

/-- Gives a soft lock back. -/
def unlock (p : Pool) (life : Nat) : Pool := { p with registry := p.registry.release life }

/-- The gate up to the re-dial. Answers the life of a candidate that is left
to re-dial; its soft lock is then held. -/
def judge (p : Pool) (endpoint : String) : Pool × Option Nat :=
  match p.registry.find? endpoint with
  | none => (p, none)
  | some life =>
    match p.registry.tryLock? life, p.registry.entry? life with
    | some registry, some entry =>
      if p.config.removeAfter ≤ entry.timesBad then (p.evict endpoint, none)
      else if p.backoff.peek p.now endpoint then
        ((p.tell (.skippedBackedOff endpoint)).recycle p.config.recycle endpoint, none)
      else if entry.snapshot.isStale p.now p.config.staleAfter then
        let p := { p.tell (.skippedStale endpoint) with stats := p.stats.recordStale }
        (p.recycle p.config.recycle endpoint, none)
      else ({ p with registry }, some life)
    | _, _ => (p, none)

/-- The stage of a caller that re-dials a candidate. -/
def checkingStage (p : Pool) (candidate : Proxy) (life : Nat) : CallerStage :=
  .checking candidate life p.config.validationTimeout p.config.recycle p.now

/-! ## Calls begin -/

/-- Begins a call that waits for a proxy. -/
def call (p : Pool) (purpose : Purpose) (patience : Option Nat) : Pool :=
  p.spawn (.caller ⟨purpose, patience, .waiting⟩)

/-- Begins to wait for a proxy of a protocol, or of any. The call is
cancelled after `cancel`. -/
def get (p : Pool) (wanted : Option Protocol) (cancel : Option Nat) : Pool :=
  p.call (.take wanted) (cancel.map (Instant.deadline p.now))

/-- Begins to judge one candidate. Answers the number of the call. -/
def stillGood (p : Pool) (candidate : Proxy) : Pool × Nat :=
  match p.judge candidate.endpoint with
  | (p, none) =>
    (finish { p with nextTask := p.nextTask + 1 } p.nextTask (.verdict none), p.nextTask)
  | (p, some life) =>
    (p.spawn (.caller ⟨.recheck, none, p.checkingStage candidate life⟩), p.nextTask)

/-- Whether a network can be dialled. -/
def isTcp (network : String) : Bool :=
  network == "tcp" || network == "tcp4" || network == "tcp6"

/-- Begins to dial an address through one proxy after the other. -/
def dial (p : Pool) (network address : String) (cancel : Option Nat) : Except PoolError Pool :=
  if isTcp network then .ok (p.call (.dial address) (cancel.map (Instant.deadline p.now)))
  else .error (.unsupportedNetwork network)

/-- A client that sends its requests through the pool is made. -/
def attach (p : Pool) : Pool :=
  p.tell (.middlewareAttached p.stats.totalValidated p.registry.size)

/-- Begins to send a request. -/
def send (p : Pool) (cloneable : Bool) : Pool :=
  let c := p.config
  p.call (.send 0 c.dispatchRetries c.dispenseTimeout c.validationTimeout cloneable)
    (some (Instant.deadline p.now c.dispenseTimeout))

/-! ## Calls go on -/

/-- Whether a caller may take candidates of a protocol. -/
def Purpose.accepts (purpose : Purpose) (protocol : Protocol) : Bool :=
  match purpose with
  | .take (some wanted) => if wanted = .unknown then true else protocol == wanted
  | .recheck => false
  | _ => true

/-- A waiting caller takes the oldest candidate of a protocol and judges it. -/
def dispense? (p : Pool) (id : Nat) (protocol : Protocol) : Option Pool :=
  match p.task? id, p.outputs.get protocol with
  | some (.caller c), candidate :: rest =>
    if c.stage = .waiting ∧ Purpose.accepts c.purpose protocol then
      match judge { p with outputs := p.outputs.set protocol rest } candidate.endpoint with
      | (p, none) => some (p.put id (.caller c))
      | (p, some life) =>
        some (p.put id (.caller { c with stage := p.checkingStage candidate life }))
    else none
  | _, _ => none

/-- Hands a proxy to a caller. A request that is on its way is no longer
cancelled. -/
def hand (p : Pool) (id : Nat) (c : Caller) (proxy : Proxy) : Pool :=
  match c.purpose with
  | .recheck => p.finish id (.verdict (some proxy))
  | .take _ => finish { p with stats := p.stats.recordDispensed } id (.proxy proxy)
  | .dial _ =>
    put { p with stats := p.stats.recordDispensed } id
      (.caller { c with stage := .using proxy p.config.validationTimeout p.now })
  | .send failures _ _ timeout cloneable =>
    let p := { p with stats := p.stats.recordDispensed }
    if cloneable then
      (p.tell (.proxyChosen proxy.url (failures + 1))).put id
        (.caller { c with patience := none, stage := .using proxy timeout p.now })
    else p.finish id .notCloneable

/-- Tells a caller that its candidate has failed. -/
def reject (p : Pool) (id : Nat) (c : Caller) : Pool :=
  match c.purpose with
  | .recheck => p.finish id (.verdict none)
  | _ => p.put id (.caller { c with stage := .waiting })

/-- The re-dial of a candidate has come to an end. -/
def redialled? (p : Pool) (id : Nat) (good : Bool) : Option Pool :=
  match p.task? id with
  | some (.caller c) =>
    match c.stage with
    | .checking candidate life _ recycle _ =>
      let endpoint := candidate.endpoint
      if good then
        let p := (p.recycle recycle endpoint).unlock life
        match p.registry.entry? life with
        | some entry => some (p.hand id c entry.snapshot)
        | none => some (p.reject id c)
      else
        let p := ((p.tell (.skippedDead endpoint)).markBad life).1
        some (((p.recycle recycle endpoint).unlock life).reject id c)
    | _ => none
  | _ => none

/-- The tunnel through a caller's proxy is open, or has failed. -/
def dialled? (p : Pool) (id : Nat) (outcome : Except PoolError Unit) : Option Pool :=
  match p.task? id with
  | some (.caller c) =>
    match c.purpose, c.stage with
    | .dial address, .using proxy _ _ =>
      match outcome with
      | .ok () => some (p.finish id (.connected proxy))
      | .error e =>
        match (p.tell (.dialFailed address proxy.endpoint e)).reportFailure proxy.endpoint with
        | (p, true) => some (p.put id (.caller { c with stage := .waiting }))
        | (p, false) => some (p.finish id .overflowed)
    | _, _ => none
  | _ => none

/-- How a request through a proxy went. -/
inductive Exchange where
  | responded
  | failed (fault : HttpFault)
  /-- The proxy's location is unusable, so nothing was sent. -/
  | unusable (fault : HttpFault)
deriving DecidableEq, Repr

/-- A request through the caller's proxy has come to an end. A failure is
reported, and the caller tries the next proxy while failures are forgiven. -/
def responded? (p : Pool) (id : Nat) (outcome : Exchange) : Option Pool :=
  match p.task? id with
  | some (.caller c) =>
    match c.purpose, c.stage with
    | .send failures retries wait timeout cloneable, .using proxy _ _ =>
      match outcome with
      | .responded => some (p.finish id (.responded proxy))
      | .failed fault =>
        some (next (p.tell (.requestFailed proxy.url (failures + 1) fault)) c failures retries wait
          timeout cloneable proxy fault)
      | .unusable fault =>
        some (next (p.tell (.clientRefused proxy.url fault)) c failures retries wait
          timeout cloneable proxy fault)
    | _, _ => none
  | _ => none
where
  /-- Reports the proxy, and waits for another one or gives up. -/
  next (p : Pool) (c : Caller) (failures retries wait timeout : Nat) (cloneable : Bool)
      (proxy : Proxy) (fault : HttpFault) : Pool :=
    match p.reportFailure proxy.endpoint with
    | (p, false) => p.finish id .overflowed
    | (p, true) =>
      if retries < failures + 1 then p.finish id (.requestFailed fault)
      else
        p.put id (.caller { c with
          purpose := .send (failures + 1) retries wait timeout cloneable
          patience := some (Instant.deadline p.now wait)
          stage := .waiting })

/-! ## Calls are given up -/

/-- Puts a candidate back whose check was interrupted, if there is room. -/
def restore (p : Pool) (candidate : Proxy) : Pool :=
  if candidate.protocol = .unknown then p
  else if p.outputRoom candidate.protocol then p.deliver candidate
  else p.tell .candidateDropped

/-- A cancelled caller gets its answer. -/
def giveUp (p : Pool) (id : Nat) (c : Caller) : Pool :=
  match c.purpose with
  | .send _ _ wait _ _ => (p.tell (.noProxy wait p.stats.backlog)).finish id .noProxy
  | _ => p.finish id (.failed .cancelled)

/-- A caller whose patience has ended is cancelled. -/
def cancel? (p : Pool) (id : Nat) : Option Pool :=
  match p.task? id with
  | some (.caller c) =>
    match c.patience with
    | none => none
    | some patience =>
      if Instant.reached patience p.now then
        match c.stage with
        | .checking candidate life _ _ _ =>
          some (((p.unlock life).restore candidate).giveUp id c)
        | .waiting | .using _ _ _ => some (p.giveUp id c)
      else none
  | _ => none

/-- A caller is dropped without an answer. -/
def abandon? (p : Pool) (id : Nat) : Option Pool :=
  match p.task? id with
  | some (.caller c) =>
    match c.stage with
    | .checking _ life _ _ _ => some ((p.unlock life).remove id)
    | _ => some (p.remove id)
  | _ => none

end SocksPool.Pool
