import SocksPool.Guarded
import SocksPool.Session.Call

/-!
# Commands of a session

A *command* is one thing that a user of a session does: a call of the pool,
a change of the network, a move of the clock. After each command everything
happens that can happen without the clock moving, and the log holds what
was told since the command began.

## Main definitions

* `Session.run` — runs one command.
-/

namespace SocksPool

/-- A command. -/
inductive Command where
  | load (raw : String)
  | loadList (content : String)
  /-- Loads the candidates of a file with the given bytes. -/
  | loadFile (content : ByteArray)
  | start
  | pause
  | resume
  | setStaleAfter (age : Nat)
  | setValidationTimeout (timeout : Nat)
  | setRecycling (recycle : Bool)
  | setRemoveAfter (count : Nat)
  | setEchoEndpoints (urls : List String)
  | setUserAgents (agents : List String)
  | setMaxWorkers (ceiling : Nat)
  | setWorkers (count : Nat)
  | setScaleThreshold (threshold : Nat)
  | enableScaler
  | disableScaler
  | tickScaler
  | closeWorkers
  | config
  | contains (endpoint : String)
  | entry (endpoint : String)
  /-- Takes a soft lock and keeps it until `unlock`. -/
  | lock (endpoint : String)
  | unlock (endpoint : String)
  | markBad (endpoint : String)
  | strike (endpoint : String)
  | checkUsage (endpoint : String)
  | evict (endpoint : String)
  | reportFailure (endpoint : String)
  | requeue (endpoint : String) (delay : Nat)
  /-- Registers an endpoint as validated and queues a copy. -/
  | seed (endpoint : String) (protocol : Protocol) (exit : Address)
  /-- Takes everything off the pending queue. -/
  | takePending
  | advance (span : Nat)
  | settle
  | serve (place : String) (server : Server)
  | kill (place : String)
  /-- What the web servers saw since this was asked last. -/
  | sightings
  /-- Makes a call and waits for it. -/
  | perform (call : Call) (spans : List Nat)
  /-- Makes a call under a name, without waiting for it. -/
  | begin (name : String) (call : Call)
  /-- The outcome of a call that was begun under a name. -/
  | join (name : String)
  /-- Takes a number of proxies that are there. -/
  | drain (wanted : Option Protocol) (count : Nat)

/-- The answer to a command. -/
inductive Reply where
  | nothing
  | ok
  | rejected (error : PoolError)
  | created (isNew : Bool)
  | added (count : Nat)
  | flag (value : Bool)
  /-- Whether a soft lock was free, if there is one. -/
  | locked (taken : Option Bool)
  | entry (entry : Option Entry)
  | badMarks (count : Option Nat)
  | change (change : Int)
  | window (span : Nat)
  | throttle (wait : Option Nat)
  | seeded (copy : Proxy) (queued : Option Bool)
  | endpoints (endpoints : List String)
  | sightings (sightings : List Sighting)
  | config (config : Config)
  /-- What a call came to; nothing if it waits in vain. -/
  | outcome (outcome : Option Outcome)
  | batch (outcomes : List (Option Outcome))
  /-- The command stopped halfway, because a backoff deadline does not
  exist. -/
  | overflowed

/-- A session with the guards and the calls that its user keeps. -/
structure Workbench where
  session : Session
  /-- The guards that are held, by their endpoints. -/
  locks : Table Nat := {}
  tickets : Table Ticket := {}

namespace Workbench

/-- A session with a pool of its own slots, or with the given ones. -/
def new (config : Config) (slots : Option Slots) (network : Network) :
    Except PoolError Workbench :=
  let pool := match slots with
    | some slots => Pool.withSlots config slots
    | none => Pool.new config
  pool.map fun pool => { session := { pool, network } }

/-- The pool of the session. -/
def pool (w : Workbench) : Pool := w.session.pool

/-- Replaces the pool. -/
def withPool (w : Workbench) (pool : Pool) : Workbench :=
  { w with session := { w.session with pool } }

/-- Changes the network. -/
def onNetwork (w : Workbench) (change : Network → Network) : Workbench :=
  { w with session := { w.session with network := change w.session.network } }

/-- A change of the pool that may be rejected. -/
def attempt (w : Workbench) : Except PoolError Pool → Workbench × Reply
  | .ok pool => (w.withPool pool, .ok)
  | .error e => (w, .rejected e)

/-- Loads the candidates of a file. -/
def loadFile (w : Workbench) (content : ByteArray) : Workbench × Reply :=
  match String.fromUTF8? content with
  | none => (w, .rejected (.io .fileNotUtf8))
  | some text =>
    let (pool, added) := w.pool.loadAll (Endpoint.parseList text)
    (w.withPool pool, .added added)

/-- The registry with the guards that are held. -/
def guarded (w : Workbench) : Guarded := ⟨w.pool.registry, w.locks⟩

/-- Replaces the registry and the guards. -/
def withGuarded (w : Workbench) (g : Guarded) : Workbench :=
  { w.withPool { w.pool with registry := g.registry } with locks := g.guards }

/-- Takes the soft lock of an endpoint and keeps its guard. -/
def lock (w : Workbench) (endpoint : String) : Workbench × Reply :=
  match w.pool.registry.find? endpoint with
  | none => (w, .locked none)
  | some life =>
    match w.guarded.lock? endpoint life with
    | none => (w, .locked (some false))
    | some guarded => (w.withGuarded guarded, .locked (some true))

/-- Drops the guard of an endpoint. -/
def unlock (w : Workbench) (endpoint : String) : Workbench × Reply :=
  match w.guarded.unlock? endpoint with
  | some guarded => (w.withGuarded guarded, .flag true)
  | none => (w, .flag false)

/-- Adds a bad mark. -/
def markBad (w : Workbench) (endpoint : String) : Workbench × Reply :=
  match w.pool.registry.find? endpoint with
  | none => (w, .badMarks none)
  | some life =>
    let (pool, count) := w.pool.markBad life
    (w.withPool pool, .badMarks (some count))

/-- Registers an endpoint as validated and queues a copy. -/
def seed (w : Workbench) (endpoint : String) (protocol : Protocol) (exit : Address) :
    Workbench × Reply :=
  let p := w.pool
  let (registry, life, _) := p.registry.add endpoint
  let registry := registry.update life (·.recordValidation p.now protocol exit)
  let copy := ((registry.entry? life).getD { endpoint }).snapshot
  let p := { p with registry, stats := p.stats.recordValid protocol }
  if copy.protocol = .unknown then (w.withPool p, .seeded copy none)
  else if p.outputRoom copy.protocol then (w.withPool (p.deliver copy), .seeded copy (some true))
  else (w.withPool p, .seeded copy (some false))

/-- Takes what is on the pending queue, and what moves in, at most `n`
times. -/
def takePendingSteps : Nat → Workbench → Workbench × List String
  | 0, w => (w, [])
  | n + 1, w =>
    match w.pool.pending with
    | [] => (w, [])
    | taken =>
      let w := w.withPool { w.pool with pending := [] }
      let (w, more) := takePendingSteps n { w with session := w.session.settle }
      (w, taken ++ more)

/-- Everything that is on its way to the pending queue can be on it once. -/
def takePending (w : Workbench) : Workbench × Reply :=
  let p := w.pool
  let (w, taken) :=
    takePendingSteps (p.intake.length + p.pending.length + p.tasks.length + p.registry.size + 1) w
  (w, .endpoints (taken.mergeSort fun a b => decide (a ≤ b)))

/-- Makes a call and waits for it. -/
def perform (w : Workbench) (call : Call) (spans : List Nat) : Workbench × Option Outcome :=
  let (session, outcome) := w.session.perform call spans
  ({ w with session }, outcome)

/-- Takes `n` proxies that are there. -/
def drainSteps (wanted : Option Protocol) : Nat → Workbench → Workbench × List (Option Outcome)
  | 0, w => (w, [])
  | n + 1, w =>
    let (w, outcome) := w.perform (.get wanted none) []
    let (w, more) := drainSteps wanted n w
    (w, outcome :: more)

/-- What the web servers saw since this was asked last. -/
def takeSightings (w : Workbench) : Workbench × Reply :=
  (w.onNetwork ({ · with sightings := [] }), .sightings w.session.network.sightings)

/-- Runs a command, up to what happens after it. -/
def act (w : Workbench) : Command → Workbench × Reply
  | .load raw =>
    match w.pool.load raw with
    | (pool, .ok isNew) => (w.withPool pool, .created isNew)
    | (pool, .error e) => (w.withPool pool, .rejected e)
  | .loadList content =>
    let (pool, added) := w.pool.loadList content
    (w.withPool pool, .added added)
  | .loadFile content => w.loadFile content
  | .start => w.attempt w.pool.start
  | .pause => w.attempt w.pool.pause
  | .resume => w.attempt w.pool.resume
  | .setStaleAfter age => (w.withPool (w.pool.setStaleAfter age), .nothing)
  | .setValidationTimeout timeout => w.attempt (w.pool.setValidationTimeout timeout)
  | .setRecycling recycle => (w.withPool (w.pool.setRecycling recycle), .nothing)
  | .setRemoveAfter count => w.attempt (w.pool.setRemoveAfter count)
  | .setEchoEndpoints urls => w.attempt (w.pool.setEchoEndpoints urls)
  | .setUserAgents agents => (w.withPool (w.pool.setUserAgents agents), .nothing)
  | .setMaxWorkers ceiling => w.attempt (w.pool.setMaxWorkers ceiling)
  | .setWorkers count => w.attempt (w.pool.setWorkers count)
  | .setScaleThreshold threshold => (w.withPool (w.pool.setScaleThreshold threshold), .nothing)
  | .enableScaler => (w.withPool w.pool.enableScaler, .nothing)
  | .disableScaler => (w.withPool w.pool.disableScaler, .nothing)
  | .tickScaler =>
    let (pool, change) := w.pool.tickScaler
    (w.withPool pool, .change change)
  | .closeWorkers => (w.withPool w.pool.closeWorkers, .nothing)
  | .config => (w, .config w.pool.config)
  | .contains endpoint => (w, .flag (w.pool.registry.contains endpoint))
  | .entry endpoint => (w, .entry (w.pool.registry.get? endpoint))
  | .lock endpoint => w.lock endpoint
  | .unlock endpoint => w.unlock endpoint
  | .markBad endpoint => w.markBad endpoint
  | .strike endpoint =>
    match w.pool.strike endpoint with
    | (pool, some window) => (w.withPool pool, .window window)
    | (pool, none) => (w.withPool pool, .overflowed)
  | .checkUsage endpoint =>
    let (usage, wait) := w.pool.usage.check w.pool.now endpoint
    (w.withPool { w.pool with usage }, .throttle wait)
  | .evict endpoint => (w.withPool (w.pool.evict endpoint), .nothing)
  | .reportFailure endpoint =>
    match w.pool.reportFailure endpoint with
    | (pool, true) => (w.withPool pool, .nothing)
    | (pool, false) => (w.withPool pool, .overflowed)
  | .requeue endpoint delay => (w.withPool (w.pool.requeue endpoint delay), .nothing)
  | .seed endpoint protocol exit => w.seed endpoint protocol exit
  | .takePending => w.takePending
  | .advance span => (w.withPool (w.pool.advance span), .nothing)
  | .settle => (w, .nothing)
  | .serve place server => (w.onNetwork (·.serve place server), .nothing)
  | .kill place => (w.onNetwork (·.kill place), .nothing)
  | .sightings => w.takeSightings
  | .perform call spans =>
    let (w, outcome) := w.perform call spans
    (w, .outcome outcome)
  | .begin name call =>
    let (session, ticket) := w.session.begin call
    ({ w with session, tickets := w.tickets.put name ticket }, .nothing)
  | .join name => (w, .outcome ((w.tickets.get? name).bind w.session.outcome?))
  | .drain wanted count =>
    let (w, outcomes) := drainSteps wanted count w
    (w, .batch outcomes)

/-- Runs a command and what happens after it. The log holds what was told
since the command began. -/
def run (w : Workbench) (c : Command) : Workbench × Reply :=
  let (w, reply) := (w.withPool { w.pool with log := [] }).act c
  ({ w with session := w.session.settle }, reply)

end Workbench

end SocksPool
