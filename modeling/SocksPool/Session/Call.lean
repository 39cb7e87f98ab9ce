import SocksPool.Session.State

/-!
# Calls that wait

Some calls do not return at once: they wait for a proxy, for the network or
for a round to end. Such a call is begun, which gives a *ticket*, and the
ticket tells its outcome once there is one. Whoever waits for an outcome
moves the clock when nothing else can happen.

## Main definitions

* `Session.begin` — begins a call.
* `Session.await` — waits for its outcome.
* `Session.drop` — gives it up.
-/

namespace SocksPool

/-- A call that waits. -/
inductive Call where
  /-- A validation round. -/
  | validate (endpoint : String)
  /-- Whether a candidate may be dispensed. -/
  | stillGood (endpoint : String)
  | get (wanted : Option Protocol) (cancel : Option Nat)
  | dial (network address : String) (cancel : Option Nat)
  /-- Dials through one proxy, which need not be in the pool. -/
  | dialer (dialer : Dialer) (timeout : Nat) (target : String)
  | request (location : String) (cloneable : Bool)
  /-- Loads candidates from the web or from a file. -/
  | loadSource (source : String)
deriving Repr

/-- What a call is known by. -/
inductive Ticket where
  | finished (outcome : Outcome)
  | task (id : Nat)
  | errand (id : Nat)
deriving DecidableEq, Repr

namespace Session

/-! ## Beginning -/

/-- A candidate of an endpoint about which nothing else is known. -/
def candidate (endpoint : String) : Proxy :=
  { endpoint, protocol := .unknown, exit := none, lastValidated := none,
    timesValidated := 0, timesBad := 0 }

/-- Begins a call that becomes a task of the pool. -/
def enter (s : Session) (pool : Pool) : Session × Ticket :=
  ({ s with pool }, .task s.pool.nextTask)

/-- Keeps a call beside the pool that waits in vain. -/
def keepErrand (s : Session) (errand : Errand) : Session × Ticket :=
  ({ s with errands := s.errands ++ [(s.nextErrand, errand)], nextErrand := s.nextErrand + 1 },
    .errand s.nextErrand)

/-- Dials through one proxy. A call without any time is late as soon as it has
to wait for the proxy, but not before the texts are read. -/
def beginDialer (s : Session) (d : Dialer) (timeout : Nat) (target : String) :
    Session × Ticket :=
  let deadline := Instant.deadline s.pool.now timeout
  let late := Outcome.failed (.dialTimeout d.endpoint)
  match d.target target with
  | .error e => (s, .finished (.failed e))
  | .ok found =>
    if timeout = 0 ∧ (Socket.find d.endpoint).toBool then (s, .finished late)
    else
      match s.listen (some deadline) (d.dialTarget s.network found) with
      | (s, some (.ok far), _) => (s, .finished (.connected (Dialer.reply? "ping" far)))
      | (s, some (.error e), _) => (s, .finished (.failed e))
      | (s, none, _) => s.keepErrand ⟨some deadline, late⟩

/-- The directories at the top of a file tree. -/
def topDirectories : List String :=
  ["bin", "boot", "dev", "etc", "home", "lib", "media", "mnt", "opt", "proc", "root", "run",
    "sbin", "srv", "sys", "tmp", "usr", "var"]

/-- Whether a path names a directory: it has no part but dots, or leads to
the top of the file tree. -/
def isDirectory (path : List Char) : Bool :=
  let parts := ((Text.pieces '/' path).map String.ofList).filter (· ∉ ["", ".", ".."])
  !path.isEmpty && (parts.isEmpty ||
    (path.head? = some '/' && parts.length = 1 && parts.all (· ∈ topDirectories)))

/-- Why a file cannot be read. No path leads to a file. -/
def fileFault (path : List Char) : IoFault :=
  if path.contains '\x00' then .fileNameHasNul
  else if isDirectory path then .fileIsDirectory
  else .fileMissing

/-- Loads candidates from a page or a file. -/
def beginLoadSource (s : Session) (source : String) : Session × Ticket :=
  if source.startsWith "http" then
    match s.listen none (Web.read s.network ⟨.direct, none⟩ source) with
    | (s, some (.ok content), _) =>
      let s := s.calm
      let (pool, added) := s.pool.loadFetched source content
      ({ s with pool }, .finished (.added added))
    | (s, some (.error fault), _) => (s, .finished (.failed (.http fault)))
    | (s, none, _) => s.keepErrand ⟨none, .done⟩
  else (s, .finished (.failed (.io (fileFault source.toList))))

/-- Begins a call. -/
def begin (s : Session) : Call → Session × Ticket
  | .validate endpoint =>
    let pool := s.pool.validate endpoint
    match pool.task? s.pool.nextTask with
    | some (.round _) => s.enter pool
    | _ => ({ s with pool }, .finished .done)
  | .stillGood endpoint =>
    let (pool, id) := s.pool.stillGood (candidate endpoint)
    ({ s with pool }, .task id)
  | .get wanted cancel => s.enter (s.pool.get wanted cancel)
  | .dial network address cancel =>
    match s.pool.dial network address cancel with
    | .ok pool => s.enter pool
    | .error e => (s, .finished (.failed e))
  | .dialer dialer timeout target => s.beginDialer dialer timeout target
  | .request location cloneable =>
    let s := { s with pool := s.pool.attach }
    match Web.location location with
    | .error fault => (s, .finished (.requestFailed fault))
    | .ok _ =>
      enter { s with wishes := (s.pool.nextTask, location) :: s.wishes } (s.pool.send cloneable)
  | .loadSource source => s.beginLoadSource source

/-! ## Waiting -/

/-- What a caller learns from the pool's answer. -/
def readAnswer (s : Session) (id : Nat) : Answer → Outcome
  | .proxy proxy => .proxy proxy
  | .verdict proxy => .verdict proxy
  | .failed e => .failed e
  | .connected _ => (s.findings.lookup id).getD .done
  | .responded _ => (s.findings.lookup id).getD .done
  | .requestFailed fault => .requestFailed fault
  | .noProxy => .noProxy
  | .notCloneable => .notCloneable
  | .overflowed => .overflowed

/-- The outcome of a call, once there is one. A round has no answer of its
own; it is done when its task is gone. -/
def outcome? (s : Session) : Ticket → Option Outcome
  | .finished outcome => some outcome
  | .task id =>
    match s.pool.answers.lookup id with
    | some answer => some (s.readAnswer id answer)
    | none => if (s.pool.task? id).isNone then some .done else none
  | .errand id =>
    match s.errands.lookup id with
    | some ⟨some deadline, surrender⟩ =>
      if Instant.reached deadline s.pool.now then some surrender else none
    | _ => none

/-- Moves the clock, and lets happen what is due then. -/
def advance (s : Session) (span : Nat) : Session :=
  settle { s with pool := s.pool.advance span }

/-- Waits for the outcome of a call. Whenever nothing can happen, the clock
moves by the next span. -/
def await (s : Session) (ticket : Ticket) : List Nat → Session × Option Outcome
  | [] =>
    let s := s.settle
    (s, s.outcome? ticket)
  | span :: more =>
    let s := s.settle
    match s.outcome? ticket with
    | some outcome => (s, some outcome)
    | none => await { s with pool := s.pool.advance span } ticket more

/-- Gives a call up. A round goes on. -/
def drop (s : Session) (ticket : Ticket) : Session :=
  match ticket with
  | .finished _ => s
  | .task id => { s with pool := (s.pool.abandon? id).getD s.pool }
  | .errand id => { s with errands := s.errands.filter fun entry => entry.1 != id }

/-- Makes a call and waits for its outcome. A call without one is given up. -/
def perform (s : Session) (call : Call) (spans : List Nat) : Session × Option Outcome :=
  let (s, ticket) := s.begin call
  match s.await ticket spans with
  | (s, some outcome) => (s, some outcome)
  | (s, none) => ((s.drop ticket).settle, none)

end Session

end SocksPool
