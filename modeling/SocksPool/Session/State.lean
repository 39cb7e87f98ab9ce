import SocksPool.Network.Dialer
import SocksPool.Network.Probe
import SocksPool.Pool.Lifecycle
import SocksPool.Pool.Move

/-!
# Sessions

A *session* runs a pool on a scripted network. The pool says what its tasks
wait for, the network says what they get, and the session carries the news
from one to the other and keeps what callers learn beside the pool's own
answer: what came back through a tunnel, what a page said.

A task whose exchange with the network does not come to an end is noted as
*stalled*, with the move that it takes when it gives up.

## Main definitions

* `Session.calm` — all that happens without the network.
* `Session.proceed?` — the next thing that happens at the present time.
* `Session.settle` — all that happens until the clock has to move.
-/

namespace SocksPool

/-- What a call of a session comes to. -/
inductive Outcome where
  | done
  | failed (error : PoolError)
  | proxy (proxy : Proxy)
  | verdict (proxy : Option Proxy)
  | connected (reply : Option String)
  | response (status : Nat) (body : String)
  | requestFailed (fault : HttpFault)
  | bodyFailed (fault : HttpFault)
  | noProxy
  | notCloneable
  | added (count : Nat)
  /-- The call stopped halfway, because a backoff deadline does not exist. -/
  | overflowed
deriving DecidableEq, Repr

/-- A task that waits for something that does not come. -/
structure Stall where
  id : Nat
  task : Task
  /-- What the task does when it gives up. -/
  surrender : Move

/-- A call beside the pool that waits for something that does not come. -/
structure Errand where
  deadline : Option Nat
  surrender : Outcome
deriving DecidableEq, Repr

/-- A pool on a scripted network. -/
structure Session where
  pool : Pool
  network : Network := {}
  stalls : List Stall := []
  /-- What the requests under way ask for, by the number of their task. -/
  wishes : List (Nat × String) := []
  /-- What callers learned beside the pool's answer, by their task. -/
  findings : List (Nat × Outcome) := []
  /-- Calls beside the pool that wait in vain. -/
  errands : List (Nat × Errand) := []
  nextErrand : Nat := 0

namespace Session

/-! ## News from the network -/

/-- Runs a talk at the present time. -/
def listen {ε α : Type} (s : Session) (deadline : Option Nat) (talk : Talk ε α) :
    Session × Option (Except ε α) × String :=
  let (outcome, course) := talk.run { now := s.pool.now, deadline }
  ({ s with
      pool := { s.pool with now := course.now }
      network := { s.network with sightings := s.network.sightings ++ course.sightings } },
    outcome, course.asking)

/-- What a task learns from the network: nothing if its exchange does not
come to an end, and otherwise the move it makes and what it found. -/
structure News where
  move : Option Move
  finding : Option Outcome := none
  surrender : Move

/-- The outcome of an answered request. -/
def readResponse (r : Response) : Outcome :=
  match Web.body r with
  | .ok body => .response r.status body
  | .error fault => .bodyFailed fault

/-- The route of a request through a proxy that was dispensed. -/
def requestRoute (proxy : Proxy) : Route :=
  .through proxy.protocol (proxy.protocol != .socks4) proxy.endpoint

/-- Sends a request through a proxy. -/
def sendThrough (n : Network) (proxy : Proxy) (wish : String) : Talk HttpFault Response :=
  match Web.location wish with
  | .error fault => throw fault
  | .ok url => Web.fetch n ⟨requestRoute proxy, none⟩ url

/-- What a task that waits for the network learns at the present time. -/
def news? (s : Session) (id : Nat) (task : Task) : Option (Session × News) :=
  let deadline := task.networkDeadline?
  match task with
  | .round ⟨endpoint, _, probe, _, .attempting protocol _ _⟩ =>
    let (s, outcome, asking) := s.listen deadline (probe.check s.network protocol endpoint)
    some (s, {
      move := outcome.map .attempted
      surrender := .attempted (.error (.http (.request asking))) })
  | .caller ⟨_, _, .checking candidate _ _ _ _⟩ =>
    match Socket.find candidate.endpoint with
    | .error _ => some (s, { move := some (.redialled false), surrender := .redialled false })
    | .ok socket =>
      let (s, outcome, _) := s.listen deadline (Tunnel.connect s.network socket)
      some (s, {
        move := outcome.map fun o => .redialled o.toBool
        surrender := .redialled false })
  | .caller ⟨.dial address, _, .using proxy _ _⟩ =>
    let dialer : Dialer := ⟨proxy.protocol, proxy.endpoint⟩
    let (s, outcome, _) := s.listen deadline (dialer.dial s.network address)
    some (s, {
      move := outcome.map fun o => .dialled (o.map fun _ => ())
      finding := (outcome.bind Except.toOption).map fun far =>
        .connected (Dialer.reply? "ping" far)
      surrender := .dialled (.error (.dialTimeout proxy.endpoint)) })
  | .caller ⟨.send _ _ _ _ _, _, .using proxy _ _⟩ =>
    if !Url.isProxyUrl proxy.url then
      let move := Move.responded (.unusable .unreadable)
      some (s, { move := some move, surrender := move })
    else
      let wish := (s.wishes.lookup id).getD ""
      let (s, outcome, asking) := s.listen deadline (sendThrough s.network proxy wish)
      some (s, {
        move := outcome.map fun o =>
          .responded (match o with
            | .ok _ => .responded
            | .error fault => .failed fault)
        finding := (outcome.bind Except.toOption).map readResponse
        surrender := .responded (.failed (.request asking)) })
  | _ => none

/-! ## What happens without the network -/

/-- Whether a task is known to wait in vain. -/
def isStalled (s : Session) (entry : Nat × Task) : Bool :=
  s.stalls.any fun stall => stall.id == entry.1 && stall.task == entry.2

/-- The timers of a task in a session: its own, and the one that ends a
stalled exchange. -/
def timers (s : Session) (entry : Nat × Task) : List (Nat × Move) :=
  entry.2.timers ++
    (s.stalls.filter fun stall => stall.id == entry.1 && stall.task == entry.2).filterMap
      fun stall => entry.2.networkDeadline?.map (·, stall.surrender)

/-- The timer that went off first. -/
def firstTimer? : List (Nat × Nat × Move) → Option (Nat × Nat × Move)
  | [] => none
  | timer :: more =>
    match firstTimer? more with
    | none => some timer
    | some other =>
      if Instant.ceilMilli other.1 < Instant.ceilMilli timer.1 then some other else some timer

/-- A timer goes off. -/
def ring? (s : Session) : Option Session := do
  let (_, id, move) ← firstTimer? (s.pool.dueTimers s.timers)
  let pool ← s.pool.move? id move
  return { s with pool }

/-- The next thing that happens without the network: a task moves, or a
timer goes off. -/
def proceedLocally? (s : Session) : Option Session :=
  match s.pool.proceed? with
  | some pool => some { s with pool }
  | none => s.ring?

/-- Takes a step again and again while it is possible, but at most `n`
times. -/
def exhaust (step? : Session → Option Session) : Nat → Session → Session
  | 0, s => s
  | n + 1, s =>
    match step? s with
    | some next => exhaust step? n next
    | none => s

/-- How many things can happen until the clock has to move: every endpoint
is validated at most as often as its quota and its bad marks allow, and in
between passes through every queue and every task once. -/
def settleBound (s : Session) : Nat :=
  let p := s.pool
  let things := p.tasks.length + p.intake.length + p.pending.length + p.outputs.socks4.length +
    p.outputs.socks4a.length + p.outputs.socks5.length + p.registry.size + p.slots.capacity + 1
  64 * things * things * (p.usage.quota.burst + p.config.removeAfter + 1)

/-- All that happens without the network at the present time. -/
def calm (s : Session) : Session := exhaust proceedLocally? s.settleBound s

/-! ## What happens next -/

/-- Brings a task its news. If the clock has moved meanwhile, everything
that became due happens first, and may end the task. -/
def inform? (s : Session) (entry : Nat × Task) : Option Session :=
  if s.isStalled entry then none
  else
    match s.news? entry.1 entry.2 with
    | none => none
    | some (s, news) =>
      match news.move with
      | none => some { s with stalls := s.stalls ++ [⟨entry.1, entry.2, news.surrender⟩] }
      | some move =>
        let s := s.calm
        match s.pool.move? entry.1 move with
        | none => some s
        | some pool =>
          some { s with pool, findings := (news.finding.toList.map (entry.1, ·)) ++ s.findings }

/-- The next thing that happens at the present time. -/
def proceed? (s : Session) : Option Session :=
  s.proceedLocally?.or (s.pool.tasks.findSome? s.inform?)

/-- All that happens until the clock has to move. -/
def settle (s : Session) : Session := exhaust proceed? s.settleBound s

end Session

end SocksPool
