import SocksPool.Pool.Circulation

/-!
# Validation rounds

A round takes an endpoint, asks both limiters, and then tries the protocols
in their order until one reaches an echo page. Success is noted on the life
that the round began with, and a copy goes to the output queue of the
life's protocol, which an earlier round may have settled. Failure of all
protocols is a bad mark and a strike; at the threshold the endpoint is
evicted, and otherwise it comes back when its window ends.

What an attempt comes to is an input here: the network is not part of the
pool.

## Main definitions

* `Pool.pick?` — an idle job takes an endpoint and begins a round.
* `Pool.attempted?` — an attempt comes to an end.
* `Pool.deliver?` — a round puts its copy on an output queue.
-/

namespace SocksPool.Pool

/-- Asks the registry and the limiters whether a round of the endpoint may
begin. A deferred endpoint is put back. -/
def openRound (p : Pool) (endpoint : String) (inSlot : Bool) : Pool × Option Round :=
  match p.registry.find? endpoint with
  | none => (p, none)
  | some life =>
    let (usage, throttle) := p.usage.check p.now endpoint
    let p := { p with usage }
    match throttle, p.backoff.retryAfter? p.now endpoint with
    | some wait, _ => ((p.tell (.throttled endpoint wait)).requeue endpoint wait, none)
    | none, some wait => ((p.tell (.backedOff endpoint wait)).requeue endpoint wait, none)
    | none, none =>
      let probe : Probe :=
        ⟨p.config.validationTimeout, p.config.echoEndpoints, p.config.userAgents⟩
      ({ p with stats := p.stats.recordChecked },
        some ⟨endpoint, life, probe, inSlot, .opening p.now⟩)

/-- Ends the task of a round. -/
def closeRound (p : Pool) (id : Nat) (inSlot : Bool) : Pool :=
  if inSlot then (p.remove id).releaseSlot else p.remove id

/-- An idle job takes the next endpoint off the pending queue. -/
def pick? (p : Pool) (id : Nat) : Option Pool :=
  match p.task? id, p.pending with
  | some (.idleJob _), endpoint :: rest =>
    match openRound { p with pending := rest } endpoint true with
    | (p, some round) => some (p.put id (.round round))
    | (p, none) => some (p.closeRound id true)
  | _, _ => none

/-- Begins a round of an endpoint outside the worker slots. -/
def validate (p : Pool) (endpoint : String) : Pool :=
  match p.openRound endpoint false with
  | (p, some round) => p.spawn (.round round)
  | (p, none) => p

/-- The round's last protocol has failed. -/
def failRound (p : Pool) (id : Nat) (r : Round) : Pool :=
  let p := { p with stats := p.stats.recordBad }
  let (p, timesBad) := p.markBad r.life
  match p.strike r.endpoint with
  | (p, none) =>
    if r.inSlot then p.crash.closeRound id true else p.crash.finish id .overflowed
  | (p, some window) =>
    let p :=
      if p.config.removeAfter ≤ timesBad then p.evict r.endpoint
      else (p.tell (.roundFailed r.endpoint timesBad window)).requeue r.endpoint window
    p.closeRound id r.inSlot

/-- A protocol has worked: the life notes it, and the round goes on to
deliver a copy. -/
def passRound (p : Pool) (id : Nat) (r : Round) (protocol : Protocol) (exit : Address) : Pool :=
  let registry := p.registry.update r.life (·.recordValidation p.now protocol exit)
  match registry.entry? r.life with
  | none => p.closeRound id r.inSlot
  | some entry =>
    let copy := entry.snapshot
    put
      (tell { p with registry, stats := p.stats.recordValid copy.protocol }
        (.validated r.endpoint copy.protocol exit))
      id (.round { r with stage := .delivering copy })

/-- An attempt of a round has come to an end. -/
def attempted? (p : Pool) (id : Nat) (outcome : Except PoolError Address) : Option Pool :=
  match p.task? id with
  | some (.round r) =>
    match r.stage with
    | .attempting protocol rest _ =>
      match outcome with
      | .ok exit => some (p.passRound id r protocol exit)
      | .error e =>
        let p := p.tell (.attemptFailed r.endpoint protocol e)
        match rest with
        | next :: more => some (p.put id (.round { r with stage := .attempting next more p.now }))
        | [] => some (p.failRound id r)
    | .delivering _ => none
  | _ => none

/-- A round puts its copy on the output queue. -/
def deliver? (p : Pool) (id : Nat) : Option Pool :=
  match p.task? id with
  | some (.round r) =>
    match r.stage with
    | .delivering copy =>
      if p.outputRoom copy.protocol then some ((p.deliver copy).closeRound id r.inSlot) else none
    | .attempting .. => none
  | _ => none

end SocksPool.Pool
