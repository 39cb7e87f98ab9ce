import SocksPool.Proofs.Operations
import SocksPool.Proofs.Run

/-!
# What one deed does to the circulation

A deed can do many things, but few of them concern an endpoint. `Turn p d q`
lists these, one constructor each, with the condition under which it happens:
a token is taken from one place and put in another, or lost; a life is marked,
locked or unlocked; a name is registered or deleted. `q` is `p` with this one
change. Whatever else the deed does comes after it and is aside.

Everything that is proved about runs is read off this list. When a step
function changes, its lemma changes, and no later proof opens it.

## Main definitions

* `Turn` — the changes that concern an endpoint.
* `Turns` — such a change, and then changes aside.
-/

namespace SocksPool.Pool

/-- The part of a deed that concerns an endpoint. -/
inductive Turn (p : Pool) : Deed → Pool → Prop where
  /-- Nothing of it does. -/
  | idled {d : Deed} : Turn p d p
  | adjusted {setting : Setting} {config : Config}
      (hrecycle : config.recycle = p.config.recycle ∨ setting = .recycling config.recycle) :
      Turn p (.adjust setting) { p with config }
  | loaded {d : Deed} (raws : List String) : Turn p d (p.loadAll raws).1
  /-- A dispensed proxy has misbehaved. -/
  | reported {d : Deed} {life : Nat} {endpoint : String}
      (hfind : p.registry.find? endpoint = some life) : Turn p d (p.punish life endpoint)
  | reportedOut {d : Deed} {life : Nat} {endpoint : String}
      (hfind : p.registry.find? endpoint = some life) (hmarks : p.Exhausts life) :
      Turn p d ((p.punish life endpoint).evict endpoint)
  /-- An intake loop stops and hands its endpoint back. -/
  | handedBack {id epoch : Nat} {endpoint : String}
      (htask : p.task? id = some (.intakeLoop epoch (.holding endpoint))) :
      Turn p (.move id .halt) ((p.remove id).pushIntake endpoint)
  | received {id epoch : Nat} {endpoint : String} {rest : List String}
      (htask : p.task? id = some (.intakeLoop epoch .receiving))
      (hintake : p.intake = endpoint :: rest) :
      Turn p (.move id .receive)
        (put { p with intake := rest } id (.intakeLoop epoch (.holding endpoint)))
  | forwarded {id epoch : Nat} {endpoint : String}
      (htask : p.task? id = some (.intakeLoop epoch (.holding endpoint))) :
      Turn p (.move id .forward) ((p.remove id).pushPending endpoint)
  | woke {id due : Nat} {endpoint : String}
      (htask : p.task? id = some (.requeue endpoint (some due))) :
      Turn p (.move id .wake) (p.put id (.requeue endpoint none))
  | cameBack {id : Nat} {endpoint : String}
      (htask : p.task? id = some (.requeue endpoint none)) :
      Turn p (.move id .comeBack) ((p.remove id).pushPending endpoint)
  /-- The endpoint was evicted while it was queued. -/
  | skipped {id : Nat} {endpoint : String} {rest : List String}
      (hpending : p.pending = endpoint :: rest) (hfind : p.registry.find? endpoint = none) :
      Turn p (.move id .pick) { p with pending := rest }
  /-- A limiter does not admit a round now. -/
  | deferred {id : Nat} {endpoint : String} {rest : List String} (due : Option Nat)
      (hpending : p.pending = endpoint :: rest) :
      Turn p (.move id .pick) (spawn { p with pending := rest } (.requeue endpoint due))
  | opened {id epoch : Nat} {rest : List String} (r : Round)
      (htask : p.task? id = some (.idleJob epoch)) (hpending : p.pending = r.endpoint :: rest)
      (hfind : p.registry.find? r.endpoint = some r.life)
      (hstage : ∀ copy, r.stage ≠ .delivering copy) :
      Turn p (.move id .pick) (put { p with pending := rest } id (.round r))
  | delivered {id : Nat} {r : Round} {copy : Proxy} (htask : p.task? id = some (.round r))
      (hstage : r.stage = .delivering copy) (hroom : p.outputRoom copy.protocol = true) :
      Turn p (.move id .deliver) ((p.remove id).deliver copy)
  /-- The candidate's name is gone, or its life is locked. -/
  | passedOver {id : Nat} {protocol : Protocol} {candidate : Proxy} {rest : List Proxy}
      (hqueue : p.outputs.get protocol = candidate :: rest)
      (hgate : ∀ life, p.registry.find? candidate.endpoint = some life →
        p.registry.IsLocked life ∨ p.registry.entry? life = none) :
      Turn p (.move id (.dispense protocol)) { p with outputs := p.outputs.set protocol rest }
  | struckOff {id life : Nat} {protocol : Protocol} {candidate : Proxy} {rest : List Proxy}
      (hqueue : p.outputs.get protocol = candidate :: rest)
      (hfind : p.registry.find? candidate.endpoint = some life)
      (hmarks : p.config.removeAfter ≤ p.registry.badMarks life) :
      Turn p (.move id (.dispense protocol))
        (evict { p with outputs := p.outputs.set protocol rest } candidate.endpoint)
  /-- The candidate is backed off or stale. -/
  | sentBack {id : Nat} {protocol : Protocol} {candidate : Proxy} {rest : List Proxy}
      (hqueue : p.outputs.get protocol = candidate :: rest) :
      Turn p (.move id (.dispense protocol))
        (recycle { p with outputs := p.outputs.set protocol rest } p.config.recycle
          candidate.endpoint)
  | checked {id life : Nat} {c : Caller} {protocol : Protocol} {candidate : Proxy}
      {rest : List Proxy} {locked : Registry} (htask : p.task? id = some (.caller c))
      (hwaiting : c.stage = .waiting) (hqueue : p.outputs.get protocol = candidate :: rest)
      (hfind : p.registry.find? candidate.endpoint = some life)
      (hlock : p.registry.tryLock? life = some locked) :
      Turn p (.move id (.dispense protocol))
        (put { p with registry := locked, outputs := p.outputs.set protocol rest } id
          (.caller { c with stage := p.checkingStage candidate life }))
  | cleared {id life timeout since : Nat} {c : Caller} {candidate : Proxy} {wanted : Bool}
      (htask : p.task? id = some (.caller c))
      (hstage : c.stage = .checking candidate life timeout wanted since) :
      Turn p (.move id (.redialled true))
        (((p.remove id).recycle wanted candidate.endpoint).unlock life)
  | refused {id life timeout since : Nat} {c : Caller} {candidate : Proxy} {wanted : Bool}
      (htask : p.task? id = some (.caller c))
      (hstage : c.stage = .checking candidate life timeout wanted since) :
      Turn p (.move id (.redialled false))
        ((((p.remove id).markBad life).1.recycle wanted candidate.endpoint).unlock life)
  | restored {id life timeout since : Nat} {c : Caller} {candidate : Proxy} {wanted : Bool}
      (htask : p.task? id = some (.caller c))
      (hstage : c.stage = .checking candidate life timeout wanted since)
      (hroom : p.outputRoom candidate.protocol = true) :
      Turn p (.move id .cancel) (((p.remove id).unlock life).deliver candidate)
  /-- A cancelled caller finds no room for its candidate. -/
  | overflowed {id life timeout since : Nat} {c : Caller} {candidate : Proxy} {wanted : Bool}
      (htask : p.task? id = some (.caller c))
      (hstage : c.stage = .checking candidate life timeout wanted since)
      (hroom : p.outputRoom candidate.protocol = false) :
      Turn p (.move id .cancel) ((p.remove id).unlock life)
  /-- A dropped caller takes its candidate with it. -/
  | dropped {id life timeout since : Nat} {c : Caller} {candidate : Proxy} {wanted : Bool}
      (htask : p.task? id = some (.caller c))
      (hstage : c.stage = .checking candidate life timeout wanted since) :
      Turn p (.move id .abandon) ((p.remove id).unlock life)
  /-- An attempt fails, and the next protocol is tried. -/
  | retried {id : Nat} {r : Round} {e : PoolError} (protocol : Protocol) (rest : List Protocol)
      (htask : p.task? id = some (.round r)) :
      Turn p (.move id (.attempted (.error e)))
        (p.put id (.round { r with stage := .attempting protocol rest p.now }))
  | passed {id : Nat} {r : Round} {protocol : Protocol} {exit : Address} {entry : Entry}
      (htask : p.task? id = some (.round r))
      (hentry : Registry.entry?
        (p.registry.update r.life (·.recordValidation p.now protocol exit)) r.life = some entry) :
      Turn p (.move id (.attempted (.ok exit)))
        (put { p with
          registry := p.registry.update r.life (·.recordValidation p.now protocol exit) } id
          (.round { r with stage := .delivering entry.snapshot }))
  /-- There is no such life. -/
  | vanished {id : Nat} {r : Round} {exit : Address} (htask : p.task? id = some (.round r))
      (hentry : p.registry.entry? r.life = none) :
      Turn p (.move id (.attempted (.ok exit))) (p.remove id)
  /-- The clock cannot represent the end of the strike's window. -/
  | failedHalfway {id since : Nat} {r : Round} {protocol : Protocol} {e : PoolError}
      (htask : p.task? id = some (.round r)) (hlast : r.stage = .attempting protocol [] since)
      (hwindow : (p.backoff.strike p.now r.endpoint).2 = none) :
      Turn p (.move id (.attempted (.error e)))
        ((p.remove id).punish r.life r.endpoint).crash
  | failedOut {id since : Nat} {r : Round} {protocol : Protocol} {e : PoolError}
      (htask : p.task? id = some (.round r)) (hlast : r.stage = .attempting protocol [] since)
      (hwindow : (p.backoff.strike p.now r.endpoint).2.isSome = true)
      (hmarks : p.Exhausts r.life) :
      Turn p (.move id (.attempted (.error e)))
        (((p.remove id).punish r.life r.endpoint).evict r.endpoint)
  | failedKept {id since window : Nat} {r : Round} {protocol : Protocol} {e : PoolError}
      (htask : p.task? id = some (.round r)) (hlast : r.stage = .attempting protocol [] since)
      (hwindow : (p.backoff.strike p.now r.endpoint).2.isSome = true)
      (hmarks : ¬ p.Exhausts r.life) :
      Turn p (.move id (.attempted (.error e)))
        (((p.remove id).punish r.life r.endpoint).requeue r.endpoint window)

/-- A turn, and then changes aside. -/
def Turns (p : Pool) (d : Deed) (q : Pool) : Prop := ∃ mid, Turn p d mid ∧ Aside mid q

variable {p q : Pool} {d : Deed}

theorem Turns.idle (h : Aside p q) : p.Turns d q := ⟨p, .idled, h⟩

/-- After a turn, more can happen aside. -/
theorem Turns.trans {r : Pool} (h : p.Turns d q) (haside : Aside q r) : p.Turns d r := by
  obtain ⟨mid, hturn, hq⟩ := h
  exact ⟨mid, hturn, hq.trans haside⟩

end SocksPool.Pool
