import SocksPool.Proofs.Quiet
import SocksPool.Proofs.Turn

/-!
# What one deed does to a pool

`Effect p d q` lists everything that a deed can do to the circulation and to
the books at once, one constructor each: `q` is `p` with this one change, and
whatever else the deed does is quiet. The guards of a step are kept as far as
they say something about endpoints, limiters, candidates and counters.

A `Turn` forgets the books. So every effect is a turn, and the step functions
of a pool are taken apart only once, for `Effect`.

## Main definitions

* `Pool.Strikes` — the endpoint that a deed strikes.
* `Effect` — the changes that a deed can make.
* `Effects` — such a change, and then quiet ones.

## Main results

* `Effects.turns` — what is proved of turns holds of deeds.
-/

namespace SocksPool

/-- The candidate that a task re-dials. -/
def Task.candidate? : Task → Option Proxy
  | .caller ⟨_, _, .checking candidate _ _ _ _⟩ => some candidate
  | _ => none

/-- The deed loads nothing, concerns no candidate and no round, and takes no
time. -/
def Deed.isPlain : Deed → Bool
  | .load _ | .loadList _ | .loadFetched _ _ | .advance _ => false
  | .move _ step =>
    match step with
    | .halt | .lockIntake | .look | .tick | .dialled _ | .responded _ => true
    | _ => false
  | _ => true

/-- The candidates that a deed loads. -/
def Deed.raws? : Deed → Option (List String)
  | .load raw => some [raw]
  | .loadList content | .loadFetched _ content => some (Endpoint.parseList content)
  | _ => none

namespace Pool

/-- The candidate that the task with a number re-dials. -/
def candidate? (p : Pool) (id : Nat) : Option Proxy := (p.task? id).bind Task.candidate?

/-- The round that a worker begins now with an endpoint of the given life. -/
def firstRound (p : Pool) (endpoint : String) (life : Nat) : Round where
  endpoint
  life
  probe := ⟨p.config.validationTimeout, p.config.echoEndpoints, p.config.userAgents⟩
  inSlot := true
  stage := .opening p.now

/-- A round has failed: it is counted, and its life is marked and its endpoint
struck. -/
def miss (p : Pool) (r : Round) : Pool :=
  { p.punish r.life r.endpoint with stats := p.stats.recordBad }

/-- One use of the endpoint is asked for. -/
def meter (p : Pool) (endpoint : String) : Pool :=
  { p with usage := (p.usage.check p.now endpoint).1 }

/-- The deed strikes the endpoint. -/
inductive Strikes (p : Pool) : Deed → String → Prop where
  /-- A registered proxy is reported. -/
  | reported {endpoint : String} (hlisted : p.registry.contains endpoint = true) :
      Strikes p (.reportFailure endpoint) endpoint
  /-- The last attempt of a round fails. -/
  | failed {id since : Nat} {r : Round} {protocol : Protocol} {fault : PoolError}
      (htask : p.task? id = some (.round r))
      (hstage : r.stage = .attempting protocol [] since) :
      Strikes p (.move id (.attempted (.error fault))) r.endpoint
  /-- A tunnel through a registered proxy fails. -/
  | undialled {id timeout since : Nat} {c : Caller} {address : String} {proxy : Proxy}
      {fault : PoolError} (htask : p.task? id = some (.caller c))
      (hpurpose : c.purpose = .dial address) (hstage : c.stage = .using proxy timeout since)
      (hlisted : p.registry.contains proxy.endpoint = true) :
      Strikes p (.move id (.dialled (.error fault))) proxy.endpoint
  /-- A request through a registered proxy fails. -/
  | unanswered {id timeout since failures retries wait allowed : Nat} {cloneable : Bool}
      {c : Caller} {proxy : Proxy} {outcome : Exchange}
      (htask : p.task? id = some (.caller c))
      (hpurpose : c.purpose = .send failures retries wait allowed cloneable)
      (hstage : c.stage = .using proxy timeout since) (hfailed : outcome ≠ .responded)
      (hlisted : p.registry.contains proxy.endpoint = true) :
      Strikes p (.move id (.responded outcome)) proxy.endpoint

/-- The part of a deed that is not quiet. -/
inductive Effect (p : Pool) : Deed → Pool → Prop where
  | idled {d : Deed} (hplain : d.isPlain = true) : Effect p d p
  | elapsed (span : Nat) : Effect p (.advance span) (p.advance span)
  | adjusted {setting : Setting} {config : Config}
      (hrecycle : config.recycle = p.config.recycle ∨ setting = .recycling config.recycle) :
      Effect p (.adjust setting) { p with config }
  | loaded {d : Deed} {raws : List String} (hraws : d.raws? = some raws) :
      Effect p d (p.loadAll raws).1
  /-- A dispensed proxy has misbehaved. -/
  | reported {d : Deed} {life : Nat} {endpoint : String} (hplain : d.isPlain = true)
      (hfind : p.registry.find? endpoint = some life) (hstrikes : p.Strikes d endpoint) :
      Effect p d (p.punish life endpoint)
  | reportedOut {d : Deed} {life : Nat} {endpoint : String} (hplain : d.isPlain = true)
      (hfind : p.registry.find? endpoint = some life) (hmarks : p.Exhausts life)
      (hstrikes : p.Strikes d endpoint) : Effect p d ((p.punish life endpoint).evict endpoint)
  /-- An intake loop stops and hands its endpoint back. -/
  | handedBack {id epoch : Nat} {endpoint : String}
      (htask : p.task? id = some (.intakeLoop epoch (.holding endpoint))) :
      Effect p (.move id .halt) ((p.remove id).pushIntake endpoint)
  | received {id epoch : Nat} {endpoint : String} {rest : List String}
      (htask : p.task? id = some (.intakeLoop epoch .receiving))
      (hintake : p.intake = endpoint :: rest) :
      Effect p (.move id .receive)
        (put { p with intake := rest } id (.intakeLoop epoch (.holding endpoint)))
  | forwarded {id epoch : Nat} {endpoint : String}
      (htask : p.task? id = some (.intakeLoop epoch (.holding endpoint))) :
      Effect p (.move id .forward) ((p.remove id).pushPending endpoint)
  | woke {id due : Nat} {endpoint : String}
      (htask : p.task? id = some (.requeue endpoint (some due))) :
      Effect p (.move id .wake) (p.put id (.requeue endpoint none))
  | cameBack {id : Nat} {endpoint : String}
      (htask : p.task? id = some (.requeue endpoint none)) :
      Effect p (.move id .comeBack) ((p.remove id).pushPending endpoint)
  /-- The endpoint was evicted while it was queued. -/
  | skipped {id : Nat} {endpoint : String} {rest : List String} (hidle : p.Idle id)
      (hpending : p.pending = endpoint :: rest) (hfind : p.registry.find? endpoint = none) :
      Effect p (.move id .pick) { p with pending := rest }
  /-- A limiter does not admit a round now. -/
  | deferred {id : Nat} {endpoint : String} {rest : List String} (due : Option Nat)
      (hidle : p.Idle id) (hpending : p.pending = endpoint :: rest) :
      Effect p (.move id .pick)
        (spawn { p.meter endpoint with pending := rest } (.requeue endpoint due))
  | opened {id epoch life : Nat} {endpoint : String} {rest : List String}
      (htask : p.task? id = some (.idleJob epoch)) (hpending : p.pending = endpoint :: rest)
      (hfind : p.registry.find? endpoint = some life)
      (hadmitted : (p.usage.check p.now endpoint).2 = none)
      (hclear : p.backoff.retryAfter? p.now endpoint = none) :
      Effect p (.move id .pick)
        (put { p.meter endpoint with pending := rest, stats := p.stats.recordChecked } id
          (.round (p.firstRound endpoint life)))
  | delivered {id : Nat} {r : Round} {copy : Proxy} (htask : p.task? id = some (.round r))
      (hstage : r.stage = .delivering copy) (hroom : p.outputRoom copy.protocol = true) :
      Effect p (.move id .deliver) ((p.remove id).deliver copy)
  /-- The candidate's name is gone, or its life is locked. -/
  | passedOver {id : Nat} {protocol : Protocol} {candidate : Proxy} {rest : List Proxy}
      (hidle : p.Idle id) (hqueue : p.outputs.get protocol = candidate :: rest)
      (hgate : ∀ life, p.registry.find? candidate.endpoint = some life →
        p.registry.IsLocked life ∨ p.registry.entry? life = none) :
      Effect p (.move id (.dispense protocol)) { p with outputs := p.outputs.set protocol rest }
  | struckOff {id life : Nat} {protocol : Protocol} {candidate : Proxy} {rest : List Proxy}
      (hidle : p.Idle id) (hqueue : p.outputs.get protocol = candidate :: rest)
      (hfind : p.registry.find? candidate.endpoint = some life)
      (hmarks : p.config.removeAfter ≤ p.registry.badMarks life) :
      Effect p (.move id (.dispense protocol))
        (evict { p with outputs := p.outputs.set protocol rest } candidate.endpoint)
  /-- The candidate is backed off or stale. -/
  | sentBack {id : Nat} {protocol : Protocol} {candidate : Proxy} {rest : List Proxy}
      {stats : Stats} (hidle : p.Idle id) (hqueue : p.outputs.get protocol = candidate :: rest)
      (hstats : stats = p.stats ∨ stats = p.stats.recordStale) :
      Effect p (.move id (.dispense protocol))
        (recycle { p with outputs := p.outputs.set protocol rest, stats } p.config.recycle
          candidate.endpoint)
  | checked {id life : Nat} {c : Caller} {protocol : Protocol} {candidate : Proxy}
      {rest : List Proxy} {locked : Registry} {entry : Entry}
      (htask : p.task? id = some (.caller c)) (hwaiting : c.stage = .waiting)
      (haccepts : Purpose.accepts c.purpose protocol = true)
      (hqueue : p.outputs.get protocol = candidate :: rest)
      (hfind : p.registry.find? candidate.endpoint = some life)
      (hlock : p.registry.tryLock? life = some locked)
      (hentry : p.registry.entry? life = some entry)
      (hfresh : entry.snapshot.isStale p.now p.config.staleAfter = false) :
      Effect p (.move id (.dispense protocol))
        (put { p with registry := locked, outputs := p.outputs.set protocol rest } id
          (.caller { c with stage := p.checkingStage candidate life }))
  /-- The candidate is good, and its caller is given what is known of it now. -/
  | cleared {id life timeout since : Nat} {c : Caller} {candidate : Proxy} {wanted : Bool}
      {entry : Entry} (htask : p.task? id = some (.caller c))
      (hstage : c.stage = .checking candidate life timeout wanted since)
      (hentry : p.registry.entry? life = some entry) :
      Effect p (.move id (.redialled true))
        ((((p.remove id).recycle wanted candidate.endpoint).unlock life).serve id c entry.snapshot)
  /-- There is no such life. -/
  | voided {id life timeout since : Nat} {c : Caller} {candidate : Proxy} {wanted : Bool}
      (htask : p.task? id = some (.caller c))
      (hstage : c.stage = .checking candidate life timeout wanted since)
      (hentry : p.registry.entry? life = none) :
      Effect p (.move id (.redialled true))
        (((p.remove id).recycle wanted candidate.endpoint).unlock life)
  | refused {id life timeout since : Nat} {c : Caller} {candidate : Proxy} {wanted : Bool}
      (htask : p.task? id = some (.caller c))
      (hstage : c.stage = .checking candidate life timeout wanted since) :
      Effect p (.move id (.redialled false))
        ((((p.remove id).markBad life).1.recycle wanted candidate.endpoint).unlock life)
  | restored {id life timeout since : Nat} {c : Caller} {candidate : Proxy} {wanted : Bool}
      (htask : p.task? id = some (.caller c))
      (hstage : c.stage = .checking candidate life timeout wanted since)
      (hroom : p.outputRoom candidate.protocol = true) :
      Effect p (.move id .cancel) (((p.remove id).unlock life).deliver candidate)
  /-- A cancelled caller finds no room for its candidate. -/
  | overflowed {id life timeout since : Nat} {c : Caller} {candidate : Proxy} {wanted : Bool}
      (htask : p.task? id = some (.caller c))
      (hstage : c.stage = .checking candidate life timeout wanted since)
      (hroom : p.outputRoom candidate.protocol = false) :
      Effect p (.move id .cancel) ((p.remove id).unlock life)
  /-- A cancelled caller has no candidate. -/
  | gaveUp {id : Nat} (hidle : p.Idle id) : Effect p (.move id .cancel) p
  /-- A dropped caller takes its candidate with it. -/
  | dropped {id life timeout since : Nat} {c : Caller} {candidate : Proxy} {wanted : Bool}
      (htask : p.task? id = some (.caller c))
      (hstage : c.stage = .checking candidate life timeout wanted since) :
      Effect p (.move id .abandon) ((p.remove id).unlock life)
  /-- A dropped caller has no candidate. -/
  | left {id : Nat} (hidle : p.Idle id) : Effect p (.move id .abandon) p
  /-- An attempt fails, and the next protocol is tried. -/
  | retried {id since : Nat} {r : Round} {protocol next : Protocol} {more : List Protocol}
      {e : PoolError} (htask : p.task? id = some (.round r))
      (hstage : r.stage = .attempting protocol (next :: more) since) :
      Effect p (.move id (.attempted (.error e)))
        (p.put id (.round { r with stage := .attempting next more p.now }))
  | passed {id since : Nat} {r : Round} {protocol : Protocol} {rest : List Protocol}
      {exit : Address} {entry : Entry} (htask : p.task? id = some (.round r))
      (hstage : r.stage = .attempting protocol rest since)
      (hentry : p.registry.entry? r.life = some entry) :
      Effect p (.move id (.attempted (.ok exit)))
        (put { p with
          registry := p.registry.update r.life (·.recordValidation p.now protocol exit)
          stats := p.stats.recordValid (entry.recordValidation p.now protocol exit).protocol } id
          (.round { r with
            stage := .delivering (entry.recordValidation p.now protocol exit).snapshot }))
  /-- There is no such life. -/
  | vanished {id since : Nat} {r : Round} {protocol : Protocol} {rest : List Protocol}
      {exit : Address} (htask : p.task? id = some (.round r))
      (hstage : r.stage = .attempting protocol rest since)
      (hentry : p.registry.entry? r.life = none) :
      Effect p (.move id (.attempted (.ok exit))) (p.remove id)
  /-- The clock cannot represent the end of the strike's window. -/
  | failedHalfway {id since : Nat} {r : Round} {protocol : Protocol} {e : PoolError}
      (htask : p.task? id = some (.round r)) (hlast : r.stage = .attempting protocol [] since)
      (hwindow : (p.backoff.strike p.now r.endpoint).2 = none) :
      Effect p (.move id (.attempted (.error e))) ((p.remove id).miss r).crash
  | failedOut {id since : Nat} {r : Round} {protocol : Protocol} {e : PoolError}
      (htask : p.task? id = some (.round r)) (hlast : r.stage = .attempting protocol [] since)
      (hwindow : (p.backoff.strike p.now r.endpoint).2.isSome = true)
      (hmarks : p.Exhausts r.life) :
      Effect p (.move id (.attempted (.error e))) (((p.remove id).miss r).evict r.endpoint)
  | failedKept {id since window : Nat} {r : Round} {protocol : Protocol} {e : PoolError}
      (htask : p.task? id = some (.round r)) (hlast : r.stage = .attempting protocol [] since)
      (hwindow : (p.backoff.strike p.now r.endpoint).2 = some window)
      (hmarks : ¬ p.Exhausts r.life) :
      Effect p (.move id (.attempted (.error e)))
        (((p.remove id).miss r).requeue r.endpoint window)

/-- An effect, and then quiet changes. -/
def Effects (p : Pool) (d : Deed) (q : Pool) : Prop := ∃ mid, Effect p d mid ∧ Quiet mid q

variable {p q : Pool} {d : Deed}

theorem Effects.quiet (hplain : d.isPlain = true) (h : Quiet p q) : p.Effects d q :=
  ⟨p, .idled hplain, h⟩

/-- After an effect, more can happen quietly. -/
theorem Effects.trans {r : Pool} (h : p.Effects d q) (hquiet : Quiet q r) : p.Effects d r := by
  obtain ⟨mid, heffect, hq⟩ := h
  exact ⟨mid, heffect, hq.trans hquiet⟩

/-! ## Turns -/

theorem aside_recycle_stats (p : Pool) (stats : Stats) (wanted : Bool) (endpoint : String) :
    Aside (p.recycle wanted endpoint) (recycle { p with stats } wanted endpoint) := by
  cases wanted <;> exact .bookkeeping rfl (Nat.le_refl _)

theorem aside_serve (p : Pool) (id : Nat) (c : Caller) (proxy : Proxy) :
    Aside p (p.serve id c proxy) := by
  unfold serve
  split <;> exact .bookkeeping rfl (Nat.le_refl _)

/-- An effect is a turn, but for the books. -/
theorem Effect.turns (h : p.Effect d q) : p.Turns d q := by
  cases h with
  | idled hplain => exact .idle (.refl p)
  | elapsed span => exact .idle (.bookkeeping rfl (Nat.le_refl _))
  | adjusted hrecycle => exact ⟨_, .adjusted hrecycle, .refl _⟩
  | loaded hraws => exact ⟨_, .loaded _, .refl _⟩
  | reported hplain hfind hstrikes => exact ⟨_, .reported hfind, .refl _⟩
  | reportedOut hplain hfind hmarks hstrikes => exact ⟨_, .reportedOut hfind hmarks, .refl _⟩
  | handedBack htask => exact ⟨_, .handedBack htask, .refl _⟩
  | received htask hintake => exact ⟨_, .received htask hintake, .refl _⟩
  | forwarded htask => exact ⟨_, .forwarded htask, .refl _⟩
  | woke htask => exact ⟨_, .woke htask, .refl _⟩
  | cameBack htask => exact ⟨_, .cameBack htask, .refl _⟩
  | skipped hidle hpending hfind => exact ⟨_, .skipped hpending hfind, .refl _⟩
  | deferred due hidle hpending =>
      exact ⟨_, .deferred due hpending, .bookkeeping rfl (Nat.le_refl _)⟩
  | @opened id epoch life endpoint rest htask hpending hfind hadmitted hclear =>
      exact ⟨_, .opened (p.firstRound endpoint life) htask hpending hfind nofun,
        .bookkeeping rfl (Nat.le_refl _)⟩
  | delivered htask hstage hroom => exact ⟨_, .delivered htask hstage hroom, .refl _⟩
  | passedOver hidle hqueue hgate => exact ⟨_, .passedOver hqueue hgate, .refl _⟩
  | struckOff hidle hqueue hfind hmarks => exact ⟨_, .struckOff hqueue hfind hmarks, .refl _⟩
  | sentBack hidle hqueue hstats => exact ⟨_, .sentBack hqueue, aside_recycle_stats _ _ _ _⟩
  | checked htask hwaiting haccepts hqueue hfind hlock hentry hfresh =>
      exact ⟨_, .checked htask hwaiting hqueue hfind hlock, .refl _⟩
  | cleared htask hstage hentry => exact ⟨_, .cleared htask hstage, aside_serve _ _ _ _⟩
  | voided htask hstage hentry => exact ⟨_, .cleared htask hstage, .refl _⟩
  | refused htask hstage => exact ⟨_, .refused htask hstage, .refl _⟩
  | restored htask hstage hroom => exact ⟨_, .restored htask hstage hroom, .refl _⟩
  | overflowed htask hstage hroom => exact ⟨_, .overflowed htask hstage hroom, .refl _⟩
  | gaveUp hidle => exact .idle (.refl p)
  | dropped htask hstage => exact ⟨_, .dropped htask hstage, .refl _⟩
  | left hidle => exact .idle (.refl p)
  | retried htask hstage => exact ⟨_, .retried _ _ htask, .refl _⟩
  | @passed id since r protocol rest exit entry htask hstage hentry =>
      have hcopy : Registry.entry?
          (p.registry.update r.life (·.recordValidation p.now protocol exit)) r.life =
            some (entry.recordValidation p.now protocol exit) := by
        rw [Registry.entry?_update, if_pos rfl, hentry]
        rfl
      exact ⟨_, .passed htask hcopy, .bookkeeping rfl (Nat.le_refl _)⟩
  | vanished htask hstage hentry => exact ⟨_, .vanished htask hentry, .refl _⟩
  | failedHalfway htask hlast hwindow =>
      exact ⟨_, .failedHalfway htask hlast hwindow, .bookkeeping rfl (Nat.le_refl _)⟩
  | @failedOut id since r protocol e htask hlast hwindow hmarks =>
      refine ⟨_, .failedOut htask hlast hwindow hmarks, .evict ?_ r.endpoint⟩
      exact .bookkeeping rfl (Nat.le_refl _)
  | failedKept htask hlast hwindow hmarks =>
      exact ⟨_, .failedKept htask hlast (Option.isSome_of_eq_some hwindow) hmarks,
        .bookkeeping rfl (Nat.le_refl _)⟩

/-- What is proved of turns holds of deeds. -/
theorem Effects.turns (h : p.Effects d q) : p.Turns d q := by
  obtain ⟨mid, heffect, hquiet⟩ := h
  exact heffect.turns.trans hquiet.toAside

end Pool

end SocksPool
