import SocksPool.Proofs.Crew
import SocksPool.Proofs.Deeds

/-!
# Who goes and who comes

Every deed lets at most one task go, and up to three come. `Shift p q d gone come
mid` says which of them go and come between `p` and `q`, with the guards of the
step. Whatever changes beside the tasks is in `mid`: a queue has lost its head or
gained an endpoint, a slot was taken or freed, the status or the clock has moved.
An `Effect` says what a deed does to the circulation; a shift says what it does
to loops, jobs and callers, which the circulation does not see.

## Main definitions

* `Shift` — the tasks that go and come with a deed.
* `Succeeds` — the loops and idle jobs among those that come.
* `Shifts` — such a change, as an equation of crews.

## Main results

* `Swap.closeRound`, `Swap.recycle`, `Swap.hand`, `Swap.reject`, `Swap.giveUp` —
  what the operations that steps end with do to the crew.
-/

open SocksPool.Task (Numbered)

namespace SocksPool

/-- The epoch under which a loop or an idle job was launched. -/
def Task.epoch? : Task → Option Nat
  | .intakeLoop epoch _ | .spawnLoop epoch _ | .scaleLoop epoch _ | .idleJob epoch => some epoch
  | _ => none

/-- The task is a worker job that has no endpoint yet. -/
def Task.isIdleJob : Task → Bool
  | .idleJob _ => true
  | _ => false

/-- The deed is a move of a task. -/
def Deed.isMove : Deed → Bool
  | .move _ _ => true
  | _ => false

/-- The setting is a size of the workers. -/
def Setting.resizes : Setting → Bool
  | .maxWorkers _ | .workers _ => true
  | _ => false

/-- The caller waits for a candidate, or uses the proxy that it was given. -/
def Caller.IsFree (c : Caller) : Prop :=
  c.stage = .waiting ∨ ∃ proxy timeout since, c.stage = .using proxy timeout since

/-- The caller waits for a candidate, or uses what is known of a life. -/
def Caller.IsServed (c : Caller) (r : Registry) (life : Nat) : Prop :=
  c.stage = .waiting ∨ ∃ entry timeout since, r.entry? life = some entry ∧
    c.stage = .using entry.snapshot timeout since

theorem Caller.IsServed.isFree {c : Caller} {r : Registry} {life : Nat} (h : c.IsServed r life) :
    c.IsFree := by
  rcases h with hwaits | ⟨entry, timeout, since, -, huses⟩
  · exact .inl hwaits
  · exact .inr ⟨_, _, _, huses⟩

namespace Pool

/-- Frees the slot of a job that had one. -/
def vacate (p : Pool) (inSlot : Bool) : Pool := if inSlot then p.releaseSlot else p

/-- The requeue task of an endpoint that is validated again at once. -/
def recycled (wanted : Bool) (endpoint : String) : List Task :=
  if wanted then [.requeue endpoint none] else []

/-- The loops that are launched under an epoch. -/
def freshLoops (epoch : Nat) : List Task :=
  [.intakeLoop epoch .waiting, .spawnLoop epoch true, .scaleLoop epoch none]

/-- The task of a caller, unless it was answered. -/
def goesOn (next : Option Caller) : List Task := next.toList.map .caller

/-- Tasks that go and come with a deed, and the pool beside them. -/
inductive Shift (p q : Pool) : Deed → List Task → List Task → Pool → Prop where
  /-- A call begins no task, and no queue or slot changes. -/
  | idled {d : Deed} (hcall : d.isMove = false) : Shift p q d [] [] p
  | loaded {d : Deed} (more : List String) (hcall : d.isMove = false) :
      Shift p q d [] [] { p with intake := p.intake ++ more }
  | elapsed (span : Nat) : Shift p q (.advance span) [] [] (p.advance span)
  | called {d : Deed} (c : Caller) (hcall : d.isMove = false) (hwaits : c.stage = .waiting) :
      Shift p q d [] [.caller c] p
  | launched {d : Deed} (hdeed : d = .start ∨ d = .resume) (hstatus : p.status ≠ .running) :
      Shift p q d [] (freshLoops (p.epoch + 1))
        { p with status := .running, epoch := p.epoch + 1 }
  | paused (hstatus : p.status = .running) : Shift p q .pause [] [] { p with status := .paused }
  | adjusted {setting : Setting} (scaler : Scaler) :
      Shift p q (.adjust setting) [] [] { p with scaler }
  | resized {setting : Setting} (scaler : Scaler) (change : Int)
      (hsetting : setting.resizes = true) :
      Shift p q (.adjust setting) [] [] (tune { p with scaler } change)
  | tuned (change : Int) : Shift p q (.tune change) [] [] (p.tune change)
  | closed : Shift p q .closeWorkers [] [] p.closeWorkers
  /-- A loop of another epoch, or of a pool that does not run, stops. -/
  | retired {id epoch : Nat} {task : Task} (htask : p.task? id = some task)
      (hepoch : task.epoch? = some epoch) (hhalted : p.halted epoch = true)
      (hloop : task.isIdleJob = false) (hempty : task.token? = none) :
      Shift p q (.move id .halt) [task] [] p
  | handedBack {id epoch : Nat} {endpoint : String}
      (htask : p.task? id = some (.intakeLoop epoch (.holding endpoint)))
      (hhalted : p.halted epoch = true) :
      Shift p q (.move id .halt) [.intakeLoop epoch (.holding endpoint)] [] (p.pushIntake endpoint)
  /-- An idle job stops for the same reason. -/
  | dismissed {id epoch : Nat} (htask : p.task? id = some (.idleJob epoch))
      (hhalted : p.halted epoch = true) :
      Shift p q (.move id .halt) [.idleJob epoch] [] p.releaseSlot
  | locked {id epoch : Nat} (htask : p.task? id = some (.intakeLoop epoch .waiting)) :
      Shift p q (.move id .lockIntake) [.intakeLoop epoch .waiting] [.intakeLoop epoch .receiving] p
  | received {id epoch : Nat} {endpoint : String} {rest : List String}
      (htask : p.task? id = some (.intakeLoop epoch .receiving))
      (hintake : p.intake = endpoint :: rest) :
      Shift p q (.move id .receive) [.intakeLoop epoch .receiving]
        [.intakeLoop epoch (.holding endpoint)] { p with intake := rest }
  | forwarded {id epoch : Nat} {endpoint : String}
      (htask : p.task? id = some (.intakeLoop epoch (.holding endpoint)))
      (hroom : p.pendingRoom = true) :
      Shift p q (.move id .forward) [.intakeLoop epoch (.holding endpoint)]
        [.intakeLoop epoch .receiving] (p.pushPending endpoint)
  /-- A spawn loop finds the workers closed. -/
  | stopped {id epoch : Nat} (htask : p.task? id = some (.spawnLoop epoch true))
      (hclosed : p.slots.closed = true) : Shift p q (.move id .look) [.spawnLoop epoch true] [] p
  /-- A spawn loop finds a free slot and starts a job in it. -/
  | hired {id epoch : Nat} (htask : p.task? id = some (.spawnLoop epoch true))
      (hfree : p.slots.free = true) :
      Shift p q (.move id .look) [.spawnLoop epoch true] [.spawnLoop epoch true, .idleJob epoch]
        { p with slots := p.slots.take }
  /-- A spawn loop finds no free slot and falls asleep. -/
  | slept {id epoch : Nat} (htask : p.task? id = some (.spawnLoop epoch true))
      (hclosed : p.slots.closed = false) (hfree : p.slots.free = false) :
      Shift p q (.move id .look) [.spawnLoop epoch true] [.spawnLoop epoch false] p
  /-- A scale loop ticks, and the capacity may change. -/
  | ticked {id epoch next : Nat} {due : Option Nat} {mid : Pool} (scaler : Scaler)
      (htask : p.task? id = some (.scaleLoop epoch due))
      (hdue : ∀ instant, due = some instant → Instant.reached instant p.now = true)
      (hfirst : due = none → p.config.scaleInterval ≠ 0)
      (hnext : next = nextTick (due.getD p.now) p.now p.config.scaleInterval)
      (hmid : mid = { p with scaler } ∨ ∃ change, mid = tune { p with scaler } change) :
      Shift p q (.move id .tick) [.scaleLoop epoch due] [.scaleLoop epoch (some next)] mid
  /-- A scale loop with an empty interval stops halfway. -/
  | lapsed {id epoch : Nat} (htask : p.task? id = some (.scaleLoop epoch none))
      (hzero : p.config.scaleInterval = 0) :
      Shift p q (.move id .tick) [.scaleLoop epoch none] [] p
  /-- A job finds that its endpoint was evicted while it was queued. -/
  | skipped {id epoch : Nat} {endpoint : String} {rest : List String}
      (htask : p.task? id = some (.idleJob epoch)) (hpending : p.pending = endpoint :: rest)
      (hunknown : p.registry.find? endpoint = none) :
      Shift p q (.move id .pick) [.idleJob epoch] [] { p.releaseSlot with pending := rest }
  /-- A limiter does not admit a round now. -/
  | deferred {id epoch due : Nat} {endpoint : String} {rest : List String}
      (htask : p.task? id = some (.idleJob epoch)) (hpending : p.pending = endpoint :: rest)
      (hlater : p.now < due) :
      Shift p q (.move id .pick) [.idleJob epoch] [.requeue endpoint (some due)]
        { p.releaseSlot with pending := rest }
  | opened {id epoch : Nat} {endpoint : String} {rest : List String} (life : Nat)
      (htask : p.task? id = some (.idleJob epoch)) (hpending : p.pending = endpoint :: rest)
      (hadmitted : (p.usage.check p.now endpoint).2 = none)
      (hmetered : q.usage = (p.usage.check p.now endpoint).1)
      (hbegins : q.task? id = some (.round (p.firstRound endpoint life))) :
      Shift p q (.move id .pick) [.idleJob epoch] [.round (p.firstRound endpoint life)]
        { p with pending := rest }
  /-- An attempt fails, and the next protocol is tried. -/
  | retried {id since : Nat} {r : Round} {protocol next : Protocol} {more : List Protocol}
      {e : PoolError} (htask : p.task? id = some (.round r))
      (hstage : r.stage = .attempting protocol (next :: more) since) :
      Shift p q (.move id (.attempted (.error e))) [.round r]
        [.round { r with stage := .attempting next more p.now }] p
  | passed {id since : Nat} {r : Round} {protocol : Protocol} {rest : List Protocol}
      {exit : Address} (copy : Proxy) (htask : p.task? id = some (.round r))
      (hstage : r.stage = .attempting protocol rest since) :
      Shift p q (.move id (.attempted (.ok exit))) [.round r]
        [.round { r with stage := .delivering copy }] p
  /-- A round ends without a copy, and its endpoint does not come back. -/
  | failed {id since : Nat} {r : Round} {protocol : Protocol} {rest : List Protocol}
      {outcome : Except PoolError Address} (htask : p.task? id = some (.round r))
      (hstage : r.stage = .attempting protocol rest since) :
      Shift p q (.move id (.attempted outcome)) [.round r] [] (p.vacate r.inSlot)
  | failedKept {id since : Nat} {r : Round} {protocol : Protocol} {rest : List Protocol}
      {due : Option Nat} {e : PoolError} (htask : p.task? id = some (.round r))
      (hstage : r.stage = .attempting protocol rest since)
      (hlater : ∀ instant, due = some instant → p.now < instant) :
      Shift p q (.move id (.attempted (.error e))) [.round r] [.requeue r.endpoint due]
        (p.vacate r.inSlot)
  | delivered {id : Nat} {r : Round} {copy : Proxy} (htask : p.task? id = some (.round r))
      (hstage : r.stage = .delivering copy) (hroom : p.outputRoom copy.protocol = true) :
      Shift p q (.move id .deliver) [.round r] [] ((p.deliver copy).vacate r.inSlot)
  | woke {id due : Nat} {endpoint : String}
      (htask : p.task? id = some (.requeue endpoint (some due)))
      (hreached : Instant.reached due p.now = true) :
      Shift p q (.move id .wake) [.requeue endpoint (some due)] [.requeue endpoint none] p
  | cameBack {id : Nat} {endpoint : String} (htask : p.task? id = some (.requeue endpoint none))
      (hroom : p.pendingRoom = true) :
      Shift p q (.move id .comeBack) [.requeue endpoint none] [] (p.pushPending endpoint)
  /-- A caller finds its candidate evicted, locked or exhausted. -/
  | passedOver {id : Nat} {c : Caller} {protocol : Protocol} {candidate : Proxy}
      {rest : List Proxy} (htask : p.task? id = some (.caller c))
      (hqueue : p.outputs.get protocol = candidate :: rest) :
      Shift p q (.move id (.dispense protocol)) [.caller c] [.caller c]
        { p with outputs := p.outputs.set protocol rest }
  /-- A caller finds its candidate backed off or stale. -/
  | sentBack {id : Nat} {c : Caller} {protocol : Protocol} {candidate : Proxy} {rest : List Proxy}
      (htask : p.task? id = some (.caller c))
      (hqueue : p.outputs.get protocol = candidate :: rest) :
      Shift p q (.move id (.dispense protocol)) [.caller c]
        (recycled p.config.recycle candidate.endpoint ++ [.caller c])
        { p with outputs := p.outputs.set protocol rest }
  | checked {id : Nat} {c : Caller} {protocol : Protocol} {candidate : Proxy}
      {rest : List Proxy} (life : Nat) (htask : p.task? id = some (.caller c))
      (hwaits : c.stage = .waiting)
      (hqueue : p.outputs.get protocol = candidate :: rest) :
      Shift p q (.move id (.dispense protocol)) [.caller c]
        [.caller { c with stage := p.checkingStage candidate life }]
        { p with outputs := p.outputs.set protocol rest }
  /-- A check ends, and its caller waits again, goes on with a proxy, or is
  answered. -/
  | redialled {id life timeout since : Nat} {c : Caller} {candidate : Proxy} {wanted good : Bool}
      {next : Option Caller} (htask : p.task? id = some (.caller c))
      (hstage : c.stage = .checking candidate life timeout wanted since)
      (hserved : ∀ caller, next = some caller → caller.IsServed p.registry life) :
      Shift p q (.move id (.redialled good)) [.caller c]
        (recycled wanted candidate.endpoint ++ goesOn next) p
  | restored {id life timeout since : Nat} {c : Caller} {candidate : Proxy} {wanted : Bool}
      (htask : p.task? id = some (.caller c))
      (hstage : c.stage = .checking candidate life timeout wanted since)
      (hroom : p.outputRoom candidate.protocol = true) :
      Shift p q (.move id .cancel) [.caller c] [] (p.deliver candidate)
  /-- A caller is cancelled or dropped, and no candidate goes back. -/
  | left {id : Nat} {c : Caller} {move : Move} (hmove : move = .cancel ∨ move = .abandon)
      (htask : p.task? id = some (.caller c)) : Shift p q (.move id move) [.caller c] [] p
  /-- The use of a proxy ends, and its caller waits for another or is answered. -/
  | used {id timeout since : Nat} {c : Caller} {proxy : Proxy} {move : Move}
      (next : Option Caller) (hmove : (∃ outcome, move = .dialled outcome) ∨
        ∃ outcome, move = .responded outcome)
      (htask : p.task? id = some (.caller c)) (hstage : c.stage = .using proxy timeout since)
      (hwaits : ∀ caller, next = some caller → caller.stage = .waiting) :
      Shift p q (.move id move) [.caller c] (goesOn next) p

/-- How a loop or an idle job of an epoch comes: the epoch begins, or a loop of the same
epoch goes. -/
inductive Succeeds (p mid : Pool) (d : Deed) (gone : List Task) (epoch : Nat) : Task → Prop where
  | fresh {task : Task} (hdeed : d = .start ∨ d = .resume) (hepoch : epoch = mid.epoch)
      (hmem : task ∈ freshLoops epoch) : Succeeds p mid d gone epoch task
  | intake {stage : IntakeStage} (next : IntakeStage) (hgone : .intakeLoop epoch stage ∈ gone) :
      Succeeds p mid d gone epoch (.intakeLoop epoch next)
  | awake (hgone : .spawnLoop epoch true ∈ gone) :
      Succeeds p mid d gone epoch (.spawnLoop epoch true)
  | asleep (hgone : .spawnLoop epoch true ∈ gone) (hfree : mid.slots.free = false) :
      Succeeds p mid d gone epoch (.spawnLoop epoch false)
  | job (hgone : .spawnLoop epoch true ∈ gone) : Succeeds p mid d gone epoch (.idleJob epoch)
  | ticks {due : Option Nat} (next : Nat) (hgone : .scaleLoop epoch due ∈ gone)
      (hfirst : due = none → p.config.scaleInterval ≠ 0) :
      Succeeds p mid d gone epoch (.scaleLoop epoch (some next))

/-- A shift, as an equation of crews. -/
def Shifts (p : Pool) (d : Deed) (q : Pool) : Prop :=
  ∃ gone come mid, Shift p q d gone come mid ∧ Swap gone come mid q

variable {p q mid : Pool} {d : Deed} {id : Nat} {old : Task} {gone come : List Task}

/-! ## Beside the tasks -/

theorem crew_tune (p : Pool) (change : Int) :
    (p.tune change).crew = p.crew ∨ (p.tune change).crew = p.crew.map Task.wakened := by
  unfold Pool.tune
  split
  · exact .inr (crew_wakeSpawners _)
  · exact .inl rfl

theorem crew_vacate (p : Pool) (inSlot : Bool) :
    (p.vacate inSlot).crew = p.crew ∨ (p.vacate inSlot).crew = p.crew.map Task.wakened := by
  cases inSlot with
  | true => exact .inr (crew_wakeSpawners _)
  | false => exact .inl rfl

/-- Tuning changes slots and spawn loops only. -/
theorem alike_tune (p : Pool) (change : Int) :
    Alike { p with slots := p.slots.tune change } (p.tune change) := by
  unfold Pool.tune
  dsimp only
  split <;> exact ⟨rfl, rfl, rfl, rfl, rfl, rfl, rfl, rfl, rfl, rfl⟩

/-- And so does a slot that is freed. -/
theorem alike_vacate (p : Pool) (inSlot : Bool) :
    Alike { p with slots := if inSlot then p.slots.release else p.slots } (p.vacate inSlot) := by
  cases inSlot <;> exact ⟨rfl, rfl, rfl, rfl, rfl, rfl, rfl, rfl, rfl, rfl⟩

theorem config_tune (p : Pool) (change : Int) : (p.tune change).config = p.config := by
  unfold Pool.tune
  split <;> rfl

theorem config_vacate (p : Pool) (inSlot : Bool) : (p.vacate inSlot).config = p.config := by
  cases inSlot <;> rfl

theorem capacity_vacate (p : Pool) (inSlot : Bool) :
    (p.vacate inSlot).slots.capacity = p.slots.capacity := by
  cases inSlot <;> rfl

theorem closed_tune (p : Pool) (change : Int) :
    (p.tune change).slots.closed = p.slots.closed :=
  (congrArg Slots.closed (alike_tune p change).slots :)

theorem closed_vacate (p : Pool) (inSlot : Bool) :
    (p.vacate inSlot).slots.closed = p.slots.closed := by
  cases inSlot <;> rfl

theorem mem_recycled {task : Task} {wanted : Bool} {endpoint : String}
    (h : task ∈ recycled wanted endpoint) : wanted = true ∧ task = .requeue endpoint none := by
  cases wanted with
  | true => exact ⟨rfl, List.mem_singleton.1 h⟩
  | false => cases h

theorem mem_goesOn {task : Task} {next : Option Caller} (h : task ∈ goesOn next) :
    ∃ c, next = some c ∧ task = .caller c := by
  obtain ⟨c, hc, rfl⟩ := List.mem_map.1 h
  exact ⟨c, Option.mem_toList.1 hc, rfl⟩

theorem countP_recycled {sort : Task → Bool} (hnone : ∀ e due, sort (.requeue e due) = false)
    (wanted : Bool) (endpoint : String) : (recycled wanted endpoint).countP sort = 0 := by
  rw [List.countP_eq_zero]
  intro task hmem
  rw [(mem_recycled hmem).2, hnone]
  exact Bool.false_ne_true

theorem countP_goesOn {sort : Task → Bool} (hnone : ∀ c, sort (.caller c) = false)
    (next : Option Caller) : (goesOn next).countP sort = 0 := by
  rw [List.countP_eq_zero]
  intro task hmem
  obtain ⟨c, -, rfl⟩ := mem_goesOn hmem
  rw [hnone]
  exact Bool.false_ne_true

namespace Shift

/-- Beside the tasks that go and come, spawn loops wake up at most. -/
theorem crew_mid (h : Shift p q d gone come mid) :
    mid.crew = p.crew ∨ mid.crew = p.crew.map Task.wakened := by
  cases h with
  | resized _ change _ => exact crew_tune _ change
  | tuned change => exact crew_tune p change
  | closed | dismissed _ _ | skipped _ _ _ | deferred _ _ _ => exact .inr (crew_wakeSpawners _)
  | ticked _ _ _ _ _ hmid =>
      rcases hmid with rfl | ⟨change, rfl⟩
      · exact .inl rfl
      · exact crew_tune _ change
  | failed _ _ | failedKept _ _ _ | delivered _ _ _ => exact crew_vacate _ _
  | _ => exact .inl rfl

theorem config_mid (h : Shift p q d gone come mid) : mid.config = p.config := by
  cases h with
  | resized _ change _ => exact config_tune _ change
  | tuned change => exact config_tune p change
  | ticked _ _ _ _ _ hmid =>
      rcases hmid with rfl | ⟨change, rfl⟩
      · rfl
      · exact config_tune _ change
  | failed _ _ | failedKept _ _ _ | delivered _ _ _ => exact config_vacate _ _
  | _ => rfl

theorem closed_mid (h : Shift p q d gone come mid) (hopen : d ≠ .closeWorkers) :
    mid.slots.closed = p.slots.closed := by
  cases h with
  | resized _ change _ => exact closed_tune _ change
  | tuned change => exact closed_tune p change
  | closed => exact absurd rfl hopen
  | ticked _ _ _ _ _ hmid =>
      rcases hmid with rfl | ⟨change, rfl⟩
      · rfl
      · exact closed_tune _ change
  | failed _ _ | failedKept _ _ _ | delivered _ _ _ => exact closed_vacate _ _
  | _ => rfl

/-- At most one task goes, the one that moves. -/
theorem gone_cases (h : Shift p q d gone come mid) :
    gone = [] ∨ ∃ id task, p.task? id = some task ∧ gone = [task] := by
  cases h with
  | retired htask _ _ _ _ | handedBack htask _ | dismissed htask _ | locked htask
  | received htask _ | forwarded htask _ | stopped htask _ | hired htask _ | slept htask _ _
  | ticked _ htask _ _ _ _ | lapsed htask _ | skipped htask _ _ | deferred htask _ _
  | opened _ htask _ _ _ _ | retried htask _ | passed _ htask _ | failed htask _
  | failedKept htask _ _ | delivered htask _ _ | woke htask _ | cameBack htask _
  | passedOver htask _ | sentBack htask _ | checked _ htask _ _ | redialled htask _ _
  | restored htask _ _ | left _ htask | used _ _ htask _ _ => exact .inr ⟨_, _, htask, rfl⟩
  | _ => exact .inl rfl

theorem mem_crew_of_gone (h : Shift p q d gone come mid) {task : Task} (hmem : task ∈ gone) :
    task ∈ p.crew := by
  rcases h.gone_cases with rfl | ⟨id, found, hfind, rfl⟩
  · cases hmem
  · rw [List.mem_singleton.1 hmem]
    exact mem_crew_of_task? hfind

/-- What comes and was launched under an epoch succeeds something of that epoch. -/
theorem succeeds (h : Shift p q d gone come mid) {task : Task} {epoch : Nat}
    (hmem : task ∈ come) (hepoch : task.epoch? = some epoch) :
    Succeeds p mid d gone epoch task := by
  cases h with
  | launched hdeed _ =>
      have hfresh := hmem
      simp only [freshLoops, List.mem_cons, List.not_mem_nil, or_false] at hmem
      have hlaunched : epoch = p.epoch + 1 := by
        rcases hmem with rfl | rfl | rfl <;> exact (Option.some.inj hepoch).symm
      exact .fresh hdeed hlaunched (hlaunched ▸ hfresh)
  | locked _ | received _ _ | forwarded _ _ =>
      obtain rfl := List.mem_singleton.1 hmem
      obtain rfl := Option.some.inj hepoch
      exact .intake _ (List.mem_singleton.2 rfl)
  | slept _ _ hfree =>
      obtain rfl := List.mem_singleton.1 hmem
      obtain rfl := Option.some.inj hepoch
      exact .asleep (List.mem_singleton.2 rfl) hfree
  | hired _ _ =>
      simp only [List.mem_cons, List.not_mem_nil, or_false] at hmem
      rcases hmem with rfl | rfl
      · obtain rfl := Option.some.inj hepoch
        exact .awake (List.mem_singleton.2 rfl)
      · obtain rfl := Option.some.inj hepoch
        exact .job (List.mem_singleton.2 rfl)
  | ticked _ _ _ hfirst _ _ =>
      obtain rfl := List.mem_singleton.1 hmem
      obtain rfl := Option.some.inj hepoch
      exact .ticks _ (List.mem_singleton.2 rfl) hfirst
  | sentBack _ _ =>
      rcases List.mem_append.1 hmem with hrequeue | hcaller
      · rw [(mem_recycled hrequeue).2] at hepoch
        cases hepoch
      · rw [List.mem_singleton.1 hcaller] at hepoch
        cases hepoch
  | redialled _ _ _ =>
      rcases List.mem_append.1 hmem with hrequeue | hcaller
      · rw [(mem_recycled hrequeue).2] at hepoch
        cases hepoch
      · obtain ⟨c, -, rfl⟩ := mem_goesOn hcaller
        cases hepoch
  | used _ _ _ _ _ =>
      obtain ⟨c, -, rfl⟩ := mem_goesOn hmem
      cases hepoch
  | called _ _ _ | deferred _ _ _ | opened _ _ _ _ _ _ | retried _ _ | passed _ _ _
  | failedKept _ _ _ | woke _ _ | passedOver _ _ | checked _ _ _ _ =>
      rw [List.mem_singleton.1 hmem] at hepoch
      cases hepoch
  | _ => cases hmem

/-- What is counted over tasks and does not depend on the sleep of spawn loops
changes by the tasks that go and come. -/
theorem countP (h : Shift p q d gone come mid) (hswap : Swap gone come mid q)
    {sort : Task → Bool} (hsort : ∀ task : Task, sort task.wakened = sort task) :
    q.crew.countP sort + gone.countP sort = p.crew.countP sort + come.countP sort := by
  rw [hswap.countP sort]
  rcases h.crew_mid with hsame | hwoken
  · rw [hsame]
  · rw [hwoken, List.countP_map]
    congr 2
    funext task
    exact hsort task

/-- Who is there after a deed was there before, but for waking up, or has come. -/
theorem mem_cases (h : Shift p q d gone come mid) (hswap : Swap gone come mid q) {task : Task}
    (hmem : task ∈ q.crew) : (∃ old ∈ p.crew, task = old ∨ task = old.wakened) ∨ task ∈ come := by
  rcases hswap.mem hmem with hthere | hcame
  · left
    rcases h.crew_mid with hsame | hwoken
    · rw [hsame] at hthere
      exact ⟨task, hthere, .inl rfl⟩
    · rw [hwoken] at hthere
      obtain ⟨old, hold, rfl⟩ := List.mem_map.1 hthere
      exact ⟨old, hold, .inr rfl⟩
  · exact .inr hcame

end Shift

/-! ## Operations that tasks end with -/

theorem Still.tune (h : Still p q) (change : Int) : Still (p.tune change) (q.tune change) := by
  have hslots : q.slots.tune change = p.slots.tune change := by rw [h.slots]
  have htuned : Still { p with slots := p.slots.tune change }
      { q with slots := q.slots.tune change } :=
    { h with slots := hslots }
  unfold Pool.tune
  dsimp only
  split
  · have hwoken : ({ q with slots := q.slots.tune change } : Pool).wakeSpawners.tasks =
        ({ p with slots := p.slots.tune change } : Pool).wakeSpawners.tasks := by
      unfold wakeSpawners
      dsimp only
      rw [h.tasks]
    exact { htuned with tasks := hwoken }
  · exact htuned

/-- A job leaves its slot after the swap. -/
theorem Swap.vacate (h : Swap gone come p q)
    (hgone : gone.map Task.wakened = gone) (hcome : come.map Task.wakened = come)
    (inSlot : Bool) : Swap gone come (p.vacate inSlot) (q.vacate inSlot) := by
  cases inSlot with
  | true => exact h.release hgone hcome
  | false => exact h

/-- A job or a call for one round ends. -/
theorem Swap.closeRound (hnum : Numbered p.tasks p.nextTask) (hfind : p.task? id = some old)
    (hwakened : old.wakened = old) (inSlot : Bool) :
    Swap [old] [] (p.vacate inSlot) (p.closeRound id inSlot) :=
  (Swap.remove hnum hfind).vacate (congrArg ([·]) hwakened) rfl inSlot

theorem Still.vacate (h : Still p q) (inSlot : Bool) :
    Swap [] [] (p.vacate inSlot) (q.vacate inSlot) :=
  (Swap.still h).vacate rfl rfl inSlot

theorem Still.closeRound (h : Still p q) (hnum : Numbered p.tasks p.nextTask)
    (hfind : p.task? id = some old) (hwakened : old.wakened = old) (inSlot : Bool) :
    Swap [old] [] (p.vacate inSlot) (q.closeRound id inSlot) :=
  (h.vacate inSlot).trans (Swap.closeRound (h.numbered hnum) (h.task? hfind) hwakened inSlot)

/-- A job or a call for one round ends and leaves its endpoint to a requeue task. -/
theorem Still.putOff (h : Still p q) (hnum : Numbered p.tasks p.nextTask)
    (hfind : p.task? id = some old) (hwakened : old.wakened = old) (inSlot : Bool)
    (endpoint : String) (due : Option Nat) :
    Swap [old] [.requeue endpoint due] (p.vacate inSlot)
      ((q.spawn (.requeue endpoint due)).closeRound id inSlot) := by
  have hspawned := ((Swap.spawn q (.requeue endpoint due)).after h).vacate rfl rfl inSlot
  have hnumSpawned := (h.numbered hnum).spawn (.requeue endpoint due)
  have hfindSpawned := task?_spawn (h.task? hfind) (.requeue endpoint due)
  exact hspawned.trans (Swap.closeRound hnumSpawned hfindSpawned hwakened inSlot)

theorem Swap.recycle (p : Pool) (wanted : Bool) (endpoint : String) :
    Swap [] (recycled wanted endpoint) p (p.recycle wanted endpoint) := by
  cases wanted with
  | true => exact Swap.spawn p _
  | false => exact Swap.refl p

theorem numbered_recycle (hnum : Numbered p.tasks p.nextTask) (wanted : Bool)
    (endpoint : String) :
    Numbered (p.recycle wanted endpoint).tasks (p.recycle wanted endpoint).nextTask := by
  cases wanted with
  | true => exact hnum.spawn _
  | false => exact hnum

theorem task?_recycle (hfind : p.task? id = some old) (wanted : Bool) (endpoint : String) :
    (p.recycle wanted endpoint).task? id = some old := by
  cases wanted with
  | true => exact task?_spawn hfind _
  | false => exact hfind

/-- A check has ended: the candidate may be validated again, and its life is
unlocked. -/
theorem Still.recycle_unlock (h : Still p q) (hnum : Numbered p.tasks p.nextTask)
    (hfind : p.task? id = some old) (wanted : Bool) (endpoint : String) (life : Nat) :
    Swap [] (recycled wanted endpoint) p ((q.recycle wanted endpoint).unlock life) ∧
      Numbered ((q.recycle wanted endpoint).unlock life).tasks
        ((q.recycle wanted endpoint).unlock life).nextTask ∧
      ((q.recycle wanted endpoint).unlock life).task? id = some old := by
  have hunlocked : Still (q.recycle wanted endpoint) ((q.recycle wanted endpoint).unlock life) :=
    .books rfl rfl rfl
  have hrecycled := (Swap.recycle q wanted endpoint).after h
  refine ⟨hrecycled.andThen hunlocked, ?_, ?_⟩
  · exact hunlocked.numbered (numbered_recycle (h.numbered hnum) wanted endpoint)
  · exact hunlocked.task? (task?_recycle (h.task? hfind) wanted endpoint)

/-- A caller that is given a proxy is answered, or goes on with it. -/
theorem Swap.hand (hnum : Numbered p.tasks p.nextTask) (hfind : p.task? id = some old)
    (c : Caller) (proxy : Proxy) :
    ∃ next : Option Caller, Swap [old] (goesOn next) p (p.hand id c proxy) ∧
      ∀ caller, next = some caller →
        ∃ timeout since, caller.stage = .using proxy timeout since := by
  have hcounted : Still p { p with stats := p.stats.recordDispensed } := .books rfl rfl rfl
  obtain ⟨purpose, patience, stage⟩ := c
  unfold Pool.hand
  cases purpose with
  | recheck => exact ⟨none, .finish hnum hfind _, fun _ hnone => nomatch hnone⟩
  | take wanted => exact ⟨none, hcounted.finish hnum hfind _, fun _ hnone => nomatch hnone⟩
  | dial address =>
      refine ⟨some _, hcounted.put hnum hfind _, ?_⟩
      intro caller hcaller
      obtain rfl := Option.some.inj hcaller
      exact ⟨_, _, rfl⟩
  | send failures retries wait timeout cloneable =>
      cases cloneable with
      | true =>
          have htold : Still p (tell { p with stats := p.stats.recordDispensed }
              (.proxyChosen proxy.url (failures + 1))) := .books rfl rfl rfl
          refine ⟨some _, htold.put hnum hfind _, ?_⟩
          intro caller hcaller
          obtain rfl := Option.some.inj hcaller
          exact ⟨_, _, rfl⟩
      | false => exact ⟨none, hcounted.finish hnum hfind _, fun _ hnone => nomatch hnone⟩

/-- A caller whose candidate has failed is answered, or waits again. -/
theorem Swap.reject (hnum : Numbered p.tasks p.nextTask) (hfind : p.task? id = some old)
    (c : Caller) :
    ∃ next : Option Caller, Swap [old] (goesOn next) p (p.reject id c) ∧
      ∀ caller, next = some caller → caller.stage = .waiting := by
  obtain ⟨purpose, patience, stage⟩ := c
  unfold Pool.reject
  cases purpose with
  | recheck => exact ⟨none, .finish hnum hfind _, fun _ hnone => nomatch hnone⟩
  | _ =>
      refine ⟨some _, .put hnum hfind _, ?_⟩
      intro caller hcaller
      obtain rfl := Option.some.inj hcaller
      rfl

theorem Swap.giveUp (hnum : Numbered p.tasks p.nextTask) (hfind : p.task? id = some old)
    (c : Caller) : Swap [old] [] p (p.giveUp id c) := by
  unfold Pool.giveUp
  split
  · next wait _ _ _ =>
      exact (Still.tell p (.noProxy wait p.stats.backlog)).finish hnum hfind _
  · exact .finish hnum hfind _

end Pool

end SocksPool
