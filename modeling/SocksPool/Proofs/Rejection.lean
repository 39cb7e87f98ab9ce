import SocksPool.Proofs.Run

/-!
# Rejected calls

The pool after a rejected call is the pool before it, for a call that is rejected
answers no pool at all. That is how the calls are defined here, not how a call runs:
it runs as a sequence of guards and single writes, some of which read what earlier
ones wrote, and a guard that came too late would leave a setting half changed.

So the nine calls that can be rejected are written down a second time, one write
after the other, as a `Procedure` in which a failing guard ends the call and keeps
every write that was made. Each is shown to come to the same as its definition. Of
the procedures it then says something that a call which fails leaves the whole pool
as it was, and the guards can be compared to the rules of the calls.

## Main definitions

* `Procedure` — guards and writes, one after the other.
* `GuardedCall` — the calls that can be rejected; `GuardedCall.procedure` runs one.
* `Violates` — the rules of the calls, and the error for breaking one.

## Main results

* `GuardedCall.perform_procedure` — each procedure comes to what its call is defined as.
* `rejected_calls_change_nothing` — a call is rejected exactly if it violates its
  rule, and then it changes nothing.
-/

namespace SocksPool

namespace Pool

/-- What a call comes to that is defined as the pool after it, or an error. -/
def settle (p : Pool) : Except PoolError Pool → Except PoolError Unit × Pool
  | .ok q => (.ok (), q)
  | .error e => (.error e, p)

variable {p : Pool} {outcome : Except PoolError Pool} {e : PoolError}

theorem settle_eq_error : (p.settle outcome).1 = .error e ↔ outcome = .error e := by
  cases outcome <;> simp [settle]

theorem settle_of_error (hfails : (p.settle outcome).1 = .error e) :
    (p.settle outcome).2 = p := by
  rw [settle_eq_error.1 hfails]
  rfl

theorem settle_snd (p : Pool) (outcome : Except PoolError Pool) :
    (p.settle outcome).2 = p.afterCall outcome := by
  cases outcome <;> rfl

end Pool

/-- A call of a pool as it runs. A guard that fails ends the call, and what was
written before it stays written. -/
abbrev Procedure (α : Type) := ExceptT PoolError (StateM Pool) α

namespace Procedure

/-- What a call comes to, and the pool that it leaves. -/
def perform {α : Type} (call : Procedure α) (p : Pool) : Except PoolError α × Pool :=
  call.run.run p

/-- Moves the pool to the status that `next` chooses; running begins an epoch.
Answers the epoch. -/
def transition (next : Status → Except PoolError Status) : Procedure Nat := do
  match next (← get).status with
  | .error e => throw e
  | .ok status =>
    if status = .running then
      modify fun p => { p with epoch := p.epoch + 1 }
    modify fun p => { p with status }
    return (← get).epoch

/-- Begins the loops of an epoch. -/
def launch (epoch : Nat) : Procedure Unit := do
  modify (·.spawn (.intakeLoop epoch .waiting))
  modify (·.spawn (.spawnLoop epoch true))
  modify (·.spawn (.scaleLoop epoch none))

def start : Procedure Unit := do
  let epoch ← transition fun
    | .running => .error .alreadyRunning
    | .stopped | .paused => .ok .running
  launch epoch
  modify (·.tell .started)

def pause : Procedure Unit := do
  let _ ← transition fun
    | .running => .ok .paused
    | .paused => .error .alreadyPaused
    | .stopped => .error .notRunning
  modify (·.tell .paused)

def resume : Procedure Unit := do
  let epoch ← transition fun
    | .paused => .ok .running
    | _ => .error .notPaused
  launch epoch
  modify (·.tell .resumed)

def load (raw : String) : Procedure Bool := do
  match Endpoint.normalize? raw with
  | none => throw (.invalidEndpoint (Text.trimString raw))
  | some endpoint =>
    let (registry, _, created) := (← get).registry.add endpoint
    modify fun p => { p with registry }
    if created then
      modify fun p => { p with intake := p.intake ++ [endpoint] }
    return created

/-- Sets a part of the configuration, unless the value for it is refused. -/
def setUnless (refused : Prop) [Decidable refused] (reason : String)
    (change : Config → Config) : Procedure Unit := do
  if refused then throw (.invalidConfig reason)
  modify (·.configure change)

def setValidationTimeout (timeout : Nat) : Procedure Unit :=
  setUnless (timeout = 0) Config.timeoutReason ({ · with validationTimeout := timeout })

def setRemoveAfter (count : Nat) : Procedure Unit :=
  setUnless (count = 0) Config.removeAfterReason ({ · with removeAfter := count })

def setEchoEndpoints (urls : List String) : Procedure Unit :=
  setUnless (urls = []) Config.echoReason ({ · with echoEndpoints := urls })

def setMaxWorkers (ceiling : Nat) : Procedure Unit := do
  if (← get).status = .running then throw (.running "max workers")
  if ceiling = 0 then throw (.invalidConfig Config.maxWorkersReason)
  modify (·.configure ({ · with maxWorkers := ceiling }))
  modify (·.configure fun c => { c with workers := min c.workers ceiling })
  modify fun p => { p with scaler := p.scaler.setCeiling ceiling }
  let capacity := (← get).slots.capacity
  if ceiling < capacity then
    modify (·.tune (Word.difference ceiling capacity))

def setWorkers (count : Nat) : Procedure Unit := do
  if (← get).status = .running then throw (.running "worker count")
  let maxWorkers := (← get).config.maxWorkers
  if count = 0 ∨ maxWorkers < count then
    throw (.invalidConfig (Config.workersReason maxWorkers))
  modify (·.configure ({ · with workers := count }))
  let capacity := (← get).slots.capacity
  modify (·.tune (Word.difference count capacity))

/-! ## Running a procedure -/

section Perform

variable {α β : Type} (p : Pool)

@[simp] theorem perform_pure (a : α) : (pure a : Procedure α).perform p = (.ok a, p) := rfl

@[simp] theorem perform_throw (e : PoolError) :
    (throw e : Procedure α).perform p = (.error e, p) := rfl

@[simp] theorem perform_get : (get : Procedure Pool).perform p = (.ok p, p) := rfl

@[simp] theorem perform_modify (write : Pool → Pool) :
    (modify write : Procedure Unit).perform p = (.ok (), write p) := rfl

/-- A failure ends the procedure, and keeps what was written so far. -/
@[simp] theorem perform_bind (first : Procedure α) (rest : α → Procedure β) :
    (first >>= rest).perform p =
      match first.perform p with
      | (.ok a, q) => (rest a).perform q
      | (.error e, q) => (.error e, q) := by
  unfold perform
  rw [ExceptT.run_bind, StateT.run_bind]
  rcases first.run.run p with ⟨_ | a, q⟩ <;> rfl

-- What was written before a failure is not taken back.
example (write : Pool → Pool) (e : PoolError) :
    (do modify write; throw e : Procedure α).perform p = (.error e, write p) := rfl

@[simp] theorem perform_map (f : α → β) (call : Procedure α) :
    (f <$> call).perform p = ((call.perform p).1.map f, (call.perform p).2) := by
  rw [← bind_pure_comp, perform_bind]
  rcases call.perform p with ⟨_ | a, q⟩ <;> rfl

end Perform

/-! ## Procedures and definitions -/

theorem perform_start (p : Pool) : start.perform p = p.settle p.start := by
  cases hstatus : p.status <;>
    simp [start, transition, launch, Pool.settle, Pool.start, Pool.launch, hstatus]

theorem perform_pause (p : Pool) : pause.perform p = p.settle p.pause := by
  cases hstatus : p.status <;>
    simp [pause, transition, Pool.settle, Pool.pause, hstatus]

theorem perform_resume (p : Pool) : resume.perform p = p.settle p.resume := by
  cases hstatus : p.status <;>
    simp [resume, transition, launch, Pool.settle, Pool.resume, Pool.launch, hstatus]

theorem perform_load (p : Pool) (raw : String) :
    (load raw).perform p = ((p.load raw).2, (p.load raw).1) := by
  unfold load Pool.load
  cases Endpoint.normalize? raw with
  | none => rfl
  | some endpoint =>
      rcases hadded : p.registry.add endpoint with ⟨registry, life, created⟩
      cases created <;> simp [hadded, Except.map]

theorem perform_setUnless (p : Pool) (refused : Prop) [Decidable refused] (reason : String)
    (change : Config → Config) :
    (setUnless refused reason change).perform p =
      p.settle (if refused then .error (.invalidConfig reason) else .ok (p.configure change)) := by
  by_cases hrefused : refused <;> simp [setUnless, Pool.settle, hrefused]

theorem perform_setValidationTimeout (p : Pool) (timeout : Nat) :
    (setValidationTimeout timeout).perform p = p.settle (p.setValidationTimeout timeout) :=
  perform_setUnless p ..

theorem perform_setRemoveAfter (p : Pool) (count : Nat) :
    (setRemoveAfter count).perform p = p.settle (p.setRemoveAfter count) :=
  perform_setUnless p ..

theorem perform_setEchoEndpoints (p : Pool) (urls : List String) :
    (setEchoEndpoints urls).perform p = p.settle (p.setEchoEndpoints urls) :=
  perform_setUnless p ..

theorem perform_setMaxWorkers (p : Pool) (ceiling : Nat) :
    (setMaxWorkers ceiling).perform p = p.settle (p.setMaxWorkers ceiling) := by
  by_cases hrunning : p.status = .running
  · simp [setMaxWorkers, Pool.setMaxWorkers, Pool.settle, hrunning]
  · by_cases hzero : ceiling = 0
    · simp [setMaxWorkers, Pool.setMaxWorkers, Pool.settle, hrunning, hzero]
    · by_cases hcut : ceiling < p.slots.capacity <;>
        simp [setMaxWorkers, Pool.setMaxWorkers, Pool.configure, Pool.settle, hrunning, hzero, hcut]

theorem perform_setWorkers (p : Pool) (count : Nat) :
    (setWorkers count).perform p = p.settle (p.setWorkers count) := by
  by_cases hrunning : p.status = .running
  · simp [setWorkers, Pool.setWorkers, Pool.settle, hrunning]
  · by_cases hrange : count = 0 ∨ p.config.maxWorkers < count <;>
      simp [setWorkers, Pool.setWorkers, Pool.configure, Pool.settle, hrunning, hrange]

end Procedure

/-! ## Rules -/

/-- The calls that can be rejected. -/
inductive GuardedCall where
  | start
  | pause
  | resume
  | load (raw : String)
  | validationTimeout (timeout : Nat)
  | removeAfter (count : Nat)
  | echoEndpoints (urls : List String)
  | maxWorkers (ceiling : Nat)
  | workers (count : Nat)
deriving DecidableEq

namespace GuardedCall

/-- A call as it runs. What a load answers is left out. -/
def procedure : GuardedCall → Procedure Unit
  | .start => Procedure.start
  | .pause => Procedure.pause
  | .resume => Procedure.resume
  | .load raw => do
    let _ ← Procedure.load raw
  | .validationTimeout timeout => Procedure.setValidationTimeout timeout
  | .removeAfter count => Procedure.setRemoveAfter count
  | .echoEndpoints urls => Procedure.setEchoEndpoints urls
  | .maxWorkers ceiling => Procedure.setMaxWorkers ceiling
  | .workers count => Procedure.setWorkers count

/-- The call as a deed. -/
def deed : GuardedCall → Deed
  | .start => .start
  | .pause => .pause
  | .resume => .resume
  | .load raw => .load raw
  | .validationTimeout timeout => .adjust (.validationTimeout timeout)
  | .removeAfter count => .adjust (.removeAfter count)
  | .echoEndpoints urls => .adjust (.echoEndpoints urls)
  | .maxWorkers ceiling => .adjust (.maxWorkers ceiling)
  | .workers count => .adjust (.workers count)

end GuardedCall

/-- The call breaks its rule, and the error says how. The status is looked at before
the argument. -/
inductive Violates (p : Pool) : GuardedCall → PoolError → Prop where
  | startRunning (hstatus : p.status = .running) : Violates p .start .alreadyRunning
  | pausePaused (hstatus : p.status = .paused) : Violates p .pause .alreadyPaused
  | pauseStopped (hstatus : p.status = .stopped) : Violates p .pause .notRunning
  | resumeUnpaused (hstatus : p.status ≠ .paused) : Violates p .resume .notPaused
  | malformed {raw : String} (hnone : Endpoint.normalize? raw = none) :
      Violates p (.load raw) (.invalidEndpoint (Text.trimString raw))
  | noTimeout : Violates p (.validationTimeout 0) (.invalidConfig Config.timeoutReason)
  | noRemoval : Violates p (.removeAfter 0) (.invalidConfig Config.removeAfterReason)
  | noEcho : Violates p (.echoEndpoints []) (.invalidConfig Config.echoReason)
  | ceilingRunning {ceiling : Nat} (hstatus : p.status = .running) :
      Violates p (.maxWorkers ceiling) (.running "max workers")
  | noCeiling (hstatus : p.status ≠ .running) :
      Violates p (.maxWorkers 0) (.invalidConfig Config.maxWorkersReason)
  | countRunning {count : Nat} (hstatus : p.status = .running) :
      Violates p (.workers count) (.running "worker count")
  | countRange {count : Nat} (hstatus : p.status ≠ .running)
      (hrange : ¬ (1 ≤ count ∧ count ≤ p.config.maxWorkers)) :
      Violates p (.workers count) (.invalidConfig (Config.workersReason p.config.maxWorkers))

namespace Pool

variable {p : Pool} {e : PoolError}

theorem start_eq_error : p.start = .error e ↔ Violates p .start e := by
  unfold start
  constructor
  · intro hfails
    split at hfails
    · next hstatus =>
        cases hfails
        exact .startRunning hstatus
    all_goals cases hfails
  · intro hviolates
    cases hviolates with
    | startRunning hstatus => rw [hstatus]

theorem pause_eq_error : p.pause = .error e ↔ Violates p .pause e := by
  unfold pause
  constructor
  · intro hfails
    split at hfails
    · cases hfails
    · next hstatus =>
        cases hfails
        exact .pausePaused hstatus
    · next hstatus =>
        cases hfails
        exact .pauseStopped hstatus
  · intro hviolates
    cases hviolates with
    | pausePaused hstatus | pauseStopped hstatus => rw [hstatus]

theorem resume_eq_error : p.resume = .error e ↔ Violates p .resume e := by
  unfold resume
  constructor
  · intro hfails
    split at hfails
    · cases hfails
    all_goals
      next hstatus =>
        cases hfails
        exact .resumeUnpaused (by simp [hstatus])
  · intro hviolates
    cases hviolates with
    | resumeUnpaused hunpaused =>
        cases hstatus : p.status with
        | paused => exact absurd hstatus hunpaused
        | stopped | running => rfl

theorem load_eq_error {raw : String} : (p.load raw).2 = .error e ↔ Violates p (.load raw) e := by
  unfold load
  constructor
  · intro hfails
    split at hfails
    · next hnone =>
        cases hfails
        exact .malformed hnone
    · cases hfails
  · intro hviolates
    cases hviolates with
    | malformed hnone => rw [hnone]

theorem load_of_error {raw : String} (hfails : (p.load raw).2 = .error e) :
    (p.load raw).1 = p := by
  unfold load at hfails ⊢
  split at hfails
  · rfl
  · cases hfails

/-- A setter with one guard fails exactly if the value is refused. -/
theorem unless_eq_error {refused : Prop} [Decidable refused] {reason : String} {q : Pool} :
    (if refused then .error (.invalidConfig reason) else .ok q : Except PoolError Pool) =
        .error e ↔
      refused ∧ e = .invalidConfig reason := by
  split
  · next hrefused => simp [hrefused, eq_comm]
  · next hfits => simp [hfits]

theorem setValidationTimeout_eq_error {timeout : Nat} :
    p.setValidationTimeout timeout = .error e ↔ Violates p (.validationTimeout timeout) e := by
  refine unless_eq_error.trans ⟨?_, fun hviolates => ?_⟩
  · rintro ⟨rfl, rfl⟩
    exact .noTimeout
  · cases hviolates with
    | noTimeout => exact ⟨rfl, rfl⟩

theorem setRemoveAfter_eq_error {count : Nat} :
    p.setRemoveAfter count = .error e ↔ Violates p (.removeAfter count) e := by
  refine unless_eq_error.trans ⟨?_, fun hviolates => ?_⟩
  · rintro ⟨rfl, rfl⟩
    exact .noRemoval
  · cases hviolates with
    | noRemoval => exact ⟨rfl, rfl⟩

theorem setEchoEndpoints_eq_error {urls : List String} :
    p.setEchoEndpoints urls = .error e ↔ Violates p (.echoEndpoints urls) e := by
  refine unless_eq_error.trans ⟨?_, fun hviolates => ?_⟩
  · rintro ⟨rfl, rfl⟩
    exact .noEcho
  · cases hviolates with
    | noEcho => exact ⟨rfl, rfl⟩

theorem setMaxWorkers_eq_error {ceiling : Nat} :
    p.setMaxWorkers ceiling = .error e ↔ Violates p (.maxWorkers ceiling) e := by
  unfold setMaxWorkers
  constructor
  · intro hfails
    split at hfails
    · next hrunning =>
        cases hfails
        exact .ceilingRunning hrunning
    · next hrunning =>
        split at hfails
        · next hzero =>
            cases hfails
            exact hzero ▸ .noCeiling hrunning
        · cases hfails
  · intro hviolates
    cases hviolates with
    | ceilingRunning hrunning => rw [if_pos hrunning]
    | noCeiling hrunning => rw [if_neg hrunning, if_pos rfl]

theorem setWorkers_eq_error {count : Nat} :
    p.setWorkers count = .error e ↔ Violates p (.workers count) e := by
  have hrange : ¬ (1 ≤ count ∧ count ≤ p.config.maxWorkers) ↔
      count = 0 ∨ p.config.maxWorkers < count := by omega
  unfold setWorkers
  constructor
  · intro hfails
    split at hfails
    · next hrunning =>
        cases hfails
        exact .countRunning hrunning
    · next hrunning =>
        split at hfails
        · next hout =>
            cases hfails
            exact .countRange hrunning (hrange.2 hout)
        · cases hfails
  · intro hviolates
    cases hviolates with
    | countRunning hrunning => rw [if_pos hrunning]
    | countRange hrunning hout => rw [if_neg hrunning, if_pos (hrange.1 hout)]

end Pool

namespace GuardedCall

/-- What the definition of a call comes to. -/
def outcome (p : Pool) : GuardedCall → Except PoolError Unit × Pool
  | .start => p.settle p.start
  | .pause => p.settle p.pause
  | .resume => p.settle p.resume
  | .load raw => ((p.load raw).2.map fun _ => (), (p.load raw).1)
  | .validationTimeout timeout => p.settle (p.setValidationTimeout timeout)
  | .removeAfter count => p.settle (p.setRemoveAfter count)
  | .echoEndpoints urls => p.settle (p.setEchoEndpoints urls)
  | .maxWorkers ceiling => p.settle (p.setMaxWorkers ceiling)
  | .workers count => p.settle (p.setWorkers count)

variable (p : Pool) (c : GuardedCall)

/-- A call comes to what it is defined as, when it runs write by write. -/
theorem perform_procedure : c.procedure.perform p = c.outcome p := by
  cases c with
  | start => exact Procedure.perform_start p
  | pause => exact Procedure.perform_pause p
  | resume => exact Procedure.perform_resume p
  | validationTimeout timeout => exact Procedure.perform_setValidationTimeout p timeout
  | removeAfter count => exact Procedure.perform_setRemoveAfter p count
  | echoEndpoints urls => exact Procedure.perform_setEchoEndpoints p urls
  | maxWorkers ceiling => exact Procedure.perform_setMaxWorkers p ceiling
  | workers count => exact Procedure.perform_setWorkers p count
  | load raw =>
      change _ = ((p.load raw).2.map fun _ => (), (p.load raw).1)
      unfold procedure
      rw [Procedure.perform_bind, Procedure.perform_load]
      cases (p.load raw).2 <;> rfl

/-- A call fails exactly with the error for the rule that it breaks. -/
theorem outcome_eq_error (e : PoolError) : (c.outcome p).1 = .error e ↔ Violates p c e := by
  cases c with
  | start => exact Pool.settle_eq_error.trans Pool.start_eq_error
  | pause => exact Pool.settle_eq_error.trans Pool.pause_eq_error
  | resume => exact Pool.settle_eq_error.trans Pool.resume_eq_error
  | validationTimeout timeout =>
      exact Pool.settle_eq_error.trans Pool.setValidationTimeout_eq_error
  | removeAfter count => exact Pool.settle_eq_error.trans Pool.setRemoveAfter_eq_error
  | echoEndpoints urls => exact Pool.settle_eq_error.trans Pool.setEchoEndpoints_eq_error
  | maxWorkers ceiling => exact Pool.settle_eq_error.trans Pool.setMaxWorkers_eq_error
  | workers count => exact Pool.settle_eq_error.trans Pool.setWorkers_eq_error
  | load raw =>
      rw [← Pool.load_eq_error]
      change (p.load raw).2.map (fun _ => ()) = .error e ↔ _
      cases (p.load raw).2 <;> simp [Except.map]

/-- A call that fails leaves the pool as it was. -/
theorem outcome_of_error {e : PoolError} (hfails : (c.outcome p).1 = .error e) :
    (c.outcome p).2 = p := by
  cases c with
  | load raw =>
      have hload : (p.load raw).2 = .error e :=
        Pool.load_eq_error.2 ((outcome_eq_error p (.load raw) e).1 hfails)
      exact Pool.load_of_error hload
  | _ => exact Pool.settle_of_error hfails

/-- The pool after a call is the pool after the deed. -/
theorem act?_deed : p.act? c.deed = some (c.outcome p).2 := by
  cases c with
  | load raw => rfl
  | _ => exact congrArg some (Pool.settle_snd p _).symm

end GuardedCall

/-- Each of the nine calls, run write by write on any pool: it fails with an error
exactly if it breaks the rule that the error names; if it fails, the whole pool is as
it was; and in any case the pool that it leaves is the one after the deed. -/
theorem rejected_calls_change_nothing (p : Pool) (c : GuardedCall) :
    (∀ e, (c.procedure.perform p).1 = .error e ↔ Violates p c e) ∧
      (∀ e, (c.procedure.perform p).1 = .error e → (c.procedure.perform p).2 = p) ∧
      p.act? c.deed = some (c.procedure.perform p).2 := by
  rw [c.perform_procedure p]
  exact ⟨c.outcome_eq_error p, fun _ hfails => c.outcome_of_error p hfails, c.act?_deed p⟩

end SocksPool
