import SocksPool.Proofs.Decline

/-!
# A dead endpoint that lasts

How many rounds an endpoint may fail is up to the configuration, and it does fail so many:
for every threshold that a word can hold, and every number of failures below it, there is a
run in which an endpoint has failed so often. The limiter counts strikes only up to a
maximum, and such a run may be so long that they are no longer counted.

The pool of these runs knows one endpoint and has one slot. From one failure to the next it
takes a millisecond and the same few deeds, so it is described by a handful of numbers.

## Main definitions

* `Config.lenient` — a configuration with a given threshold and short windows.
* `Scene` — a moment in the life of a pool with one endpoint.
* `Scene.Armed`, `Scene.Resting` — the moments before a round and after one has failed.

## Main results

* `Scene.Armed.fails`, `Scene.Resting.returns` — what leads from one to the other.
* `exists_failing_run` — a run with so many failures.
-/

namespace SocksPool

/-- A configuration that has an endpoint come back after a nanosecond at first and after a
second at most, until it has failed as many rounds as the threshold says. -/
def Config.lenient (threshold : Nat) : Config :=
  { Config.default with
    workers := 1, removeAfter := threshold, badBackoff := 1, maxBadBackoff := Span.second,
    usageQuota := .every 1 }

/-- A moment in the life of a pool that is set up so, knows one endpoint and has one task
beside its loops, if it has one. -/
structure Scene where
  threshold : Nat
  now : Nat
  begun : Nat
  failed : Nat
  arrival : Option Nat
  strike : Option Strike
  pending : List String
  running : Nat
  job : Option (Nat × Task)
  next : Nat
  log : List Event

namespace Scene

/-- The pool at this moment. -/
def pool (c : Scene) : Pool where
  now := c.now
  config := .lenient c.threshold
  registry := ⟨⟨[("a:1", 0)]⟩, [{ endpoint := "a:1", timesBad := c.failed }]⟩
  stats := { checked := c.begun, bad := c.failed }
  usage := { quota := .every 1, arrivals := ⟨c.arrival.toList.map ("a:1", ·)⟩ }
  backoff := { base := 1, ceiling := Span.second, strikes := ⟨c.strike.toList.map ("a:1", ·)⟩ }
  scaler := Scaler.new 20 100
  slots := { capacity := 1, running := c.running }
  status := .running
  epoch := 1
  pending := c.pending
  tasks :=
    [(2, .scaleLoop 1 none), (0, .intakeLoop 1 .receiving), (1, .spawnLoop 1 true)] ++
      c.job.toList
  nextTask := c.next
  log := c.log

variable {c : Scene} {p : Pool} {id due missed : Nat} {task : Task}

/-! ## The task beside the loops -/

theorem task?_pool (hjob : c.job = some (id, task)) (hid : 2 < id) :
    c.pool.task? id = some task := by
  have hscale : (id == 2) = false := beq_eq_false_iff_ne.2 (by omega)
  have hintake : (id == 0) = false := beq_eq_false_iff_ne.2 (by omega)
  have hspawn : (id == 1) = false := beq_eq_false_iff_ne.2 (by omega)
  simp [Pool.task?, pool, hjob, List.lookup_cons, hscale, hintake, hspawn]

theorem remove_pool (hjob : c.job = some (id, task)) (hid : 2 < id) :
    c.pool.remove id = { c with job := none }.pool := by
  have hscale : ¬ 2 = id := by omega
  have hintake : ¬ 0 = id := by omega
  have hspawn : ¬ 1 = id := by omega
  simp [Pool.remove, pool, hjob, hscale, hintake, hspawn]

theorem put_pool (hjob : c.job = some (id, task)) (hid : 2 < id) (other : Task) :
    c.pool.put id other = { c with job := some (id, other) }.pool := by
  have hremove := congrArg Pool.tasks (remove_pool hjob hid)
  unfold Pool.put
  rw [hremove]
  rfl

/-! ## Deeds -/

theorem wake_pool (hjob : c.job = some (id, .requeue "a:1" (some due))) (hid : 2 < id)
    (hdue : Instant.reached due c.now = true) :
    c.pool.act? (.move id .wake) = some { c with job := some (id, .requeue "a:1" none) }.pool := by
  show c.pool.wake? id = _
  unfold Pool.wake?
  rw [task?_pool hjob hid]
  dsimp only
  rw [if_pos (show Instant.reached due c.pool.now = true from hdue), put_pool hjob hid]

theorem comeBack_pool (hjob : c.job = some (id, .requeue "a:1" none)) (hid : 2 < id)
    (hpending : c.pending = []) :
    c.pool.act? (.move id .comeBack) = some { c with job := none, pending := ["a:1"] }.pool := by
  have hroom : c.pool.pendingRoom = true := by
    simp only [Pool.pendingRoom, pool, hpending]
    rfl
  show c.pool.comeBack? id = _
  unfold Pool.comeBack?
  rw [task?_pool hjob hid]
  dsimp only
  rw [if_pos hroom, remove_pool hjob hid]
  simp only [pool, hpending, List.nil_append]

theorem look_pool (hjob : c.job = none) (hrunning : c.running = 0) :
    c.pool.act? (.move 1 .look) =
      some { c with
        running := 1, job := some (c.next, .idleJob 1), next := c.next + 1 }.pool := by
  simp [Pool.act?, Pool.move?, Pool.look?, Pool.task?, pool, hjob, hrunning, Slots.free,
    Slots.take, Pool.put, Pool.remove, Pool.spawn, List.lookup_cons]

/-- A round of the endpoint. -/
def round (stage : RoundStage) : Round :=
  ⟨"a:1", 0, ⟨Config.default.validationTimeout, Config.default.echoEndpoints,
    Config.default.userAgents⟩, true, stage⟩

/-- Nothing that the limiters know puts the endpoint off. -/
structure Ready (c : Scene) : Prop where
  admitted : ∀ arrival ∈ c.arrival, arrival ≤ c.now
  rested : ∀ strike ∈ c.strike, strike.deadline ≤ c.now

theorem Ready.check (h : c.Ready) :
    c.pool.usage.check c.now "a:1" = ({ c with arrival := some (c.now + 1) }.pool.usage, none) := by
  obtain ⟨hadmitted, -⟩ := h
  cases harrival : c.arrival with
  | none => simp [Usage.check, Usage.tolerance, Usage.pace, pool, harrival, Table.get?, Table.put,
      Quota.every]
  | some arrival =>
      have hpast : arrival ≤ c.now := hadmitted arrival harrival
      simp [Usage.check, Usage.tolerance, Usage.pace, pool, harrival, Table.get?, Table.put,
        Quota.every, hpast]

theorem Ready.retryAfter? (h : c.Ready) : c.pool.backoff.retryAfter? c.now "a:1" = none := by
  obtain ⟨-, hrested⟩ := h
  cases hstrike : c.strike with
  | none => simp [Backoff.retryAfter?, pool, hstrike, Table.get?]
  | some strike =>
      have hpast : strike.deadline ≤ c.now := hrested strike hstrike
      simp [Backoff.retryAfter?, pool, hstrike, Table.get?, hpast]

theorem Ready.openRound (h : c.Ready) :
    c.pool.openRound "a:1" true =
      ({ c with arrival := some (c.now + 1), begun := c.begun + 1 }.pool,
        some (round (.opening c.now))) := by
  have hfind : c.pool.registry.find? "a:1" = some 0 := rfl
  have hcheck : c.pool.usage.check c.pool.now "a:1" = _ := h.check
  have hretry : c.pool.backoff.retryAfter? c.pool.now "a:1" = none := h.retryAfter?
  unfold Pool.openRound
  rw [hfind]
  dsimp only
  rw [hcheck]
  dsimp only
  rw [hretry]
  rfl

theorem pick_pool (h : c.Ready) (hjob : c.job = some (id, .idleJob 1)) (hid : 2 < id)
    (hpending : c.pending = ["a:1"]) :
    c.pool.act? (.move id .pick) =
      some { c with
        pending := [], arrival := some (c.now + 1), begun := c.begun + 1,
        job := some (id, .round (round (.opening c.now))) }.pool := by
  have hopened : Pool.openRound { c.pool with pending := [] } "a:1" true = _ :=
    Ready.openRound (c := { c with pending := [] }) ⟨h.admitted, h.rested⟩
  have hqueue : c.pool.pending = ["a:1"] := hpending
  show c.pool.pick? id = _
  unfold Pool.pick?
  rw [task?_pool hjob hid, hqueue]
  dsimp only
  rw [hopened]
  exact congrArg some (put_pool (c := { c with
    pending := [], arrival := some (c.now + 1), begun := c.begun + 1 }) hjob hid _)

theorem retry_pool {protocol next : Protocol} {more : List Protocol} {since : Nat}
    (hjob : c.job = some (id, .round (round (.attempting protocol (next :: more) since))))
    (hid : 2 < id) (e : PoolError) :
    c.pool.act? (.move id (.attempted (.error e))) =
      some { c with
        job := some (id, .round (round (.attempting next more c.now))),
        log := c.log ++ [Event.attemptFailed "a:1" protocol e] }.pool := by
  show c.pool.attempted? id (.error e) = _
  unfold Pool.attempted?
  rw [task?_pool hjob hid]
  exact congrArg some (put_pool (c := { c with
    log := c.log ++ [Event.attemptFailed "a:1" protocol e] }) hjob hid _)

/-- The windows of the configuration last less than a millisecond. -/
theorem doubled_lt_milli (missed : Nat) : Backoff.doubled 1 Span.second missed < Span.milli := by
  have hpower : 2 ^ min missed 16 ≤ 2 ^ 16 :=
    Nat.pow_le_pow_right (by decide) (Nat.min_le_right _ _)
  unfold Backoff.doubled Span.milli
  omega

theorem doubled_pos (missed : Nat) : 0 < Backoff.doubled 1 Span.second missed :=
  (Backoff.doubled_between (by decide) missed).1

/-- How many strikes the limiter counts. -/
def count (c : Scene) : Nat := (c.strike.map (·.count)).getD 0

/-- The window of the next strike. -/
def window (c : Scene) : Nat := Backoff.doubled 1 Span.second c.count

/-- Far from the end of the clock. -/
def Early (c : Scene) : Prop := c.now < Word.limit * Span.milli

theorem Early.add? (h : c.Early) : Instant.add? c.now c.window = some (c.now + c.window) := by
  have hshort : c.window < Span.milli := doubled_lt_milli c.count
  unfold Early Word.limit Span.milli at *
  unfold Instant.add?
  rw [if_pos]
  unfold Span.second Instant.secondLimit
  omega

/-- What the limiter counts once the endpoint is struck. -/
def struck (c : Scene) : Strike := ⟨min (c.count + 1) Backoff.maxCount, c.now + c.window⟩

theorem Early.strike (h : c.Early) :
    c.pool.strike "a:1" = ({ c with strike := some c.struck }.pool, some c.window) := by
  have hlast : ((c.pool.backoff.strikes.get? "a:1").getD ⟨0, c.pool.now⟩).count = c.count := by
    unfold count
    cases hstrike : c.strike <;> simp [pool, hstrike, Table.get?]
  have hput (row : Strike) : c.pool.backoff.strikes.put "a:1" row = ⟨[("a:1", row)]⟩ := by
    cases hstrike : c.strike <;> simp [pool, hstrike, Table.put]
  have hwindow : c.pool.backoff.window (min (c.count + 1) Backoff.maxCount) = c.window := by
    have hbefore : min (min (c.count + 1) Backoff.maxCount - 1) 16 = min c.count 16 := by
      unfold Backoff.maxCount
      omega
    have hpower : 2 ^ min c.count 16 ≤ 2 ^ 16 :=
      Nat.pow_le_pow_right (by decide) (Nat.min_le_right _ _)
    show min (min (1 * 2 ^ min (min (c.count + 1) Backoff.maxCount - 1) 16) Span.longest)
      Span.second = min (1 * 2 ^ min c.count 16) Span.second
    rw [hbefore]
    unfold Span.longest Span.second
    omega
  have hends : Instant.add? c.pool.now c.window = some (c.now + c.window) := h.add?
  unfold Pool.strike Backoff.strike
  dsimp only
  rw [hlast, hwindow, hends]
  dsimp only
  rw [hput]
  rfl

/-- The moment after a round has failed. -/
def afterMiss (c : Scene) : Scene :=
  { c with
    failed := c.failed + 1, running := c.running - 1, strike := some c.struck,
    job := some (c.next, .requeue "a:1" (some (c.now + c.window))), next := c.next + 1,
    log := c.log ++ [Event.roundFailed "a:1" (c.failed + 1) c.window] }

theorem Early.failRound (h : c.Early) (hjob : c.job = some (id, task)) (hid : 2 < id)
    (hnext : id < c.next) (hfew : c.failed + 1 < c.threshold)
    (stage : RoundStage) : c.pool.failRound id (round stage) = c.afterMiss.pool := by
  have hmark : Pool.markBad { c.pool with stats := c.pool.stats.recordBad } 0 =
      ({ c with failed := c.failed + 1 }.pool, c.failed + 1) := rfl
  have hstrike : Pool.strike { c with failed := c.failed + 1 }.pool "a:1" =
      ({ c with failed := c.failed + 1, strike := some c.struck }.pool, some c.window) :=
    Early.strike (c := { c with failed := c.failed + 1 }) h
  have hends : Instant.deadline c.now c.window = c.now + c.window := by
    unfold Instant.deadline
    rw [h.add?]
    rfl
  have hwindow : c.window ≠ 0 := Nat.ne_of_gt (doubled_pos c.count)
  have hkept : ¬ (Config.lenient c.threshold).removeAfter ≤ c.failed + 1 :=
    Nat.not_le_of_lt hfew
  have hscale : ¬ 2 = id := by omega
  have hintake : ¬ 0 = id := by omega
  have hspawn : ¬ 1 = id := by omega
  have hother : ¬ c.next = id := by omega
  unfold Pool.failRound
  dsimp only [round]
  rw [hmark]
  dsimp only
  rw [hstrike]
  dsimp only
  simp [Pool.closeRound, Pool.requeue, Pool.spawn, Pool.tell, Pool.remove, Pool.releaseSlot,
    Pool.wakeSpawners, pool, afterMiss, hjob, hends, hwindow, hkept, hscale, hintake, hspawn,
    hother, Slots.release]

theorem fail_pool {protocol : Protocol} {since : Nat} (hearly : c.Early)
    (hjob : c.job = some (id, .round (round (.attempting protocol [] since)))) (hid : 2 < id)
    (hnext : id < c.next) (hfew : c.failed + 1 < c.threshold) (e : PoolError) :
    c.pool.act? (.move id (.attempted (.error e))) =
      some (afterMiss { c with log := c.log ++ [Event.attemptFailed "a:1" protocol e] }).pool := by
  show c.pool.attempted? id (.error e) = _
  unfold Pool.attempted?
  rw [task?_pool hjob hid]
  exact congrArg some (Early.failRound (c := { c with
    log := c.log ++ [Event.attemptFailed "a:1" protocol e] }) hearly hjob hid hnext hfew _)

/-! ## Turns -/

/-- A run from `p` to this moment in which the endpoint has failed so many rounds, and
nothing else has happened to it. -/
def Reached (c : Scene) (p : Pool) (missed : Nat) : Prop :=
  ∃ steps, Run p steps c.pool ∧
    (∀ s ∈ steps, s.Fruitless "a:1" c.threshold) ∧
    steps.countP (·.registers "a:1") ≤ 1 ∧ steps.countP (·.misses "a:1") = missed

/-- The moment before a round, after so many have failed. -/
structure Armed (c : Scene) (missed id : Nat) : Prop where
  ready : c.Ready
  now : c.now = missed * Span.milli
  failed : c.failed = missed
  counted : c.count = min missed Backoff.maxCount
  pending : c.pending = ["a:1"]
  running : c.running = 1
  job : c.job = some (id, .idleJob 1)
  numbered : 2 < id
  next : id < c.next

/-- The moment after a round has failed, and so many before it. -/
structure Resting (c : Scene) (missed id : Nat) : Prop where
  now : c.now = missed * Span.milli
  failed : c.failed = missed + 1
  arrival : c.arrival = some (c.now + 1)
  strike : c.strike =
    some ⟨min (missed + 1) Backoff.maxCount, c.now + Backoff.doubled 1 Span.second missed⟩
  pending : c.pending = []
  running : c.running = 0
  job : c.job =
    some (id, .requeue "a:1" (some (c.now + Backoff.doubled 1 Span.second missed)))
  numbered : 2 < id
  next : id < c.next

variable {d : Scene} {deed : Deed}

/-- A deed that fails no round. -/
theorem Reached.step (h : c.Reached p missed) (hdone : c.pool.act? deed = some d.pool)
    (hsame : c.threshold = d.threshold) (hsilent : deed ≠ .reportFailure "a:1")
    (hdead : ∀ id exit, deed ≠ .move id (.attempted (.ok exit)))
    (hspared : Step.misses ⟨c.pool, deed, d.pool, hdone⟩ "a:1" = false) : d.Reached p missed := by
  obtain ⟨steps, hrun, hfruitless, honce, hmissed⟩ := h
  refine ⟨_, .step ⟨c.pool, deed, d.pool, hdone⟩ hrun,
    hsame ▸ List.forall_mem_append.2
      ⟨hfruitless, List.forall_mem_singleton.2 ⟨rfl, hsilent, ?_, ?_⟩⟩, ?_, ?_⟩
  · rintro ⟨id, exit, -, hpasses, -⟩
    exact hdead id exit hpasses
  · rw [hspared]
    exact nofun
  · rw [List.countP_append, List.countP_singleton]
    exact honce
  · rw [List.countP_append, List.countP_singleton, hspared]
    exact hmissed

/-- So is an attempt that others come after. -/
theorem Reached.retry (h : c.Reached p missed) {protocol next : Protocol}
    {more : List Protocol} {since : Nat}
    (hjob : c.job = some (id, .round (round (.attempting protocol (next :: more) since))))
    (hid : 2 < id) (e : PoolError) :
    Reached { c with
      job := some (id, .round (round (.attempting next more c.now))),
      log := c.log ++ [Event.attemptFailed "a:1" protocol e] } p missed := by
  refine h.step (retry_pool hjob hid e) rfl nofun nofun ?_
  unfold Step.misses
  dsimp only
  rw [task?_pool hjob hid]
  rfl

/-- After its rest the endpoint comes back, and the next round may begin. -/
theorem Resting.returns (h : c.Resting missed id) (hreached : c.Reached p (missed + 1)) :
    ∃ d : Scene, d.Reached p (missed + 1) ∧ d.Armed (missed + 1) c.next ∧
      c.threshold = d.threshold := by
  have hshort := doubled_lt_milli missed
  have hdue : Instant.reached (c.now + Backoff.doubled 1 Span.second missed)
      (c.now + Span.milli) = true := by
    rw [h.now]
    unfold Instant.reached Instant.ceilMilli
    unfold Span.milli at *
    rw [decide_eq_true_eq]
    omega
  have hclock : c.pool.act? (.advance Span.milli) =
      some { c with now := c.now + Span.milli }.pool := rfl
  have hadvanced := hreached.step hclock rfl nofun nofun rfl
  have hwoken := hadvanced.step (wake_pool h.job h.numbered hdue) rfl nofun nofun rfl
  have hback := hwoken.step (comeBack_pool rfl h.numbered h.pending) rfl nofun nofun rfl
  have hlooked := hback.step (look_pool rfl h.running) rfl nofun nofun rfl
  refine ⟨_, hlooked,
    ⟨⟨?_, ?_⟩, ?_, h.failed, ?_, rfl, rfl, rfl, ?_, Nat.lt_succ_self _⟩, rfl⟩
  · intro arrival harrival
    obtain rfl : c.now + 1 = arrival := Option.some.inj (h.arrival.symm.trans harrival)
    exact Nat.add_le_add_left (by decide) _
  · intro strike hstrike
    obtain rfl := Option.some.inj (h.strike.symm.trans hstrike)
    exact Nat.add_le_add_left (Nat.le_of_lt hshort) _
  · show c.now + Span.milli = _
    rw [h.now, Nat.add_one_mul]
  · show (c.strike.map (·.count)).getD 0 = _
    rw [h.strike]
    rfl
  · exact Nat.lt_trans h.numbered h.next

/-- A run whose last step is a failure of the endpoint, after so many others. -/
structure Fails (p : Pool) (threshold missed : Nat) (steps : List Step) (s : Step) : Prop where
  run : Run p steps s.before
  fruitless : ∀ t ∈ steps ++ [s], t.Fruitless "a:1" threshold
  once : steps.countP (·.registers "a:1") ≤ 1
  misses : s.misses "a:1" = true
  before : steps.countP (·.misses "a:1") = missed

theorem Reached.fails {protocol : Protocol} {since : Nat} (h : c.Reached p missed)
    (hearly : c.Early)
    (hjob : c.job = some (id, .round (round (.attempting protocol [] since)))) (hid : 2 < id)
    (hnext : id < c.next) (hfew : c.failed + 1 < c.threshold) (e : PoolError) :
    ∃ steps s, Fails p c.threshold missed steps s ∧ s.before = c.pool ∧
      s.after =
        (afterMiss { c with log := c.log ++ [Event.attemptFailed "a:1" protocol e] }).pool := by
  obtain ⟨steps, hrun, hfruitless, honce, hmissed⟩ := h
  refine ⟨steps, ⟨_, _, _, fail_pool hearly hjob hid hnext hfew e⟩, ⟨hrun, ?_, honce, ?_, hmissed⟩,
    rfl, rfl⟩
  · refine List.forall_mem_append.2 ⟨hfruitless, List.forall_mem_singleton.2 ⟨rfl, nofun, ?_, ?_⟩⟩
    · rintro ⟨_, _, _, hpasses, -⟩
      cases hpasses
    · intro _ hnone
      have hstrike := congrArg Prod.snd hearly.strike
      rw [show (c.pool.strike "a:1").2 = none from hnone] at hstrike
      cases hstrike
  · unfold Step.misses
    dsimp only
    rw [task?_pool hjob hid]
    rfl

/-- A failure is one more. -/
theorem Fails.reached {threshold : Nat} {steps : List Step} {s : Step}
    (h : Fails p threshold missed steps s) (hafter : s.after = c.pool)
    (hsame : threshold = c.threshold) (hknown : s.before.registry.contains "a:1" = true) :
    c.Reached p (missed + 1) := by
  refine ⟨steps ++ [s], hafter ▸ .step s h.run, hsame ▸ h.fruitless, ?_, ?_⟩
  · have hregisters : s.registers "a:1" = false := by
      unfold Step.registers
      rw [hknown]
      rfl
    rw [List.countP_append, List.countP_singleton, hregisters]
    exact h.once
  · rw [List.countP_append, List.countP_singleton, h.misses, h.before]
    rfl

/-- The round fails as well. -/
theorem Armed.fails (h : c.Armed missed id) (hreached : c.Reached p missed)
    (hword : c.threshold ≤ Word.limit) (hfew : missed + 1 < c.threshold) :
    ∃ (steps : List Step) (s : Step) (d : Scene), Fails p c.threshold missed steps s ∧
      s.after = d.pool ∧ s.before.now = d.now ∧ d.Resting missed c.next ∧
      d.Reached p (missed + 1) ∧ c.threshold = d.threshold := by
  have hearly : c.Early := by
    unfold Early
    rw [h.now]
    exact Nat.mul_lt_mul_of_pos_right (by omega) (by decide)
  have hwindow : c.window = Backoff.doubled 1 Span.second missed := by
    have hbefore : min (min missed Backoff.maxCount) 16 = min missed 16 := by
      unfold Backoff.maxCount
      omega
    unfold window Backoff.doubled
    rw [h.counted, hbefore]
  have hpicked := hreached.step (pick_pool h.ready h.job h.numbered h.pending) rfl nofun nofun
    rfl
  have hsecond := hpicked.retry rfl h.numbered (.dialTimeout "a:1")
  have hthird := hsecond.retry rfl h.numbered (.dialTimeout "a:1")
  obtain ⟨steps, s, hfails, hbefore, hafter⟩ := hthird.fails hearly rfl h.numbered h.next
    (show c.failed + 1 < _ from h.failed ▸ hfew) (.dialTimeout "a:1")
  have hnow : s.before.now = c.now := congrArg Pool.now hbefore
  refine ⟨steps, s, _, hfails, hafter, hnow, ?_,
    hfails.reached hafter rfl (by rw [hbefore]; rfl), rfl⟩
  have hcounted : min (c.count + 1) Backoff.maxCount = min (missed + 1) Backoff.maxCount := by
    rw [h.counted]
    omega
  refine ⟨h.now, congrArg (· + 1) h.failed, rfl, ?_, rfl, ?_, ?_, ?_, Nat.lt_succ_self _⟩
  · show some (Strike.mk (min (c.count + 1) Backoff.maxCount) (c.now + c.window)) = _
    rw [hcounted, hwindow]
    rfl
  · show c.running - 1 = 0
    rw [h.running]
  · show some (c.next, Task.requeue "a:1" (some (c.now + c.window))) = _
    rw [hwindow]
    rfl
  · exact Nat.lt_trans h.numbered h.next

end Scene

/-- The deeds of a run, done one after the other, lead to its end. -/
theorem Run.perform?_deeds {p q : Pool} {steps : List Step} (hrun : Run p steps q) :
    p.perform? (steps.map Step.deed) = some q := by
  induction hrun with
  | rest => rfl
  | step s _ ih =>
      rw [List.map_append, Pool.perform?_append, ih]
      show (s.before.act? s.deed).bind _ = _
      rw [s.done]
      rfl

/-- A pool of this configuration just before the first round of the endpoint. -/
theorem exists_armed (threshold : Nat) (hpos : threshold ≠ 0) :
    ∃ p c, Pool.new (.lenient threshold) = .ok p ∧ c.threshold = threshold ∧
      Scene.Reached c p 0 ∧ c.Armed 0 3 := by
  obtain ⟨spare, rfl⟩ := Nat.exists_eq_succ_of_ne_zero hpos
  obtain ⟨p, view, hmeans, hmade, hview, hends⟩ :
      ∃ (p : Pool) (view : Step → (Bool × Bool) × Nat),
        (∀ s, view s = ((s.registers "a:1", s.misses "a:1"), s.before.config.removeAfter)) ∧
        Pool.new (.lenient (spare + 1)) = .ok p ∧
        (p.steps? [.load "a:1", .start, .move 0 .lockIntake, .move 0 .receive,
            .move 0 .forward, .move 1 .look]).map (List.map view) =
          some (((true, false), spare + 1) :: List.replicate 5 ((false, false), spare + 1)) ∧
        p.perform? [.load "a:1", .start, .move 0 .lockIntake, .move 0 .receive,
            .move 0 .forward, .move 1 .look] =
          some (Scene.pool ⟨spare + 1, 0, 0, 0, none, none, ["a:1"], 1, some (3, .idleJob 1), 4,
            [.started]⟩) :=
    ⟨_, _, fun _ => rfl, rfl, rfl, rfl⟩
  obtain ⟨steps, q, hrun, hdeeds, hseen⟩ := Run.of_views view hview
  have hlast := hrun.perform?_deeds
  rw [hdeeds, hends] at hlast
  obtain rfl := Option.some.inj hlast
  have hall : ∀ seen ∈ steps.map view, seen.1.2 = false ∧ seen.2 = spare + 1 := by
    rw [hseen]
    simp
  have hspared : ∀ s ∈ steps, s.misses "a:1" = false ∧
      s.before.config.removeAfter = spare + 1 := by
    intro s hs
    have hlooks := hall _ (List.mem_map_of_mem hs)
    rwa [hmeans] at hlooks
  refine ⟨p, _, hmade, rfl, ⟨steps, hrun, fun s hs => ?_, ?_, ?_⟩,
    ⟨⟨nofun, nofun⟩, rfl, rfl, rfl, rfl, rfl, rfl, by decide, Nat.lt_succ_self 3⟩⟩
  · have hquiet := Step.forall_of_deeds
      (P := fun d => d ≠ .reportFailure "a:1" ∧ ∀ id exit, d ≠ .move id (.attempted (.ok exit)))
      hdeeds (by simp) s hs
    refine ⟨(hspared s hs).2, hquiet.1, ?_, ?_⟩
    · rintro ⟨id, exit, r, hdeed, -, -⟩
      exact hquiet.2 id exit hdeed
    · rw [(hspared s hs).1]
      exact nofun
  · have hviewed : steps.countP (·.registers "a:1") = (steps.map view).countP (·.1.1) := by
      simp only [List.countP_map, Function.comp_def, hmeans]
    rw [hviewed, hseen]
    simp
  · refine List.countP_eq_zero.2 fun s hs => ?_
    rw [(hspared s hs).1]
    exact Bool.false_ne_true

/-- Below every threshold that a word can hold, an endpoint fails as many rounds as one likes.
It has a mark for each of them, a strike for each that is counted, and comes back after the
window of the last. -/
theorem exists_failing_run {threshold : Nat} (hword : threshold ≤ Word.limit) (missed : Nat)
    (hfew : missed + 1 < threshold) :
    ∃ p steps s, Pool.new (.lenient threshold) = .ok p ∧
      Scene.Fails p threshold missed steps s ∧
      s.after.registry.get? "a:1" = some { endpoint := "a:1", timesBad := missed + 1 } ∧
      s.after.backoff.count "a:1" = min (missed + 1) Backoff.maxCount ∧
      s.after.comebacks "a:1" =
        [some (s.before.now + Backoff.doubled 1 Span.second missed)] := by
  have hpos : threshold ≠ 0 := Nat.ne_zero_of_lt hfew
  obtain ⟨p, first, hmade, hfirst, hreached, hready⟩ := exists_armed threshold hpos
  have hall : ∀ missed, missed < threshold →
      ∃ c id, c.threshold = threshold ∧ Scene.Reached c p missed ∧ c.Armed missed id := by
    intro missed
    induction missed with
    | zero => exact fun _ => ⟨first, 3, hfirst, hreached, hready⟩
    | succ missed ih =>
        intro hmore
        obtain ⟨c, id, rfl, hsofar, harmed⟩ := ih (Nat.lt_of_succ_lt hmore)
        obtain ⟨-, -, d, -, -, -, hresting, hfailed, hsame⟩ := harmed.fails hsofar hword hmore
        obtain ⟨e, hback, hagain, hkept⟩ := hresting.returns hfailed
        exact ⟨e, d.next, (hsame.trans hkept).symm, hback, hagain⟩
  obtain ⟨c, id, rfl, hsofar, harmed⟩ := hall missed (Nat.lt_of_succ_lt hfew)
  obtain ⟨steps, s, d, hfails, hafter, hnow, hresting, -⟩ := harmed.fails hsofar hword hfew
  refine ⟨p, steps, s, hmade, hfails, ?_, ?_, ?_⟩
  · rw [hafter, ← hresting.failed]
    rfl
  · rw [hafter]
    show ((Table.get? ⟨d.strike.toList.map ("a:1", ·)⟩ "a:1").map (·.count)).getD 0 = _
    rw [hresting.strike]
    rfl
  · rw [hafter, hnow]
    simp [Pool.comebacks, Scene.pool, hresting.job, Task.comeback?]

end SocksPool
