import SocksPool.Proofs.Generation
import SocksPool.Proofs.Pace

/-!
# The effort of a pool at a standing clock

While the clock stands, an endpoint goes round and round: it is validated, dispensed,
recycled and validated again, or it fails and comes back at once. What brings this to an
end is the usage limiter, which admits a burst of rounds and then none. On the way from
one round to the next an endpoint only moves forward. So an endpoint is charged for
every round that may still begin and for every place that it still has to pass.

Each of these steps may also free a slot and wake spawn loops, which look for one. So a
step of an endpoint is worth more than one step of a loop, and how much more depends on
the number of spawn loops. Loops and callers themselves are charged for the steps that
they take without an endpoint.

One step is not paid for: a spawn loop that is told to stop, and starts one more job
instead. The job stops at once, and the loop may start another.

## Main definitions

* `Tariff` — what endpoints and tasks are charged.
* `Pool.effortAt` — the charges of a pool.

## Main results

* `Shift.effortAt` — every move lowers the effort, unless a round begins or a loop
  ignores its signal.
-/

open SocksPool.Task (Numbered)

namespace SocksPool

/-- What charges depend on. -/
structure Tariff where
  /-- How many spawn loops may wake up as a slot is freed. -/
  spawners : Nat
  now : Nat
  /-- The epochs whose jobs are told to stop. -/
  halted : Nat → Bool
  /-- How many rounds of an endpoint the usage limiter still admits. -/
  room : String → Nat

namespace Tariff

/-- What one step of an endpoint is worth. -/
def unit (t : Tariff) : Nat := t.spawners + 2

/-- The charge for an endpoint with some steps to the end of its present turn. A turn
takes at most ten. -/
def endpoint (t : Tariff) (e : String) (steps : Nat) : Nat :=
  10 * t.unit * t.room e + steps * t.unit

/-- How often a scale loop may tick. A tick that was due earlier is followed by one that
is due later, if only by a nanosecond. -/
def ticks (t : Tariff) : Option Nat → Nat
  | none => 1
  | some due => if Instant.reached due t.now then t.now + 1 - due else 0

/-- The charges for endpoints on the intake queue, on the pending queue and, with their
copies, on the output queues. -/
def queues (t : Tariff) (intake pending : List String) (outputs : Outputs) : Nat :=
  (intake.map (t.endpoint · 3)).sum + (pending.map (t.endpoint · 1)).sum +
    (outputs.copies.map (t.endpoint ·.endpoint 4)).sum

/-- The charge for a round, from its first attempt to the copy. -/
def round (t : Tariff) (r : Round) : Nat :=
  match r.stage with
  | .attempting _ rest _ => t.endpoint r.endpoint (6 + rest.length)
  | .delivering copy => t.endpoint copy.endpoint 5

/-- The charge for a caller and the candidate that it re-dials. -/
def caller (t : Tariff) (c : Caller) : Nat :=
  t.unit + 1 +
    match c.stage with
    | .waiting => 0
    | .checking candidate _ _ _ _ => t.endpoint candidate.endpoint 3
    | .using _ _ _ => 1

/-- The charge for a task. -/
def task (t : Tariff) : Task → Nat
  | .intakeLoop _ .waiting => t.unit + 2
  | .intakeLoop _ .receiving => t.unit + 1
  | .intakeLoop _ (.holding e) => t.unit + 1 + t.endpoint e 2
  | .spawnLoop _ awake => 1 + awake.toNat
  | .scaleLoop _ due => 1 + (Word.limit + t.spawners + 1) * t.ticks due
  | .idleJob epoch => if t.halted epoch then t.unit else 0
  | .round r => t.round r
  | .requeue e none => t.endpoint e 2
  | .requeue e (some due) => t.endpoint e (if Instant.reached due t.now then 3 else 0)
  | .caller c => t.caller c

/-- The charge for some tasks together. -/
def tasks (t : Tariff) (tasks : List Task) : Nat := (tasks.map t.task).sum

variable (t : Tariff)

theorem tasks_nil : t.tasks [] = 0 := rfl

theorem tasks_cons (task : Task) (rest : List Task) :
    t.tasks (task :: rest) = t.task task + t.tasks rest := List.sum_cons

theorem tasks_append (first second : List Task) :
    t.tasks (first ++ second) = t.tasks first + t.tasks second := by
  unfold tasks
  rw [List.map_append, List.sum_append]

/-- Every step more costs a unit more. -/
theorem endpoint_succ (e : String) (steps : Nat) :
    t.endpoint e (steps + 1) = t.endpoint e steps + t.unit := by
  unfold endpoint
  rw [Nat.add_one_mul steps, Nat.add_assoc]

theorem endpoint_mono (e : String) {few many : Nat} (h : few ≤ many) :
    t.endpoint e few ≤ t.endpoint e many :=
  Nat.add_le_add_left (Nat.mul_le_mul_right _ h) _

theorem two_le_unit : 2 ≤ t.unit := Nat.le_add_left _ _

end Tariff

namespace Pool

/-- The slots that may be taken. -/
def spare (p : Pool) : Nat := p.slots.capacity - p.slots.running

/-- All charges of a pool. -/
def effortAt (p : Pool) (t : Tariff) : Nat :=
  t.queues p.intake p.pending p.outputs + p.weigh t.task + p.spare

/-- The deed is a spawn loop starting a job although it is told to stop. -/
def ignoresHalt (p : Pool) : Deed → Bool
  | .move id .look =>
    match p.task? id with
    | some (.spawnLoop epoch _) => p.halted epoch && p.slots.free
    | _ => false
  | _ => false

variable {p q mid : Pool} {d : Deed} {gone come : List Task} {t : Tariff}

/-! ## Charges of operations -/

theorem weigh_wakened (hspawners : p.alive .spawn ≤ t.spawners)
    (h : mid.crew = p.crew ∨ mid.crew = p.crew.map Task.wakened) :
    mid.weigh t.task ≤ p.weigh t.task + t.spawners := by
  have hbound (crew : List Task) : ((crew.map Task.wakened).map t.task).sum ≤
      (crew.map t.task).sum + crew.countP (·.loop? == some .spawn) := by
    induction crew with
    | nil => exact Nat.le_refl _
    | cons task rest ih =>
        simp only [List.map_cons, List.sum_cons, List.countP_cons]
        have hone : t.task task.wakened ≤
            t.task task + if (task.loop? == some .spawn) = true then 1 else 0 := by
          cases task with
          | spawnLoop epoch awake =>
              simp [Task.wakened, Tariff.task, Task.loop?]
          | _ => exact Nat.le_add_right _ _
        omega
  unfold weigh
  rcases h with hsame | hwoken
  · rw [hsame]
    exact Nat.le_add_right _ _
  · rw [hwoken]
    exact Nat.le_trans (hbound p.crew) (Nat.add_le_add_left hspawners _)

theorem sum_copies_set (o : Outputs) {protocol : Protocol} (hknown : protocol ≠ .unknown)
    (queue : List Proxy) (price : Proxy → Nat) :
    ((o.set protocol queue).copies.map price).sum + ((o.get protocol).map price).sum =
      (o.copies.map price).sum + (queue.map price).sum := by
  cases protocol with
  | unknown => exact absurd rfl hknown
  | socks4 | socks4a | socks5 =>
      simp only [Outputs.copies, Outputs.set, Outputs.get, List.map_append, List.sum_append]
      omega

theorem effortAt_pushIntake (p : Pool) (t : Tariff) (e : String) :
    (p.pushIntake e).effortAt t = p.effortAt t + t.endpoint e 3 := by
  show t.queues (p.intake ++ [e]) p.pending p.outputs + p.weigh t.task + p.spare = _
  unfold effortAt Tariff.queues
  rw [List.map_append, List.sum_append, List.map_singleton, List.sum_singleton]
  omega

theorem effortAt_popIntake {e : String} {rest : List String} (hintake : p.intake = e :: rest)
    (t : Tariff) : effortAt { p with intake := rest } t + t.endpoint e 3 = p.effortAt t := by
  show t.queues rest p.pending p.outputs + p.weigh t.task + p.spare + _ = _
  unfold effortAt Tariff.queues
  rw [hintake, List.map_cons, List.sum_cons]
  omega

theorem effortAt_pushPending (p : Pool) (t : Tariff) (e : String) :
    (p.pushPending e).effortAt t = p.effortAt t + t.endpoint e 1 := by
  show t.queues p.intake (p.pending ++ [e]) p.outputs + p.weigh t.task + p.spare = _
  unfold effortAt Tariff.queues
  rw [List.map_append, List.sum_append, List.map_singleton, List.sum_singleton]
  omega

theorem effortAt_popPending {e : String} {rest : List String} (hpending : p.pending = e :: rest)
    (t : Tariff) : effortAt { p with pending := rest } t + t.endpoint e 1 = p.effortAt t := by
  show t.queues p.intake rest p.outputs + p.weigh t.task + p.spare + _ = _
  unfold effortAt Tariff.queues
  rw [hpending, List.map_cons, List.sum_cons]
  omega

theorem effortAt_dequeue {protocol : Protocol} {candidate : Proxy} {rest : List Proxy}
    (hqueue : p.outputs.get protocol = candidate :: rest) (t : Tariff) :
    effortAt { p with outputs := p.outputs.set protocol rest } t +
      t.endpoint candidate.endpoint 4 = p.effortAt t := by
  have hset := sum_copies_set p.outputs (Outputs.known_of_get hqueue) rest
    (t.endpoint ·.endpoint 4)
  rw [hqueue, List.map_cons, List.sum_cons] at hset
  show t.queues p.intake p.pending (p.outputs.set protocol rest) + p.weigh t.task + p.spare +
    _ = _
  unfold effortAt Tariff.queues
  omega

theorem effortAt_deliver {copy : Proxy} (hroom : p.outputRoom copy.protocol = true)
    (t : Tariff) : (p.deliver copy).effortAt t = p.effortAt t + t.endpoint copy.endpoint 4 := by
  unfold outputRoom at hroom
  rw [Bool.and_eq_true, bne_iff_ne] at hroom
  have hset := sum_copies_set p.outputs hroom.1 (p.outputs.get copy.protocol ++ [copy])
    (t.endpoint ·.endpoint 4)
  rw [List.map_append, List.sum_append, List.map_singleton, List.sum_singleton] at hset
  show t.queues p.intake p.pending
    (p.outputs.set copy.protocol (p.outputs.get copy.protocol ++ [copy])) + p.weigh t.task +
      p.spare = _
  unfold effortAt Tariff.queues
  omega

/-- A freed slot wakes the spawn loops. -/
theorem effortAt_releaseSlot (hspawners : p.alive .spawn ≤ t.spawners) :
    p.releaseSlot.effortAt t + 1 ≤ p.effortAt t + t.unit := by
  have hcrew : p.releaseSlot.crew = p.crew.map Task.wakened := crew_wakeSpawners _
  have hweigh := weigh_wakened hspawners (.inr hcrew)
  have hspare : p.releaseSlot.spare ≤ p.spare + 1 := by
    show p.slots.capacity - (p.slots.running - 1) ≤ p.slots.capacity - p.slots.running + 1
    omega
  show t.queues p.intake p.pending p.outputs + p.releaseSlot.weigh t.task +
    p.releaseSlot.spare + 1 ≤ _
  unfold effortAt Tariff.unit
  omega

theorem effortAt_vacate (hspawners : p.alive .spawn ≤ t.spawners) (inSlot : Bool) :
    (p.vacate inSlot).effortAt t + 1 ≤ p.effortAt t + t.unit := by
  cases inSlot with
  | true => exact effortAt_releaseSlot hspawners
  | false =>
      show p.effortAt t + 1 ≤ _
      unfold Tariff.unit
      omega

/-- The capacity is set to what a word can count. -/
theorem capacity_tune_le (p : Pool) (change : Int) :
    (p.tune change).slots.capacity ≤ Word.limit := by
  rw [(alike_tune p change).slots]
  simp only [Slots.tune, Slots.stretch, Word.saturatingAdd, Word.limit]
  omega

/-- So a change of the capacity frees no more slots than that. -/
theorem effortAt_tune (hspawners : p.alive .spawn ≤ t.spawners) (change : Int) :
    (p.tune change).effortAt t ≤ p.effortAt t + (Word.limit + t.spawners) := by
  have hspare : (p.tune change).spare ≤ Word.limit :=
    Nat.le_trans (Nat.sub_le _ _) (capacity_tune_le p change)
  have hweigh := weigh_wakened hspawners (p.crew_tune change)
  have halike := alike_tune p change
  unfold effortAt
  rw [halike.intake, halike.pending, halike.outputs]
  dsimp only
  omega

/-! ## Charges of tasks -/

theorem ticks_lt {due : Option Nat} {next period : Nat} (hperiod : period ≠ 0)
    (hdue : ∀ instant, due = some instant → Instant.reached instant t.now = true)
    (hnext : next = nextTick (due.getD t.now) t.now period) :
    t.ticks (some next) + 1 ≤ t.ticks due := by
  have hpos : 0 < period := Nat.pos_of_ne_zero hperiod
  have hlater (start : Nat) (htick : next = nextTick start t.now period) :
      t.now < next ∨ start < next := by
    rw [htick]
    unfold nextTick
    split
    · exact .inl (Instant.lt_deadline hpos t.now)
    · exact .inr (Instant.lt_deadline hpos start)
  have hpast : Instant.reached next t.now = true → next ≤ t.now := Instant.le_of_reached
  unfold Tariff.ticks
  cases due with
  | none =>
      have hafter := hlater t.now hnext
      dsimp only
      split
      · next hreached =>
          have hle := hpast hreached
          omega
      · exact Nat.le_refl _
  | some due =>
      have hreached := hdue due rfl
      have hbefore := Instant.le_of_reached hreached
      have hafter := hlater due hnext
      dsimp only
      rw [if_pos hreached]
      split
      · next hagain =>
          have hle := hpast hagain
          omega
      · omega

theorem tasks_recycled (wanted : Bool) (e : String) :
    t.tasks (recycled wanted e) ≤ t.endpoint e 2 := by
  cases wanted with
  | true => exact Nat.le_refl _
  | false => exact Nat.zero_le _

theorem tasks_goesOn {bound : Nat} {next : Option Caller}
    (hbound : ∀ c, next = some c → t.caller c ≤ bound) : t.tasks (goesOn next) ≤ bound := by
  cases next with
  | none => exact Nat.zero_le _
  | some c => exact hbound c rfl

theorem caller_of_waiting {c : Caller} (hwaits : c.stage = .waiting) :
    t.caller c = t.unit + 1 := by
  unfold Tariff.caller
  rw [hwaits]
  rfl

theorem caller_of_using {c : Caller} {proxy : Proxy} {timeout since : Nat}
    (huses : c.stage = .using proxy timeout since) : t.caller c = t.unit + 2 := by
  unfold Tariff.caller
  rw [huses]
  rfl

theorem caller_of_checking {c : Caller} {candidate : Proxy} {life timeout since : Nat}
    {wanted : Bool} (hchecks : c.stage = .checking candidate life timeout wanted since) :
    t.caller c = t.unit + 1 + t.endpoint candidate.endpoint 3 := by
  unfold Tariff.caller
  rw [hchecks]

theorem caller_of_free {c : Caller} (hfree : c.IsFree) : t.caller c ≤ t.unit + 2 := by
  rcases hfree with hwaits | ⟨proxy, timeout, since, huses⟩
  · rw [caller_of_waiting hwaits]
    exact Nat.le_succ _
  · exact Nat.le_of_eq (caller_of_using huses)

theorem round_of_attempting {r : Round} {protocol : Protocol} {rest : List Protocol}
    {since : Nat} (hstage : r.stage = .attempting protocol rest since) :
    t.round r = t.endpoint r.endpoint (6 + rest.length) := by
  unfold Tariff.round
  rw [hstage]

theorem round_of_delivering {r : Round} {copy : Proxy} (hstage : r.stage = .delivering copy) :
    t.round r = t.endpoint copy.endpoint 5 := by
  unfold Tariff.round
  rw [hstage]

/-- The tasks that go were charged, and those that come are. -/
theorem Swap.effortAt (h : Swap gone come p q) (t : Tariff) :
    q.effortAt t + t.tasks gone = p.effortAt t + t.tasks come := by
  have hweigh : q.weigh t.task + t.tasks gone = p.weigh t.task + t.tasks come := h.weigh t.task
  have hspare : q.spare = p.spare := congrArg (fun slots => slots.capacity - slots.running) h.slots
  unfold Pool.effortAt
  rw [h.intake, h.pending, h.outputs, hspare]
  omega

/-! ## Steps that are paid for -/

/-- What goes pays for what comes, and for the step. -/
def Paid (t : Tariff) (p : Pool) (gone come : List Task) (mid : Pool) : Prop :=
  mid.effortAt t + t.tasks come + 1 ≤ p.effortAt t + t.tasks gone

/-- The tariff fits the pool: it knows the clock, the epochs that are over and how many
spawn loops there are. And no scale loop ticks without an interval. -/
structure Fits (t : Tariff) (p : Pool) : Prop where
  spawners : p.alive .spawn ≤ t.spawners
  now : t.now = p.now
  halted : t.halted = p.halted
  interval : ∀ epoch due, .scaleLoop epoch (some due) ∈ p.crew → p.config.scaleInterval ≠ 0

theorem Fits.not_reached (h : Fits t p) {due : Nat} (hlater : p.now < due) :
    Instant.reached due t.now = false := by
  cases hreached : Instant.reached due t.now with
  | false => rfl
  | true =>
      have hle := Instant.le_of_reached hreached
      rw [h.now] at hle
      exact absurd hlater (Nat.not_lt.2 hle)

/-- A requeue task that waits for the clock is charged less than one that does not. -/
theorem Fits.task_requeue (h : Fits t p) {due : Option Nat}
    (hlater : ∀ instant, due = some instant → p.now < instant) (e : String) :
    t.task (.requeue e due) ≤ t.endpoint e 2 := by
  cases due with
  | none => exact Nat.le_refl _
  | some instant =>
      simp only [Tariff.task, h.not_reached (hlater instant rfl), Bool.false_eq_true, if_false]
      exact t.endpoint_mono e (Nat.zero_le _)

namespace Paid

variable {epoch : Nat} {e : String} {rest : List String} {c : Caller} {candidate : Proxy}

/-! ### Loops -/

/-- A loop that stops, or an idle job, is charged for that. -/
theorem leaves {task : Task} (hpos : 1 ≤ t.task task) : Paid t p [task] [] p := by
  unfold Paid
  rw [Tariff.tasks_cons, Tariff.tasks_nil]
  omega

theorem loop_pos {task : Task} {kind : Loop} (hloop : task.loop? = some kind) :
    1 ≤ t.task task := by
  cases task with
  | intakeLoop launched stage =>
      cases stage <;> (simp only [Tariff.task]; omega)
  | spawnLoop launched awake => exact Nat.le_add_right _ _
  | scaleLoop launched due => exact Nat.le_add_right _ _
  | _ => cases hloop

theorem handedBack : Paid t p [.intakeLoop epoch (.holding e)] [] (p.pushIntake e) := by
  unfold Paid
  rw [effortAt_pushIntake, Tariff.tasks_cons, Tariff.tasks_nil, Tariff.task,
    Tariff.endpoint_succ]
  omega

theorem dismissed (hfits : Fits t p) (hhalted : p.halted epoch = true) :
    Paid t p [.idleJob epoch] [] p.releaseSlot := by
  have hreleased := effortAt_releaseSlot hfits.spawners
  unfold Paid
  rw [← hfits.halted] at hhalted
  rw [Tariff.tasks_cons, Tariff.tasks_nil, Tariff.task, if_pos hhalted]
  exact hreleased

theorem locked :
    Paid t p [.intakeLoop epoch .waiting] [.intakeLoop epoch .receiving] p := by
  unfold Paid
  simp only [Tariff.tasks_cons, Tariff.tasks_nil, Tariff.task]
  omega

theorem received (hintake : p.intake = e :: rest) :
    Paid t p [.intakeLoop epoch .receiving] [.intakeLoop epoch (.holding e)]
      { p with intake := rest } := by
  have hpopped := effortAt_popIntake hintake t
  have hunit := t.two_le_unit
  unfold Paid
  simp only [Tariff.tasks_cons, Tariff.tasks_nil, Tariff.task, Tariff.endpoint_succ] at *
  omega

theorem forwarded :
    Paid t p [.intakeLoop epoch (.holding e)] [.intakeLoop epoch .receiving]
      (p.pushPending e) := by
  have hunit := t.two_le_unit
  unfold Paid
  rw [effortAt_pushPending]
  simp only [Tariff.tasks_cons, Tariff.tasks_nil, Tariff.task, Tariff.endpoint_succ]
  omega

theorem slept : Paid t p [.spawnLoop epoch true] [.spawnLoop epoch false] p := by
  unfold Paid
  simp only [Tariff.tasks_cons, Tariff.tasks_nil, Tariff.task, Bool.toNat_true, Bool.toNat_false]
  omega

/-- A tick is charged for all the slots that it may free. -/
theorem ticked (hfits : Fits t p) {due : Option Nat} {next : Nat} (scaler : Scaler)
    (hperiod : p.config.scaleInterval ≠ 0)
    (hdue : ∀ instant, due = some instant → Instant.reached instant p.now = true)
    (hnext : next = nextTick (due.getD p.now) p.now p.config.scaleInterval)
    (hmid : mid = { p with scaler } ∨ ∃ change, mid = Pool.tune { p with scaler } change) :
    Paid t p [.scaleLoop epoch due] [.scaleLoop epoch (some next)] mid := by
  have hcost : mid.effortAt t ≤ p.effortAt t + (Word.limit + t.spawners) := by
    rcases hmid with rfl | ⟨change, rfl⟩
    · exact Nat.le_add_right _ _
    · exact effortAt_tune (p := { p with scaler }) hfits.spawners change
  rw [← hfits.now] at hdue hnext
  have hless := Nat.mul_le_mul_left (Word.limit + t.spawners + 1) (ticks_lt hperiod hdue hnext)
  rw [Nat.mul_add, Nat.mul_one] at hless
  unfold Paid
  simp only [Tariff.tasks_cons, Tariff.tasks_nil, Tariff.task]
  omega

/-! ### Jobs and rounds -/

/-- An endpoint that is taken off the pending queue pays for the end of its job. -/
theorem popped (hfits : Fits t p) (hpending : p.pending = e :: rest) (come : List Task)
    (hcome : t.tasks come ≤ t.endpoint e 0) :
    Paid t p [.idleJob epoch] come { p.releaseSlot with pending := rest } := by
  have hreleased := effortAt_releaseSlot hfits.spawners
  have hpopped : effortAt { p.releaseSlot with pending := rest } t + t.endpoint e 1 =
      p.releaseSlot.effortAt t := effortAt_popPending (p := p.releaseSlot) hpending t
  unfold Paid
  rw [Tariff.endpoint_succ] at hpopped
  omega

theorem retried {r : Round} {protocol next : Protocol} {more : List Protocol} {since now : Nat}
    (hstage : r.stage = .attempting protocol (next :: more) since) :
    Paid t p [.round r] [.round { r with stage := .attempting next more now }] p := by
  have hunit := t.two_le_unit
  have hless := t.endpoint_succ r.endpoint (6 + more.length)
  have hgone : t.round r = t.endpoint r.endpoint (6 + more.length + 1) :=
    round_of_attempting hstage
  have hcome : t.round { r with stage := .attempting next more now } =
      t.endpoint r.endpoint (6 + more.length) := rfl
  unfold Paid
  simp only [Tariff.tasks_cons, Tariff.tasks_nil, Tariff.task]
  omega

theorem passed {r : Round} {protocol : Protocol} {rest : List Protocol}
    {since : Nat} {copy : Proxy} (hstage : r.stage = .attempting protocol rest since)
    (hcopy : copy.endpoint = r.endpoint) :
    Paid t p [.round r] [.round { r with stage := .delivering copy }] p := by
  have hunit := t.two_le_unit
  have hmore := t.endpoint_mono r.endpoint (Nat.le_add_right 6 rest.length)
  have hgone := round_of_attempting (t := t) hstage
  have hcome : t.round { r with stage := .delivering copy } = t.endpoint copy.endpoint 5 := rfl
  rw [Tariff.endpoint_succ] at hmore
  rw [hcopy] at hcome
  unfold Paid
  simp only [Tariff.tasks_cons, Tariff.tasks_nil, Tariff.task]
  omega

/-- A round that fails pays for the end of its job, and for an endpoint that comes back
at once. -/
theorem failed (hfits : Fits t p) {r : Round} {protocol : Protocol} {rest : List Protocol}
    {since : Nat} (hstage : r.stage = .attempting protocol rest since) (come : List Task)
    (hcome : t.tasks come ≤ t.endpoint r.endpoint 2) :
    Paid t p [.round r] come (p.vacate r.inSlot) := by
  have hvacated := effortAt_vacate hfits.spawners r.inSlot
  have hunit := t.two_le_unit
  have hmore := t.endpoint_mono r.endpoint (Nat.le_add_right 6 rest.length)
  unfold Paid
  simp only [Tariff.tasks_cons, Tariff.tasks_nil, Tariff.task, round_of_attempting hstage,
    Tariff.endpoint_succ] at *
  omega

theorem delivered (hfits : Fits t p) {r : Round} {copy : Proxy}
    (hstage : r.stage = .delivering copy) (hroom : p.outputRoom copy.protocol = true) :
    Paid t p [.round r] [] ((p.deliver copy).vacate r.inSlot) := by
  have hvacated := effortAt_vacate (p := p.deliver copy) hfits.spawners r.inSlot
  have hdelivered := effortAt_deliver hroom t
  unfold Paid
  rw [Tariff.tasks_cons, Tariff.tasks_nil, Tariff.task, round_of_delivering hstage,
    Tariff.endpoint_succ]
  omega

theorem woke (hfits : Fits t p) {due : Nat} (hreached : Instant.reached due p.now = true) :
    Paid t p [.requeue e (some due)] [.requeue e none] p := by
  have hunit := t.two_le_unit
  rw [← hfits.now] at hreached
  unfold Paid
  simp only [Tariff.tasks_cons, Tariff.tasks_nil, Tariff.task, hreached, if_true,
    Tariff.endpoint_succ]
  omega

theorem cameBack : Paid t p [.requeue e none] [] (p.pushPending e) := by
  have hunit := t.two_le_unit
  unfold Paid
  rw [effortAt_pushPending]
  simp only [Tariff.tasks_cons, Tariff.tasks_nil, Tariff.task, Tariff.endpoint_succ]
  omega

/-! ### Callers -/

/-- A candidate that is taken off its queue pays for a requeue task, or for a check. -/
theorem dequeued {protocol : Protocol} {rest : List Proxy}
    (hqueue : p.outputs.get protocol = candidate :: rest) (gone come : List Task)
    (hcome : t.tasks come ≤ t.tasks gone + t.endpoint candidate.endpoint 3) :
    Paid t p gone come { p with outputs := p.outputs.set protocol rest } := by
  have hdequeued := effortAt_dequeue hqueue t
  have hunit := t.two_le_unit
  unfold Paid
  rw [Tariff.endpoint_succ] at hdequeued
  omega

/-- A check that ends pays for a requeue task, and for a caller that goes on. -/
theorem redialled {life timeout since : Nat} {wanted : Bool} {next : Option Caller}
    (hstage : c.stage = .checking candidate life timeout wanted since)
    (hfree : ∀ caller, next = some caller → caller.IsFree) :
    Paid t p [.caller c] (recycled wanted candidate.endpoint ++ goesOn next) p := by
  have hunit := t.two_le_unit
  have hrecycled := tasks_recycled (t := t) wanted candidate.endpoint
  have hnext := tasks_goesOn (t := t) fun caller hcaller => caller_of_free (hfree caller hcaller)
  unfold Paid
  rw [Tariff.tasks_append, Tariff.tasks_cons, Tariff.tasks_nil, Tariff.task,
    caller_of_checking hstage, Tariff.endpoint_succ]
  omega

theorem restored {life timeout since : Nat} {wanted : Bool}
    (hstage : c.stage = .checking candidate life timeout wanted since)
    (hroom : p.outputRoom candidate.protocol = true) :
    Paid t p [.caller c] [] (p.deliver candidate) := by
  have hdelivered := effortAt_deliver hroom t
  unfold Paid
  rw [Tariff.endpoint_succ] at hdelivered
  rw [Tariff.tasks_cons, Tariff.tasks_nil, Tariff.task, caller_of_checking hstage]
  omega

theorem used {proxy : Proxy} {timeout since : Nat} {next : Option Caller}
    (hstage : c.stage = .using proxy timeout since)
    (hwaits : ∀ caller, next = some caller → caller.stage = .waiting) :
    Paid t p [.caller c] (goesOn next) p := by
  have hnext := tasks_goesOn (t := t) fun caller hcaller =>
    Nat.le_of_eq (caller_of_waiting (hwaits caller hcaller))
  unfold Paid
  rw [Tariff.tasks_cons, Tariff.tasks_nil, Tariff.task, caller_of_using hstage]
  omega

end Paid

/-- A job that begins is charged if it is told to stop. -/
theorem effortAt_hired (hfits : Fits t p) {epoch : Nat} (hfree : p.slots.free = true) :
    effortAt { p with slots := p.slots.take } t +
        t.tasks [.spawnLoop epoch true, .idleJob epoch] + 1 =
      p.effortAt t + t.tasks [.spawnLoop epoch true] + if p.halted epoch then t.unit else 0 := by
  have hspare : p.slots.capacity - (p.slots.running + 1) + 1 = p.spare := by
    unfold Slots.free at hfree
    rw [Bool.and_eq_true, decide_eq_true_eq] at hfree
    unfold spare
    omega
  have htaken : effortAt { p with slots := p.slots.take } t + 1 = p.effortAt t := by
    show t.queues p.intake p.pending p.outputs + p.weigh t.task +
      (p.slots.capacity - (p.slots.running + 1)) + 1 = _
    unfold effortAt
    omega
  simp only [Tariff.tasks_cons, Tariff.tasks_nil, Tariff.task, hfits.halted]
  omega

/-- A round that begins is charged for its attempts. -/
theorem effortAt_opened {epoch : Nat} {e : String} {rest : List String}
    (hpending : p.pending = e :: rest) (life : Nat) :
    effortAt { p with pending := rest } t + t.tasks [.round (p.firstRound e life)] ≤
      p.effortAt t + t.tasks [.idleJob epoch] + 7 * t.unit := by
  have hpopped := effortAt_popPending hpending t
  have hround : t.task (.round (p.firstRound e life)) = t.endpoint e 1 + 7 * t.unit := by
    show t.endpoint e 8 = _
    simp only [Tariff.endpoint_succ]
    omega
  rw [Tariff.tasks_cons, Tariff.tasks_nil, hround]
  omega

/-! ## Moves -/

/-- Every move is paid for, unless a round begins or a spawn loop ignores its signal. -/
theorem Shift.effortAt (h : Shift p q d gone come mid) (hfits : Fits t p)
    (hnext : ∀ r copy, .round r ∈ come → r.stage = .delivering copy → copy.endpoint = r.endpoint)
    (hmove : d.isMove = true) :
    (∃ e life epoch, gone = [.idleJob epoch] ∧ come = [.round (p.firstRound e life)] ∧
        (p.usage.check p.now e).2 = none ∧ q.usage = (p.usage.check p.now e).1 ∧
        mid.effortAt t + t.tasks come ≤ p.effortAt t + t.tasks gone + 7 * t.unit) ∨
      mid.effortAt t + t.tasks come + 1 ≤
        p.effortAt t + t.tasks gone + if p.ignoresHalt d then t.unit else 0 := by
  have hpaid (hpaid : Paid t p gone come mid) : mid.effortAt t + t.tasks come + 1 ≤
      p.effortAt t + t.tasks gone + if p.ignoresHalt d then t.unit else 0 :=
    Nat.le_add_right_of_le hpaid
  cases h with
  | idled hcall | loaded _ hcall | called _ hcall _ =>
      rw [hmove] at hcall
      cases hcall
  | elapsed _ | paused _ | adjusted _ | resized _ _ _ | tuned _ | closed => cases hmove
  | launched hdeed _ => rcases hdeed with rfl | rfl <;> cases hmove
  | opened life htask hpending hadmitted hmetered _ =>
      exact .inl ⟨_, life, _, rfl, rfl, hadmitted, hmetered, effortAt_opened hpending life⟩
  | @hired id epoch htask hfree =>
      have hignores : p.ignoresHalt (.move id .look) = p.halted epoch := by
        simp [ignoresHalt, htask, hfree]
      rw [hignores]
      exact .inr (Nat.le_of_eq (effortAt_hired hfits hfree))
  | @retired id epoch task htask hepoch hhalted hidle htoken =>
      have hloop : ∃ kind, task.loop? = some kind := by
        cases task with
        | idleJob launched => cases hidle
        | intakeLoop | spawnLoop | scaleLoop => exact ⟨_, rfl⟩
        | _ => cases hepoch
      exact .inr (hpaid (.leaves (Paid.loop_pos hloop.choose_spec)))
  | handedBack _ _ => exact .inr (hpaid .handedBack)
  | dismissed _ hhalted => exact .inr (hpaid (.dismissed hfits hhalted))
  | locked _ => exact .inr (hpaid .locked)
  | received _ hintake => exact .inr (hpaid (.received hintake))
  | forwarded _ _ => exact .inr (hpaid .forwarded)
  | stopped _ _ | lapsed _ _ => exact .inr (hpaid (.leaves (Paid.loop_pos rfl)))
  | slept _ _ _ => exact .inr (hpaid .slept)
  | @ticked id epoch next due mid scaler htask hdue hfirst htick hmid =>
      have hperiod : p.config.scaleInterval ≠ 0 := by
        cases due with
        | none => exact hfirst rfl
        | some instant => exact hfits.interval epoch instant (mem_crew_of_task? htask)
      exact .inr (hpaid (.ticked hfits scaler hperiod hdue htick hmid))
  | skipped _ hpending _ => exact .inr (hpaid (.popped hfits hpending [] (Nat.zero_le _)))
  | deferred _ hpending hlater =>
      refine .inr (hpaid (.popped hfits hpending _ ?_))
      rw [Tariff.tasks_cons, Tariff.tasks_nil, Tariff.task, hfits.not_reached hlater]
      exact Nat.le_refl _
  | retried _ hstage => exact .inr (hpaid (.retried hstage))
  | passed copy _ hstage =>
      have hcopy := hnext _ copy (List.mem_singleton.2 rfl) rfl
      exact .inr (hpaid (.passed hstage hcopy))
  | failed _ hstage => exact .inr (hpaid (.failed hfits hstage [] (Nat.zero_le _)))
  | failedKept _ hstage hlater =>
      exact .inr (hpaid (.failed hfits hstage _ (hfits.task_requeue hlater _)))
  | delivered _ hstage hroom => exact .inr (hpaid (.delivered hfits hstage hroom))
  | woke _ hreached => exact .inr (hpaid (.woke hfits hreached))
  | cameBack _ _ => exact .inr (hpaid .cameBack)
  | passedOver _ hqueue => exact .inr (hpaid (.dequeued hqueue _ _ (Nat.le_add_right _ _)))
  | @sentBack id c protocol candidate rest _ hqueue =>
      refine .inr (hpaid (.dequeued hqueue _ _ ?_))
      have hrecycled := tasks_recycled (t := t) p.config.recycle candidate.endpoint
      rw [Tariff.tasks_append, Tariff.endpoint_succ]
      omega
  | checked _ _ hwaits hqueue =>
      refine .inr (hpaid (.dequeued hqueue _ _ ?_))
      simp only [Tariff.tasks_cons, Tariff.tasks_nil, Tariff.task, caller_of_waiting hwaits]
      exact Nat.le_refl _
  | redialled _ hstage hserved =>
      exact .inr (hpaid (.redialled hstage fun caller hnext => (hserved caller hnext).isFree))
  | restored _ hstage hroom => exact .inr (hpaid (.restored hstage hroom))
  | @left id c move hmove htask =>
      have hpos : 1 ≤ t.caller c := by
        unfold Tariff.caller
        omega
      exact .inr (hpaid (.leaves hpos))
  | used _ _ _ hstage hwaits => exact .inr (hpaid (.used hstage hwaits))

end Pool

end SocksPool
