import SocksPool.Proofs.Resizing

/-!
# What a tick of the scaler does

A scaler does not resize anything by itself. Its tick answers a change of capacity,
and the workers to whom the change is applied clamp it once more. What a tick comes
to is therefore a matter of both, and a `Gang` is both: a scaler and the workers
that it sizes.

The tick is taken apart once. `Scaler.Ticks` lists what it can come to: under which
guards it leaves which scaler and aims at which capacity. While counts are small
enough for signed words, the workers end up with the capacity that is aimed at, and
the answer of the tick is the difference to the one before.

## Main definitions

* `Scaler.Ticks` — what a tick does to the scaler, and where it aims.
* `Gang.tick` — a tick, with its change applied.

## Main results

* `Gang.tick_cases` — a tick of open workers is one of these.
* `Gang.tick_exact` — workers of a small count reach the capacity that is aimed at.
* `Pool.gang_tickAgainst` — the scaler of a pool ticks like a gang.
-/

namespace SocksPool

/-! ## Changes of capacity -/

theorem Word.difference_self (count : Nat) : Word.difference count count = 0 := by
  simp [Word.difference]

/-- Workers after a change that a tick answers; no change is not applied. -/
def Slots.adapt (s : Slots) (change : Int) : Slots := if change = 0 then s else s.tune change

namespace Slots

variable (s : Slots) (change : Int)

@[simp] theorem closed_tune : (s.tune change).closed = s.closed := rfl

@[simp] theorem running_tune : (s.tune change).running = s.running := rfl

@[simp] theorem closed_adapt : (s.adapt change).closed = s.closed := by
  unfold adapt
  split <;> rfl

/-- A change that is a difference which fits leads to its goal. -/
theorem adapt_difference {goal : Nat} (hpos : 1 ≤ goal) (hgoal : goal < Word.limit)
    (hspans : Word.Spans goal s.capacity) :
    s.adapt (Word.difference goal s.capacity) = { s with capacity := goal } := by
  unfold adapt
  split
  · next hzero =>
      rw [Word.difference_of_spans hspans] at hzero
      obtain rfl : goal = s.capacity := by omega
      rfl
  · exact tune_difference hpos hgoal hspans

end Slots

/-! ## What a tick comes to -/

namespace Scaler

/-- What a tick of a scaler does while its workers have the given capacity: the
scaler after it, and the capacity that it aims at. -/
inductive Ticks (s : Scaler) (backlog capacity : Nat) : Scaler → Nat → Prop where
  /-- A disabled scaler has no baseline to go back to. -/
  | dormant (hmode : s.mode = .disabled) (hbaseline : s.baseline = none) :
      Ticks s backlog capacity s capacity
  | climbsHome {baseline : Nat} (hmode : s.mode = .disabled)
      (hbaseline : s.baseline = some baseline) (hbelow : capacity < baseline) :
      Ticks s backlog capacity s (s.target capacity 1)
  | sinksHome {baseline : Nat} (hmode : s.mode = .disabled)
      (hbaseline : s.baseline = some baseline) (habove : baseline < capacity) :
      Ticks s backlog capacity s (s.target capacity (-1))
  /-- A disabled scaler is back at its baseline, and forgets it. -/
  | arrives (hmode : s.mode = .disabled) (hbaseline : s.baseline = some capacity) :
      Ticks s backlog capacity { s with baseline := none } capacity
  /-- An idle scaler begins to grow, and the capacity becomes its baseline unless it
  still has one. -/
  | begins (hmode : s.mode = .idle) (hlow : backlog < s.threshold)
      (hroom : capacity < s.ceiling) :
      Ticks s backlog capacity
        { s with mode := .scalingUp, baseline := some (s.baseline.getD capacity) }
        (s.target capacity 1)
  | grows (hmode : s.mode = .scalingUp) (hlow : backlog < s.threshold)
      (hroom : capacity < s.ceiling) :
      Ticks s backlog capacity s (s.target capacity 1)
  | shrinks {baseline : Nat} (hmode : s.mode ≠ .disabled)
      (hbaseline : s.baseline = some baseline) (hhigh : s.threshold < backlog)
      (habove : baseline < capacity) :
      Ticks s backlog capacity { s with mode := .scalingDown } (s.target capacity (-1))
  /-- Nothing is wanted, or growth is wanted of a scaler that was shrinking. -/
  | rests (hmode : s.mode ≠ .disabled)
      (hgrowth : s.wantsMore backlog capacity = true → s.mode = .scalingDown)
      (hless : s.wantsLess backlog capacity = false) :
      Ticks s backlog capacity
        { s with mode := .idle, baseline := s.settledBaseline backlog capacity } capacity

variable (s next : Scaler) (backlog capacity : Nat)

@[simp] theorem scaler_apply (step : Int) : (s.apply next capacity step).scaler = next := by
  unfold apply
  dsimp only
  split
  · rfl
  · split <;> rfl

/-- A step changes the capacity by the difference to where it leads. -/
theorem change_apply {step : Int} (hstep : step ≠ 0) :
    (s.apply next capacity step).change =
      Word.difference (next.target capacity step) capacity := by
  unfold apply
  dsimp only
  rw [if_neg hstep]
  split
  · next hsame => rw [hsame, Word.difference_self]
  · rfl

theorem change_apply_zero : (s.apply next capacity 0).change = 0 := rfl

theorem wantsMore_eq_true {s : Scaler} {backlog capacity : Nat} :
    s.wantsMore backlog capacity = true ↔ backlog < s.threshold ∧ capacity < s.ceiling := by
  simp [wantsMore]

theorem wantsLess_eq_true {s : Scaler} {backlog capacity : Nat} :
    s.wantsLess backlog capacity = true ↔
      ∃ baseline, s.baseline = some baseline ∧ s.threshold < backlog ∧ baseline < capacity := by
  unfold wantsLess
  cases s.baseline <;> simp

/-- The tick leaves `next` and answers the change from `capacity` to `goal`. -/
def Tick.AimsAt (t : Tick) (capacity : Nat) (next : Scaler) (goal : Nat) : Prop :=
  t.scaler = next ∧ t.change = Word.difference goal capacity

theorem aimsAt_apply {step : Int} (hstep : step ≠ 0) :
    (s.apply next capacity step).AimsAt capacity next (next.target capacity step) :=
  ⟨s.scaler_apply next capacity step, s.change_apply next capacity hstep⟩

theorem aimsAt_stay {t : Tick} {next : Scaler} (hscaler : t.scaler = next) (hchange : t.change = 0)
    (capacity : Nat) : t.AimsAt capacity next capacity :=
  ⟨hscaler, by rw [hchange, Word.difference_self]⟩

theorem ticks_tickDisabled (hmode : s.mode = .disabled) :
    ∃ next goal, Ticks s backlog capacity next goal ∧
      (s.tickDisabled capacity).AimsAt capacity next goal := by
  unfold tickDisabled
  split
  · next hbaseline => exact ⟨_, _, .dormant hmode hbaseline, aimsAt_stay rfl rfl _⟩
  · next baseline hbaseline =>
      rcases Nat.lt_trichotomy capacity baseline with hbelow | rfl | habove
      · rw [if_pos hbelow]
        exact ⟨_, _, .climbsHome hmode hbaseline hbelow, s.aimsAt_apply s capacity (by decide)⟩
      · rw [if_neg (Nat.lt_irrefl _), if_neg (Nat.lt_irrefl _)]
        exact ⟨_, _, .arrives hmode hbaseline, aimsAt_stay rfl rfl _⟩
      · rw [if_neg (Nat.lt_asymm habove), if_pos habove]
        exact ⟨_, _, .sinksHome hmode hbaseline habove, s.aimsAt_apply s capacity (by decide)⟩

theorem ticks_tickEnabled (hmode : s.mode ≠ .disabled) :
    ∃ next goal, Ticks s backlog capacity next goal ∧
      (s.tickEnabled backlog capacity).AimsAt capacity next goal := by
  unfold tickEnabled
  split
  · next hgrowth =>
      simp only [Bool.and_eq_true, Bool.or_eq_true, decide_eq_true_eq] at hgrowth
      obtain ⟨hwanted, hready⟩ := hgrowth
      obtain ⟨hlow, hroom⟩ := wantsMore_eq_true.1 hwanted
      rcases hready with hidle | hup
      · have hanchor : s.baseline.or (some capacity) = some (s.baseline.getD capacity) := by
          cases s.baseline <;> rfl
        refine ⟨_, _, .begins hidle hlow hroom, ?_⟩
        rw [if_pos hidle, hanchor]
        exact s.aimsAt_apply _ capacity (by decide)
      · have hsame : { s with mode := .scalingUp } = s := by rw [← hup]
        refine ⟨_, _, .grows hup hlow hroom, ?_⟩
        simp only [hup, hsame, reduceCtorEq, if_false]
        exact s.aimsAt_apply s capacity (by decide)
  · next hgrowth =>
      split
      · next hless =>
          obtain ⟨baseline, hbaseline, hhigh, habove⟩ := wantsLess_eq_true.1 hless
          exact ⟨_, _, .shrinks hmode hbaseline hhigh habove,
            s.aimsAt_apply { s with mode := .scalingDown } capacity (by decide)⟩
      · next hless =>
          refine ⟨_, _, .rests hmode ?_ (Bool.eq_false_iff.2 hless),
            aimsAt_stay (s.scaler_apply ..) (s.change_apply_zero ..) capacity⟩
          intro hwanted
          cases hready : s.mode with
          | scalingDown => rfl
          | disabled => exact absurd hready hmode
          | idle | scalingUp => simp [hwanted, hready] at hgrowth

/-- A tick of open workers is one of these. -/
theorem ticks_tick :
    ∃ next goal, Ticks s backlog capacity next goal ∧
      (s.tick backlog capacity false).AimsAt capacity next goal := by
  unfold tick
  rw [if_neg Bool.false_ne_true]
  split
  · next hmode => exact s.ticks_tickDisabled backlog capacity hmode
  · next hmode => exact s.ticks_tickEnabled backlog capacity hmode

/-- A tick changes neither ceiling nor threshold, and switches nothing on or off. -/
theorem Ticks.settings {s next : Scaler} {backlog capacity goal : Nat}
    (h : s.Ticks backlog capacity next goal) :
    next.ceiling = s.ceiling ∧ next.threshold = s.threshold ∧ next.enabled = s.enabled := by
  cases h with
  | dormant | climbsHome | sinksHome | arrives | grows => exact ⟨rfl, rfl, rfl⟩
  | begins hmode _ _ =>
      refine ⟨rfl, rfl, ?_⟩
      unfold enabled
      rw [hmode]
      rfl
  | shrinks hmode _ _ _ | rests hmode _ _ =>
      refine ⟨rfl, rfl, ?_⟩
      unfold enabled
      cases hmodes : s.mode with
      | disabled => exact absurd hmodes hmode
      | _ => rfl

/-! ## Where a step leads -/

/-- A step up stays within the ceiling. -/
theorem target_up {capacity : Nat} (hroom : capacity + 1 < Word.limit) :
    s.target capacity 1 = min (capacity + 1) s.ceiling := by
  have hsum : Word.saturatingAdd capacity 1 = capacity + 1 := by
    unfold Word.saturatingAdd
    omega
  unfold target
  rw [hsum]
  omega

/-- A step down leaves one worker, and cuts what is above the ceiling. -/
theorem target_down {capacity : Nat} (hword : capacity < Word.limit) :
    s.target capacity (-1) = min (max (capacity - 1) 1) s.ceiling := by
  have hdifference : Word.saturatingAdd capacity (-1) = capacity - 1 := by
    unfold Word.saturatingAdd
    omega
  unfold target
  rw [hdifference]

end Scaler

/-! ## Gangs -/

/-- A scaler and the workers that it sizes. -/
structure Gang where
  scaler : Scaler
  slots : Slots
deriving DecidableEq

namespace Gang

/-- A tick, with its change applied. Answers the change. -/
def tick (g : Gang) (backlog : Nat) : Gang × Int :=
  let t := g.scaler.tick backlog g.slots.capacity g.slots.closed
  (⟨t.scaler, g.slots.adapt t.change⟩, t.change)

/-- Capacity and ceiling are counts that signed words can hold, and not zero. -/
structure Small (g : Gang) : Prop where
  capacity_pos : 1 ≤ g.slots.capacity
  capacity_lt : g.slots.capacity < Word.half
  ceiling_pos : 1 ≤ g.scaler.ceiling
  ceiling_lt : g.scaler.ceiling < Word.half

variable {g : Gang} {backlog : Nat}

/-- Closed workers and their scaler are left alone. -/
theorem tick_closed (hclosed : g.slots.closed = true) : g.tick backlog = (g, 0) := by
  unfold tick Scaler.tick
  rw [hclosed, if_pos rfl]
  rfl

/-- A tick of open workers is one of these. -/
theorem tick_cases (hopen : g.slots.closed = false) (backlog : Nat) :
    ∃ next goal, g.scaler.Ticks backlog g.slots.capacity next goal ∧
      g.tick backlog =
        (⟨next, g.slots.adapt (Word.difference goal g.slots.capacity)⟩,
          Word.difference goal g.slots.capacity) := by
  obtain ⟨next, goal, hticks, hscaler, hchange⟩ :=
    g.scaler.ticks_tick backlog g.slots.capacity
  refine ⟨next, goal, hticks, ?_⟩
  unfold tick
  dsimp only
  rw [hopen, hscaler, hchange]

/-- Whatever a tick does, it aims at a small capacity, and at one within the
ceiling unless it stays where it is. -/
theorem Small.goal (h : g.Small) {next : Scaler} {goal : Nat}
    (hticks : g.scaler.Ticks backlog g.slots.capacity next goal) :
    1 ≤ goal ∧ goal < Word.half ∧ (goal = g.slots.capacity ∨ goal ≤ g.scaler.ceiling) := by
  obtain ⟨hpos, hsmall, hceilingPos, hceiling⟩ := h
  cases hticks with
  | dormant _ _ | arrives _ _ | rests _ _ _ => exact ⟨hpos, hsmall, .inl rfl⟩
  | climbsHome _ _ _ | begins _ _ _ | grows _ _ _ =>
      rw [Scaler.target_up _ (Word.succ_lt_limit hsmall)]
      omega
  | sinksHome _ _ _ | shrinks _ _ _ _ =>
      rw [Scaler.target_down _ (Word.lt_limit hsmall)]
      omega

/-- Open workers of a small count reach the capacity that a tick aims at, and the
tick answers the difference. -/
theorem tick_exact (hopen : g.slots.closed = false) (h : g.Small) (backlog : Nat) :
    ∃ next goal, g.scaler.Ticks backlog g.slots.capacity next goal ∧
      g.tick backlog =
        (⟨next, { g.slots with capacity := goal }⟩, (goal : Int) - g.slots.capacity) := by
  obtain ⟨next, goal, hticks, htick⟩ := tick_cases hopen backlog
  obtain ⟨hpos, hgoal, -⟩ := h.goal hticks
  refine ⟨next, goal, hticks, ?_⟩
  have hspans := Word.spans_of_small hgoal h.capacity_lt
  rw [htick, g.slots.adapt_difference hpos (Word.lt_limit hgoal) hspans,
    Word.difference_of_spans hspans]

end Gang

namespace Pool

/-- The scaler of a pool and the workers that it sizes. -/
def gang (p : Pool) : Gang := ⟨p.scaler, p.slots⟩

@[simp] theorem gang_wakeSpawners (p : Pool) : p.wakeSpawners.gang = p.gang := rfl

@[simp] theorem gang_tune (p : Pool) (change : Int) :
    (p.tune change).gang = ⟨p.scaler, p.slots.tune change⟩ := by
  unfold tune
  split <;> rfl

theorem scaler_tune (p : Pool) (change : Int) : (p.tune change).scaler = p.scaler :=
  congrArg Gang.scaler (p.gang_tune change)

/-- One tick of the scaler against a given backlog. Answers the change of capacity. -/
def tickAgainst (p : Pool) (backlog : Nat) : Pool × Int :=
  let t := p.scaler.tick backlog p.slots.capacity p.slots.closed
  let p := { p with scaler := t.scaler, log := p.log ++ t.events backlog }
  (if t.change = 0 then p else p.tune t.change, t.change)

/-- The scaler of a pool ticks like a gang. -/
theorem gang_tickAgainst (p : Pool) (backlog : Nat) :
    ((p.tickAgainst backlog).1.gang, (p.tickAgainst backlog).2) = p.gang.tick backlog := by
  unfold tickAgainst Gang.tick Slots.adapt gang
  dsimp only
  split
  · rfl
  · next hchange =>
      rw [Prod.mk.injEq]
      exact ⟨gang_tune _ _, rfl⟩

end Pool

end SocksPool
