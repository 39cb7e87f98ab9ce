import SocksPool.Proofs.SteadyLoad

/-!
# The way home of a disabled scaler

A scaler that was disabled while it had a baseline walks the workers back to it, one
worker a tick, and forgets it once they are there. The walk does not look at the
backlog. But it stays under the ceiling, and the ceiling may have been set below the
baseline meanwhile. Then the workers come to the ceiling and stay there, with the
baseline kept for a later ceiling.

So the walk leads to the baseline or to the ceiling, whichever is lower, and each tick
brings the workers nearer. This needs the counts to be words, but not to be small: a
step of one worker fits a signed word, and so does the cut to the ceiling unless the
capacity is more than `2 ^ 63` above it.

## Main definitions

* `Gang.Worded` — open workers, and counts that are words.
* `Gang.nearer` — the capacity after one tick of the walk.

## Main results

* `homing` — where a disabled scaler leads, after any orders.
* `no_way_home` — under a ceiling below the baseline, the workers do not come back.
-/

namespace SocksPool

namespace Slots

/-- However slots are tuned, their capacity is a word, and not zero. -/
theorem capacity_adapt {s : Slots} (change : Int) (hpos : 1 ≤ s.capacity)
    (hword : s.capacity < Word.limit) :
    1 ≤ (s.adapt change).capacity ∧ (s.adapt change).capacity < Word.limit := by
  unfold adapt
  split
  · exact ⟨hpos, hword⟩
  · refine ⟨s.capacity_pos_tune change, ?_⟩
    show max (Word.saturatingAdd s.capacity change) 1 < Word.limit
    unfold Word.saturatingAdd Word.limit
    omega

end Slots

namespace Gang

/-- The workers are open, and all counts are words. -/
structure Worded (g : Gang) : Prop where
  accepts : g.slots.closed = false
  capacity_pos : 1 ≤ g.slots.capacity
  capacity_lt : g.slots.capacity < Word.limit
  ceiling_pos : 1 ≤ g.scaler.ceiling
  baseline : ∀ baseline, g.scaler.baseline = some baseline →
    1 ≤ baseline ∧ baseline < Word.limit

/-- The gang with another capacity. -/
def sized (g : Gang) (capacity : Nat) : Gang := ⟨g.scaler, { g.slots with capacity }⟩

/-- The capacity one step nearer to a baseline, under the ceiling. -/
def nearer (g : Gang) (baseline : Nat) : Nat :=
  min (if g.slots.capacity < baseline then g.slots.capacity + 1 else g.slots.capacity - 1)
    g.scaler.ceiling

variable {g : Gang} {baseline : Nat}

/-! ## Counts stay words -/

theorem Worded.new {threshold ceiling capacity : Nat} (hword : capacity < Word.limit) :
    (Gang.new threshold ceiling capacity).Worded where
  accepts := rfl
  capacity_pos := Nat.le_max_right ..
  capacity_lt := by
    show max capacity 1 < Word.limit
    unfold Word.limit at *
    omega
  ceiling_pos := Nat.le_max_right ..
  baseline := nofun

theorem Worded.tick (h : g.Worded) (backlog : Nat) : (g.tick backlog).1.Worded := by
  obtain ⟨next, goal, hticks, htick⟩ := tick_cases h.accepts backlog
  obtain ⟨hpos, hlt⟩ := Slots.capacity_adapt (Word.difference goal g.slots.capacity)
    h.capacity_pos h.capacity_lt
  rw [htick]
  refine ⟨(Slots.closed_adapt ..).trans h.accepts, hpos, hlt, ?_, fun baseline hbaseline => ?_⟩
  · rw [hticks.settings.1]
    exact h.ceiling_pos
  · cases hticks with
    | dormant | climbsHome | sinksHome | grows | shrinks => exact h.baseline baseline hbaseline
    | arrives => cases hbaseline
    | begins _ _ _ =>
        obtain rfl := Option.some.inj hbaseline
        cases hkept : g.scaler.baseline with
        | none => exact ⟨h.capacity_pos, h.capacity_lt⟩
        | some baseline => exact h.baseline baseline hkept
    | rests _ _ _ =>
        have hsettled : g.scaler.settledBaseline backlog g.slots.capacity = some baseline :=
          hbaseline
        unfold Scaler.settledBaseline at hsettled
        split at hsettled
        · next kept hkept =>
            split at hsettled
            · cases hsettled
            · obtain rfl := Option.some.inj hsettled
              exact h.baseline kept hkept
        · cases hsettled

/-- No order makes a count more than a word, whatever values it carries. -/
theorem Worded.obey (h : g.Worded) (order : Order) : (g.obey order).Worded := by
  cases order with
  | tick backlog => exact h.tick backlog
  | enable =>
      show Worded { g with scaler := g.scaler.enable }
      unfold Scaler.enable
      split
      · exact { h with }
      · exact h
  | disable | aim _ | jobs _ => exact { h with }
  | cap ceiling => exact { h with ceiling_pos := Nat.le_max_right .. }

theorem Worded.obeyAll (h : g.Worded) (orders : List Order) : (g.obeyAll orders).Worded := by
  induction orders generalizing g with
  | nil => exact h
  | cons order more ih => exact ih (h.obey order)

/-! ## The walk -/

/-- Ticks that each leave the gang as it is leave it as it is. -/
theorem tickAll_of_still (hstill : ∀ backlog, (g.tick backlog).1 = g) (backlogs : List Nat) :
    g.tickAll backlogs = g := by
  induction backlogs with
  | nil => rfl
  | cons backlog more ih =>
      show (g.tick backlog).1.tickAll more = g
      rw [hstill, ih]

/-- Then the next tick does nothing either. -/
theorem tick_of_still (hstill : ∀ backlog, g.tick backlog = (g, 0)) (later : List Nat)
    (next : Nat) : (g.tickAll later).tick next = (g, 0) := by
  have hsame (backlog : Nat) : (g.tick backlog).1 = g := by rw [hstill]
  rw [tickAll_of_still hsame, hstill]

theorem nearer_pos (h : g.Worded) (hbaseline : g.scaler.baseline = some baseline)
    (haway : g.slots.capacity ≠ baseline) : 1 ≤ g.nearer baseline := by
  have hpos := (h.baseline baseline hbaseline).1
  have hceiling := h.ceiling_pos
  unfold nearer
  split <;> omega

/-- A tick away from the baseline makes one step of the walk. -/
theorem tick_away (h : g.Worded) (hmode : g.scaler.mode = .disabled)
    (hbaseline : g.scaler.baseline = some baseline) (haway : g.slots.capacity ≠ baseline)
    (hreach : g.slots.capacity ≤ g.scaler.ceiling + Word.half) (backlog : Nat) :
    g.tick backlog =
      (g.sized (g.nearer baseline), Word.difference (g.nearer baseline) g.slots.capacity) := by
  obtain ⟨hpos, hlt⟩ := h.baseline baseline hbaseline
  have hword := h.capacity_lt
  have hstep : g.nearer baseline < Word.limit ∧
      Word.Spans (g.nearer baseline) g.slots.capacity := by
    unfold Word.Spans nearer
    unfold Word.half Word.limit at *
    split <;> omega
  have hadapt := g.slots.adapt_difference (nearer_pos h hbaseline haway) hstep.1 hstep.2
  -- Only the two cases of the walk are left, and each aims at the nearer capacity.
  have haims {next : Scaler} {goal : Nat}
      (hticks : g.scaler.Ticks backlog g.slots.capacity next goal) :
      next = g.scaler ∧ goal = g.nearer baseline := by
    cases hticks with
    | climbsHome _ hkept hbelow =>
        obtain rfl := Option.some.inj (hkept.symm.trans hbaseline)
        refine ⟨rfl, ?_⟩
        rw [Scaler.target_up _ (by omega), nearer, if_pos hbelow]
    | sinksHome _ hkept habove =>
        obtain rfl := Option.some.inj (hkept.symm.trans hbaseline)
        refine ⟨rfl, ?_⟩
        rw [Scaler.target_down _ hword, nearer, if_neg (Nat.lt_asymm habove)]
        omega
    | arrives _ hkept => exact absurd (Option.some.inj (hkept.symm.trans hbaseline)) haway
    | dormant _ hnone => simp [hbaseline] at hnone
    | begins hother _ _ | grows hother _ _ => simp [hmode] at hother
    | shrinks hother _ _ _ | rests hother _ _ => exact absurd hmode hother
  obtain ⟨next, goal, hticks, htick⟩ := tick_cases h.accepts backlog
  obtain ⟨rfl, rfl⟩ := haims hticks
  rw [htick, hadapt]
  rfl

/-- A tick at the baseline drops it. -/
theorem tick_home (hopen : g.slots.closed = false) (hmode : g.scaler.mode = .disabled)
    (hbaseline : g.scaler.baseline = some g.slots.capacity) (backlog : Nat) :
    g.tick backlog = (⟨{ g.scaler with baseline := none }, g.slots⟩, 0) := by
  simp [tick, Scaler.tick, Scaler.tickDisabled, Slots.adapt, hopen, hmode, hbaseline]

/-- Without a baseline, a tick of a disabled scaler does nothing. -/
theorem tick_dormant (hmode : g.scaler.mode = .disabled) (hbaseline : g.scaler.baseline = none)
    (backlog : Nat) : g.tick backlog = (g, 0) := by
  cases hclosed : g.slots.closed with
  | true => exact tick_closed hclosed
  | false => simp [tick, Scaler.tick, Scaler.tickDisabled, Slots.adapt, hclosed, hmode, hbaseline]

/-- Workers that have the capacity already need no tick. -/
theorem tickAll_of_arrived {capacity : Nat} (hthere : g.slots.capacity = capacity) :
    ∃ ticks, ∀ backlogs : List Nat, backlogs.length = ticks →
      g.tickAll backlogs = g.sized capacity := by
  obtain rfl := hthere
  refine ⟨0, fun backlogs hnone => ?_⟩
  rw [List.length_eq_zero_iff.1 hnone]
  rfl

/-- The walk ends at the baseline or at the ceiling, whichever is lower. -/
theorem walk (h : g.Worded) (hmode : g.scaler.mode = .disabled)
    (hbaseline : g.scaler.baseline = some baseline)
    (hreach : g.slots.capacity ≤ g.scaler.ceiling + Word.half)
    (hunder : g.slots.capacity = baseline → baseline ≤ g.scaler.ceiling) :
    ∃ ticks, ∀ backlogs : List Nat, backlogs.length = ticks →
      g.tickAll backlogs = g.sized (min baseline g.scaler.ceiling) := by
  -- Induction on a bound of the way that is left.
  obtain ⟨far, hbelow, habove⟩ : ∃ far, min baseline g.scaler.ceiling ≤ g.slots.capacity + far ∧
      g.slots.capacity ≤ min baseline g.scaler.ceiling + far :=
    ⟨max baseline g.slots.capacity, by omega, by omega⟩
  induction far generalizing g with
  | zero => exact tickAll_of_arrived (by omega)
  | succ far ih =>
      by_cases hthere : g.slots.capacity = min baseline g.scaler.ceiling
      · exact tickAll_of_arrived hthere
      · have haway : g.slots.capacity ≠ baseline := fun hsame => by
          have hroom := hunder hsame
          omega
        have hstep := tick_away h hmode hbaseline haway hreach
        have hnext : (g.sized (g.nearer baseline)).Worded := by
          have hticked := h.tick 0
          rwa [hstep] at hticked
        have hcut : g.nearer baseline ≤ g.scaler.ceiling := Nat.min_le_right ..
        have hleft : min baseline g.scaler.ceiling ≤ g.nearer baseline + far ∧
            g.nearer baseline ≤ min baseline g.scaler.ceiling + far := by
          unfold nearer
          split <;> omega
        obtain ⟨ticks, hticks⟩ := ih hnext hmode hbaseline (Nat.le_add_right_of_le hcut)
          (fun hsame => Nat.le_trans (Nat.le_of_eq hsame.symm) hcut) hleft.1 hleft.2
        refine ⟨ticks + 1, fun backlogs hlength => ?_⟩
        cases backlogs with
        | nil => simp at hlength
        | cons backlog more =>
            show (g.tick backlog).1.tickAll more = _
            rw [hstep]
            exact hticks more (Nat.succ.inj hlength)

/-- Workers that a ceiling holds below the baseline stay there. -/
theorem tick_held (h : g.Worded) (hmode : g.scaler.mode = .disabled)
    (hbaseline : g.scaler.baseline = some baseline) (hheld : g.slots.capacity = g.scaler.ceiling)
    (hlow : g.scaler.ceiling < baseline) (backlog : Nat) : g.tick backlog = (g, 0) := by
  have hstays : g.nearer baseline = g.slots.capacity := by
    unfold nearer
    split <;> omega
  rw [tick_away h hmode hbaseline (by omega) (by omega), hstays, Word.difference_self]
  rfl

end Gang

open Gang (Order)

/-- A new scaler over open workers takes any orders and is disabled at the end, with a
baseline. If the workers are at the baseline already, or it is within the ceiling, then
some number of ticks brings the capacity to it, whatever the backlogs; the next tick
drops the baseline, and no later one does anything. Otherwise some number of ticks
brings the capacity to the ceiling, and no later one does anything; the baseline stays.
Workers that have a way to go may be above the ceiling, but not by more than a signed
word. -/
theorem homing {threshold ceiling initial : Nat} (hword : initial < Word.limit)
    (orders : List Order) :
    let g := (Gang.new threshold ceiling initial).obeyAll orders
    ∀ baseline, g.scaler.enabled = false → g.scaler.baseline = some baseline →
      (g.slots.capacity = baseline ∨
          baseline ≤ g.scaler.ceiling ∧ g.slots.capacity ≤ g.scaler.ceiling + Word.half →
        ∃ ticks, ∀ backlogs : List Nat, backlogs.length = ticks →
          let home := g.tickAll backlogs
          home.slots.capacity = baseline ∧ home.scaler.baseline = some baseline ∧
            ∀ backlog,
              let rested := (home.tick backlog).1
              (home.tick backlog).2 = 0 ∧ rested.slots.capacity = baseline ∧
                rested.scaler.baseline = none ∧
                ∀ later next, (rested.tickAll later).tick next = (rested, 0)) ∧
      (g.slots.capacity ≠ baseline ∧ g.scaler.ceiling < baseline ∧
          g.slots.capacity ≤ g.scaler.ceiling + Word.half →
        ∃ ticks, ∀ backlogs : List Nat, backlogs.length = ticks →
          let held := g.tickAll backlogs
          held.slots.capacity = g.scaler.ceiling ∧ held.scaler = g.scaler ∧
            ∀ later next, (held.tickAll later).tick next = (held, 0)) := by
  intro g baseline hdisabled hbaseline
  have h : g.Worded := (Gang.Worded.new hword).obeyAll orders
  have hmode : g.scaler.mode = .disabled := by simpa [Scaler.enabled] using hdisabled
  refine ⟨fun hback => ?_, fun habove => ?_⟩
  · have hway : ∃ ticks, ∀ backlogs : List Nat, backlogs.length = ticks →
        g.tickAll backlogs = g.sized baseline := by
      rcases hback with hthere | ⟨hunder, hreach⟩
      · exact Gang.tickAll_of_arrived hthere
      · have hwalk := Gang.walk h hmode hbaseline hreach fun _ => hunder
        rwa [Nat.min_eq_left hunder] at hwalk
    obtain ⟨ticks, hticks⟩ := hway
    refine ⟨ticks, fun backlogs hlength => ?_⟩
    intro home
    have hhome : home = g.sized baseline := hticks backlogs hlength
    rw [hhome]
    refine ⟨rfl, hbaseline, fun backlog => ?_⟩
    rw [Gang.tick_home (g := g.sized baseline) h.accepts hmode hbaseline]
    exact ⟨rfl, rfl, rfl, Gang.tick_of_still (Gang.tick_dormant hmode rfl)⟩
  · obtain ⟨haway, hlow, hreach⟩ := habove
    obtain ⟨ticks, hticks⟩ := Gang.walk h hmode hbaseline hreach fun hsame => absurd hsame haway
    rw [Nat.min_eq_right (Nat.le_of_lt hlow)] at hticks
    refine ⟨ticks, fun backlogs hlength => ?_⟩
    intro held
    have hheld : held = g.sized g.scaler.ceiling := hticks backlogs hlength
    have hworded : (g.sized g.scaler.ceiling).Worded :=
      { h with
        capacity_pos := h.ceiling_pos
        capacity_lt := Nat.lt_trans hlow (h.baseline baseline hbaseline).2 }
    rw [hheld]
    exact ⟨rfl, rfl, Gang.tick_of_still (Gang.tick_held hworded hmode hbaseline rfl hlow)⟩

/-- Workers of capacity two have grown to five when the scaler is disabled. They come
back to two; under a ceiling of one they would come to one, and stay there. -/
theorem homing_from_five :
    let orders : List Order := [.enable, .tick 0, .tick 0, .tick 0, .disable]
    let g : Gang := ⟨⟨.disabled, some 2, 10, 8⟩, ⟨5, 0, false⟩⟩
    let low : Gang := ⟨⟨.disabled, some 2, 10, 1⟩, ⟨5, 0, false⟩⟩
    (Gang.new 10 8 2).obeyAll orders = g ∧ (Gang.new 10 8 2).obeyAll (orders ++ [.cap 1]) = low ∧
      (∃ ticks, ∀ backlogs : List Nat, backlogs.length = ticks →
        (g.tickAll backlogs).slots.capacity = 2 ∧
          ((g.tickAll backlogs).tick 7).1.scaler.baseline = none) ∧
      ∃ ticks, ∀ backlogs : List Nat, backlogs.length = ticks →
        (low.tickAll backlogs).slots.capacity = 1 ∧ (low.tickAll backlogs).tick 7 =
          (low.tickAll backlogs, 0) := by
  intro orders g low
  have hreached : (Gang.new 10 8 2).obeyAll orders = g := by decide
  have hlowered : (Gang.new 10 8 2).obeyAll (orders ++ [.cap 1]) = low := by decide
  have hhome := @homing 10 8 2 (by decide) orders
  have hheld := @homing 10 8 2 (by decide) (orders ++ [.cap 1])
  rw [hreached] at hhome
  rw [hlowered] at hheld
  obtain ⟨ticks, hticks⟩ := (hhome 2 rfl rfl).1 (.inr (by decide))
  obtain ⟨waits, hwaits⟩ := (hheld 2 rfl rfl).2 (by decide)
  refine ⟨hreached, hlowered, ⟨ticks, fun backlogs hlength => ?_⟩,
    ⟨waits, fun backlogs hlength => ?_⟩⟩
  · obtain ⟨hback, -, hnext⟩ := hticks backlogs hlength
    exact ⟨hback, (hnext 7).2.2.1⟩
  · obtain ⟨hdown, -, hstays⟩ := hwaits backlogs hlength
    exact ⟨hdown, hstays [] 7⟩

/-- Workers of capacity four have grown to five when the ceiling is set to three and
the scaler is disabled; they come to three, and never back to four. And if the ceiling
is more than a signed word below the capacity, they do not even come down: the cut
wraps, and they stay as many as a word can count. -/
theorem no_way_home :
    let held := (Gang.new 10 10 4).obeyAll [.enable, .tick 0, .cap 3, .disable]
    let lost := (Gang.new 10 (Word.limit - 1) (Word.half - 2)).obeyAll
      [.enable, .tick 0, .tick 0, .tick 0, .tick 0, .tick 0, .cap 1, .disable, .tick 0,
        .cap (Word.half - 2)]
    (held.scaler.enabled = false ∧ held.scaler.baseline = some 4 ∧
      ∀ backlogs, (held.tickAll backlogs).slots.capacity ≠ 4) ∧
    (lost.scaler.enabled = false ∧ lost.scaler.baseline = some (Word.half - 2) ∧
      lost.scaler.ceiling = Word.half - 2 ∧
      ∀ backlogs, (lost.tickAll backlogs).slots.capacity ≠ Word.half - 2) := by
  intro held lost
  have hheld : held = ⟨⟨.disabled, some 4, 10, 3⟩, ⟨5, 0, false⟩⟩ := by decide
  have hlost : lost = ⟨⟨.disabled, some (Word.half - 2), 10, Word.half - 2⟩,
      ⟨Word.limit - 1, 0, false⟩⟩ := by decide
  have hkept (backlogs : List Nat) : lost.tickAll backlogs = lost := by
    rw [hlost]
    exact Gang.tickAll_of_still (fun backlog => rfl) backlogs
  have hthree (backlogs : List Nat) :
      Gang.tickAll ⟨⟨.disabled, some 4, 10, 3⟩, ⟨3, 0, false⟩⟩ backlogs =
        ⟨⟨.disabled, some 4, 10, 3⟩, ⟨3, 0, false⟩⟩ :=
    Gang.tickAll_of_still (fun backlog => rfl) backlogs
  refine ⟨⟨by decide, by decide, fun backlogs => ?_⟩, by decide, by decide, by decide,
    fun backlogs => ?_⟩
  · rw [hheld]
    cases backlogs with
    | nil => decide
    | cons backlog more =>
        show (Gang.tickAll ⟨⟨.disabled, some 4, 10, 3⟩, ⟨3, 0, false⟩⟩ more).slots.capacity ≠ 4
        rw [hthree]
        decide
  · rw [hkept, hlost]
    decide

end SocksPool
