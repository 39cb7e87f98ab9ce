import SocksPool.Proofs.Scaling

/-!
# Episodes of scaling

An *episode* begins when an idle scaler first grows its workers and ends when they
are back where they were. The scaler keeps that place as its baseline, through
reversals, changes of the ceiling and even while it is disabled, and drops it at the
end. So as long as nobody else tunes the workers there is one place to come back to
for ever: the capacity that they began with.

Ceilings may be set below the capacity, but not below that place. A tick then cuts
the capacity to the new ceiling if it moves it at all, which is why growth is by one
and shrinking is not.

## Main definitions

* `Gang.Order` — what can be done with a scaler; `Gang.obeyAll` does it.
* `Gang.peak` — the highest ceiling in force so far.
* `Episode` — how mode, baseline and capacity hang together.
* `Gang.FairTick` — what a tick may do to the capacity.

## Main results

* `scaling_in_episodes` — mode, baseline and capacity hang together after any orders.
-/

namespace SocksPool

namespace Gang

/-- What can be done with a scaler and its workers, short of tuning or closing them. -/
inductive Order where
  | tick (backlog : Nat)
  | enable
  | disable
  | aim (threshold : Nat)
  | cap (ceiling : Nat)
  /-- Jobs begin and end, and so many of them run now. -/
  | jobs (running : Nat)
deriving DecidableEq

/-- The gang after an order. -/
def obey (g : Gang) : Order → Gang
  | .tick backlog => (g.tick backlog).1
  | .enable => { g with scaler := g.scaler.enable }
  | .disable => { g with scaler := g.scaler.disable }
  | .aim threshold => { g with scaler := g.scaler.setThreshold threshold }
  | .cap ceiling => { g with scaler := g.scaler.setCeiling ceiling }
  | .jobs running => { g with slots := { g.slots with running } }

/-- The gang after orders that are given one after the other. -/
def obeyAll (g : Gang) : List Order → Gang
  | [] => g
  | order :: more => (g.obey order).obeyAll more

/-- The highest ceiling that was in force, from the first of some orders to the last. -/
def peak (g : Gang) : List Order → Nat
  | [] => g.scaler.ceiling
  | order :: more => max g.scaler.ceiling ((g.obey order).peak more)

/-- A new scaler over new workers. -/
def new (threshold ceiling capacity : Nat) : Gang :=
  ⟨Scaler.new threshold ceiling, Slots.new capacity⟩

/-- A tick answers the change that it makes, grows the workers by one at most, and
never leaves a changed capacity above the ceiling. -/
structure FairTick (g : Gang) (backlog : Nat) : Prop where
  exact : (g.tick backlog).2 =
    ((g.tick backlog).1.slots.capacity : Int) - g.slots.capacity
  gentle : (g.tick backlog).2 ≤ 1
  bounded : (g.tick backlog).1.slots.capacity ≠ g.slots.capacity →
    (g.tick backlog).1.slots.capacity ≤ (g.tick backlog).1.scaler.ceiling

theorem ceiling_le_peak (g : Gang) (orders : List Order) : g.scaler.ceiling ≤ g.peak orders := by
  cases orders with
  | nil => exact Nat.le_refl _
  | cons order more => exact Nat.le_max_left ..

end Gang

/-- A ceiling that an order sets is not below the place to come back to, and small
enough for signed words. -/
def Gang.Order.Keeps (initial : Nat) : Gang.Order → Prop
  | .cap ceiling => initial ≤ ceiling ∧ ceiling < Word.half
  | _ => True

/-- How mode, baseline and capacity hang together, over workers that began with the
capacity `initial`, under ceilings up to `highest`. -/
structure Episode (initial highest : Nat) (g : Gang) : Prop where
  accepts : g.slots.closed = false
  baseline : g.scaler.baseline = none ∨ g.scaler.baseline = some initial
  home : g.scaler.baseline = none → g.slots.capacity = initial
  anchored : g.scaler.mode = .scalingUp ∨ g.scaler.mode = .scalingDown →
    g.scaler.baseline = some initial
  initial_pos : 1 ≤ initial
  capacity_ge : initial ≤ g.slots.capacity
  capacity_le : g.slots.capacity ≤ highest
  ceiling_ge : initial ≤ g.scaler.ceiling
  ceiling_le : g.scaler.ceiling ≤ highest
  highest_lt : highest < Word.half

namespace Episode

variable {initial highest backlog : Nat} {g : Gang}

theorem small (h : Episode initial highest g) : g.Small where
  capacity_pos := Nat.le_trans h.initial_pos h.capacity_ge
  capacity_lt := Nat.lt_of_le_of_lt h.capacity_le h.highest_lt
  ceiling_pos := Nat.le_trans h.initial_pos h.ceiling_ge
  ceiling_lt := Nat.lt_of_le_of_lt h.ceiling_le h.highest_lt

/-- There is but one place to come back to. -/
theorem baseline_eq (h : Episode initial highest g) {baseline : Nat}
    (hbaseline : g.scaler.baseline = some baseline) : baseline = initial := by
  rcases h.baseline with hnone | hsome
  · rw [hnone] at hbaseline
    cases hbaseline
  · rw [hsome] at hbaseline
    exact (Option.some.inj hbaseline).symm

theorem baseline_getD (h : Episode initial highest g) :
    g.scaler.baseline.getD g.slots.capacity = initial := by
  rcases h.baseline with hnone | hsome
  · rw [hnone, Option.getD_none, h.home hnone]
  · rw [hsome, Option.getD_some]

theorem mono (h : Episode initial highest g) {higher : Nat} (hle : highest ≤ higher)
    (hlt : higher < Word.half) : Episode initial higher g :=
  { h with
    capacity_le := Nat.le_trans h.capacity_le hle
    ceiling_le := Nat.le_trans h.ceiling_le hle
    highest_lt := hlt }

/-- A scaler that settles still has its baseline, or its workers are back at it. -/
theorem settledBaseline (h : Episode initial highest g) (backlog : Nat) :
    g.scaler.settledBaseline backlog g.slots.capacity = some initial ∨
      g.scaler.settledBaseline backlog g.slots.capacity = none ∧ g.slots.capacity = initial := by
  have hcapacity := h.capacity_ge
  unfold Scaler.settledBaseline
  split
  · next baseline hbaseline =>
      obtain rfl := h.baseline_eq hbaseline
      split
      · next hback =>
          rw [Bool.and_eq_true, decide_eq_true_eq] at hback
          exact .inr ⟨rfl, Nat.le_antisymm hback.1 hcapacity⟩
      · exact .inl rfl
  · next hnone => exact .inr ⟨rfl, h.home hnone⟩

/-! ## Ticks -/

/-- What a tick comes to keeps everything together. -/
theorem ticks (h : Episode initial highest g) {next : Scaler} {goal : Nat}
    (hticks : g.scaler.Ticks backlog g.slots.capacity next goal) :
    Episode initial highest ⟨next, { g.slots with capacity := goal }⟩ := by
  have hsmall := h.small.capacity_lt
  have hcapacity := h.capacity_ge
  have hhighest := h.capacity_le
  have hceiling := h.ceiling_ge
  have htop := h.ceiling_le
  have hpos := h.initial_pos
  -- A disabled scaler moves the capacity only while it has a baseline, and then
  -- towards it; so does an enabled one that shrinks.
  have hup : initial ≤ g.scaler.target g.slots.capacity 1 ∧
      g.scaler.target g.slots.capacity 1 ≤ highest := by
    rw [Scaler.target_up _ (Word.succ_lt_limit hsmall)]
    omega
  have hdown (habove : initial < g.slots.capacity) :
      initial ≤ g.scaler.target g.slots.capacity (-1) ∧
        g.scaler.target g.slots.capacity (-1) ≤ highest := by
    rw [Scaler.target_down _ (Word.lt_limit hsmall)]
    omega
  cases hticks with
  | dormant _ _ => exact h
  | climbsHome _ hbaseline hbelow =>
      obtain rfl := h.baseline_eq hbaseline
      exact absurd hcapacity (Nat.not_le.2 hbelow)
  | sinksHome hmode hbaseline habove =>
      obtain rfl := h.baseline_eq hbaseline
      obtain ⟨hge, hle⟩ := hdown habove
      exact { h with
        home := fun hnone => by simp [hbaseline] at hnone
        capacity_ge := hge, capacity_le := hle }
  | arrives hmode hbaseline =>
      have hhome := h.baseline_eq hbaseline
      exact { h with
        baseline := .inl rfl
        home := fun _ => hhome
        anchored := fun hscaling => by simp [hmode] at hscaling }
  | begins _ _ _ =>
      have hanchor := congrArg some h.baseline_getD
      exact { h with
        baseline := .inr hanchor
        home := nofun
        anchored := fun _ => hanchor
        capacity_ge := hup.1, capacity_le := hup.2 }
  | grows hmode _ _ =>
      have hanchor := h.anchored (.inl hmode)
      exact { h with
        home := fun hnone => by simp [hanchor] at hnone
        capacity_ge := hup.1, capacity_le := hup.2 }
  | shrinks _ hbaseline _ habove =>
      obtain rfl := h.baseline_eq hbaseline
      obtain ⟨hge, hle⟩ := hdown habove
      exact { h with
        home := fun hnone => by simp [hbaseline] at hnone
        anchored := fun _ => hbaseline
        capacity_ge := hge, capacity_le := hle }
  | rests _ _ _ =>
      have hsettled := h.settledBaseline backlog
      exact { h with
        baseline := hsettled.symm.imp_left And.left
        home := fun hnone => by
          rcases hsettled with hkept | ⟨-, hback⟩
          · rw [hkept] at hnone
            cases hnone
          · exact hback
        anchored := nofun }

theorem tick (h : Episode initial highest g) (backlog : Nat) :
    Episode initial highest (g.tick backlog).1 := by
  obtain ⟨next, goal, hticks, htick⟩ := Gang.tick_exact h.accepts h.small backlog
  rw [htick]
  exact h.ticks hticks

/-- Every tick is fair. -/
theorem fairTick (h : Episode initial highest g) (backlog : Nat) : g.FairTick backlog := by
  obtain ⟨next, goal, hticks, htick⟩ := Gang.tick_exact h.accepts h.small backlog
  have hsmall := h.small.capacity_lt
  have hbounds := h.small.goal hticks
  refine ⟨?_, ?_, ?_⟩
  · rw [htick]
  · rw [htick]
    dsimp only
    cases hticks with
    | dormant _ _ | arrives _ _ | rests _ _ _ => omega
    | climbsHome _ _ _ | begins _ _ _ | grows _ _ _ =>
        rw [Scaler.target_up _ (Word.succ_lt_limit hsmall)]
        omega
    | sinksHome _ _ _ | shrinks _ _ _ _ =>
        rw [Scaler.target_down _ (Word.lt_limit hsmall)]
        have hpos := h.small.capacity_pos
        omega
  · have hceiling : next.ceiling = g.scaler.ceiling := by cases hticks <;> rfl
    rw [htick]
    dsimp only
    omega

/-! ## Orders -/

/-- An order keeps everything together, under the ceiling that is then in force. -/
theorem obey (h : Episode initial highest g) {order : Gang.Order} (hkeeps : order.Keeps initial) :
    Episode initial (max highest (g.obey order).scaler.ceiling) (g.obey order) := by
  have hsame {g' : Gang} (h' : Episode initial highest g') :
      Episode initial (max highest g'.scaler.ceiling) g' := by
    rw [Nat.max_eq_left h'.ceiling_le]
    exact h'
  cases order with
  | tick backlog => exact hsame (h.tick backlog)
  | enable =>
      have henabled : Episode initial highest { g with scaler := g.scaler.enable } := by
        unfold Scaler.enable
        split
        · exact { h with anchored := nofun }
        · exact h
      exact hsame henabled
  | disable => exact hsame { h with anchored := nofun }
  | aim threshold => exact hsame { h with }
  | jobs running => exact hsame { h with }
  | cap ceiling =>
      obtain ⟨hge, hlt⟩ := hkeeps
      have hpos := h.initial_pos
      have hceiling : max ceiling 1 = ceiling := by omega
      have hhighest := h.highest_lt
      have hcapacity := h.capacity_le
      have hraised : Episode initial (max highest ceiling)
          { g with scaler := { g.scaler with ceiling } } :=
        { h with
          capacity_le := by
            dsimp only
            omega
          ceiling_ge := hge
          ceiling_le := Nat.le_max_right ..
          highest_lt := by omega }
      simpa [Gang.obey, Scaler.setCeiling, hceiling] using hraised

/-- Orders keep everything together, under the highest ceiling so far. -/
theorem obeyAll {orders : List Gang.Order} (h : Episode initial highest g)
    (hkeeps : ∀ order ∈ orders, order.Keeps initial) :
    Episode initial (max highest (g.peak orders)) (g.obeyAll orders) := by
  induction orders generalizing g highest with
  | nil =>
      rw [Gang.peak, Nat.max_eq_left h.ceiling_le]
      exact h
  | cons order more ih =>
      have hmore := ih (h.obey (hkeeps order (by simp))) fun next hnext =>
        hkeeps next (by simp [hnext])
      have hpeak := (g.obey order).ceiling_le_peak more
      have hceiling := h.ceiling_le
      have hsame : max (max highest (g.obey order).scaler.ceiling) ((g.obey order).peak more) =
          max highest (g.peak (order :: more)) := by
        rw [Gang.peak]
        omega
      rw [← hsame]
      exact hmore

end Episode

/-- From shrinking to growing a scaler passes through another mode. -/
theorem Gang.mode_of_scalingDown {g : Gang} (hdown : g.scaler.mode = .scalingDown)
    (order : Gang.Order) : (g.obey order).scaler.mode ≠ .scalingUp := by
  cases order with
  | tick backlog =>
      cases hclosed : g.slots.closed with
      | true => simp [Gang.obey, Gang.tick_closed hclosed, hdown]
      | false =>
          obtain ⟨next, goal, hticks, htick⟩ := Gang.tick_cases hclosed backlog
          rw [Gang.obey, htick]
          cases hticks <;> simp_all
  | enable | disable | aim _ | cap _ | jobs _ =>
      simp [Gang.obey, Scaler.enable, Scaler.disable, Scaler.setThreshold, Scaler.setCeiling,
        hdown]

/-- A new scaler over workers of the capacity `initial`, which its ceiling allows, is
at home. -/
theorem Episode.new {threshold ceiling initial : Nat} (hpos : 1 ≤ initial)
    (hinitial : initial ≤ ceiling) (hsmall : ceiling < Word.half) :
    Episode initial ceiling (Gang.new threshold ceiling initial) := by
  have hceiling : max ceiling 1 = ceiling := Nat.max_eq_left (Nat.le_trans hpos hinitial)
  constructor <;>
    simp [Gang.new, Scaler.new, Slots.new, hceiling, hpos, hinitial, hsmall]

/-- After any orders to a new scaler, as long as no ceiling is set below the capacity
that its workers began with: the baseline is that capacity or none, and none only
while the workers are there; a scaler that grows or shrinks has it; the workers are
never below it, nor above the highest ceiling so far. The next tick is fair, whatever
the backlog, and no order turns a scaler that shrinks into one that grows. -/
theorem scaling_in_episodes {threshold ceiling initial : Nat} (hpos : 1 ≤ initial)
    (hinitial : initial ≤ ceiling) (hsmall : ceiling < Word.half) {orders : List Gang.Order}
    (hkeeps : ∀ order ∈ orders, order.Keeps initial) :
    let start := Gang.new threshold ceiling initial
    let g := start.obeyAll orders
    Episode initial (start.peak orders) g ∧ (∀ backlog, g.FairTick backlog) ∧
      (g.scaler.mode = .scalingDown →
        ∀ order : Gang.Order, (g.obey order).scaler.mode ≠ .scalingUp) := by
  intro start g
  have hstart : Episode initial start.scaler.ceiling start := by
    have hceiling : start.scaler.ceiling = ceiling :=
      Nat.max_eq_left (Nat.le_trans hpos hinitial)
    rw [hceiling]
    exact .new hpos hinitial hsmall
  have hall := hstart.obeyAll hkeeps
  rw [Nat.max_eq_right (start.ceiling_le_peak orders)] at hall
  exact ⟨hall, hall.fairTick, Gang.mode_of_scalingDown⟩

/-- Workers of capacity two grow to five, are cut to four by a ceiling that was set
below them, and shrink further; the scaler still knows the two. -/
theorem scaling_in_episodes_below_lowered_ceiling :
    let orders : List Gang.Order :=
      [.enable, .tick 0, .tick 0, .jobs 4, .tick 0, .cap 4, .tick 11, .aim 20, .tick 30]
    let g := (Gang.new 10 5 2).obeyAll orders
    g = ⟨⟨.scalingDown, some 2, 20, 4⟩, ⟨3, 4, false⟩⟩ ∧ (Gang.new 10 5 2).peak orders = 5 ∧
      Episode 2 5 g ∧ (∀ backlog, g.FairTick backlog) ∧
      ∀ order : Gang.Order, (g.obey order).scaler.mode ≠ .scalingUp := by
  intro orders g
  have hkeeps : ∀ order ∈ orders, order.Keeps 2 := by simp [orders, Gang.Order.Keeps, Word.half]
  have hend : g = ⟨⟨.scalingDown, some 2, 20, 4⟩, ⟨3, 4, false⟩⟩ := by decide
  have hpeak : (Gang.new 10 5 2).peak orders = 5 := by decide
  obtain ⟨hepisode, hfair, hdown⟩ :=
    @scaling_in_episodes 10 5 2 (by decide) (by decide) (by simp [Word.half]) orders hkeeps
  rw [hpeak] at hepisode
  have hmode : g.scaler.mode = .scalingDown := congrArg (·.scaler.mode) hend
  exact ⟨hend, hpeak, hepisode, hfair, hdown hmode⟩

end SocksPool
