import SocksPool.Proofs.Episodes

/-!
# Steady load

A backlog that stays on one side of the threshold drives the workers one way. Below the
threshold they grow by one each tick, up to the ceiling; a scaler that was shrinking
loses one tick to turn round, for it rests before it grows. Above the threshold they
shrink by one each tick, down to the baseline, and one tick later the scaler is idle
and has no baseline. At the threshold nothing moves.

So where many ticks lead can be said at once. The baseline is never above the capacity,
nor the capacity above the ceiling, as long as nobody moves the ceiling; this is what
an episode keeps, and it is why no step of the way is cut short.

## Main definitions

* `Gang.tickAll` — ticks against one backlog after the other.
* `Gang.sunk` — where ticks against large backlogs lead.

## Main results

* `steady_load` — the capacity after any number of ticks under a steady load.
-/

namespace SocksPool

namespace Gang

/-- Ticks against one backlog after the other. -/
def tickAll (g : Gang) : List Nat → Gang
  | [] => g
  | backlog :: more => (g.tick backlog).1.tickAll more

/-- An order that leaves the ceiling alone. -/
def Order.LeavesCeiling : Order → Prop
  | .cap _ => False
  | _ => True

/-- The gang after some ticks against large backlogs: on its way to the baseline, or
idle there, or idle where it was if it has none. -/
def sunk (g : Gang) (ticks : Nat) : Gang :=
  match g.scaler.baseline with
  | none => { g with scaler := { g.scaler with mode := .idle } }
  | some baseline =>
    if baseline + ticks ≤ g.slots.capacity then
      ⟨{ g.scaler with mode := .scalingDown },
        { g.slots with capacity := g.slots.capacity - ticks }⟩
    else
      ⟨{ g.scaler with mode := .idle, baseline := none },
        { g.slots with capacity := baseline }⟩

variable {g : Gang} {backlog ticks baseline : Nat}

theorem sunk_of_none (hbaseline : g.scaler.baseline = none) :
    g.sunk ticks = { g with scaler := { g.scaler with mode := .idle } } := by
  unfold sunk
  rw [hbaseline]

theorem sunk_of_le (hbaseline : g.scaler.baseline = some baseline)
    (hway : baseline + ticks ≤ g.slots.capacity) :
    g.sunk ticks =
      ⟨{ g.scaler with mode := .scalingDown },
        { g.slots with capacity := g.slots.capacity - ticks }⟩ := by
  unfold sunk
  simp only [hbaseline, if_pos hway]

theorem sunk_of_lt (hbaseline : g.scaler.baseline = some baseline)
    (hpast : g.slots.capacity < baseline + ticks) :
    g.sunk ticks =
      ⟨{ g.scaler with mode := .idle, baseline := none },
        { g.slots with capacity := baseline }⟩ := by
  unfold sunk
  simp only [hbaseline, if_neg (Nat.not_le.2 hpast)]

/-! ## Orders that leave the ceiling alone -/

theorem Order.LeavesCeiling.keeps {order : Order} (h : order.LeavesCeiling) (initial : Nat) :
    order.Keeps initial := by
  cases order with
  | cap ceiling => exact h.elim
  | tick _ | enable | disable | aim _ | jobs _ => trivial

/-- A tick changes neither ceiling nor threshold, and switches nothing on or off. -/
theorem settings_tick (hopen : g.slots.closed = false) (backlog : Nat) :
    (g.tick backlog).1.scaler.ceiling = g.scaler.ceiling ∧
      (g.tick backlog).1.scaler.threshold = g.scaler.threshold ∧
      (g.tick backlog).1.scaler.enabled = g.scaler.enabled := by
  obtain ⟨next, goal, hticks, htick⟩ := tick_cases hopen backlog
  rw [htick]
  exact hticks.settings

theorem ceiling_obey (hopen : g.slots.closed = false) {order : Order}
    (hleaves : order.LeavesCeiling) : (g.obey order).scaler.ceiling = g.scaler.ceiling := by
  cases order with
  | tick backlog => exact (settings_tick hopen backlog).1
  | enable =>
      show g.scaler.enable.ceiling = _
      unfold Scaler.enable
      split <;> rfl
  | disable | aim _ | jobs _ => rfl
  | cap ceiling => exact hleaves.elim

end Gang

open Gang (Order)

namespace Episode

variable {initial ceiling backlog : Nat} {g : Gang} {backlogs : List Nat}

/-- Under one ceiling, orders that leave it alone keep an episode within it. -/
theorem within (h : Episode initial ceiling g) (hceiling : g.scaler.ceiling = ceiling)
    {orders : List Order} (hleaves : ∀ order ∈ orders, order.LeavesCeiling) :
    Episode initial ceiling (g.obeyAll orders) ∧
      (g.obeyAll orders).scaler.ceiling = ceiling := by
  induction orders generalizing g with
  | nil => exact ⟨h, hceiling⟩
  | cons order more ih =>
      have hfirst := hleaves order List.mem_cons_self
      have hsame : (g.obey order).scaler.ceiling = ceiling :=
        (Gang.ceiling_obey h.accepts hfirst).trans hceiling
      have hnext := h.obey (hfirst.keeps initial)
      rw [hsame, Nat.max_self] at hnext
      exact ih hnext hsame fun other hother => hleaves other (List.mem_cons_of_mem _ hother)

/-! ## Below the threshold -/

/-- A scaler that is idle or grows lets the workers grow, and goes on so. -/
theorem tick_low (h : Episode initial ceiling g) (hceiling : g.scaler.ceiling = ceiling)
    (hlow : backlog < g.scaler.threshold)
    (hready : g.scaler.mode = .idle ∨ g.scaler.mode = .scalingUp) :
    (g.tick backlog).1.slots.capacity = min ceiling (g.slots.capacity + 1) ∧
      ((g.tick backlog).1.scaler.mode = .idle ∨
        (g.tick backlog).1.scaler.mode = .scalingUp) := by
  have hroom := h.capacity_le
  have hup : g.scaler.target g.slots.capacity 1 = min ceiling (g.slots.capacity + 1) := by
    rw [Scaler.target_up _ (Word.succ_lt_limit h.small.capacity_lt), hceiling, Nat.min_comm]
  obtain ⟨next, goal, hticks, htick⟩ := Gang.tick_exact h.accepts h.small backlog
  rw [htick]
  cases hticks with
  | begins _ _ _ => exact ⟨hup, .inr rfl⟩
  | grows _ _ _ => exact ⟨hup, hready⟩
  | rests _ hgrowth _ =>
      -- Growth was not wanted, so the workers have reached the ceiling.
      have hfull : ¬ (backlog < g.scaler.threshold ∧ g.slots.capacity < g.scaler.ceiling) := by
        intro hwanted
        have hdown := hgrowth (Scaler.wantsMore_eq_true.2 hwanted)
        rcases hready with hmode | hmode <;> simp [hmode] at hdown
      refine ⟨?_, .inl rfl⟩
      show g.slots.capacity = _
      omega
  | shrinks _ _ hhigh _ => omega
  | dormant hmode _ | climbsHome hmode _ _ | sinksHome hmode _ _ | arrives hmode _ =>
      simp [hmode] at hready

/-- A scaler that shrinks rests first. -/
theorem tick_low_of_scalingDown (h : Episode initial ceiling g)
    (hlow : backlog < g.scaler.threshold) (hdown : g.scaler.mode = .scalingDown) :
    (g.tick backlog).1.slots.capacity = g.slots.capacity ∧
      (g.tick backlog).1.scaler.mode = .idle := by
  obtain ⟨next, goal, hticks, htick⟩ := Gang.tick_exact h.accepts h.small backlog
  rw [htick]
  cases hticks with
  | rests _ _ _ => exact ⟨rfl, rfl⟩
  | shrinks _ _ hhigh _ => omega
  | begins hmode _ _ | grows hmode _ _ | dormant hmode _ | climbsHome hmode _ _
  | sinksHome hmode _ _ | arrives hmode _ => simp [hmode] at hdown

/-- Under small backlogs a scaler that is idle or grows adds one worker each tick, up to
the ceiling. -/
theorem tickAll_low (h : Episode initial ceiling g) (hceiling : g.scaler.ceiling = ceiling)
    (hready : g.scaler.mode = .idle ∨ g.scaler.mode = .scalingUp)
    (hlow : ∀ backlog ∈ backlogs, backlog < g.scaler.threshold) :
    (g.tickAll backlogs).slots.capacity = min ceiling (g.slots.capacity + backlogs.length) := by
  induction backlogs generalizing g with
  | nil => exact (Nat.min_eq_right h.capacity_le).symm
  | cons backlog more ih =>
      obtain ⟨hcapacity, hgoesOn⟩ := h.tick_low hceiling (hlow backlog List.mem_cons_self) hready
      obtain ⟨hsame, hthreshold, -⟩ := Gang.settings_tick h.accepts backlog
      have hrest := ih (h.tick backlog) (hsame.trans hceiling) hgoesOn fun other hother =>
        hthreshold ▸ hlow other (List.mem_cons_of_mem _ hother)
      show ((g.tick backlog).1.tickAll more).slots.capacity = _
      rw [hrest, hcapacity, List.length_cons]
      omega

/-- A scaler that shrinks loses the first of these ticks. -/
theorem tickAll_low_of_scalingDown (h : Episode initial ceiling g)
    (hceiling : g.scaler.ceiling = ceiling) (hdown : g.scaler.mode = .scalingDown)
    (hsome : backlogs ≠ []) (hlow : ∀ backlog ∈ backlogs, backlog < g.scaler.threshold) :
    (g.tickAll backlogs).slots.capacity =
      min ceiling (g.slots.capacity + backlogs.length - 1) := by
  cases backlogs with
  | nil => exact absurd rfl hsome
  | cons backlog more =>
      obtain ⟨hcapacity, hidle⟩ :=
        h.tick_low_of_scalingDown (hlow backlog List.mem_cons_self) hdown
      obtain ⟨hsame, hthreshold, -⟩ := Gang.settings_tick h.accepts backlog
      have hrest := (h.tick backlog).tickAll_low (hsame.trans hceiling) (.inl hidle)
        fun other hother => hthreshold ▸ hlow other (List.mem_cons_of_mem _ hother)
      rw [hcapacity] at hrest
      exact hrest

/-! ## Above the threshold -/

/-- A tick against a large backlog. -/
theorem tick_high (h : Episode initial ceiling g) (hceiling : g.scaler.ceiling = ceiling)
    (hhigh : g.scaler.threshold < backlog) (henabled : g.scaler.mode ≠ .disabled) :
    (g.tick backlog).1 = g.sunk 1 := by
  have hpos := h.initial_pos
  have hroom := h.capacity_le
  obtain ⟨next, goal, hticks, htick⟩ := Gang.tick_exact h.accepts h.small backlog
  rw [htick]
  cases hticks with
  | @shrinks baseline _ hbaseline _ habove =>
      obtain rfl := h.baseline_eq hbaseline
      have hdown : g.scaler.target g.slots.capacity (-1) = g.slots.capacity - 1 := by
        rw [Scaler.target_down _ (Word.lt_limit h.small.capacity_lt), hceiling]
        omega
      rw [Gang.sunk_of_le hbaseline habove, hdown]
  | rests _ _ hless =>
      cases hbaseline : g.scaler.baseline with
      | none =>
          rw [Gang.sunk_of_none hbaseline]
          simp [Scaler.settledBaseline, hbaseline]
      | some baseline =>
          -- Shrinking was not wanted, so the workers are back at the baseline.
          have hback : g.slots.capacity = baseline := by
            have hge := h.capacity_ge
            obtain rfl := h.baseline_eq hbaseline
            simp [Scaler.wantsLess, hbaseline, hhigh] at hless
            omega
          have hnoGrowth : g.scaler.wantsMore backlog baseline = false := by
            simp [Scaler.wantsMore, Nat.not_lt.2 (Nat.le_of_lt hhigh)]
          rw [Gang.sunk_of_lt hbaseline (by omega)]
          simp [Scaler.settledBaseline, hbaseline, hnoGrowth, hback]
  | begins _ hlow _ | grows _ hlow _ => omega
  | dormant hmode _ | climbsHome hmode _ _ | sinksHome hmode _ _ | arrives hmode _ =>
      exact absurd hmode henabled

/-- One more large backlog takes the gang one tick further down. -/
theorem sunk_sunk (h : Episode initial ceiling g) {ticks : Nat} (hticks : 1 ≤ ticks) :
    (g.sunk 1).sunk ticks = g.sunk (ticks + 1) := by
  have hge := h.capacity_ge
  cases hbaseline : g.scaler.baseline with
  | none =>
      rw [Gang.sunk_of_none hbaseline, Gang.sunk_of_none hbaseline]
      exact Gang.sunk_of_none hbaseline
  | some baseline =>
      obtain rfl := h.baseline_eq hbaseline
      rcases Nat.lt_or_ge g.slots.capacity (baseline + 1) with hhome | habove
      · rw [Gang.sunk_of_lt hbaseline hhome, Gang.sunk_of_none rfl,
          Gang.sunk_of_lt hbaseline (by omega)]
      · rw [Gang.sunk_of_le hbaseline habove]
        rcases Nat.lt_or_ge g.slots.capacity (baseline + (ticks + 1)) with hpast | hway
        · have hleft : g.slots.capacity - 1 < baseline + ticks := by omega
          rw [Gang.sunk_of_lt hbaseline hpast]
          exact Gang.sunk_of_lt hbaseline hleft
        · have hleft : baseline + ticks ≤ g.slots.capacity - 1 := by omega
          rw [Gang.sunk_of_le hbaseline hway, Nat.add_comm, ← Nat.sub_sub]
          exact Gang.sunk_of_le hbaseline hleft

/-- Under large backlogs a scaler takes one worker away each tick, down to the baseline,
and is idle one tick later. -/
theorem tickAll_high (h : Episode initial ceiling g) (hceiling : g.scaler.ceiling = ceiling)
    (henabled : g.scaler.enabled = true) (hsome : backlogs ≠ [])
    (hhigh : ∀ backlog ∈ backlogs, g.scaler.threshold < backlog) :
    g.tickAll backlogs = g.sunk backlogs.length := by
  induction backlogs generalizing g with
  | nil => exact absurd rfl hsome
  | cons backlog more ih =>
      have hmode : g.scaler.mode ≠ .disabled := by simpa [Scaler.enabled] using henabled
      have hfirst := h.tick_high hceiling (hhigh backlog List.mem_cons_self) hmode
      obtain ⟨hsame, hthreshold, hstill⟩ := Gang.settings_tick h.accepts backlog
      show (g.tick backlog).1.tickAll more = g.sunk (more.length + 1)
      rcases List.eq_nil_or_concat more with rfl | ⟨_, _, hmore⟩
      · exact hfirst
      · have hgoesOn : more ≠ [] := by simp [hmore]
        rw [ih (h.tick backlog) (hsame.trans hceiling) (hstill.trans henabled) hgoesOn
          fun other hother => hthreshold ▸ hhigh other (List.mem_cons_of_mem _ hother), hfirst]
        exact h.sunk_sunk (List.length_pos_iff.2 hgoesOn)

/-! ## At the threshold -/

/-- Backlogs at the threshold move nothing. -/
theorem tickAll_even (h : Episode initial ceiling g) (henabled : g.scaler.enabled = true)
    (heven : ∀ backlog ∈ backlogs, backlog = g.scaler.threshold) :
    (g.tickAll backlogs).slots.capacity = g.slots.capacity := by
  induction backlogs generalizing g with
  | nil => rfl
  | cons backlog more ih =>
      have hfirst := heven backlog List.mem_cons_self
      have hmode : g.scaler.mode ≠ .disabled := by simpa [Scaler.enabled] using henabled
      have hstays : (g.tick backlog).1.slots.capacity = g.slots.capacity := by
        obtain ⟨next, goal, hticks, htick⟩ := Gang.tick_exact h.accepts h.small backlog
        rw [htick]
        cases hticks with
        | rests _ _ _ => rfl
        | begins _ hlow _ | grows _ hlow _ => omega
        | shrinks _ _ hhigh _ => omega
        | dormant hdisabled _ | climbsHome hdisabled _ _ | sinksHome hdisabled _ _
        | arrives hdisabled _ => exact absurd hdisabled hmode
      obtain ⟨-, hthreshold, hstill⟩ := Gang.settings_tick h.accepts backlog
      have hrest := ih (h.tick backlog) (hstill.trans henabled) fun other hother =>
        (heven other (List.mem_cons_of_mem _ hother)).trans hthreshold.symm
      exact hrest.trans hstays

end Episode

/-- A new scaler over open workers takes any orders but a change of its ceiling, and is
enabled at the end. Then one or more ticks follow, against backlogs on one side of the
threshold. Below it the capacity grows by one each tick, up to the ceiling, with one
tick lost if the scaler was shrinking. Above it the capacity shrinks by one each tick,
down to the baseline, and with the tick after that the scaler is idle and its baseline
is gone; without a baseline the capacity stays. At the threshold it stays too. -/
theorem steady_load {threshold ceiling initial : Nat} (hpos : 1 ≤ initial)
    (hinitial : initial ≤ ceiling) (hsmall : ceiling < Word.half) {orders : List Order}
    (hleaves : ∀ order ∈ orders, order.LeavesCeiling) :
    let g := (Gang.new threshold ceiling initial).obeyAll orders
    g.scaler.enabled = true → ∀ backlogs : List Nat, backlogs ≠ [] →
      let after := g.tickAll backlogs
      let ticks := backlogs.length
      let capacity := g.slots.capacity
      ((∀ backlog ∈ backlogs, backlog < g.scaler.threshold) →
        after.slots.capacity =
          if g.scaler.mode = .scalingDown then min ceiling (capacity + ticks - 1)
          else min ceiling (capacity + ticks)) ∧
      ((∀ backlog ∈ backlogs, g.scaler.threshold < backlog) →
        (∀ baseline, g.scaler.baseline = some baseline →
          after.slots.capacity = max baseline (capacity - ticks) ∧
          (ticks < capacity - baseline + 1 →
            after.scaler.baseline = some baseline ∧ after.scaler.mode = .scalingDown) ∧
          (capacity - baseline + 1 ≤ ticks →
            after.scaler.baseline = none ∧ after.scaler.mode = .idle)) ∧
        (g.scaler.baseline = none → after.slots.capacity = capacity)) ∧
      ((∀ backlog ∈ backlogs, backlog = g.scaler.threshold) →
        after.slots.capacity = capacity) := by
  intro g henabled backlogs hsome after ticks capacity
  have hnew : Episode initial ceiling (Gang.new threshold ceiling initial) :=
    .new hpos hinitial hsmall
  have hstart : (Gang.new threshold ceiling initial).scaler.ceiling = ceiling :=
    Nat.max_eq_left (Nat.le_trans hpos hinitial)
  obtain ⟨h, hceiling⟩ := hnew.within hstart hleaves
  have hticks : 1 ≤ ticks := List.length_pos_iff.2 hsome
  refine ⟨?_, ?_, h.tickAll_even henabled⟩
  · intro hlow
    split
    · next hdown =>
        exact h.tickAll_low_of_scalingDown hceiling hdown hsome hlow
    · next hnotDown =>
        refine h.tickAll_low hceiling ?_ hlow
        cases hmode : g.scaler.mode with
        | idle => exact .inl rfl
        | scalingUp => exact .inr rfl
        | scalingDown => exact absurd hmode hnotDown
        | disabled => simp [Scaler.enabled, hmode] at henabled
  · intro hhigh
    have hafter : after = g.sunk ticks := h.tickAll_high hceiling henabled hsome hhigh
    have hge := h.capacity_ge
    refine ⟨fun baseline hbaseline => ?_, fun hnone => ?_⟩
    · obtain rfl := h.baseline_eq hbaseline
      rcases Nat.lt_or_ge capacity (baseline + ticks) with hpast | hway
      · rw [hafter, Gang.sunk_of_lt hbaseline hpast]
        refine ⟨?_, fun hearly => ?_, fun _ => ⟨rfl, rfl⟩⟩
        · exact (Nat.max_eq_left (Nat.sub_le_iff_le_add.2 (Nat.le_of_lt hpast))).symm
        · omega
      · rw [hafter, Gang.sunk_of_le hbaseline hway]
        refine ⟨?_, fun _ => ⟨hbaseline, rfl⟩, fun hlate => ?_⟩
        · exact (Nat.max_eq_right (Nat.le_sub_of_add_le hway)).symm
        · omega
    · rw [hafter, Gang.sunk_of_none hnone]

/-- Workers of capacity two have grown to five and shrink again, to four. Three small
backlogs let them grow to six, and not to seven; three large ones take them down to two,
where the scaler is idle. -/
theorem steady_load_from_shrinking :
    let g : Gang := ⟨⟨.scalingDown, some 2, 10, 9⟩, ⟨4, 0, false⟩⟩
    (Gang.new 20 9 2).obeyAll
        [.enable, .tick 0, .tick 9, .disable, .enable, .aim 10, .tick 0, .tick 11] = g ∧
      (g.tickAll [9, 0, 5]).slots.capacity = 6 ∧
      (g.tickAll [11, 99, 20]).slots.capacity = 2 ∧
      (g.tickAll [11, 99, 20]).scaler.mode = .idle ∧
      (g.tickAll [10, 10]).slots.capacity = 4 := by
  intro g
  have hreached : (Gang.new 20 9 2).obeyAll
      [.enable, .tick 0, .tick 9, .disable, .enable, .aim 10, .tick 0, .tick 11] = g := by
    decide
  have hload := @steady_load 20 9 2 (by decide) (by decide) (by simp [Word.half])
    [.enable, .tick 0, .tick 9, .disable, .enable, .aim 10, .tick 0, .tick 11]
    (by simp [Gang.Order.LeavesCeiling])
  rw [hreached] at hload
  obtain ⟨hlow, -, -⟩ := hload rfl [9, 0, 5] (by simp)
  obtain ⟨-, hhigh, -⟩ := hload rfl [11, 99, 20] (by simp)
  obtain ⟨-, -, heven⟩ := hload rfl [10, 10] (by simp)
  obtain ⟨hshrunk, -, hidle⟩ := (hhigh (by simp [g])).1 2 rfl
  exact ⟨hreached, hlow (by simp [g]), hshrunk, (hidle (by decide)).2, heven (by simp [g])⟩

end SocksPool
