import Mathlib.Tactic.SplitIfs
import SocksPool.Proofs.Breaks

/-!
# Coherence of the settings

The worker ceiling, the backlog that is wanted and the switch of the autoscaler are
kept twice: in the configuration, where users read them, and in the scaler, which
acts on them. The capacity is kept a third time, by the workers, and both setters and
ticks change it. Nothing but the care of each setter holds these copies together, and
a setter is free to check its argument against one copy while it writes another.

They do hold together. Whatever the order of calls, ticks and moves of tasks, the
configuration is one that the gate would accept, the scaler has the ceiling, the
threshold and the switch of the configuration, and the capacity is within the
ceiling. All worker counts are below `2 ^ 63`, where their differences are exact;
and the workers are the pool's own, so that nobody else tunes them.

## Main definitions

* `Config.Sound` — what the gate asks for, as separate facts.
* `Coherent` — the copies agree.
* `Happening` — a deed, or a tick of the scaler at any time.

## Main results

* `Config.validate_eq_ok` — the gate accepts exactly the sound configurations.
* `settings_cohere` — the copies agree after any happenings.
-/

namespace SocksPool

namespace Config

/-- What the gate asks of a configuration. -/
structure Sound (c : Config) : Prop where
  maxWorkers_pos : c.maxWorkers ≠ 0
  workers_pos : c.workers ≠ 0
  workers_le : c.workers ≤ c.maxWorkers
  removeAfter_pos : c.removeAfter ≠ 0
  bufferSize_pos : c.bufferSize ≠ 0
  echoes : c.echoEndpoints ≠ []
  validationTimeout_pos : c.validationTimeout ≠ 0

/-- The gate accepts exactly the sound configurations. -/
theorem validate_eq_ok {c : Config} : c.validate = .ok () ↔ c.Sound := by
  constructor
  · intro hok
    unfold validate at hok
    split_ifs at hok with hmax hworkers hremove hbuffer hecho htimeout
    obtain ⟨hpos, hle⟩ := not_or.1 hworkers
    exact ⟨hmax, hpos, Nat.not_lt.1 hle, hremove, hbuffer, hecho, htimeout⟩
  · intro h
    unfold validate
    rw [if_neg h.maxWorkers_pos, if_neg (not_or.2 ⟨h.workers_pos, Nat.not_lt.2 h.workers_le⟩),
      if_neg h.removeAfter_pos, if_neg h.bufferSize_pos, if_neg h.echoes,
      if_neg h.validationTimeout_pos]

end Config

/-- The settings are sound, and all copies of them agree. -/
structure Coherent (p : Pool) : Prop where
  valid : p.config.validate = .ok ()
  ceiling : p.scaler.ceiling = p.config.maxWorkers
  threshold : p.scaler.threshold = p.config.scaleThreshold
  enabled : p.scaler.enabled = p.config.autoscale
  capacity_pos : 1 ≤ p.slots.capacity
  capacity_le : p.slots.capacity ≤ p.config.maxWorkers
  maxWorkers_lt : p.config.maxWorkers < Word.half

/-- A setting that is a worker count is small. -/
def Setting.IsSmall : Setting → Prop
  | .maxWorkers ceiling => ceiling < Word.half
  | _ => True

namespace Coherent

variable {p q : Pool}

theorem sound (h : Coherent p) : p.config.Sound := Config.validate_eq_ok.1 h.valid

theorem small (h : Coherent p) : p.gang.Small where
  capacity_pos := h.capacity_pos
  capacity_lt := Nat.lt_of_le_of_lt h.capacity_le h.maxWorkers_lt
  ceiling_pos := h.ceiling ▸ Nat.one_le_iff_ne_zero.2 h.sound.maxWorkers_pos
  ceiling_lt := h.ceiling ▸ h.maxWorkers_lt

/-- What keeps configuration, scaler and capacity keeps them coherent. -/
theorem congr (h : Coherent p) (hconfig : q.config = p.config) (hscaler : q.scaler = p.scaler)
    (hcapacity : q.slots.capacity = p.slots.capacity) : Coherent q where
  valid := hconfig ▸ h.valid
  ceiling := hscaler ▸ hconfig ▸ h.ceiling
  threshold := hscaler ▸ hconfig ▸ h.threshold
  enabled := hscaler ▸ hconfig ▸ h.enabled
  capacity_pos := hcapacity ▸ h.capacity_pos
  capacity_le := hcapacity ▸ hconfig ▸ h.capacity_le
  maxWorkers_lt := hconfig ▸ h.maxWorkers_lt

/-- So does what keeps the fittings. -/
theorem of_fittings {f : Fittings} (h : Coherent p) (hsame : q.fittings = f)
    (hconfig : f.config = p.config) (hscaler : f.scaler = p.scaler)
    (hcapacity : f.capacity = p.slots.capacity) : Coherent q :=
  h.congr ((congrArg Fittings.config hsame).trans hconfig)
    ((congrArg Fittings.scaler hsame).trans hscaler)
    ((congrArg Fittings.capacity hsame).trans hcapacity)

/-! ## Ticks -/

/-- A tick keeps the copies together. -/
theorem ticked (h : Coherent p) {backlog : Nat}
    (hticked : q.fittings = p.fittings.resize (p.gang.tick backlog).1) : Coherent q := by
  cases hclosed : p.slots.closed with
  | true =>
      rw [Gang.tick_closed hclosed] at hticked
      exact h.of_fittings hticked rfl rfl rfl
  | false =>
      obtain ⟨next, goal, hticks, htick⟩ := Gang.tick_exact hclosed h.small backlog
      rw [htick] at hticked
      have hconfig : q.config = p.config := congrArg Fittings.config hticked
      have hscaler : q.scaler = next := congrArg Fittings.scaler hticked
      have hcapacity : q.slots.capacity = goal := congrArg Fittings.capacity hticked
      obtain ⟨hceiling, hthreshold, henabled⟩ := hticks.settings
      obtain ⟨hpos, -, hbound⟩ := h.small.goal hticks
      exact {
        valid := hconfig ▸ h.valid
        ceiling := by rw [hscaler, hconfig, hceiling, ← h.ceiling]; rfl
        threshold := by rw [hscaler, hconfig, hthreshold, ← h.threshold]; rfl
        enabled := by rw [hscaler, hconfig, henabled, ← h.enabled]; rfl
        capacity_pos := hcapacity ▸ hpos
        capacity_le := by
          rw [hcapacity, hconfig]
          rcases hbound with hstays | hwithin
          · rw [hstays]
            exact h.capacity_le
          · exact Nat.le_trans hwithin (Nat.le_of_eq h.ceiling)
        maxWorkers_lt := hconfig ▸ h.maxWorkers_lt }

/-! ## Setters -/

/-- A setter that writes no copied setting keeps the copies together. -/
theorem configure (h : Coherent p) (change : Config → Config) (hsound : (change p.config).Sound)
    (hmax : (change p.config).maxWorkers = p.config.maxWorkers)
    (hthreshold : (change p.config).scaleThreshold = p.config.scaleThreshold)
    (hautoscale : (change p.config).autoscale = p.config.autoscale) :
    Coherent (p.configure change) where
  valid := Config.validate_eq_ok.2 hsound
  ceiling := h.ceiling.trans hmax.symm
  threshold := h.threshold.trans hthreshold.symm
  enabled := h.enabled.trans hautoscale.symm
  capacity_pos := h.capacity_pos
  capacity_le := Nat.le_trans h.capacity_le (Nat.le_of_eq hmax.symm)
  maxWorkers_lt := hmax ▸ h.maxWorkers_lt

/-- The ceiling is written to three places, and the workers are cut down to it. -/
theorem setMaxWorkers (h : Coherent p) {ceiling : Nat} (hsmall : ceiling < Word.half) :
    Coherent (p.afterCall (p.setMaxWorkers ceiling)) := by
  unfold Pool.setMaxWorkers
  split
  · exact h
  · split
    · exact h
    · next hpos =>
        have hceiling : max ceiling 1 = ceiling := by omega
        have hsound : ({ p.config with
            maxWorkers := ceiling, workers := min p.config.workers ceiling } : Config).Sound :=
          { h.sound with
            maxWorkers_pos := hpos
            workers_pos := by
              have := h.sound.workers_pos
              dsimp only
              omega
            workers_le := Nat.min_le_right .. }
        have hcapacity := h.small.capacity_lt
        dsimp only [Pool.configure]
        split
        · next hcut =>
            have hgoal := Slots.tune_difference (s := p.slots) (Nat.one_le_iff_ne_zero.2 hpos)
              (Word.lt_limit hsmall) (Word.spans_of_small hsmall hcapacity)
            constructor <;> dsimp only [Pool.afterCall] <;>
              simp only [Pool.config_tune, Pool.scaler_tune, Pool.slots_tune, hgoal,
                Scaler.setCeiling, hceiling]
            · exact Config.validate_eq_ok.2 hsound
            · exact h.threshold
            · exact h.enabled
            · omega
            · exact Nat.le_refl _
            · exact hsmall
        · next hfits =>
            exact {
              valid := Config.validate_eq_ok.2 hsound
              ceiling := hceiling
              threshold := h.threshold
              enabled := h.enabled
              capacity_pos := h.capacity_pos
              capacity_le := Nat.not_lt.1 hfits
              maxWorkers_lt := hsmall }

/-- A worker count within the ceiling becomes the capacity. -/
theorem setWorkers (h : Coherent p) (count : Nat) :
    Coherent (p.afterCall (p.setWorkers count)) := by
  unfold Pool.setWorkers
  split
  · exact h
  · split
    · exact h
    · next hrange =>
        obtain ⟨hpos, hle⟩ := not_or.1 hrange
        have hwithin := Nat.not_lt.1 hle
        have hsmall := Nat.lt_of_le_of_lt hwithin h.maxWorkers_lt
        have hgoal := Slots.tune_difference (s := p.slots) (Nat.one_le_iff_ne_zero.2 hpos)
          (Word.lt_limit hsmall) (Word.spans_of_small hsmall h.small.capacity_lt)
        have hsound : ({ p.config with workers := count } : Config).Sound :=
          { h.sound with workers_pos := hpos, workers_le := hwithin }
        dsimp only [Pool.configure]
        constructor <;> dsimp only [Pool.afterCall] <;>
          simp only [Pool.config_tune, Pool.scaler_tune, Pool.slots_tune, hgoal]
        · exact Config.validate_eq_ok.2 hsound
        · exact h.ceiling
        · exact h.threshold
        · exact h.enabled
        · omega
        · exact hwithin
        · exact h.maxWorkers_lt

theorem setScaleThreshold (h : Coherent p) (threshold : Nat) :
    Coherent (p.setScaleThreshold threshold) :=
  { h with
    valid := Config.validate_eq_ok.2 { h.sound with }
    threshold := rfl }

/-- Switching the scaler on or off switches both copies. -/
theorem switch (h : Coherent p) (enabled : Bool) :
    Coherent (if enabled then p.enableScaler else p.disableScaler) := by
  have hsound (autoscale : Bool) : ({ p.config with autoscale } : Config).Sound :=
    { h.sound with }
  cases enabled with
  | false => exact { h with valid := Config.validate_eq_ok.2 (hsound false), enabled := rfl }
  | true =>
      have hkept : p.scaler.enable.ceiling = p.scaler.ceiling ∧
          p.scaler.enable.threshold = p.scaler.threshold ∧ p.scaler.enable.enabled = true := by
        unfold Scaler.enable
        split
        · exact ⟨rfl, rfl, rfl⟩
        · next hmode => exact ⟨rfl, rfl, by simp [Scaler.enabled, hmode]⟩
      obtain ⟨hceiling, hthreshold, henabled⟩ := hkept
      exact { h with
        valid := Config.validate_eq_ok.2 (hsound true)
        ceiling := hceiling.trans h.ceiling
        threshold := hthreshold.trans h.threshold
        enabled := henabled }

/-- Every setter keeps the copies together, whether it accepts its argument or not. -/
theorem adjust (h : Coherent p) {setting : Setting} (hsmall : setting.IsSmall) :
    Coherent (p.afterCall (p.adjust setting)) := by
  have hsound := h.sound
  cases setting with
  | staleAfter age => exact h.configure ({ · with staleAfter := age }) { hsound with } rfl rfl rfl
  | recycling recycle => exact h.configure ({ · with recycle }) { hsound with } rfl rfl rfl
  | userAgents agents =>
      exact h.configure ({ · with userAgents := agents }) { hsound with } rfl rfl rfl
  | validationTimeout timeout =>
      unfold Pool.adjust Pool.setValidationTimeout
      dsimp only
      split
      · exact h
      · next hpos =>
          exact h.configure ({ · with validationTimeout := timeout })
            { hsound with validationTimeout_pos := hpos } rfl rfl rfl
  | removeAfter count =>
      unfold Pool.adjust Pool.setRemoveAfter
      dsimp only
      split
      · exact h
      · next hpos =>
          exact h.configure ({ · with removeAfter := count })
            { hsound with removeAfter_pos := hpos } rfl rfl rfl
  | echoEndpoints urls =>
      unfold Pool.adjust Pool.setEchoEndpoints
      dsimp only
      split
      · exact h
      · next hsome =>
          exact h.configure ({ · with echoEndpoints := urls })
            { hsound with echoes := hsome } rfl rfl rfl
  | maxWorkers ceiling => exact h.setMaxWorkers hsmall
  | workers count => exact h.setWorkers count
  | scaleThreshold threshold => exact h.setScaleThreshold threshold
  | autoscaler enabled => exact h.switch enabled

/-! ## Runs -/

/-- Every deed keeps the copies together, if it passes no large count and leaves the
workers to the pool. -/
theorem act (h : Coherent p) {d : Deed} (hact : p.act? d = some q)
    (hsmall : ∀ setting, d = .adjust setting → setting.IsSmall)
    (htune : ∀ change, d ≠ .tune change) : Coherent q := by
  cases hrefits : d.refits with
  | false =>
      rcases Pool.breaks_or_keeps hact hrefits with ⟨-, hsame⟩ | ⟨-, hsame⟩
      · exact h.of_fittings hsame rfl rfl rfl
      · exact h.of_fittings hsame rfl rfl rfl
  | true =>
      rcases Deed.refits_cases hrefits with
        ⟨setting, rfl⟩ | ⟨change, rfl⟩ | rfl | ⟨span, rfl⟩ | ⟨id, rfl⟩
      · rw [← Option.some.inj hact]
        exact h.adjust (hsmall setting rfl)
      · exact absurd rfl (htune change)
      · rw [← Option.some.inj hact]
        exact h.congr rfl rfl rfl
      · rw [← Option.some.inj hact]
        exact h.congr rfl rfl rfl
      · rcases Pool.tick?_cases hact with ⟨-, hsame⟩ | ⟨-, hticked⟩
        · exact h.of_fittings hsame rfl rfl rfl
        · exact h.ticked hticked

/-- A new pool is coherent. -/
theorem of_new {config : Config} (hnew : Pool.new config = .ok p)
    (hsmall : config.maxWorkers < Word.half) : Coherent p := by
  unfold Pool.new Pool.withSlots at hnew
  split at hnew
  · cases hnew
  · next hvalid =>
      obtain rfl := Except.ok.inj hnew
      have hsound := Config.validate_eq_ok.1 hvalid
      have hceiling : max config.maxWorkers 1 = config.maxWorkers := by
        have := hsound.maxWorkers_pos
        omega
      have hcapacity : max config.workers 1 = config.workers := by
        have := hsound.workers_pos
        omega
      constructor <;> dsimp only [Slots.new]
      · exact hvalid
      · split <;> exact hceiling
      · split <;> rfl
      · cases config.autoscale <;> rfl
      · exact Nat.le_max_right ..
      · rw [hcapacity]
        exact hsound.workers_le
      · exact hsmall

end Coherent

/-- Something that happens to a pool: a deed, or a tick of its scaler against any
backlog, though no scale loop is at it. -/
inductive Happening where
  | deed (d : Deed)
  | tick (backlog : Nat)

/-- Worker counts that are passed in are small, and the workers are left to the pool. -/
def Happening.Fits : Happening → Prop
  | .deed (.adjust setting) => setting.IsSmall
  | .deed (.tune _) => False
  | _ => True

namespace Pool

/-- The pool after something happened, if it is possible. -/
def happen? (p : Pool) : Happening → Option Pool
  | .deed d => p.act? d
  | .tick backlog => some (p.tickAgainst backlog).1

/-- The pool after things that happened one after the other, if all are possible. -/
def happenAll? (p : Pool) : List Happening → Option Pool
  | [] => some p
  | first :: more => (p.happen? first).bind (happenAll? · more)

end Pool

theorem Coherent.happen {p q : Pool} (h : Coherent p) {what : Happening} (hfits : what.Fits)
    (hdone : p.happen? what = some q) : Coherent q := by
  cases what with
  | tick backlog =>
      rw [← Option.some.inj hdone]
      exact h.ticked (p.fittings_tickAgainst backlog)
  | deed d =>
      refine h.act hdone ?_ ?_
      · rintro setting rfl
        exact hfits
      · rintro change rfl
        exact hfits

theorem Coherent.happenAll {p q : Pool} (h : Coherent p) {happenings : List Happening}
    (hfits : ∀ what ∈ happenings, what.Fits) (hdone : p.happenAll? happenings = some q) :
    Coherent q := by
  induction happenings generalizing p with
  | nil =>
      obtain rfl : p = q := Option.some.inj hdone
      exact h
  | cons first more ih =>
      obtain ⟨mid, hfirst, hmore⟩ := Option.bind_eq_some_iff.1 hdone
      exact ih (h.happen (hfits first (by simp)) hfirst)
        (fun what hmem => hfits what (by simp [hmem])) hmore

/-- Whatever happens to a pool that was made with workers of its own: its
configuration is one that the gate accepts, its scaler has the ceiling, the threshold
and the switch of the configuration, and its capacity is within the ceiling. -/
theorem settings_cohere {config : Config} {p q : Pool} (hnew : Pool.new config = .ok p)
    (hsmall : config.maxWorkers < Word.half) {happenings : List Happening}
    (hfits : ∀ what ∈ happenings, what.Fits) (hdone : p.happenAll? happenings = some q) :
    q.config.validate = .ok () ∧ q.scaler.ceiling = q.config.maxWorkers ∧
      q.scaler.threshold = q.config.scaleThreshold ∧ q.scaler.enabled = q.config.autoscale ∧
      1 ≤ q.slots.capacity ∧ q.slots.capacity ≤ q.config.maxWorkers := by
  have h := (Coherent.of_new hnew hsmall).happenAll hfits hdone
  exact ⟨h.valid, h.ceiling, h.threshold, h.enabled, h.capacity_pos, h.capacity_le⟩

/-- A pool of four workers grows to seven, and once it is paused its ceiling is set
below the four where the episode began. The scaler, switched off, would go back there,
but its ticks stay within the new ceiling. -/
theorem settings_cohere_below_baseline :
    ∃ p q, Pool.new { Config.default with workers := 4, autoscale := true } = .ok p ∧
      p.happenAll?
        [.tick 0, .deed .start, .deed (.move 2 .tick), .deed (.adjust (.maxWorkers 50)), .tick 7,
          .deed .pause, .deed (.adjust (.workers 200)), .deed (.adjust (.maxWorkers 3)),
          .deed (.adjust (.autoscaler false)), .tick 99, .deed (.adjust (.scaleThreshold 5)),
          .tick 0] = some q ∧
      q.config.maxWorkers = 3 ∧ q.config.workers = 3 ∧ q.slots.capacity = 3 ∧
      q.scaler = ⟨.disabled, some 4, 5, 3⟩ ∧ q.config.validate = .ok () ∧
      q.scaler.enabled = q.config.autoscale := by
  obtain ⟨p, hnew, hview⟩ : ∃ p,
      Pool.new { Config.default with workers := 4, autoscale := true } = .ok p ∧
      (p.happenAll?
        [.tick 0, .deed .start, .deed (.move 2 .tick), .deed (.adjust (.maxWorkers 50)), .tick 7,
          .deed .pause, .deed (.adjust (.workers 200)), .deed (.adjust (.maxWorkers 3)),
          .deed (.adjust (.autoscaler false)), .tick 99, .deed (.adjust (.scaleThreshold 5)),
          .tick 0]).map
        (fun q => (q.config.maxWorkers, q.config.workers, q.slots.capacity, q.scaler)) =
          some (3, 3, 3, ⟨.disabled, some 4, 5, 3⟩) := ⟨_, rfl, by decide +kernel⟩
  obtain ⟨q, hdone, hseen⟩ := Option.map_eq_some_iff.1 hview
  simp only [Prod.mk.injEq] at hseen
  obtain ⟨hmax, hworkers, hcapacity, hscaler⟩ := hseen
  obtain ⟨hvalid, -, -, henabled, -, -⟩ := settings_cohere hnew (by decide)
    (by simp [Happening.Fits, Setting.IsSmall, Word.half]) hdone
  exact ⟨p, q, hnew, hdone, hmax, hworkers, hcapacity, hscaler, hvalid, henabled⟩

end SocksPool
