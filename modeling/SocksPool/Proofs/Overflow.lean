import SocksPool.Proofs.Breaks
import SocksPool.Proofs.Generation

/-!
# Where the clock ends

The gate looks at sizes and at one duration; it does not look at the windows of the
backoff or at the interval of the scaler. Both may be any span that can be written
down, while the clock holds less than half of these. A strike whose window is too
long stops its round or its caller halfway, after it was counted. An interval of zero
stops the scale loop as it begins; one that is too long only puts its ticks thirty
years apart.

That is all that can stop halfway. While the clock can represent the end of the
longest window, every strike comes to its end. While it can represent the end of the
interval, the scale loop of a running pool goes on: its next tick is due an interval
from now at the latest, it is possible once it is due, and it sets the tick after it.

A pool is built from parts that are not its own and that have limits of their own:
queues of a fixed length, and a limiter for the usage quota. Which lengths and quotas
these accept is left open here.

## Main definitions

* `Pool.timing` — what decides whether strikes and ticks come to their end.
* `Config.Timely` — the clock can represent the ends of all windows.
* `Pool.KeepsTicking` — the scale loop of the present epoch goes on.
* `Pool.assemble?` — builds a pool from its parts.

## Main results

* `timing_of_act?` — a deed stops halfway and is counted, or lets time pass at most.
* `nothing_stops_halfway` — in a run of an accepted configuration nothing stops
  halfway while the clock lasts.
* `stopped_by_accepted_settings` — accepted configurations with which it does.
-/

namespace SocksPool

/-! ## Sums of instants and spans -/

namespace Instant

variable {t later s longer : Nat}

/-- An earlier instant and a shorter span have an end if these have. -/
theorem add?_ne_none (h : add? later longer ≠ none) (ht : t ≤ later) (hs : s ≤ longer) :
    add? t s ≠ none := by
  unfold add? at h ⊢
  have hmono : (t + s) / Span.second ≤ (later + longer) / Span.second :=
    Nat.div_le_div_right (Nat.add_le_add ht hs)
  split at h
  · next hfits =>
      rw [if_pos (Nat.lt_of_le_of_lt hmono hfits)]
      exact Option.some_ne_none _
  · exact absurd rfl h

/-- A timer whose end can be represented is set to it. -/
theorem deadline_eq (h : add? t s ≠ none) : deadline t s = t + s := by
  unfold deadline
  unfold add? at h ⊢
  split
  · rfl
  · next hlong =>
      rw [if_neg hlong] at h
      exact absurd rfl h

end Instant

namespace Backoff

theorem window_le (b : Backoff) (count : Nat) : b.window count ≤ b.ceiling := Nat.min_le_right ..

/-- A strike comes to its end while the clock can represent the end of the longest
window. -/
theorem strike_ends {b : Backoff} {now : Nat} (h : Instant.add? now b.ceiling ≠ none)
    (endpoint : String) : (b.strike now endpoint).2 ≠ none := by
  have hwindow := Instant.add?_ne_none h (Nat.le_refl now) (b.window_le
    (min (((b.strikes.get? endpoint).getD ⟨0, now⟩).count + 1) maxCount))
  unfold strike
  dsimp only
  split
  · exact Option.some_ne_none _
  · next hnone => exact absurd hnone hwindow

end Backoff

namespace Pool

variable {p q : Pool} {d : Deed} {id epoch due : Nat}

/-- The next tick is set an interval after the one that was due, or after the present
time if it comes late. -/
theorem nextTick_eq {period : Nat} (hreached : Instant.reached due p.now = true)
    (hfits : Instant.add? p.now period ≠ none) :
    nextTick due p.now period =
      (if due + tickTolerance < p.now then p.now else due) + period := by
  have hdue := Instant.le_of_reached hreached
  unfold nextTick
  split
  · exact Instant.deadline_eq hfits
  · exact Instant.deadline_eq (Instant.add?_ne_none hfits hdue (Nat.le_refl _))

/-! ## Timing -/

/-- What decides whether strikes and ticks come to their end, and how many have not. -/
structure Timing where
  now : Nat
  /-- First and longest window of the backoff. -/
  window : Nat × Nat
  interval : Nat
  crashes : Nat

/-- The timing that comes with some fittings. -/
def Timing.of (f : Fittings) : Timing := ⟨f.now, f.window, f.config.scaleInterval, f.crashes⟩

/-- The timing of a pool. -/
def timing (p : Pool) : Timing := .of p.fittings

/-- Scaler and capacity are no matter of timing. -/
theorem timing_resize (f : Fittings) (g : Gang) : Timing.of (f.resize g) = .of f := rfl

theorem timing_tune (p : Pool) (change : Int) : (p.tune change).timing = p.timing :=
  (congrArg Timing.of (p.fittings_tune change)).trans (timing_resize _ _)

/-- No setter changes the timing. -/
theorem timing_adjust (p : Pool) (setting : Setting) :
    (p.afterCall (p.adjust setting)).timing = p.timing := by
  cases setting with
  | staleAfter _ | recycling _ | userAgents _ | scaleThreshold _ => rfl
  | autoscaler enabled => cases enabled <;> rfl
  | validationTimeout timeout =>
      unfold adjust setValidationTimeout
      dsimp only
      split <;> rfl
  | removeAfter count =>
      unfold adjust setRemoveAfter
      dsimp only
      split <;> rfl
  | echoEndpoints urls =>
      unfold adjust setEchoEndpoints
      dsimp only
      split <;> rfl
  | maxWorkers ceiling =>
      unfold adjust setMaxWorkers
      dsimp only
      split
      · rfl
      · split
        · rfl
        · split
          · exact timing_tune _ _
          · rfl
  | workers count =>
      unfold adjust setWorkers
      dsimp only
      split
      · rfl
      · split
        · rfl
        · exact timing_tune _ _

/-- A deed stops halfway and is counted, or it does not, and lets time pass at most. -/
theorem timing_of_act? (hact : p.act? d = some q) :
    (p.Breaks d ∧ q.timing = { p.timing with crashes := p.crashes + 1 }) ∨
      (¬ p.Breaks d ∧ ∃ span, q.timing = { p.timing with now := p.now + span }) := by
  have hplain (span : Nat) (hdeed : d.fallible = false)
      (htiming : q.timing = { p.timing with now := p.now + span }) :
      ¬ p.Breaks d ∧ ∃ span, q.timing = { p.timing with now := p.now + span } := by
    refine ⟨fun hbreaks => ?_, span, htiming⟩
    rw [hbreaks.fallible] at hdeed
    cases hdeed
  cases hrefits : d.refits with
  | false =>
      rcases breaks_or_keeps hact hrefits with ⟨hbreaks, hcrash⟩ | ⟨hends, hkept⟩
      · exact .inl ⟨hbreaks, congrArg Timing.of hcrash⟩
      · exact .inr ⟨hends, 0, congrArg Timing.of hkept⟩
  | true =>
      rcases Deed.refits_cases hrefits with
        ⟨setting, rfl⟩ | ⟨change, rfl⟩ | rfl | ⟨span, rfl⟩ | ⟨id, rfl⟩
      · obtain rfl := Option.some.inj hact
        exact .inr (hplain 0 rfl (p.timing_adjust setting))
      · obtain rfl := Option.some.inj hact
        exact .inr (hplain 0 rfl (p.timing_tune change))
      · obtain rfl := Option.some.inj hact
        exact .inr (hplain 0 rfl rfl)
      · obtain rfl := Option.some.inj hact
        exact .inr (hplain span rfl rfl)
      · rcases tick?_cases hact with ⟨hbreaks, hcrash⟩ | ⟨hends, hticked⟩
        · exact .inl ⟨hbreaks, congrArg Timing.of hcrash⟩
        · exact .inr ⟨hends, 0, congrArg Timing.of hticked⟩

/-- Time never runs back, and windows and interval stay. -/
theorem timing_le (hact : p.act? d = some q) :
    p.now ≤ q.now ∧ q.timing.window = p.timing.window ∧ q.timing.interval = p.timing.interval := by
  rcases timing_of_act? hact with ⟨-, htiming⟩ | ⟨-, span, htiming⟩
  · exact ⟨Nat.le_of_eq (congrArg Timing.now htiming).symm, (congrArg Timing.window htiming :),
      (congrArg Timing.interval htiming :)⟩
  · have hnow : q.now = p.now + span := congrArg Timing.now htiming
    exact ⟨hnow ▸ Nat.le_add_right .., (congrArg Timing.window htiming :),
      (congrArg Timing.interval htiming :)⟩

end Pool

/-! ## Runs -/

namespace Run

variable {p q : Pool} {steps : List Step}

/-- Time has not run back since any step of a run, and windows and interval are those
of its start. -/
theorem timing (hrun : Run p steps q) :
    (∀ s ∈ steps, s.before.now ≤ q.now ∧ s.before.timing.window = p.timing.window ∧
        s.before.timing.interval = p.timing.interval) ∧
      p.now ≤ q.now ∧ q.timing.window = p.timing.window ∧
      q.timing.interval = p.timing.interval := by
  induction hrun with
  | rest => exact ⟨by simp, Nat.le_refl _, rfl, rfl⟩
  | @step steps s _ ih =>
      obtain ⟨hearlier, hnow, hwindow, hinterval⟩ := ih
      obtain ⟨hstep, hsameWindow, hsameInterval⟩ := Pool.timing_le s.done
      refine ⟨fun t ht => ?_, Nat.le_trans hnow hstep, hsameWindow.trans hwindow,
        hsameInterval.trans hinterval⟩
      rcases List.mem_append.1 ht with hold | hnew
      · obtain ⟨hle, hsame⟩ := hearlier t hold
        exact ⟨Nat.le_trans hle hstep, hsame⟩
      · obtain rfl := List.mem_singleton.1 hnew
        exact ⟨hstep, hwindow, hinterval⟩

/-- Nothing has stopped halfway exactly if no step of the run did. -/
theorem crashes_eq_zero (hrun : Run p steps q) (hstart : p.crashes = 0) :
    q.crashes = 0 ↔ ∀ s ∈ steps, ¬ s.before.Breaks s.deed := by
  induction hrun with
  | rest => simp [hstart]
  | @step steps s _ ih =>
      rcases Pool.timing_of_act? s.done with ⟨hbreaks, htiming⟩ | ⟨hends, span, htiming⟩
      · have hcrashes : s.after.crashes = s.before.crashes + 1 :=
          congrArg Pool.Timing.crashes htiming
        rw [hcrashes]
        exact ⟨nofun, fun hnever => absurd hbreaks (hnever s (by simp))⟩
      · have hcrashes : s.after.crashes = s.before.crashes := congrArg Pool.Timing.crashes htiming
        rw [hcrashes, ih]
        refine ⟨fun hnever t ht => ?_, fun hnever t ht => hnever t (List.mem_append_left _ ht)⟩
        rcases List.mem_append.1 ht with hold | hnew
        · exact hnever t hold
        · rwa [List.mem_singleton.1 hnew]

end Run

/-- The clock can represent the end of the longest window, as it is set at the given time,
and there is an interval between the ticks of the scaler. -/
structure Config.Timely (config : Config) (now : Nat) : Prop where
  window : Instant.add? now (max config.maxBadBackoff config.badBackoff) ≠ none
  interval_pos : config.scaleInterval ≠ 0

/-- It then could at any earlier time. -/
theorem Config.Timely.earlier {config : Config} {earlier now : Nat} (h : config.Timely now)
    (hle : earlier ≤ now) : config.Timely earlier where
  window := Instant.add?_ne_none h.window hle (Nat.le_refl _)
  interval_pos := h.interval_pos

namespace Pool

/-- The timing of a pool goes by a configuration. -/
structure Times (config : Config) (p : Pool) : Prop where
  window : p.backoff.ceiling = max config.maxBadBackoff config.badBackoff
  interval : p.config.scaleInterval = config.scaleInterval

variable {config : Config} {p q : Pool} {d : Deed} {id epoch due : Nat}

/-- Nothing stops halfway while the clock lasts. -/
theorem Times.not_breaks (h : p.Times config) (htimely : config.Timely p.now) : ¬ p.Breaks d := by
  intro hbreaks
  cases hbreaks with
  | strike _ hlong =>
      have hwindow := htimely.window
      rw [← h.window] at hwindow
      exact Backoff.strike_ends hwindow _ hlong
  | noPeriod _ hzero => exact htimely.interval_pos (h.interval ▸ hzero)

/-- A report comes to its end while the clock lasts. -/
theorem Times.reportFailure_ends (h : p.Times config) (htimely : config.Timely p.now)
    (endpoint : String) : (p.reportFailure endpoint).2 = true := by
  rcases p.reportFailure_jams endpoint with ⟨⟨hlisted, hlong⟩, -⟩ | ⟨-, hends, -⟩
  · exact absurd (Breaks.strike (.reported hlisted) hlong) (h.not_breaks htimely)
  · exact hends

/-- The pool went from `p` to `q` by a tick of the scale loop that was due at `due`:
the scaler has ticked, and the next tick is due an interval later. A tick that comes
late is counted from the present time. -/
structure TicksOn (p q : Pool) (id epoch due : Nat) : Prop where
  done : p.act? (.move id .tick) = some q
  scaled : q.gang = (p.gang.tick p.stats.backlog).1
  next : q.task? id = some (.scaleLoop epoch
    (some ((if due + tickTolerance < p.now then p.now else due) + p.config.scaleInterval)))

/-- The scale loop of the present epoch goes on. -/
structure KeepsTicking (p : Pool) : Prop where
  alive : p.loops .scale p.epoch = 1
  /-- The next tick is due an interval from now at the latest. -/
  soon : ∀ id epoch due, p.task? id = some (.scaleLoop epoch (some due)) →
    due ≤ p.now + p.config.scaleInterval
  /-- The first tick is possible at once, -/
  first : ∀ id epoch, p.task? id = some (.scaleLoop epoch none) →
    ∃ q, p.TicksOn q id epoch p.now
  /-- and any other as soon as it is due. -/
  goesOn : ∀ id epoch due, p.task? id = some (.scaleLoop epoch (some due)) →
    Instant.reached due p.now = true → ∃ q, p.TicksOn q id epoch due

/-- A tick of the scale loop ticks the scaler and sets the next one. -/
theorem ticksOn_tickAt (hnum : Task.Numbered p.tasks p.nextTask) {found : Option Nat}
    (htask : p.task? id = some (.scaleLoop epoch found)) (due : Nat) :
    (p.tickAt id epoch due).gang = (p.gang.tick p.stats.backlog).1 ∧
      (p.tickAt id epoch due).task? id =
        some (.scaleLoop epoch (some (nextTick due p.now p.config.scaleInterval))) := by
  have hnumTicked := (Quiet.tickScaler p).numbered hnum
  refine ⟨?_, task?_put hnumTicked (task?_tickScaler htask rfl) _⟩
  exact congrArg Prod.fst (p.gang_tickAgainst p.stats.backlog)

theorem ticksOn (hinterval : Instant.add? p.now p.config.scaleInterval ≠ none)
    (hnum : Task.Numbered p.tasks p.nextTask)
    (htask : p.task? id = some (.scaleLoop epoch (some due)))
    (hreached : Instant.reached due p.now = true) : ∃ q, p.TicksOn q id epoch due := by
  have htick : p.tick? id = some (p.tickAt id epoch due) := by
    unfold tick?
    rw [htask]
    exact if_pos hreached
  obtain ⟨hgang, hset⟩ := p.ticksOn_tickAt hnum htask due
  rw [nextTick_eq hreached hinterval] at hset
  exact ⟨_, htick, hgang, hset⟩

theorem ticksOn_first (hinterval : Instant.add? p.now p.config.scaleInterval ≠ none)
    (hpos : p.config.scaleInterval ≠ 0) (hnum : Task.Numbered p.tasks p.nextTask)
    (htask : p.task? id = some (.scaleLoop epoch none)) : ∃ q, p.TicksOn q id epoch p.now := by
  have hintime : ¬ p.now + tickTolerance < p.now := Nat.not_lt.2 (Nat.le_add_right ..)
  have htick : p.tick? id = some (p.tickAt id epoch p.now) := by
    unfold tick?
    rw [htask]
    exact if_neg hpos
  obtain ⟨hgang, hset⟩ := p.ticksOn_tickAt hnum htask p.now
  refine ⟨_, htick, hgang, ?_⟩
  rw [hset, nextTick, if_neg hintime, if_neg hintime, Instant.deadline_eq hinterval]

/-! ## The next tick -/

/-- No tick is due later than an interval from now. -/
def Soon (p : Pool) : Prop :=
  ∀ epoch due, .scaleLoop epoch (some due) ∈ p.crew → due ≤ p.now + p.config.scaleInterval

/-- A scale loop that waits for a tick has ticked just now, if it was not there. -/
theorem Shift.nextTick_come {mid : Pool} {gone come : List Task} {next : Nat}
    (h : Shift p q d gone come mid) (hmem : .scaleLoop epoch (some next) ∈ come) :
    ∃ due : Option Nat, (∀ instant, due = some instant → Instant.reached instant p.now = true) ∧
      next = nextTick (due.getD p.now) p.now p.config.scaleInterval := by
  cases h.succeeds hmem rfl with
  | fresh _ _ hfresh => simp [freshLoops] at hfresh
  | ticks _ hgone _ =>
      cases h with
      | ticked _ _ hdue _ hnext _ =>
          cases List.mem_singleton.1 hmem
          exact ⟨_, hdue, hnext⟩
      | retired _ _ _ _ _ | lapsed _ _ => cases hmem
      | _ => simp at hgone

/-- A tick is due no later than an interval after the present time, as long as the clock
can represent that. -/
theorem nextTick_le {period : Nat} (hdue : due ≤ p.now)
    (hfits : Instant.add? p.now period ≠ none) : nextTick due p.now period ≤ p.now + period := by
  unfold nextTick
  split
  · exact Nat.le_of_eq (Instant.deadline_eq hfits)
  · rw [Instant.deadline_eq (Instant.add?_ne_none hfits hdue (Nat.le_refl _))]
    exact Nat.add_le_add_right hdue period

theorem Soon.act (h : p.Soon) (hnum : Task.Numbered p.tasks p.nextTask)
    (hact : p.act? d = some q) (hfits : Instant.add? p.now p.config.scaleInterval ≠ none) :
    q.Soon := by
  intro epoch due hmem
  obtain ⟨gone, come, mid, hshift, hswap⟩ := shifts_of_act? hnum hact
  obtain ⟨hnow, -, hinterval⟩ := timing_le hact
  have hsame : q.config.scaleInterval = p.config.scaleInterval := hinterval
  have hlimit : due ≤ p.now + p.config.scaleInterval := by
    rcases hshift.mem_cases hswap hmem with ⟨old, hold, hkept⟩ | hcame
    · refine h epoch due ?_
      rcases hkept with rfl | hwoken
      · exact hold
      · cases old with
        | scaleLoop _ _ => exact hwoken ▸ hold
        | _ => cases hwoken
    · obtain ⟨before, hreached, hnext⟩ := hshift.nextTick_come hcame
      rw [hnext]
      refine nextTick_le ?_ hfits
      cases before with
      | none => exact Nat.le_refl _
      | some instant => exact Instant.le_of_reached (hreached instant rfl)
  omega

end Pool

/-- No tick of a run is due later than an interval from its end, while the clock lasts. -/
theorem Run.soon {p q : Pool} {steps : List Step} (hrun : Run p steps q) (horderly : Orderly p)
    (hstart : p.Soon) (hfits : Instant.add? q.now q.config.scaleInterval ≠ none) : q.Soon := by
  induction hrun with
  | rest => exact hstart
  | step s hrun ih =>
      obtain ⟨hnow, -, hinterval⟩ := Pool.timing_le s.done
      have hearlier : Instant.add? s.before.now s.before.config.scaleInterval ≠ none :=
        Instant.add?_ne_none hfits hnow (Nat.le_of_eq hinterval.symm)
      exact (ih hearlier).act (horderly.throughout hrun).1.numbered s.done hearlier

/-! ## Pools and their parts -/

/-- What a pool is built from that is not its own: the lengths of queues and the quotas of
limiters that can be made. Building a part that cannot be made stops halfway. -/
structure Parts where
  queue : Nat → Bool
  limiter : Quota → Bool

/-- Builds a pool; nothing if that stops halfway. The gate is passed first. -/
def Pool.assemble? (parts : Parts) (config : Config) (slots : Slots) :
    Option (Except PoolError Pool) :=
  match Pool.withSlots config slots with
  | .error e => some (.error e)
  | .ok p =>
    if parts.limiter config.usageQuota && parts.queue config.bufferSize then some (.ok p)
    else none

theorem Pool.withSlots_of_valid {config : Config} (hvalid : config.validate = .ok ())
    (slots : Slots) : ∃ p, Pool.withSlots config slots = .ok p := by
  unfold Pool.withSlots
  rw [hvalid]
  exact ⟨_, rfl⟩

/-- The timing of a new pool goes by its configuration, and nothing has happened. -/
theorem Pool.times_of_withSlots {config : Config} {slots : Slots} {p : Pool}
    (hmade : Pool.withSlots config slots = .ok p) :
    p.Times config ∧ p.crashes = 0 ∧ p.Soon := by
  unfold Pool.withSlots at hmade
  split at hmade
  · cases hmade
  · obtain rfl := Except.ok.inj hmade
    refine ⟨⟨rfl, rfl⟩, rfl, ?_⟩
    intro epoch due hmem
    cases hmem

theorem Pool.Times.of_run {config : Config} {p q : Pool} {steps : List Step}
    (h : p.Times config) (hrun : Run p steps q) : q.Times config := by
  obtain ⟨-, -, hwindow, hinterval⟩ := hrun.timing
  exact ⟨(congrArg Prod.snd hwindow :).trans h.window, hinterval.trans h.interval⟩

/-- While the clock lasts, the scale loop of a running pool goes on. -/
theorem Pool.keepsTicking {p : Pool} (hpos : p.config.scaleInterval ≠ 0)
    (hinterval : Instant.add? p.now p.config.scaleInterval ≠ none) (horderly : Orderly p)
    (hsoon : p.Soon) (hgeneration : Generation p) (hstatus : p.status = .running) :
    p.KeepsTicking where
  alive := hgeneration.manned hstatus .scale fun _ => hpos
  soon _ _ _ htask := hsoon _ _ (Pool.mem_crew_of_task? htask)
  first _ _ htask := p.ticksOn_first hinterval hpos horderly.numbered htask
  goesOn _ _ _ htask hreached := p.ticksOn hinterval horderly.numbered htask hreached

/-- From a configuration that the gate accepts, and whose queues and limiter can be made, a
pool is built. In every run of it, the count of what stopped halfway stays zero exactly as
long as no step stops halfway. While there is an interval and the clock can represent the
end of the longest window, none has, and every strike and every report comes to its end. If
the clock can represent the end of the interval too, the scale loop of a pool that runs and
whose workers accept jobs goes on. -/
theorem nothing_stops_halfway {parts : Parts} {config : Config} {slots : Slots}
    (hvalid : config.validate = .ok ()) (hqueue : parts.queue config.bufferSize = true)
    (hlimiter : parts.limiter config.usageQuota = true) :
    ∃ p, Pool.assemble? parts config slots = some (.ok p) ∧
      ∀ steps q, Run p steps q →
        (q.crashes = 0 ↔ ∀ s ∈ steps, ¬ s.before.Breaks s.deed) ∧
        (config.Timely q.now →
          q.crashes = 0 ∧
          (∀ endpoint, (q.backoff.strike q.now endpoint).2 ≠ none ∧
            (q.reportFailure endpoint).2 = true) ∧
          (Instant.add? q.now config.scaleInterval ≠ none → slots.closed = false →
            (∀ s ∈ steps, s.deed ≠ .closeWorkers) → q.status = .running → q.KeepsTicking)) := by
  obtain ⟨p, hmade⟩ := Pool.withSlots_of_valid hvalid slots
  refine ⟨p, by simp [Pool.assemble?, hmade, hqueue, hlimiter], fun steps q hrun => ?_⟩
  obtain ⟨htimes, hzero, hsoon⟩ := Pool.times_of_withSlots hmade
  have horderly := orderly_of_withSlots hmade
  have hcrashes := hrun.crashes_eq_zero hzero
  refine ⟨hcrashes, fun htimely => ?_⟩
  have hend := htimes.of_run hrun
  have hnever : ∀ s ∈ steps, ¬ s.before.Breaks s.deed := by
    intro s hs
    obtain ⟨hnow, hwindow, hinterval⟩ := hrun.timing.1 s hs
    have hbefore : s.before.Times config :=
      ⟨(congrArg Prod.snd hwindow :).trans htimes.window, hinterval.trans htimes.interval⟩
    exact hbefore.not_breaks (htimely.earlier hnow)
  refine ⟨hcrashes.2 hnever, fun endpoint => ⟨?_, ?_⟩, fun hlasts haccepts hopen hstatus => ?_⟩
  · exact Backoff.strike_ends (hend.window ▸ htimely.window) endpoint
  · exact hend.reportFailure_ends htimely endpoint
  · rw [← hend.interval] at hlasts
    have hpos : q.config.scaleInterval ≠ 0 := hend.interval ▸ htimely.interval_pos
    exact Pool.keepsTicking hpos hlasts (horderly.throughout hrun).1
      (hrun.soon horderly hsoon hlasts)
      ((Generation.of_withSlots hmade haccepts).of_run horderly hrun hopen) hstatus

/-- Windows of up to an hour and an interval of a second: a candidate is loaded and
reported, which strikes it, and the scaler ticks once. Nothing has stopped halfway, and the
scale loop waits for its second tick. -/
theorem nothing_stops_halfway_after_report :
    let parts : Parts := ⟨fun length => decide (1 ≤ length ∧ length ≤ 2305843009213693951),
      fun quota => decide (quota.interval * quota.burst < Word.limit)⟩
    let config := { Config.default with workers := 1, autoscale := true }
    ∃ p steps q, Pool.assemble? parts config (Slots.new 1) = some (.ok p) ∧ Run p steps q ∧
      steps.map Step.deed =
        [.load "a:1", .reportFailure "a:1", .start, .move 2 .tick, .advance Span.second] ∧
      q.backoff.count "a:1" = 1 ∧ q.slots.capacity = 2 ∧
      q.task? 2 = some (.scaleLoop 1 (some Span.second)) ∧ config.Timely q.now ∧
      q.crashes = 0 ∧ (q.reportFailure "a:1").2 = true ∧ q.KeepsTicking := by
  intro parts config
  obtain ⟨p, hmade, hview⟩ : ∃ p, Pool.withSlots config (Slots.new 1) = .ok p ∧
      (p.perform?
        [.load "a:1", .reportFailure "a:1", .start, .move 2 .tick, .advance Span.second]).map
        (fun q => (q.now, q.backoff.count "a:1", q.slots.capacity, q.task? 2, q.status)) =
          some (Span.second, 1, 2, some (.scaleLoop 1 (some Span.second)), .running) :=
    ⟨_, rfl, by decide +kernel⟩
  obtain ⟨steps, q, hrun, hdeeds, hseen⟩ := Run.of_view _ hview
  simp only [Prod.mk.injEq] at hseen
  obtain ⟨hnow, hcount, hcapacity, htask, hstatus⟩ := hseen
  have hvalid : config.validate = .ok () := rfl
  have hqueue : parts.queue config.bufferSize = true := by decide
  have hlimiter : parts.limiter config.usageQuota = true := by decide
  obtain ⟨built, hbuilt, hall⟩ :=
    @nothing_stops_halfway parts config (Slots.new 1) hvalid hqueue hlimiter
  have hsame : built = p := by
    unfold Pool.assemble? at hbuilt
    rw [hmade, hqueue, hlimiter] at hbuilt
    cases hbuilt
    rfl
  rw [hsame] at hbuilt hall
  have htimely : config.Timely q.now := by
    rw [hnow]
    exact ⟨by decide, by decide⟩
  obtain ⟨hzero, hends, hticks⟩ := (hall steps q hrun).2 htimely
  have hopen : ∀ s ∈ steps, s.deed ≠ .closeWorkers :=
    Step.forall_of_deeds (P := (· ≠ .closeWorkers)) hdeeds (by simp)
  exact ⟨p, steps, q, hbuilt, hrun, hdeeds, hcount, hcapacity, htask, htimely, hzero,
    (hends "a:1").2, hticks (hnow ▸ by decide) rfl hopen hstatus⟩

/-- The gate accepts a first window of `2 ^ 63` seconds: the first report of a proxy strikes
it and stops halfway. It accepts an interval of zero: the scale loop of a pool that was
started stops halfway, and the pool runs without it. -/
theorem stopped_by_accepted_settings :
    (∃ p steps q,
      Pool.new { Config.default with
        badBackoff := 9223372036854775808 * Span.second,
        maxBadBackoff := 9223372036854775808 * Span.second } = .ok p ∧
      Run p steps q ∧ steps.map Step.deed = [.load "a:1", .reportFailure "a:1"] ∧
      q.crashes = 1 ∧ q.backoff.count "a:1" = 1 ∧ (q.backoff.strike q.now "a:1").2 = none) ∧
    ∃ p steps q,
      Pool.new { Config.default with workers := 1, autoscale := true, scaleInterval := 0 } =
        .ok p ∧
      Run p steps q ∧ steps.map Step.deed = [.start, .move 2 .tick] ∧
      q.crashes = 1 ∧ q.status = .running ∧ q.scaler.enabled = true ∧ q.alive .scale = 0 := by
  constructor
  · obtain ⟨p, hmade, hview⟩ : ∃ p,
        Pool.new { Config.default with
          badBackoff := 9223372036854775808 * Span.second,
          maxBadBackoff := 9223372036854775808 * Span.second } = .ok p ∧
        (p.perform? [.load "a:1", .reportFailure "a:1"]).map
          (fun q => (q.crashes, q.backoff.count "a:1", (q.backoff.strike q.now "a:1").2)) =
            some (1, 1, none) := ⟨_, rfl, by decide +kernel⟩
    obtain ⟨steps, q, hrun, hdeeds, hseen⟩ := Run.of_view _ hview
    simp only [Prod.mk.injEq] at hseen
    exact ⟨p, steps, q, hmade, hrun, hdeeds, hseen⟩
  · obtain ⟨p, hmade, hview⟩ : ∃ p,
        Pool.new { Config.default with workers := 1, autoscale := true, scaleInterval := 0 } =
          .ok p ∧
        (p.perform? [.start, .move 2 .tick]).map
          (fun q => (q.crashes, q.status, q.scaler.enabled, q.alive .scale)) =
            some (1, .running, true, 0) := ⟨_, rfl, by decide +kernel⟩
    obtain ⟨steps, q, hrun, hdeeds, hseen⟩ := Run.of_view _ hview
    simp only [Prod.mk.injEq] at hseen
    exact ⟨p, steps, q, hmade, hrun, hdeeds, hseen⟩

end SocksPool
