import SocksPool.Proofs.Callers
import SocksPool.Proofs.Rounds

/-!
# Every deed has an effect

Calls of the user and moves of tasks, all deeds have an effect, and whatever
else they do is quiet. This is where the step function of a pool is taken apart
once for all of its callers.

## Main results

* `effects_of_adjust` — every change of a setting has its effect.
* `effects_of_act?` — every deed has its effect.
* `turns_of_act?` — every deed is a turn.
-/

open SocksPool.Task (Numbered)

namespace SocksPool.Pool

variable {p q : Pool} {d : Deed} {id : Nat}

/-! ## Settings -/

theorem effects_of_configure {setting : Setting} (change : Config → Config)
    (hquiet : Quiet (p.configure change) q)
    (hrecycle : (change p.config).recycle = p.config.recycle) : p.Effects (.adjust setting) q :=
  ⟨_, .adjusted (.inl hrecycle), hquiet⟩

theorem effects_of_adjust {setting : Setting} (h : p.adjust setting = .ok q) :
    p.Effects (.adjust setting) q := by
  cases setting with
  | recycling recycle =>
      obtain rfl := Except.ok.inj h
      exact ⟨p.setRecycling recycle, .adjusted (.inr rfl), .refl _⟩
  | staleAfter age =>
      obtain rfl := Except.ok.inj h
      exact effects_of_configure ({ · with staleAfter := age }) (.refl _) rfl
  | userAgents agents =>
      obtain rfl := Except.ok.inj h
      exact effects_of_configure ({ · with userAgents := agents }) (.refl _) rfl
  | validationTimeout timeout =>
      simp only [adjust, setValidationTimeout] at h
      split at h
      · cases h
      · obtain rfl := Except.ok.inj h
        exact effects_of_configure ({ · with validationTimeout := timeout }) (.refl _) rfl
  | removeAfter count =>
      simp only [adjust, setRemoveAfter] at h
      split at h
      · cases h
      · obtain rfl := Except.ok.inj h
        exact effects_of_configure ({ · with removeAfter := count }) (.refl _) rfl
  | echoEndpoints urls =>
      simp only [adjust, setEchoEndpoints] at h
      split at h
      · cases h
      · obtain rfl := Except.ok.inj h
        exact effects_of_configure ({ · with echoEndpoints := urls }) (.refl _) rfl
  | maxWorkers ceiling =>
      simp only [adjust, setMaxWorkers] at h
      split at h
      · cases h
      · split at h
        · cases h
        · obtain rfl := Except.ok.inj h
          refine effects_of_configure
            (fun c => { c with maxWorkers := ceiling, workers := min c.workers ceiling }) ?_ rfl
          split
          · refine .trans ?_ (.tune _ _)
            exact .housekeeping rfl (Nat.le_refl _)
          · exact .housekeeping rfl (Nat.le_refl _)
  | workers count =>
      simp only [adjust, setWorkers] at h
      split at h
      · cases h
      · split at h
        · cases h
        · obtain rfl := Except.ok.inj h
          exact effects_of_configure ({ · with workers := count }) (.tune _ _) rfl
  | scaleThreshold threshold =>
      obtain rfl := Except.ok.inj h
      refine effects_of_configure ({ · with scaleThreshold := threshold }) ?_ rfl
      exact .housekeeping rfl (Nat.le_refl _)
  | autoscaler enabled =>
      obtain rfl := Except.ok.inj h
      refine effects_of_configure ({ · with autoscale := enabled }) ?_ rfl
      cases enabled with
      | true => exact .housekeeping rfl (Nat.le_refl _)
      | false => exact .housekeeping rfl (Nat.le_refl _)

/-! ## Deeds -/

/-- A rejected call changes nothing. -/
theorem effects_of_afterCall {outcome : Except PoolError Pool} (hplain : d.isPlain = true)
    (h : ∀ q, outcome = .ok q → Quiet p q) : p.Effects d (p.afterCall outcome) := by
  cases outcome with
  | ok q => exact .quiet hplain (h q rfl)
  | error e => exact .quiet hplain (.refl p)

theorem quiet_of_start (h : p.start = .ok q) : Quiet p q := by
  unfold start at h
  split at h
  · cases h
  all_goals exact Except.ok.inj h ▸ (Quiet.launch p).trans (.tell _ _)

theorem quiet_of_pause (h : p.pause = .ok q) : Quiet p q := by
  unfold pause at h
  split at h
  · exact Except.ok.inj h ▸ .housekeeping rfl (Nat.le_refl _)
  all_goals cases h

theorem quiet_of_resume (h : p.resume = .ok q) : Quiet p q := by
  unfold resume at h
  split at h
  · exact Except.ok.inj h ▸ (Quiet.launch p).trans (.tell _ _)
  all_goals cases h

theorem effects_of_move? (hnum : Numbered p.tasks p.nextTask) {move : Move}
    (h : p.move? id move = some q) : p.Effects (.move id move) q := by
  cases move with
  | halt => exact effects_of_halt? hnum h
  | lockIntake => exact effects_of_lockIntake? hnum h
  | receive => exact effects_of_receive? h
  | forward => exact effects_of_forward? hnum h
  | look => exact effects_of_look? hnum h
  | tick => exact effects_of_tick? hnum h
  | pick => exact effects_of_pick? hnum h
  | deliver => exact effects_of_deliver? h
  | wake => exact effects_of_wake? h
  | comeBack => exact effects_of_comeBack? h
  | dispense protocol => exact effects_of_dispense? hnum h
  | cancel => exact effects_of_cancel? hnum h
  | abandon => exact effects_of_abandon? hnum h
  | attempted outcome => exact effects_of_attempted? hnum h
  | redialled good => exact effects_of_redialled? hnum h
  | dialled outcome => exact effects_of_dialled? hnum h
  | responded outcome => exact effects_of_responded? hnum h

/-- Every deed has its effect, followed by quiet changes. -/
theorem effects_of_act? (hnum : Numbered p.tasks p.nextTask) (h : p.act? d = some q) :
    p.Effects d q := by
  cases d with
  | move id move => exact effects_of_move? hnum h
  | load raw => exact ⟨_, .loaded rfl, Option.some.inj h ▸ .refl _⟩
  | loadList content => exact ⟨_, .loaded rfl, Option.some.inj h ▸ .tell _ _⟩
  | loadFetched source content =>
      exact ⟨_, .loaded rfl, Option.some.inj h ▸ .loadAll (.tell p _) _⟩
  | reportFailure endpoint =>
      exact Option.some.inj h ▸ effects_of_reportFailure p p.log endpoint rfl .reported
  | start =>
      rw [← Option.some.inj h]
      exact effects_of_afterCall rfl fun q hstart => quiet_of_start hstart
  | pause =>
      rw [← Option.some.inj h]
      exact effects_of_afterCall rfl fun q hpause => quiet_of_pause hpause
  | resume =>
      rw [← Option.some.inj h]
      exact effects_of_afterCall rfl fun q hresume => quiet_of_resume hresume
  | adjust setting =>
      cases hadjust : p.adjust setting with
      | ok changed =>
          have hafter : p.afterCall (p.adjust setting) = q := Option.some.inj h
          rw [hadjust] at hafter
          exact hafter ▸ effects_of_adjust hadjust
      | error e =>
          have hafter : p.afterCall (p.adjust setting) = q := Option.some.inj h
          rw [hadjust] at hafter
          exact hafter ▸ .quiet rfl (.refl p)
  | get wanted cancel => exact .quiet rfl (Option.some.inj h ▸ .spawn _ rfl)
  | dial network address cancel =>
      rw [← Option.some.inj h]
      refine effects_of_afterCall rfl fun q hdial => ?_
      unfold dial at hdial
      split at hdial
      · exact Except.ok.inj hdial ▸ .spawn _ rfl
      · cases hdial
  | attach => exact .quiet rfl (Option.some.inj h ▸ .tell _ _)
  | send cloneable => exact .quiet rfl (Option.some.inj h ▸ .spawn _ rfl)
  | tune change => exact .quiet rfl (Option.some.inj h ▸ .tune _ _)
  | closeWorkers => exact .quiet rfl (Option.some.inj h ▸ .closeWorkers _)
  | advance span => exact ⟨_, .elapsed span, Option.some.inj h ▸ .refl _⟩

/-- Every deed is a turn, followed by changes aside. -/
theorem turns_of_act? (hnum : Numbered p.tasks p.nextTask) (h : p.act? d = some q) :
    p.Turns d q :=
  (effects_of_act? hnum h).turns

end SocksPool.Pool
