import SocksPool.Proofs.Asked
import SocksPool.Proofs.Orderly

/-!
# Calls and their numbers

The number of a call for a proxy is the one that its answer carries. Nothing but
`get` begins such a call, no deed changes what a call asks for, and no number is
given out twice. So the number of an answered call leads back to the one `get`
that began it, and to the protocol that was asked for there.

## Main results

* `keeps_of_act?` — no deed but `get` begins a call for a proxy.
* `begun_of_run` — every call for a proxy was begun by one `get`.
-/

namespace SocksPool

/-- The task that moves. -/
def Deed.mover? : Deed → Option Nat
  | .move id _ => some id
  | _ => none

theorem Deed.eq_move_of_mover? {d : Deed} {id : Nat} (h : d.mover? = some id) :
    ∃ move, d = .move id move := by
  cases d with
  | move other move =>
      cases h
      exact ⟨move, rfl⟩
  | _ => cases h

namespace Pool

variable {p q : Pool} {id : Nat}

/-! ## Moves -/

theorem keeps_of_halt? (h : p.halt? id = some q) : Keeps (some id) p q := by
  have hended : Keeps (some id) p (p.remove id) := (Keeps.refl p).remove
  unfold halt? at h
  split at h
  · split at h
    · split at h
      · exact Option.some.inj h ▸ hended.same rfl rfl rfl
      · exact Option.some.inj h ▸ hended
    · cases h
  · split at h
    · exact Option.some.inj h ▸ hended
    · cases h
  · split at h
    · exact Option.some.inj h ▸ hended
    · cases h
  · split at h
    · exact Option.some.inj h ▸ hended.releaseSlot
    · cases h
  · cases h

theorem keeps_of_lockIntake? (h : p.lockIntake? id = some q) : Keeps (some id) p q := by
  unfold lockIntake? at h
  split at h
  · split at h
    · cases h
    · exact Option.some.inj h ▸ (Keeps.refl p).put nofun
  · cases h

theorem keeps_of_receive? (h : p.receive? id = some q) : Keeps (some id) p q := by
  unfold receive? at h
  split at h
  · rw [← Option.some.inj h]
    refine Keeps.put ?_ nofun
    exact (Keeps.refl p).same rfl rfl rfl
  · cases h

theorem keeps_of_forward? (h : p.forward? id = some q) : Keeps (some id) p q := by
  unfold forward? at h
  split at h
  · split at h
    · rw [← Option.some.inj h]
      refine Keeps.put ?_ nofun
      exact (Keeps.refl p).same rfl rfl rfl
    · cases h
  · cases h

theorem keeps_of_look? (h : p.look? id = some q) : Keeps (some id) p q := by
  unfold look? at h
  split at h
  · split at h
    · exact Option.some.inj h ▸ (Keeps.refl p).remove.tell _
    · split at h
      · rw [← Option.some.inj h]
        refine Keeps.spawn (Keeps.put ?_ nofun) rfl
        exact (Keeps.refl p).same rfl rfl rfl
      · exact Option.some.inj h ▸ (Keeps.refl p).put nofun
  · cases h

theorem keeps_tickAt (p : Pool) (id epoch due : Nat) :
    Keeps (some id) p (p.tickAt id epoch due) :=
  (Keeps.refl p).tickScaler.put nofun

theorem keeps_of_tick? (h : p.tick? id = some q) : Keeps (some id) p q := by
  unfold tick? at h
  split at h
  · split at h
    · exact Option.some.inj h ▸ (Keeps.refl p).remove.same rfl rfl rfl
    · exact Option.some.inj h ▸ keeps_tickAt p id _ _
  · split at h
    · exact Option.some.inj h ▸ keeps_tickAt p id _ _
    · cases h
  · cases h

theorem keeps_of_wake? (h : p.wake? id = some q) : Keeps (some id) p q := by
  unfold wake? at h
  split at h
  · split at h
    · exact Option.some.inj h ▸ (Keeps.refl p).put nofun
    · cases h
  · cases h

theorem keeps_of_comeBack? (h : p.comeBack? id = some q) : Keeps (some id) p q := by
  unfold comeBack? at h
  split at h
  · split at h
    · exact Option.some.inj h ▸ (Keeps.refl p).remove.same rfl rfl rfl
    · cases h
  · cases h

theorem keeps_of_pick? (h : p.pick? id = some q) : Keeps (some id) p q := by
  unfold pick? at h
  split at h
  · next endpoint rest htask hpending =>
      have hopened : Keeps (some id) p (openRound { p with pending := rest } endpoint true).1 := by
        apply Keeps.openRound
        exact (Keeps.refl p).same rfl rfl rfl
      split at h
      · next hround =>
          rw [hround] at hopened
          exact Option.some.inj h ▸ hopened.put nofun
      · next hround =>
          rw [hround] at hopened
          exact Option.some.inj h ▸ hopened.closeRound true
  · cases h

theorem keeps_of_deliver? (h : p.deliver? id = some q) : Keeps (some id) p q := by
  unfold deliver? at h
  split at h
  · split at h
    · split at h
      · rw [← Option.some.inj h]
        apply Keeps.closeRound
        exact (Keeps.refl p).same rfl rfl rfl
      · cases h
    · cases h
  · cases h

theorem keeps_of_attempted? {outcome : Except PoolError Address}
    (h : p.attempted? id outcome = some q) : Keeps (some id) p q := by
  unfold attempted? at h
  split at h
  · split at h
    · split at h
      · exact Option.some.inj h ▸ (Keeps.refl p).passRound _ _ _
      · dsimp only at h
        split at h
        · exact Option.some.inj h ▸ ((Keeps.refl p).tell _).put nofun
        · exact Option.some.inj h ▸ ((Keeps.refl p).tell _).failRound _
    · cases h
  · cases h

theorem keeps_of_dispense? {protocol : Protocol} (h : p.dispense? id protocol = some q) :
    Keeps (some id) p q := by
  unfold dispense? at h
  split at h
  · next c candidate rest htask hqueue =>
      split at h
      · have hjudged : Keeps (some id) p
            (judge { p with outputs := p.outputs.set protocol rest } candidate.endpoint).1 := by
          apply Keeps.judge
          exact (Keeps.refl p).same rfl rfl rfl
        split at h
        · next hverdict =>
            rw [hverdict] at hjudged
            exact Option.some.inj h ▸ hjudged.putCaller htask rfl
        · next hverdict =>
            rw [hverdict] at hjudged
            exact Option.some.inj h ▸ hjudged.putCaller htask rfl
      · cases h
  · cases h

theorem keeps_of_redialled? {good : Bool} (h : p.redialled? id good = some q) :
    Keeps (some id) p q := by
  unfold redialled? at h
  split at h
  · next c htask =>
      split at h
      · next candidate life timeout recycle since hstage =>
          dsimp only at h
          split at h
          · have hunlocked : Keeps (some id) p
                ((p.recycle recycle candidate.endpoint).unlock life) :=
              ((Keeps.refl p).recycle _ _).same rfl rfl rfl
            split at h
            · exact Option.some.inj h ▸ hunlocked.hand htask _
            · exact Option.some.inj h ▸ hunlocked.reject htask
          · rw [← Option.some.inj h]
            refine Keeps.reject ?_ htask
            refine Keeps.same (Keeps.recycle ?_ recycle candidate.endpoint) rfl rfl rfl
            exact (Keeps.refl p).same rfl rfl rfl
      · cases h
  · cases h

theorem keeps_of_dialled? {outcome : Except PoolError Unit}
    (h : p.dialled? id outcome = some q) : Keeps (some id) p q := by
  unfold dialled? at h
  split at h
  · next c htask =>
      split at h
      · next address proxy timeout since hpurpose hstage =>
          split at h
          · exact Option.some.inj h ▸ (Keeps.refl p).finish _
          · next e =>
              have hreported : Keeps (some id) p _ :=
                ((Keeps.refl p).tell (.dialFailed address proxy.endpoint e)).reportFailure
                  proxy.endpoint
              split at h
              · next hended =>
                  rw [hended] at hreported
                  exact Option.some.inj h ▸ hreported.putCaller htask rfl
              · next hended =>
                  rw [hended] at hreported
                  exact Option.some.inj h ▸ hreported.finish _
      · cases h
  · cases h

theorem keeps_of_responded? {outcome : Exchange} (h : p.responded? id outcome = some q) :
    Keeps (some id) p q := by
  unfold responded? at h
  split at h
  · split at h
    · split at h
      · exact Option.some.inj h ▸ (Keeps.refl p).finish _
      · exact Option.some.inj h ▸ ((Keeps.refl p).tell _).tryNext _ _ _ _ _ _ _ _
      · exact Option.some.inj h ▸ ((Keeps.refl p).tell _).tryNext _ _ _ _ _ _ _ _
    · cases h
  · cases h

theorem keeps_of_cancel? (h : p.cancel? id = some q) : Keeps (some id) p q := by
  unfold cancel? at h
  split at h
  · split at h
    · cases h
    · split at h
      · split at h
        · rw [← Option.some.inj h]
          refine Keeps.giveUp (Keeps.restore ?_ _) _
          exact (Keeps.refl p).same rfl rfl rfl
        · exact Option.some.inj h ▸ (Keeps.refl p).giveUp _
        · exact Option.some.inj h ▸ (Keeps.refl p).giveUp _
      · cases h
  · cases h

theorem keeps_of_abandon? (h : p.abandon? id = some q) : Keeps (some id) p q := by
  unfold abandon? at h
  split at h
  · split at h
    · rw [← Option.some.inj h]
      refine Keeps.remove ?_
      exact (Keeps.refl p).same rfl rfl rfl
    · exact Option.some.inj h ▸ (Keeps.refl p).remove
  · cases h

theorem keeps_of_move? {move : Move} (h : p.move? id move = some q) : Keeps (some id) p q := by
  cases move with
  | halt => exact keeps_of_halt? h
  | lockIntake => exact keeps_of_lockIntake? h
  | receive => exact keeps_of_receive? h
  | forward => exact keeps_of_forward? h
  | look => exact keeps_of_look? h
  | tick => exact keeps_of_tick? h
  | pick => exact keeps_of_pick? h
  | deliver => exact keeps_of_deliver? h
  | wake => exact keeps_of_wake? h
  | comeBack => exact keeps_of_comeBack? h
  | dispense protocol => exact keeps_of_dispense? h
  | cancel => exact keeps_of_cancel? h
  | abandon => exact keeps_of_abandon? h
  | attempted outcome => exact keeps_of_attempted? h
  | redialled good => exact keeps_of_redialled? h
  | dialled outcome => exact keeps_of_dialled? h
  | responded outcome => exact keeps_of_responded? h

/-! ## Deeds -/

theorem keeps_of_adjust {setting : Setting} (h : p.adjust setting = .ok q) : Keeps none p q := by
  cases setting with
  | recycling | staleAfter | userAgents =>
      exact Except.ok.inj h ▸ (Keeps.refl p).same rfl rfl rfl
  | scaleThreshold threshold => exact Except.ok.inj h ▸ (Keeps.refl p).same rfl rfl rfl
  | autoscaler enabled =>
      rw [← Except.ok.inj h]
      cases enabled <;> exact (Keeps.refl p).same rfl rfl rfl
  | validationTimeout timeout =>
      simp only [adjust, setValidationTimeout] at h
      split at h
      · cases h
      · exact Except.ok.inj h ▸ (Keeps.refl p).same rfl rfl rfl
  | removeAfter count =>
      simp only [adjust, setRemoveAfter] at h
      split at h
      · cases h
      · exact Except.ok.inj h ▸ (Keeps.refl p).same rfl rfl rfl
  | echoEndpoints urls =>
      simp only [adjust, setEchoEndpoints] at h
      split at h
      · cases h
      · exact Except.ok.inj h ▸ (Keeps.refl p).same rfl rfl rfl
  | maxWorkers ceiling =>
      simp only [adjust, setMaxWorkers] at h
      split at h
      · cases h
      · split at h
        · cases h
        · rw [← Except.ok.inj h]
          split
          · refine Keeps.tune ?_ _
            exact (Keeps.refl p).same rfl rfl rfl
          · exact (Keeps.refl p).same rfl rfl rfl
  | workers count =>
      simp only [adjust, setWorkers] at h
      split at h
      · cases h
      · split at h
        · cases h
        · rw [← Except.ok.inj h]
          refine Keeps.tune ?_ _
          exact (Keeps.refl p).same rfl rfl rfl

theorem keeps_of_afterCall {own : Option Nat} {outcome : Except PoolError Pool}
    (h : ∀ q, outcome = .ok q → Keeps own p q) : Keeps own p (p.afterCall outcome) := by
  cases outcome with
  | ok q => exact h q rfl
  | error e => exact .refl p

/-- No deed but `get` begins a call for a proxy, and a call moves on with its own
moves only. -/
theorem keeps_of_act? {d : Deed} (h : p.act? d = some q)
    (hother : ∀ wanted cancel, d ≠ .get wanted cancel) : Keeps d.mover? p q := by
  have hstart : Keeps none p p := .refl p
  cases d with
  | move id move => exact keeps_of_move? h
  | get wanted cancel => exact absurd rfl (hother wanted cancel)
  | load raw => exact Option.some.inj h ▸ hstart.load raw
  | loadList content => exact Option.some.inj h ▸ (hstart.loadAll _).tell _
  | loadFetched source content => exact Option.some.inj h ▸ (hstart.tell _).loadAll _
  | reportFailure endpoint => exact Option.some.inj h ▸ hstart.reportFailure endpoint
  | start =>
      rw [← Option.some.inj h]
      refine keeps_of_afterCall fun q hok => ?_
      unfold start at hok
      split at hok
      · cases hok
      all_goals exact Except.ok.inj hok ▸ hstart.launch.tell _
  | pause =>
      rw [← Option.some.inj h]
      refine keeps_of_afterCall fun q hok => ?_
      unfold pause at hok
      split at hok
      · exact Except.ok.inj hok ▸ hstart.same rfl rfl rfl
      all_goals cases hok
  | resume =>
      rw [← Option.some.inj h]
      refine keeps_of_afterCall fun q hok => ?_
      unfold resume at hok
      split at hok
      · exact Except.ok.inj hok ▸ hstart.launch.tell _
      all_goals cases hok
  | adjust setting =>
      rw [← Option.some.inj h]
      exact keeps_of_afterCall fun q hok => keeps_of_adjust hok
  | dial network address cancel =>
      rw [← Option.some.inj h]
      refine keeps_of_afterCall fun q hok => ?_
      unfold dial at hok
      split at hok
      · exact Except.ok.inj hok ▸ hstart.spawn rfl
      · cases hok
  | attach => exact Option.some.inj h ▸ hstart.tell _
  | send cloneable => exact Option.some.inj h ▸ hstart.spawn rfl
  | tune change => exact Option.some.inj h ▸ hstart.tune change
  | closeWorkers =>
      rw [← Option.some.inj h]
      refine Keeps.wakeSpawners ?_
      exact hstart.same rfl rfl rfl
  | advance span => exact Option.some.inj h ▸ hstart.same rfl rfl rfl

/-- A call for a proxy that is under way after a deed was under way before it, or
the deed is the `get` that begins it. -/
theorem asks_of_act? {d : Deed} (h : p.act? d = some q) {wanted : Option Protocol}
    (hasks : q.Asks id wanted) :
    p.Asks id wanted ∨ ∃ cancel, d = .get wanted cancel ∧ id = p.nextTask := by
  by_cases hget : ∃ other cancel, d = .get other cancel
  · obtain ⟨other, cancel, rfl⟩ := hget
    rw [← Option.some.inj h] at hasks
    obtain ⟨task, hmem, hwants⟩ := hasks
    rcases List.mem_append.1 hmem with hold | hnew
    · exact .inl ⟨task, hold, hwants⟩
    · cases List.mem_singleton.1 hnew
      cases Option.some.inj hwants
      exact .inr ⟨cancel, rfl, rfl⟩
  · refine .inl ((keeps_of_act? h fun other cancel heq => ?_).asks id wanted hasks)
    exact hget ⟨other, cancel, heq⟩

/-- Tasks are counted further with every deed, and a `get` takes a number. -/
theorem nextTask_of_act? {d : Deed} (h : p.act? d = some q) :
    p.nextTask ≤ q.nextTask ∧
      ((∃ wanted cancel, d = .get wanted cancel) → p.nextTask < q.nextTask) := by
  by_cases hget : ∃ wanted cancel, d = .get wanted cancel
  · obtain ⟨wanted, cancel, rfl⟩ := hget
    rw [← Option.some.inj h]
    exact ⟨Nat.le_succ _, fun _ => Nat.lt_succ_self _⟩
  · refine ⟨(keeps_of_act? h fun wanted cancel heq => ?_).next, fun hcalled => ?_⟩
    · exact hget ⟨wanted, cancel, heq⟩
    · exact absurd hcalled hget

end Pool

/-! ## Runs -/

variable {p q : Pool} {steps : List Step}

/-- In this step a call for a proxy begins. -/
def Step.Calls (x : Step) (id : Nat) (wanted : Option Protocol) : Prop :=
  (∃ cancel, x.deed = .get wanted cancel) ∧ x.before.nextTask = id

/-- Numbers of calls that have begun are not given out again. -/
theorem lt_of_calls (hrun : Run p steps q) {x : Step} (hx : x ∈ steps) {id : Nat}
    {wanted : Option Protocol} (hcalls : x.Calls id wanted) : id < q.nextTask := by
  induction hrun with
  | rest => cases hx
  | @step steps s hrun ih =>
      obtain ⟨hle, hlt⟩ := Pool.nextTask_of_act? s.done
      rcases List.mem_append.1 hx with hold | hnew
      · exact Nat.lt_of_lt_of_le (ih hold) hle
      · obtain rfl := List.mem_singleton.1 hnew
        obtain ⟨⟨cancel, hdeed⟩, rfl⟩ := hcalls
        exact hlt ⟨wanted, cancel, hdeed⟩

/-- Every call for a proxy was begun by a `get`, and whichever `get` took its
number asked for what it wants. -/
theorem begun_of_run (horderly : Orderly p) (hidle : ∀ id wanted, ¬ p.Asks id wanted)
    (hrun : Run p steps q) {id : Nat} {wanted : Option Protocol} (hasks : q.Asks id wanted) :
    (∃ x ∈ steps, x.Calls id wanted) ∧
      ∀ x ∈ steps, ∀ other, x.Calls id other → other = wanted := by
  induction hrun with
  | rest => exact absurd hasks (hidle id wanted)
  | @step steps s hrun ih =>
      rcases Pool.asks_of_act? s.done hasks with hold | ⟨cancel, hdeed, hnumber⟩
      · obtain ⟨⟨x, hx, hcalls⟩, hsame⟩ := ih hold
        refine ⟨⟨x, List.mem_append_left _ hx, hcalls⟩, fun y hy other hother => ?_⟩
        rcases List.mem_append.1 hy with hearlier | hlast
        · exact hsame y hearlier other hother
        · obtain rfl := List.mem_singleton.1 hlast
          obtain ⟨task, hmem, -⟩ := hold
          have hbelow := (horderly.throughout hrun).1.numbered.below (id, task) hmem
          exact absurd hother.2 (Nat.ne_of_gt hbelow)
      · refine ⟨⟨s, List.mem_append_right _ (List.mem_singleton.2 rfl), ⟨cancel, hdeed⟩,
          hnumber.symm⟩, fun y hy other hother => ?_⟩
        rcases List.mem_append.1 hy with hearlier | hlast
        · exact absurd hnumber (Nat.ne_of_lt (lt_of_calls hrun hearlier hother))
        · obtain rfl := List.mem_singleton.1 hlast
          obtain ⟨⟨patience, hget⟩, -⟩ := hother
          rw [hdeed] at hget
          cases hget
          rfl

end SocksPool
