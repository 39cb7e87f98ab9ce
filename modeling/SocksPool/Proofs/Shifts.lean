import SocksPool.Proofs.Shift

/-!
# Every deed is a shift

The step functions are taken apart a second time. Once they are, what is counted
over loops, jobs, rounds and callers is followed from step to step by adding and
subtracting, one case for each kind of shift.

## Main results

* `shifts_of_move?` — every move is a shift.
* `shifts_of_act?` — every deed is a shift.
-/

open SocksPool.Task (Numbered)

namespace SocksPool

namespace Pool

variable {p q : Pool} {d : Deed} {id : Nat}

/-! ## Loops -/

theorem shifts_of_halt? (hnum : Numbered p.tasks p.nextTask) (h : p.halt? id = some q) :
    p.Shifts (.move id .halt) q := by
  unfold halt? at h
  split at h
  · next epoch stage htask =>
      split at h
      · next hhalted =>
          cases stage with
          | holding endpoint =>
              refine ⟨_, _, _, .handedBack htask hhalted, ?_⟩
              rw [← Option.some.inj h]
              exact .remove (p := p.pushIntake endpoint) hnum htask
          | waiting | receiving =>
              refine ⟨_, _, _, .retired htask rfl hhalted rfl rfl, ?_⟩
              exact Option.some.inj h ▸ .remove hnum htask
      · cases h
  · next htask =>
      split at h
      · next hhalted =>
          refine ⟨_, _, _, .retired htask rfl hhalted rfl rfl, ?_⟩
          exact Option.some.inj h ▸ .remove hnum htask
      · cases h
  · next htask =>
      split at h
      · next hhalted =>
          refine ⟨_, _, _, .retired htask rfl hhalted rfl rfl, ?_⟩
          exact Option.some.inj h ▸ .remove hnum htask
      · cases h
  · next htask =>
      split at h
      · next hhalted =>
          refine ⟨_, _, _, .dismissed htask hhalted, ?_⟩
          exact Option.some.inj h ▸ .closeRound hnum htask rfl true
      · cases h
  · cases h

theorem shifts_of_lockIntake? (hnum : Numbered p.tasks p.nextTask)
    (h : p.lockIntake? id = some q) : p.Shifts (.move id .lockIntake) q := by
  unfold lockIntake? at h
  split at h
  · next htask =>
      split at h
      · cases h
      · exact ⟨_, _, _, .locked htask, Option.some.inj h ▸ .put hnum htask _⟩
  · cases h

theorem shifts_of_receive? (hnum : Numbered p.tasks p.nextTask) (h : p.receive? id = some q) :
    p.Shifts (.move id .receive) q := by
  unfold receive? at h
  split at h
  · next endpoint rest htask hintake =>
      refine ⟨_, _, _, .received htask hintake, ?_⟩
      rw [← Option.some.inj h]
      exact .put (p := { p with intake := rest }) hnum htask _
  · cases h

theorem shifts_of_forward? (hnum : Numbered p.tasks p.nextTask) (h : p.forward? id = some q) :
    p.Shifts (.move id .forward) q := by
  unfold forward? at h
  split at h
  · next epoch endpoint htask =>
      split at h
      · next hroom =>
          refine ⟨_, _, _, .forwarded htask hroom, ?_⟩
          rw [← Option.some.inj h]
          exact .put (p := p.pushPending endpoint) hnum htask _
      · cases h
  · cases h

theorem shifts_of_look? (hnum : Numbered p.tasks p.nextTask) (h : p.look? id = some q) :
    p.Shifts (.move id .look) q := by
  unfold look? at h
  split at h
  · next epoch htask =>
      split at h
      · next hclosed =>
          refine ⟨_, _, _, .stopped htask hclosed, ?_⟩
          rw [← Option.some.inj h]
          exact (Swap.remove hnum htask).andThen (.tell _ _)
      · next hopen =>
          split at h
          · next hfree =>
              refine ⟨_, _, _, .hired htask hfree, ?_⟩
              rw [← Option.some.inj h]
              have hput := Swap.put (p := { p with slots := p.slots.take }) hnum htask
                (.spawnLoop epoch true)
              exact hput.trans (.spawn _ _)
          · next hfree =>
              have hnotClosed := Bool.eq_false_iff.2 hopen
              have hnone := Bool.eq_false_iff.2 hfree
              refine ⟨_, _, _, .slept htask hnotClosed hnone, ?_⟩
              exact Option.some.inj h ▸ .put hnum htask _
  · cases h

/-- A tick of the scaler changes the capacity at most. -/
theorem tickScaler_cases (p : Pool) : ∃ scaler mid,
    (mid = { p with scaler } ∨ ∃ change, mid = tune { p with scaler } change) ∧
      Still mid p.tickScaler.1 := by
  unfold tickScaler
  dsimp only
  generalize p.scaler.tick p.stats.backlog p.slots.capacity p.slots.closed = tick
  refine ⟨tick.scaler, ?_⟩
  have hlogged : Still { p with scaler := tick.scaler }
      { p with scaler := tick.scaler, log := p.log ++ tick.events p.stats.backlog } :=
    .books rfl rfl rfl
  split
  · exact ⟨_, .inl rfl, hlogged⟩
  · exact ⟨_, .inr ⟨tick.change, rfl⟩, hlogged.tune tick.change⟩

theorem task?_tune {task : Task} (hfind : p.task? id = some task)
    (hwakened : task.wakened = task) (change : Int) : (p.tune change).task? id = some task := by
  unfold Pool.tune
  split
  · have hsame : task? { p with slots := p.slots.tune change } id = some task := hfind
    rw [task?_wakeSpawners, hsame]
    exact congrArg some hwakened
  · exact hfind

/-- A tick of the scaler leaves a task alone that no wake-up changes. -/
theorem task?_tickScaler {task : Task} (hfind : p.task? id = some task)
    (hwakened : task.wakened = task) : p.tickScaler.1.task? id = some task := by
  obtain ⟨scaler, mid, hmid, hstill⟩ := p.tickScaler_cases
  apply hstill.task?
  rcases hmid with rfl | ⟨change, rfl⟩
  · exact hfind
  · exact task?_tune (p := { p with scaler }) hfind hwakened change

theorem shifts_of_tickAt (hnum : Numbered p.tasks p.nextTask) {epoch : Nat} {due : Option Nat}
    (htask : p.task? id = some (.scaleLoop epoch due))
    (hdue : ∀ instant, due = some instant → Instant.reached instant p.now = true)
    (hfirst : due = none → p.config.scaleInterval ≠ 0) :
    p.Shifts (.move id .tick) (p.tickAt id epoch (due.getD p.now)) := by
  obtain ⟨scaler, mid, hmid, hstill⟩ := p.tickScaler_cases
  refine ⟨_, _, _, .ticked scaler htask hdue hfirst rfl hmid, ?_⟩
  have hnumTicked : Numbered p.tickScaler.1.tasks p.tickScaler.1.nextTask :=
    (Quiet.tickScaler p).numbered hnum
  exact (Swap.put hnumTicked (task?_tickScaler htask rfl) _).after hstill

theorem shifts_of_tick? (hnum : Numbered p.tasks p.nextTask) (h : p.tick? id = some q) :
    p.Shifts (.move id .tick) q := by
  unfold tick? at h
  split at h
  · next htask =>
      split at h
      · next hzero =>
          refine ⟨_, _, _, .lapsed htask hzero, ?_⟩
          rw [← Option.some.inj h]
          exact (Swap.remove hnum htask).andThen (.books rfl rfl rfl)
      · next hinterval =>
          rw [← Option.some.inj h]
          exact shifts_of_tickAt hnum htask nofun fun _ => hinterval
  · next due htask =>
      split at h
      · next hreached =>
          rw [← Option.some.inj h]
          refine shifts_of_tickAt hnum htask ?_ nofun
          rintro instant hdue
          rwa [← Option.some.inj hdue]
      · cases h
  · cases h

/-! ## Requeues -/

theorem shifts_of_wake? (hnum : Numbered p.tasks p.nextTask) (h : p.wake? id = some q) :
    p.Shifts (.move id .wake) q := by
  unfold wake? at h
  split at h
  · next htask =>
      split at h
      · next hreached =>
          exact ⟨_, _, _, .woke htask hreached, Option.some.inj h ▸ .put hnum htask _⟩
      · cases h
  · cases h

theorem shifts_of_comeBack? (hnum : Numbered p.tasks p.nextTask) (h : p.comeBack? id = some q) :
    p.Shifts (.move id .comeBack) q := by
  unfold comeBack? at h
  split at h
  · next endpoint htask =>
      split at h
      · next hroom =>
          refine ⟨_, _, _, .cameBack htask hroom, ?_⟩
          rw [← Option.some.inj h]
          exact .remove (p := p.pushPending endpoint) hnum htask
      · cases h
  · cases h

/-! ## Rounds -/

theorem shifts_of_pick? (hnum : Numbered p.tasks p.nextTask) (h : p.pick? id = some q) :
    p.Shifts (.move id .pick) q := by
  unfold pick? at h
  split at h
  · next epoch endpoint rest htask hpending =>
      rcases openRound_cases { p with pending := rest } endpoint with
        ⟨hfind, hopen⟩ | ⟨log, limiter, wait, hrefused, hopen⟩ | ⟨life, hfind, hadmitted, hopen⟩
      all_goals rw [hopen] at h; rw [← Option.some.inj h]
      · refine ⟨_, _, _, .skipped htask hpending hfind, ?_⟩
        exact .closeRound (p := { p with pending := rest }) hnum htask rfl true
      · have hlater := Instant.lt_deadline (Limiter.wait_pos (wait?_of_refusal? hrefused)) p.now
        refine ⟨_, _, _, .deferred htask hpending hlater, ?_⟩
        have hmetered : Still { p with pending := rest }
            { p.meter endpoint with pending := rest, log } := .books rfl rfl rfl
        exact hmetered.putOff hnum htask rfl true endpoint _
      · have hmetered : Still { p with pending := rest }
            { p.meter endpoint with pending := rest, stats := p.stats.recordChecked } :=
          .books rfl rfl rfl
        have hbegins := task?_put (hmetered.numbered hnum) (hmetered.task? htask)
          (.round (p.firstRound endpoint life))
        have husage := (refusal?_eq_none.1 hadmitted).1
        refine ⟨_, _, _, .opened life htask hpending husage rfl hbegins, ?_⟩
        exact hmetered.put hnum htask _
  · cases h

theorem shifts_of_deliver? (hnum : Numbered p.tasks p.nextTask) (h : p.deliver? id = some q) :
    p.Shifts (.move id .deliver) q := by
  unfold deliver? at h
  split at h
  · next r htask =>
      split at h
      · next copy hstage =>
          split at h
          · next hroom =>
              refine ⟨_, _, _, .delivered htask hstage hroom, ?_⟩
              rw [← Option.some.inj h]
              exact .closeRound (p := p.deliver copy) hnum htask rfl r.inSlot
          · cases h
      · cases h
  · cases h

/-! ## Attempts -/

/-- How the last attempt of a round ends, as an equation of crews. -/
theorem swap_failRound (hnum : Numbered p.tasks p.nextTask) {r : Round}
    (htask : p.task? id = some (.round r)) :
    Swap [.round r] [] (p.vacate r.inSlot) (p.failRound id r) ∨
    ∃ due : Option Nat, (∀ instant, due = some instant → p.now < instant) ∧
      Swap [.round r] [.requeue r.endpoint due] (p.vacate r.inSlot) (p.failRound id r) := by
  unfold failRound strike markBad
  dsimp only
  rcases hstrike : p.backoff.strike p.now r.endpoint with ⟨backoff, _ | window⟩
  · left
    dsimp only
    have hcrashed : Still p (crash { p with
        registry := p.registry.update r.life Entry.markBad, backoff
        stats := p.stats.recordBad }) := .books rfl rfl rfl
    cases hslot : r.inSlot with
    | true => exact hcrashed.closeRound hnum htask rfl true
    | false => exact hcrashed.finish hnum htask _
  · dsimp only
    have hmissed (log : List Event) : Still p { p with
        registry := p.registry.update r.life Entry.markBad, backoff, log
        stats := p.stats.recordBad } := .books rfl rfl rfl
    split
    · left
      have hevicted := (hmissed p.log).trans (.evict _ r.endpoint)
      exact hevicted.closeRound hnum htask rfl r.inSlot
    · right
      refine ⟨if window = 0 then none else some (Instant.deadline p.now window), ?_, ?_⟩
      · intro instant hdue
        split at hdue
        · cases hdue
        · next hpos =>
            rw [← Option.some.inj hdue]
            exact Instant.lt_deadline (Nat.pos_of_ne_zero hpos) p.now
      · exact (hmissed _).putOff hnum htask rfl r.inSlot r.endpoint _

theorem shifts_of_attempted? (hnum : Numbered p.tasks p.nextTask)
    {outcome : Except PoolError Address} (h : p.attempted? id outcome = some q) :
    p.Shifts (.move id (.attempted outcome)) q := by
  unfold attempted? at h
  split at h
  · next r htask =>
      split at h
      · next protocol rest since hstage =>
          split at h
          · next exit =>
              rw [← Option.some.inj h]
              unfold passRound
              dsimp only
              split
              · refine ⟨_, _, _, .failed htask hstage, ?_⟩
                exact .closeRound hnum htask rfl r.inSlot
              · next entry hentry =>
                  have hnoted (registry : Registry) (stats : Stats) (log : List Event) :
                      Still p { p with registry, stats, log } := .books rfl rfl rfl
                  refine ⟨_, _, _, .passed entry.snapshot htask hstage, ?_⟩
                  exact (hnoted _ _ _).put hnum htask _
          · next e =>
              have htold := Still.tell p (.attemptFailed r.endpoint protocol e)
              split at h
              · refine ⟨_, _, _, .retried htask hstage, ?_⟩
                exact Option.some.inj h ▸ htold.put hnum htask _
              · rw [← Option.some.inj h]
                have hlogged := htold.vacate r.inSlot
                rcases swap_failRound (htold.numbered hnum) (htold.task? htask) with
                  hgone | ⟨due, hlater, hkept⟩
                · exact ⟨_, _, _, .failed htask hstage, hlogged.trans hgone⟩
                · exact ⟨_, _, _, .failedKept htask hstage hlater, hlogged.trans hkept⟩
      · cases h
  · cases h

/-! ## Callers -/

theorem shifts_of_dispense? (hnum : Numbered p.tasks p.nextTask) {protocol : Protocol}
    (h : p.dispense? id protocol = some q) : p.Shifts (.move id (.dispense protocol)) q := by
  unfold dispense? at h
  split at h
  · next c candidate rest htask hqueue =>
      split at h
      · next hwaits =>
          rcases judge_cases { p with outputs := p.outputs.set protocol rest }
            candidate.endpoint with ⟨-, hjudge⟩ | ⟨life, -, -, hjudge⟩ |
            ⟨log, stats, -, hjudge⟩ | ⟨life, locked, entry, -, -, -, -, hjudge⟩
          all_goals rw [hjudge] at h; rw [← Option.some.inj h]
          · refine ⟨_, _, _, .passedOver htask hqueue, ?_⟩
            exact .put (p := { p with outputs := p.outputs.set protocol rest }) hnum htask _
          · refine ⟨_, _, _, .passedOver htask hqueue, ?_⟩
            exact (Still.evict { p with outputs := p.outputs.set protocol rest } _).put hnum htask _
          · refine ⟨_, _, _, .sentBack htask hqueue, ?_⟩
            have hlogged : Still { p with outputs := p.outputs.set protocol rest }
                { p with outputs := p.outputs.set protocol rest, log, stats } :=
              .books rfl rfl rfl
            have hsent := Swap.recycle { p with outputs := p.outputs.set protocol rest, log, stats }
              p.config.recycle candidate.endpoint
            have hnumSent := numbered_recycle (hlogged.numbered hnum) p.config.recycle
              candidate.endpoint
            have hfindSent := task?_recycle (hlogged.task? htask) p.config.recycle
              candidate.endpoint
            exact (hsent.after hlogged).trans (.put hnumSent hfindSent _)
          · refine ⟨_, _, _, .checked life htask hwaits.1 hqueue, ?_⟩
            have hlocked : Still { p with outputs := p.outputs.set protocol rest }
                { p with outputs := p.outputs.set protocol rest, registry := locked } :=
              .books rfl rfl rfl
            exact hlocked.put hnum htask _
      · cases h
  · cases h

theorem shifts_of_redialled? (hnum : Numbered p.tasks p.nextTask) {good : Bool}
    (h : p.redialled? id good = some q) : p.Shifts (.move id (.redialled good)) q := by
  unfold redialled? at h
  split at h
  · next c htask =>
      split at h
      · next candidate life timeout wanted since hstage =>
          have hended {r : Pool} (hstill : Still p r) :=
            hstill.recycle_unlock hnum htask wanted candidate.endpoint life
          cases good with
          | true =>
              obtain ⟨hsent, hnumSent, hfindSent⟩ := hended (.refl p)
              rw [if_pos rfl] at h
              dsimp only at h
              split at h
              · next entry hentry =>
                  obtain ⟨next, hswap, hgiven⟩ := Swap.hand hnumSent hfindSent c entry.snapshot
                  have hserved (caller : Caller) (hnext : next = some caller) :
                      caller.IsServed p.registry life := by
                    -- The life was unlocked before it is read, and a copy does not show its lock.
                    rw [entry?_unlock_recycle] at hentry
                    obtain ⟨found, hfound, rfl⟩ := Option.map_eq_some_iff.1 hentry
                    obtain ⟨timeout, since, huses⟩ := hgiven caller hnext
                    exact .inr ⟨found, timeout, since, hfound, huses⟩
                  refine ⟨_, _, _, .redialled htask hstage hserved, ?_⟩
                  exact Option.some.inj h ▸ hsent.trans hswap
              · obtain ⟨next, hswap, hwaits⟩ := Swap.reject hnumSent hfindSent c
                have hserved (caller : Caller) (hnext : next = some caller) :
                    caller.IsServed p.registry life := .inl (hwaits caller hnext)
                refine ⟨_, _, _, .redialled htask hstage hserved, ?_⟩
                exact Option.some.inj h ▸ hsent.trans hswap
          | false =>
              have hmarked : Still p ((p.tell (.skippedDead candidate.endpoint)).markBad life).1 :=
                .books rfl rfl rfl
              obtain ⟨hsent, hnumSent, hfindSent⟩ := hended hmarked
              obtain ⟨next, hswap, hwaits⟩ := Swap.reject hnumSent hfindSent c
              have hserved (caller : Caller) (hnext : next = some caller) :
                  caller.IsServed p.registry life := .inl (hwaits caller hnext)
              refine ⟨_, _, _, .redialled htask hstage hserved, ?_⟩
              exact Option.some.inj h ▸ hsent.trans hswap
      · cases h
  · cases h

theorem shifts_of_cancel? (hnum : Numbered p.tasks p.nextTask) (h : p.cancel? id = some q) :
    p.Shifts (.move id .cancel) q := by
  unfold cancel? at h
  split at h
  · next c htask =>
      split at h
      · cases h
      · split at h
        · split at h
          · next candidate life timeout wanted since hstage =>
              rw [← Option.some.inj h]
              rcases restore_cases (p.unlock life) candidate with
                ⟨hroom, hrestore⟩ | ⟨hroom, log, hrestore⟩
              · refine ⟨_, _, _, .restored htask hstage hroom, ?_⟩
                rw [hrestore]
                have hunlocked : Still (p.deliver candidate) ((p.unlock life).deliver candidate) :=
                  .books rfl rfl rfl
                exact (Swap.giveUp (hunlocked.numbered hnum) (hunlocked.task? htask) c).after
                  hunlocked
              · refine ⟨_, _, _, .left (.inl rfl) htask, ?_⟩
                rw [hrestore]
                have hlogged : Still p { p.unlock life with log } := .books rfl rfl rfl
                exact (Swap.giveUp (hlogged.numbered hnum) (hlogged.task? htask) c).after hlogged
          · exact ⟨_, _, _, .left (.inl rfl) htask, Option.some.inj h ▸ .giveUp hnum htask c⟩
          · exact ⟨_, _, _, .left (.inl rfl) htask, Option.some.inj h ▸ .giveUp hnum htask c⟩
        · cases h
  · cases h

theorem shifts_of_abandon? (hnum : Numbered p.tasks p.nextTask) (h : p.abandon? id = some q) :
    p.Shifts (.move id .abandon) q := by
  unfold abandon? at h
  split at h
  · next c htask =>
      refine ⟨_, _, _, .left (.inr rfl) htask, ?_⟩
      split at h
      · next life _ _ _ _ =>
          have hunlocked : Still p (p.unlock life) := .books rfl rfl rfl
          exact Option.some.inj h ▸ hunlocked.remove hnum htask
      · exact Option.some.inj h ▸ .remove hnum htask
  · cases h

/-! ## Uses of proxies -/

theorem shifts_of_dialled? (hnum : Numbered p.tasks p.nextTask)
    {outcome : Except PoolError Unit} (h : p.dialled? id outcome = some q) :
    p.Shifts (.move id (.dialled outcome)) q := by
  unfold dialled? at h
  split at h
  · next c htask =>
      split at h
      · next address proxy timeout since hpurpose hstage =>
          cases outcome with
          | ok done =>
              refine ⟨_, _, _, .used none (.inl ⟨_, rfl⟩) htask hstage
                (fun _ hnone => nomatch hnone), ?_⟩
              exact Option.some.inj h ▸ .finish hnum htask _
          | error e =>
              have htold := Still.tell p (.dialFailed address proxy.endpoint e)
              have hreported := htold.trans (.reportFailure _ proxy.endpoint)
              dsimp only at h
              split at h
              · next after hreport =>
                  rw [hreport] at hreported
                  refine ⟨_, _, _, .used (some { c with stage := .waiting }) (.inl ⟨_, rfl⟩) htask
                    hstage ?_, ?_⟩
                  · intro caller hcaller
                    obtain rfl := Option.some.inj hcaller
                    rfl
                  · exact Option.some.inj h ▸ hreported.put hnum htask _
              · next after hreport =>
                  rw [hreport] at hreported
                  refine ⟨_, _, _, .used none (.inl ⟨_, rfl⟩) htask hstage
                    (fun _ hnone => nomatch hnone), ?_⟩
                  exact Option.some.inj h ▸ hreported.finish hnum htask _
      · cases h
  · cases h

/-- After a request that failed, its caller is answered or waits again. -/
theorem swap_next {r : Pool} (hstill : Still p r) (hnum : Numbered p.tasks p.nextTask)
    {c : Caller} (htask : p.task? id = some (.caller c)) (failures retries wait timeout : Nat)
    (cloneable : Bool) (proxy : Proxy) (fault : HttpFault) :
    ∃ next : Option Caller,
      Swap [.caller c] (goesOn next) p
        (responded?.next id r c failures retries wait timeout cloneable proxy fault) ∧
      ∀ caller, next = some caller → caller.stage = .waiting := by
  have hreported := hstill.trans (.reportFailure r proxy.endpoint)
  unfold responded?.next
  split
  · next after hreport =>
      rw [hreport] at hreported
      exact ⟨none, hreported.finish hnum htask _, fun _ hnone => nomatch hnone⟩
  · next after hreport =>
      rw [hreport] at hreported
      split
      · exact ⟨none, hreported.finish hnum htask _, fun _ hnone => nomatch hnone⟩
      · refine ⟨some _, hreported.put hnum htask _, ?_⟩
        intro caller hcaller
        obtain rfl := Option.some.inj hcaller
        rfl

theorem shifts_of_responded? (hnum : Numbered p.tasks p.nextTask) {outcome : Exchange}
    (h : p.responded? id outcome = some q) : p.Shifts (.move id (.responded outcome)) q := by
  unfold responded? at h
  split at h
  · next c htask =>
      split at h
      · next failures retries wait timeout cloneable proxy used since hpurpose hstage =>
          cases outcome with
          | responded =>
              refine ⟨_, _, _, .used none (.inr ⟨_, rfl⟩) htask hstage
                (fun _ hnone => nomatch hnone), ?_⟩
              exact Option.some.inj h ▸ .finish hnum htask _
          | failed fault =>
              obtain ⟨next, hswap, hwaits⟩ := swap_next
                (.tell p (.requestFailed proxy.url (failures + 1) fault)) hnum htask failures
                retries wait timeout cloneable proxy fault
              refine ⟨_, _, _, .used next (.inr ⟨_, rfl⟩) htask hstage hwaits, ?_⟩
              exact Option.some.inj h ▸ hswap
          | unusable fault =>
              obtain ⟨next, hswap, hwaits⟩ := swap_next
                (.tell p (.clientRefused proxy.url fault)) hnum htask failures retries wait
                timeout cloneable proxy fault
              refine ⟨_, _, _, .used next (.inr ⟨_, rfl⟩) htask hstage hwaits, ?_⟩
              exact Option.some.inj h ▸ hswap
      · cases h
  · cases h

/-! ## Deeds -/

theorem shifts_of_move? (hnum : Numbered p.tasks p.nextTask) {move : Move}
    (h : p.move? id move = some q) : p.Shifts (.move id move) q := by
  cases move with
  | halt => exact shifts_of_halt? hnum h
  | lockIntake => exact shifts_of_lockIntake? hnum h
  | receive => exact shifts_of_receive? hnum h
  | forward => exact shifts_of_forward? hnum h
  | look => exact shifts_of_look? hnum h
  | tick => exact shifts_of_tick? hnum h
  | pick => exact shifts_of_pick? hnum h
  | deliver => exact shifts_of_deliver? hnum h
  | wake => exact shifts_of_wake? hnum h
  | comeBack => exact shifts_of_comeBack? hnum h
  | dispense protocol => exact shifts_of_dispense? hnum h
  | cancel => exact shifts_of_cancel? hnum h
  | abandon => exact shifts_of_abandon? hnum h
  | attempted outcome => exact shifts_of_attempted? hnum h
  | redialled good => exact shifts_of_redialled? hnum h
  | dialled outcome => exact shifts_of_dialled? hnum h
  | responded outcome => exact shifts_of_responded? hnum h

/-- A call that begins no task and leaves queues and slots alone. -/
theorem Shifts.still (hcall : d.isMove = false) (h : Still p q) : p.Shifts d q :=
  ⟨_, _, _, .idled hcall, .still h⟩

theorem Swap.launch (p : Pool) :
    Swap [] (freshLoops (p.epoch + 1))
      { p with status := .running, epoch := p.epoch + 1 } p.launch :=
  ((Swap.spawn _ _).trans (.spawn _ _)).trans (.spawn _ _)

theorem shifts_of_launch (hdeed : d = .start ∨ d = .resume) (hstatus : p.status ≠ .running)
    (e : Event) : p.Shifts d (p.launch.tell e) :=
  ⟨_, _, _, .launched hdeed hstatus, (Swap.launch p).andThen (.tell _ _)⟩

theorem shifts_of_start (p : Pool) : p.Shifts .start (p.afterCall p.start) := by
  unfold start
  split
  · exact .still rfl (.refl p)
  · next hstatus => exact shifts_of_launch (.inl rfl) (by rw [hstatus]; nofun) .started
  · next hstatus => exact shifts_of_launch (.inl rfl) (by rw [hstatus]; nofun) .started

theorem shifts_of_resume (p : Pool) : p.Shifts .resume (p.afterCall p.resume) := by
  unfold resume
  split
  · next hstatus => exact shifts_of_launch (.inr rfl) (by rw [hstatus]; nofun) .resumed
  · exact .still rfl (.refl p)
  · exact .still rfl (.refl p)

theorem shifts_of_pause (p : Pool) : p.Shifts .pause (p.afterCall p.pause) := by
  unfold pause
  split
  · next hstatus => exact ⟨_, _, _, .paused hstatus, .still (.books rfl rfl rfl)⟩
  · exact .still rfl (.refl p)
  · exact .still rfl (.refl p)

theorem shifts_of_adjust (p : Pool) (setting : Setting) :
    p.Shifts (.adjust setting) (p.afterCall (p.adjust setting)) := by
  cases setting with
  | staleAfter age => exact .still rfl (.books rfl rfl rfl)
  | recycling recycle => exact .still rfl (.books rfl rfl rfl)
  | userAgents agents => exact .still rfl (.books rfl rfl rfl)
  | validationTimeout timeout =>
      unfold adjust setValidationTimeout
      dsimp only
      split
      · exact .still rfl (.refl p)
      · exact .still rfl (.books rfl rfl rfl)
  | removeAfter count =>
      unfold adjust setRemoveAfter
      dsimp only
      split
      · exact .still rfl (.refl p)
      · exact .still rfl (.books rfl rfl rfl)
  | echoEndpoints urls =>
      unfold adjust setEchoEndpoints
      dsimp only
      split
      · exact .still rfl (.refl p)
      · exact .still rfl (.books rfl rfl rfl)
  | maxWorkers ceiling =>
      unfold adjust setMaxWorkers
      dsimp only
      split
      · exact .still rfl (.refl p)
      · split
        · exact .still rfl (.refl p)
        · have hset : Still { p with scaler := p.scaler.setCeiling ceiling }
              { p.configure fun c =>
                  { c with maxWorkers := ceiling, workers := min c.workers ceiling } with
                scaler := p.scaler.setCeiling ceiling } := .books rfl rfl rfl
          split
          · exact ⟨_, _, _, .resized _ _ rfl, .still (hset.tune _)⟩
          · exact ⟨_, _, _, .adjusted _, .still hset⟩
  | workers count =>
      unfold adjust setWorkers
      dsimp only
      split
      · exact .still rfl (.refl p)
      · split
        · exact .still rfl (.refl p)
        · have hset : Still { p with scaler := p.scaler }
              (p.configure ({ · with workers := count })) := .books rfl rfl rfl
          exact ⟨_, _, _, .resized _ _ rfl, .still (hset.tune _)⟩
  | scaleThreshold threshold =>
      exact ⟨_, _, _, .adjusted (p.scaler.setThreshold threshold), .still (.books rfl rfl rfl)⟩
  | autoscaler enabled =>
      cases enabled with
      | true => exact ⟨_, _, _, .adjusted p.scaler.enable, .still (.books rfl rfl rfl)⟩
      | false => exact ⟨_, _, _, .adjusted p.scaler.disable, .still (.books rfl rfl rfl)⟩

/-- Endpoints are loaded, before and after what changes no task. -/
theorem shifts_of_loadAll {r : Pool} (hcall : d.isMove = false) (hbefore : Still p r)
    (raws : List String) (hafter : Still (r.loadAll raws).1 q) : p.Shifts d q := by
  obtain ⟨registry, more, hloaded⟩ := r.loadAll_append raws
  rw [hloaded] at hafter
  have hgrown : Still { p with intake := p.intake ++ more }
      { r with registry, intake := r.intake ++ more } :=
    { hbefore with intake := congrArg (· ++ more) hbefore.intake }
  exact ⟨_, _, _, .loaded more hcall, .still (hgrown.trans hafter)⟩

theorem shifts_of_call (hcall : d.isMove = false) (p : Pool) (purpose : Purpose)
    (patience : Option Nat) : p.Shifts d (p.call purpose patience) :=
  ⟨_, _, _, .called ⟨purpose, patience, .waiting⟩ hcall rfl, .spawn p _⟩

/-- Every deed is a shift. -/
theorem shifts_of_act? (hnum : Numbered p.tasks p.nextTask) (h : p.act? d = some q) :
    p.Shifts d q := by
  cases d with
  | move id move => exact shifts_of_move? hnum h
  | load raw =>
      rw [← Option.some.inj h]
      exact shifts_of_loadAll rfl (.refl p) [raw] (.refl _)
  | loadList content =>
      rw [← Option.some.inj h]
      exact shifts_of_loadAll rfl (.refl p) (Endpoint.parseList content) (.tell _ _)
  | loadFetched source content =>
      rw [← Option.some.inj h]
      exact shifts_of_loadAll rfl (.tell p _) (Endpoint.parseList content) (.refl _)
  | reportFailure endpoint => exact Option.some.inj h ▸ .still rfl (.reportFailure p endpoint)
  | start => exact Option.some.inj h ▸ shifts_of_start p
  | pause => exact Option.some.inj h ▸ shifts_of_pause p
  | resume => exact Option.some.inj h ▸ shifts_of_resume p
  | adjust setting => exact Option.some.inj h ▸ shifts_of_adjust p setting
  | get wanted cancel => exact Option.some.inj h ▸ shifts_of_call rfl p _ _
  | dial network address cancel =>
      rw [← Option.some.inj h]
      unfold dial
      split
      · exact shifts_of_call rfl p _ _
      · exact .still rfl (.refl p)
  | attach => exact Option.some.inj h ▸ .still rfl (.tell _ _)
  | send cloneable => exact Option.some.inj h ▸ shifts_of_call rfl p _ _
  | tune change => exact ⟨_, _, _, .tuned change, Option.some.inj h ▸ .refl _⟩
  | closeWorkers => exact ⟨_, _, _, .closed, Option.some.inj h ▸ .refl _⟩
  | advance span => exact ⟨_, _, _, .elapsed span, Option.some.inj h ▸ .refl _⟩

end Pool

end SocksPool
