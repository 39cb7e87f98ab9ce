import SocksPool.Proofs.Effect

/-!
# Effects of callers

A caller takes candidates off an output queue, re-dials them, is cancelled or
dropped, and reports a proxy that failed it. The gate that a candidate passes
through is a matter of four cases, and so is the end of a re-dial.

## Main results

* `judge_cases` — what the gate does with a candidate.
* `reportFailure_cases` — what a report does.
* `effects_of_dispense?`, `effects_of_redialled?`, `effects_of_cancel?`,
  `effects_of_abandon?` — the moves of a caller, each with its effect.
-/

open SocksPool.Task (Numbered)

namespace SocksPool.Pool

variable {p q : Pool} {d : Deed} {id : Nat}

/-! ## Candidates -/

theorem token?_of_waiting {c : Caller} (h : c.stage = .waiting) :
    (Task.caller c).token? = none := by
  obtain ⟨purpose, patience, stage⟩ := c
  obtain rfl : stage = .waiting := h
  rfl

theorem token?_of_using {c : Caller} {proxy : Proxy} {timeout since : Nat}
    (h : c.stage = .using proxy timeout since) : (Task.caller c).token? = none := by
  obtain ⟨purpose, patience, stage⟩ := c
  obtain rfl : stage = .using proxy timeout since := h
  rfl

/-- The gate passes a candidate over, strikes it off, sends it back, or has it
re-dialled. -/
theorem judge_cases (p : Pool) (endpoint : String) :
    ((∀ life, p.registry.find? endpoint = some life →
        p.registry.IsLocked life ∨ p.registry.entry? life = none) ∧
      p.judge endpoint = (p, none)) ∨
    (∃ life, p.registry.find? endpoint = some life ∧
      p.config.removeAfter ≤ p.registry.badMarks life ∧
      p.judge endpoint = (p.evict endpoint, none)) ∨
    (∃ log stats, (stats = p.stats ∨ stats = p.stats.recordStale) ∧
      p.judge endpoint = (recycle { p with log, stats } p.config.recycle endpoint, none)) ∨
    ∃ life locked entry, p.registry.find? endpoint = some life ∧
      p.registry.tryLock? life = some locked ∧ p.registry.entry? life = some entry ∧
      entry.snapshot.isStale p.now p.config.staleAfter = false ∧
      p.judge endpoint = ({ p with registry := locked }, some life) := by
  unfold judge
  cases hfind : p.registry.find? endpoint with
  | none => exact .inl ⟨nofun, rfl⟩
  | some life =>
      dsimp only
      cases hlock : p.registry.tryLock? life with
      | none =>
          refine .inl ⟨fun other hother => ?_, rfl⟩
          rw [← Option.some.inj hother]
          exact Registry.tryLock?_eq_none hlock
      | some locked =>
          cases hentry : p.registry.entry? life with
          | none =>
              refine .inl ⟨fun other hother => ?_, rfl⟩
              rw [← Option.some.inj hother]
              exact .inr hentry
          | some entry =>
              right
              dsimp only
              split
              · next hmarks =>
                  refine .inl ⟨life, rfl, ?_, rfl⟩
                  simpa [Registry.badMarks, hentry] using hmarks
              · right
                split
                · exact .inl ⟨_, _, .inl rfl, rfl⟩
                · split
                  · exact .inl ⟨_, _, .inr rfl, rfl⟩
                  · next hfresh =>
                      refine .inr ⟨life, locked, entry, rfl, hlock, hentry, ?_, rfl⟩
                      exact Bool.eq_false_iff.2 hfresh

theorem effects_of_dispense? (hnum : Numbered p.tasks p.nextTask) {protocol : Protocol}
    (h : p.dispense? id protocol = some q) : p.Effects (.move id (.dispense protocol)) q := by
  unfold dispense? at h
  split at h
  · next c candidate rest htask hqueue =>
      split at h
      · next hwaits =>
          have htoken := token?_of_waiting hwaits.1
          have hidle : p.Idle id := .of_task? hnum htask htoken
          have hdequeued : Idle { p with outputs := p.outputs.set protocol rest } id :=
            .of_task? hnum htask htoken
          rcases judge_cases { p with outputs := p.outputs.set protocol rest }
            candidate.endpoint with ⟨hgate, hjudge⟩ | ⟨life, hfind, hmarks, hjudge⟩ |
            ⟨log, stats, hstats, hjudge⟩ |
            ⟨life, locked, entry, hfind, hlock, hentry, hfresh, hjudge⟩
          all_goals rw [hjudge] at h; rw [← Option.some.inj h]
          · exact ⟨_, .passedOver hidle hqueue hgate, .put_idle hdequeued htoken⟩
          · refine ⟨_, .struckOff hidle hqueue hfind hmarks, .put_idle ?_ htoken⟩
            exact hdequeued.evict candidate.endpoint
          · have hlogged : Quiet
                (recycle { p with outputs := p.outputs.set protocol rest, stats }
                  p.config.recycle candidate.endpoint)
                (recycle { p with outputs := p.outputs.set protocol rest, log, stats }
                  p.config.recycle candidate.endpoint) := by
              unfold recycle
              split <;> exact .housekeeping rfl (Nat.le_refl _)
            have hcounted : Idle { p with outputs := p.outputs.set protocol rest, stats } id :=
              .of_task? hnum htask htoken
            have hstill := hlogged.idle (hcounted.recycle p.config.recycle candidate.endpoint)
            exact ⟨_, .sentBack hidle hqueue hstats, hlogged.trans (.put_idle hstill htoken)⟩
          · exact ⟨_, .checked htask hwaits.1 hwaits.2 hqueue hfind hlock hentry hfresh, .refl _⟩
      · cases h
  · cases h

/-- Unlocking a life changes nothing else of its entry. -/
theorem entry?_unlock_recycle (p : Pool) (wanted : Bool) (endpoint : String) (life : Nat) :
    Registry.entry? ((p.recycle wanted endpoint).unlock life).registry life =
      (p.registry.entry? life).map ({ · with locked := false }) := by
  rw [unlock_recycle, registry_recycle]
  show Registry.entry? (p.registry.release life) life = _
  unfold Registry.release
  rw [Registry.entry?_update, if_pos rfl]

theorem effects_of_redialled? (hnum : Numbered p.tasks p.nextTask) {good : Bool}
    (h : p.redialled? id good = some q) : p.Effects (.move id (.redialled good)) q := by
  unfold redialled? at h
  split at h
  · next c htask =>
      have hbelow : id < p.nextTask := hnum.lt_of_lookup htask
      split at h
      · next candidate life timeout wanted since hstage =>
          cases good with
          | true =>
              have hlater : id < ((p.recycle wanted candidate.endpoint).unlock life).nextTask :=
                lt_nextTask_recycle hbelow wanted candidate.endpoint
              have hended : ((p.recycle wanted candidate.endpoint).unlock life).remove id =
                  ((p.remove id).recycle wanted candidate.endpoint).unlock life := by
                rw [← remove_recycle hbelow]
                rfl
              rw [if_pos rfl] at h
              dsimp only at h
              rw [entry?_unlock_recycle] at h
              cases hentry : p.registry.entry? life with
              | none =>
                  rw [hentry] at h
                  refine ⟨_, .voided htask hstage hentry, ?_⟩
                  rw [← hended]
                  exact Option.some.inj h ▸ .reject hlater c
              | some entry =>
                  rw [hentry] at h
                  refine ⟨_, .cleared htask hstage hentry, ?_⟩
                  rw [← hended]
                  exact Option.some.inj h ▸ .hand hlater c entry.snapshot
          | false =>
              refine ⟨_, .refused htask hstage, ?_⟩
              have hmarked : id < (p.markBad life).1.nextTask := hbelow
              have htold :
                  id < ((p.tell (.skippedDead candidate.endpoint)).markBad life).1.nextTask :=
                hbelow
              have hlogged : Quiet
                  (((p.markBad life).1.recycle wanted candidate.endpoint).remove id |>.unlock life)
                  (((((p.tell (.skippedDead candidate.endpoint)).markBad life).1.recycle wanted
                    candidate.endpoint).unlock life).remove id) := by
                unfold recycle
                split <;> exact .housekeeping rfl (Nat.le_refl _)
              rw [remove_recycle hmarked] at hlogged
              rw [← Option.some.inj h]
              refine hlogged.trans (.reject ?_ c)
              exact lt_nextTask_recycle htold wanted candidate.endpoint
      · cases h
  · cases h

/-! ## Cancellation -/

theorem known_of_room {protocol : Protocol} (h : p.outputRoom protocol = true) :
    protocol ≠ .unknown := by
  rintro rfl
  simp [outputRoom] at h

theorem restore_cases (p : Pool) (candidate : Proxy) :
    (p.outputRoom candidate.protocol = true ∧ p.restore candidate = p.deliver candidate) ∨
    (p.outputRoom candidate.protocol = false ∧
      ∃ log, p.restore candidate = { p with log }) := by
  unfold restore
  by_cases hknown : candidate.protocol = .unknown
  · rw [if_pos hknown]
    exact .inr ⟨by simp [outputRoom, hknown], p.log, rfl⟩
  · rw [if_neg hknown]
    cases hroom : p.outputRoom candidate.protocol with
    | true => exact .inl ⟨rfl, if_pos rfl⟩
    | false => exact .inr ⟨rfl, _, if_neg nofun⟩

theorem effects_of_cancel? (hnum : Numbered p.tasks p.nextTask) (h : p.cancel? id = some q) :
    p.Effects (.move id .cancel) q := by
  unfold cancel? at h
  split at h
  · next c htask =>
      split at h
      · cases h
      · split at h
        · split at h
          · next candidate life timeout wanted since hstage =>
              rw [← Option.some.inj h]
              rcases restore_cases (p.unlock life) candidate with
                ⟨hroom, hrestore⟩ | ⟨hroom, log, hrestore⟩
              · refine ⟨_, .restored htask hstage hroom, ?_⟩
                rw [hrestore]
                exact .giveUp ((p.unlock life).deliver candidate) id c
              · refine ⟨_, .overflowed htask hstage hroom, ?_⟩
                rw [hrestore]
                refine .trans ?_ (.giveUp _ id c)
                exact .housekeeping rfl (Nat.le_refl _)
          · next hstage =>
              have hidle : p.Idle id := .of_task? hnum htask (token?_of_waiting hstage)
              refine ⟨_, .gaveUp hidle, ?_⟩
              exact Option.some.inj h ▸ (Quiet.remove hidle).trans (.giveUp p id c)
          · next hstage =>
              have hidle : p.Idle id := .of_task? hnum htask (token?_of_using hstage)
              refine ⟨_, .gaveUp hidle, ?_⟩
              exact Option.some.inj h ▸ (Quiet.remove hidle).trans (.giveUp p id c)
        · cases h
  · cases h

theorem effects_of_abandon? (hnum : Numbered p.tasks p.nextTask) (h : p.abandon? id = some q) :
    p.Effects (.move id .abandon) q := by
  unfold abandon? at h
  split at h
  · next c htask =>
      rcases hstage : c.stage with _ | ⟨candidate, life, timeout, wanted, since⟩ |
        ⟨proxy, timeout, since⟩
      all_goals rw [hstage] at h
      · have hidle : p.Idle id := .of_task? hnum htask (token?_of_waiting hstage)
        exact ⟨_, .left hidle, Option.some.inj h ▸ .remove hidle⟩
      · exact ⟨_, .dropped htask hstage, Option.some.inj h ▸ .refl _⟩
      · have hidle : p.Idle id := .of_task? hnum htask (token?_of_using hstage)
        exact ⟨_, .left hidle, Option.some.inj h ▸ .remove hidle⟩
  · cases h

/-! ## Reports -/

/-- A report of an unknown endpoint does nothing. Any other one is a failure,
and an eviction if the life has used up its marks. -/
theorem reportFailure_cases (p : Pool) (log : List Event) (endpoint : String) :
    Quiet p (reportFailure { p with log } endpoint).1 ∨
    ∃ life, p.registry.find? endpoint = some life ∧
      (Quiet (p.punish life endpoint) (reportFailure { p with log } endpoint).1 ∨
        p.Exhausts life ∧
          Quiet ((p.punish life endpoint).evict endpoint)
            (reportFailure { p with log } endpoint).1) := by
  unfold reportFailure
  dsimp only
  cases hfind : p.registry.find? endpoint with
  | none => exact .inl (.housekeeping rfl (Nat.le_refl _))
  | some life =>
      refine .inr ⟨life, rfl, ?_⟩
      have hpunish : p.punish life endpoint =
          { p with
            registry := p.registry.update life Entry.markBad
            backoff := (p.backoff.strike p.now endpoint).1 } := rfl
      rw [hpunish]
      unfold strike markBad
      rcases hstrike : p.backoff.strike p.now endpoint with ⟨backoff, _ | window⟩
      · apply Or.inl
        dsimp only
        rw [hstrike]
        exact .housekeeping rfl (Nat.le_succ _)
      · dsimp only
        rw [hstrike]
        dsimp only
        split
        · next hmarks =>
            refine .inr ⟨hmarks, .evict ?_ endpoint⟩
            exact .housekeeping rfl (Nat.le_refl _)
        · exact .inl (.housekeeping rfl (Nat.le_refl _))

/-- A report is the effect of any deed that strikes the endpoint, if it is registered. -/
theorem effects_of_reportFailure (p : Pool) (log : List Event) (endpoint : String)
    (hplain : d.isPlain = true)
    (hstrikes : p.registry.contains endpoint = true → p.Strikes d endpoint) :
    p.Effects d (reportFailure { p with log } endpoint).1 := by
  rcases reportFailure_cases p log endpoint with hquiet | ⟨life, hfind, hkept | ⟨hmarks, hout⟩⟩
  · exact .quiet hplain hquiet
  · have hlisted : p.registry.contains endpoint = true := Option.isSome_of_eq_some hfind
    exact ⟨_, .reported hplain hfind (hstrikes hlisted), hkept⟩
  · have hlisted : p.registry.contains endpoint = true := Option.isSome_of_eq_some hfind
    exact ⟨_, .reportedOut hplain hfind hmarks (hstrikes hlisted), hout⟩

theorem Idle.reportFailure (h : p.Idle id) (log : List Event) (endpoint : String) :
    (reportFailure { p with log } endpoint).1.Idle id := by
  rcases reportFailure_cases p log endpoint with hquiet | ⟨life, hfind, hkept | ⟨hmarks, hout⟩⟩
  · exact hquiet.idle h
  · exact hkept.idle ⟨h.below, h.free⟩
  · have hmarked : (p.punish life endpoint).Idle id := ⟨h.below, h.free⟩
    exact hout.idle (hmarked.evict endpoint)

theorem effects_of_dialled? (hnum : Numbered p.tasks p.nextTask)
    {outcome : Except PoolError Unit} (h : p.dialled? id outcome = some q) :
    p.Effects (.move id (.dialled outcome)) q := by
  unfold dialled? at h
  split at h
  · next c htask =>
      split at h
      · next address proxy timeout since hpurpose hstage =>
          have hidle : p.Idle id := .of_task? hnum htask (token?_of_using hstage)
          cases outcome with
          | ok done =>
              apply Effects.quiet rfl
              exact Option.some.inj h ▸ (Quiet.remove hidle).trans (.finish p id rfl)
          | error e =>
              have heffects := p.effects_of_reportFailure (d := .move id (.dialled (.error e)))
                (p.log ++ [.dialFailed address proxy.endpoint e]) proxy.endpoint rfl
                (.undialled htask hpurpose hstage)
              have hstill := hidle.reportFailure
                (p.log ++ [.dialFailed address proxy.endpoint e]) proxy.endpoint
              dsimp only [tell] at h
              split at h
              · next after hreport =>
                  rw [hreport] at heffects hstill
                  exact Option.some.inj h ▸ heffects.trans (.put_idle hstill rfl)
              · next after hreport =>
                  rw [hreport] at heffects hstill
                  exact Option.some.inj h ▸
                    heffects.trans ((Quiet.remove hstill).trans (.finish after id rfl))
      · cases h
  · cases h

/-- A request that failed is reported, and its caller waits again or gives up. -/
theorem effects_of_next (hidle : p.Idle id) (log : List Event) (c : Caller)
    (failures retries wait timeout : Nat) (cloneable : Bool) (proxy : Proxy) (fault : HttpFault)
    (hplain : d.isPlain = true)
    (hstrikes : p.registry.contains proxy.endpoint = true → p.Strikes d proxy.endpoint) :
    p.Effects d (responded?.next id { p with log } c failures retries wait timeout cloneable proxy
      fault) := by
  have heffects := p.effects_of_reportFailure log proxy.endpoint hplain hstrikes
  have hstill := hidle.reportFailure log proxy.endpoint
  unfold responded?.next
  split
  · next after hreport =>
      rw [hreport] at heffects hstill
      exact heffects.trans ((Quiet.remove hstill).trans (.finish after id rfl))
  · next after hreport =>
      rw [hreport] at heffects hstill
      split
      · exact heffects.trans ((Quiet.remove hstill).trans (.finish after id rfl))
      · exact heffects.trans (.put_idle hstill rfl)

theorem effects_of_responded? (hnum : Numbered p.tasks p.nextTask) {outcome : Exchange}
    (h : p.responded? id outcome = some q) : p.Effects (.move id (.responded outcome)) q := by
  unfold responded? at h
  split at h
  · next c htask =>
      split at h
      · next failures retries wait timeout cloneable proxy used since hpurpose hstage =>
          have hidle : p.Idle id := .of_task? hnum htask (token?_of_using hstage)
          cases outcome with
          | responded =>
              apply Effects.quiet rfl
              exact Option.some.inj h ▸ (Quiet.remove hidle).trans (.finish p id rfl)
          | failed fault =>
              exact Option.some.inj h ▸ effects_of_next hidle _ c _ _ _ _ _ _ _ rfl
                (.unanswered htask hpurpose hstage nofun)
          | unusable fault =>
              exact Option.some.inj h ▸ effects_of_next hidle _ c _ _ _ _ _ _ _ rfl
                (.unanswered htask hpurpose hstage nofun)
      · cases h
  · cases h

end SocksPool.Pool
