import SocksPool.Proofs.Breaks
import SocksPool.Proofs.Calls

/-!
# Reports of failed proxies

A caller whose proxy fails reports it, and a report is all that the pool ever hears
of the failure. What comes of it is written into the records of the pool: the
registry, the strikes, the uses and the counters. Three things can happen. The name
is no longer registered, and nothing is written. Or its life is marked and the name
struck, and below the threshold that is all. Or the mark reaches the threshold, and
the endpoint is evicted as well.

The other moves of a caller report nothing. They are told apart by where the caller
stands, and a caller stands where it stood until a move of its own.

## Main definitions

* `Pool.Blamed` — what a report leaves in the records.
* `Pool.At` — where a call stands and what it was answered.

## Main results

* `reportFailure_blames` — a report comes to its end, or stops halfway.
* `judge_reports_nothing` — the gate strikes nobody and hands out nothing.
* `at_call` — where a call stands when it begins.
* `At.act` — what others do leaves a call where it stands.
* `goesOn_of_caller` — whatever a caller waits for lets it go on.
-/

open SocksPool.Task (Numbered)

namespace SocksPool

/-- The caller has no proxy yet. It waits for one, or has a candidate re-dialled. -/
def CallerStage.Seeks (stage : CallerStage) : Prop :=
  stage = .waiting ∨ ∃ candidate life timeout recycle since,
    stage = .checking candidate life timeout recycle since

namespace Pool

variable {p q mid : Pool} {d : Deed} {id life : Nat} {endpoint : String} {c : Caller}

/-! ## Reports -/

/-- What a pool has written down of endpoints: who is registered, and how often each was
struck, used and counted. -/
def records (p : Pool) : Registry × Backoff × Usage × Stats :=
  (p.registry, p.backoff, p.usage, p.stats)

theorem stats_of_records (h : q.records = p.records) : q.stats = p.stats :=
  congrArg (·.2.2.2) h

/-- The endpoint was reported, and the report came to its end. -/
inductive Blamed (p : Pool) (endpoint : String) (q : Pool) : Prop where
  /-- It is not registered. -/
  | unknown (hgone : p.registry.find? endpoint = none) (hsame : q.records = p.records)
  /-- One mark and one strike, and the endpoint stays. -/
  | kept {life : Nat} (hfind : p.registry.find? endpoint = some life)
      (hmarks : p.registry.badMarks life + 1 < p.config.removeAfter)
      (hpunished : q.records = (p.punish life endpoint).records)
  /-- One mark and one strike, and the mark is the last one that it may have. -/
  | evicted {life : Nat} (hfind : p.registry.find? endpoint = some life)
      (hmarks : p.config.removeAfter ≤ p.registry.badMarks life + 1)
      (hpunished : q.records = ((p.punish life endpoint).evict endpoint).records)

theorem markBad_eq (hlife : p.registry.IsLife life endpoint) :
    (p.markBad life).2 = p.registry.badMarks life + 1 := by
  obtain ⟨entry, hentry, -⟩ := hlife
  have hmarked : Registry.entry? (p.registry.update life Entry.markBad) life =
      some entry.markBad := by
    rw [Registry.entry?_update, if_pos rfl, hentry]
    rfl
  unfold markBad Registry.badMarks
  dsimp only
  rw [hmarked, hentry]
  rfl

/-- A report comes to its end, unless it strikes for longer than the clock can say. Then it
stops after the strike. -/
theorem reportFailure_blames (hsound : p.registry.Sound) (endpoint : String) :
    (p.reportFailure endpoint).2 = true ∧ ¬ p.Jams endpoint ∧
        p.Blamed endpoint (p.reportFailure endpoint).1 ∨
      (p.reportFailure endpoint).2 = false ∧ p.Jams endpoint ∧
        ∃ life, p.registry.find? endpoint = some life ∧
          (p.reportFailure endpoint).1.records = (p.punish life endpoint).records := by
  unfold Jams Registry.contains reportFailure
  cases hfind : p.registry.find? endpoint with
  | none => exact .inl ⟨rfl, by simp, .unknown hfind rfl⟩
  | some life =>
      have hmarks := markBad_eq (hsound.named hfind)
      have hpunished : (p.punish life endpoint).records =
          ((p.markBad life).1.registry, (p.backoff.strike p.now endpoint).1, p.usage, p.stats) :=
        rfl
      dsimp only
      rw [hmarks]
      have hwindow : ((p.markBad life).1.strike endpoint).2 =
          (p.backoff.strike p.now endpoint).2 := rfl
      have hpunish : ((p.markBad life).1.strike endpoint).1 = p.punish life endpoint := rfl
      have hconfig : (p.punish life endpoint).config = p.config := rfl
      rw [← hwindow]
      rcases hstrike : (p.markBad life).1.strike endpoint with ⟨struck, _ | window⟩
      all_goals
        rw [hstrike] at hpunish
        obtain rfl : struck = p.punish life endpoint := hpunish
        dsimp only
      · exact .inr ⟨rfl, ⟨rfl, rfl⟩, life, rfl, rfl⟩
      · refine .inl ?_
        rw [hconfig]
        split
        · next hlast => exact ⟨rfl, nofun, .evicted hfind hlast rfl⟩
        · next hmore => exact ⟨rfl, nofun, .kept hfind (Nat.lt_of_not_le hmore) rfl⟩

/-- What an eviction writes down depends on the records and the time. -/
theorem records_evict (hrecords : q.records = p.records) (hnow : q.now = p.now)
    (endpoint : String) : (q.evict endpoint).records = (p.evict endpoint).records := by
  obtain ⟨hregistry, hrest⟩ := Prod.mk.inj hrecords
  obtain ⟨hbackoff, hrest⟩ := Prod.mk.inj hrest
  obtain ⟨husage, hstats⟩ := Prod.mk.inj hrest
  unfold evict
  rw [hregistry]
  cases p.registry.delete endpoint with
  | error e => exact hrecords
  | ok deleted =>
      dsimp only [records, tell]
      rw [hbackoff, husage, hstats, hnow]

/-- Only what is written down matters. -/
theorem Blamed.of_records (h : p.Blamed endpoint mid) (hrecords : q.records = mid.records) :
    p.Blamed endpoint q := by
  cases h with
  | unknown hgone hsame => exact .unknown hgone (hrecords.trans hsame)
  | kept hfind hmarks hpunished => exact .kept hfind hmarks (hrecords.trans hpunished)
  | evicted hfind hmarks hpunished => exact .evicted hfind hmarks (hrecords.trans hpunished)

/-- What was told to the log does not matter. -/
theorem Blamed.of_tell {e : Event} (h : (p.tell e).Blamed endpoint q) : p.Blamed endpoint q := by
  cases h with
  | unknown hgone hsame => exact .unknown hgone hsame
  | kept hfind hmarks hpunished => exact .kept hfind hmarks hpunished
  | @evicted life hfind hmarks hpunished =>
      have hsame : ((p.tell e).punish life endpoint).records = (p.punish life endpoint).records :=
        rfl
      exact .evicted hfind hmarks (hpunished.trans (records_evict hsame rfl endpoint))

/-- A report that is told to the log first comes to its end or stops halfway all the same,
and leaves all tasks alone. -/
theorem told_and_blamed (hsound : p.registry.Sound) (e : Event) (endpoint : String) :
    Keeps none p ((p.tell e).reportFailure endpoint).1 ∧
      ((p.tell e).reportFailure endpoint).1.now = p.now ∧
      (((p.tell e).reportFailure endpoint).2 = true ∧ ¬ p.Jams endpoint ∧
          p.Blamed endpoint ((p.tell e).reportFailure endpoint).1 ∨
        ((p.tell e).reportFailure endpoint).2 = false ∧ p.Jams endpoint ∧
          ∃ life, p.registry.find? endpoint = some life ∧
            ((p.tell e).reportFailure endpoint).1.records = (p.punish life endpoint).records) := by
  refine ⟨((Keeps.refl p).tell e).reportFailure endpoint,
    (Still.reportFailure (p.tell e) endpoint).now, ?_⟩
  rcases reportFailure_blames (p := p.tell e) hsound endpoint with
    ⟨hended, hfits, hblamed⟩ | hstopped
  · exact .inl ⟨hended, hfits, hblamed.of_tell⟩
  · exact .inr hstopped

/-- A report hands out nothing. -/
theorem Blamed.dispensed (h : p.Blamed endpoint q) : q.stats.dispensed = p.stats.dispensed := by
  cases h with
  | unknown _ hsame => rw [stats_of_records hsame]
  | kept _ _ hpunished =>
      rw [stats_of_records hpunished]
      rfl
  | evicted _ _ hpunished =>
      rw [stats_of_records hpunished]
      unfold evict
      split <;> rfl

/-! ## The gate -/

/-- The gate strikes nobody and hands out nothing. If it forgets strikes, then those of the
endpoint that it evicts. -/
theorem judge_reports_nothing (p : Pool) (endpoint : String) :
    ((p.judge endpoint).1.backoff = p.backoff ∨
        ∃ evicted, (p.judge endpoint).1.backoff = p.backoff.forget evicted) ∧
      (p.judge endpoint).1.stats.dispensed = p.stats.dispensed := by
  rcases p.judge_cases endpoint with ⟨-, hjudge⟩ | ⟨life, -, -, hjudge⟩ |
    ⟨log, stats, hstats, hjudge⟩ | ⟨life, locked, entry, -, -, -, -, hjudge⟩
  all_goals rw [hjudge]
  · exact ⟨.inl rfl, rfl⟩
  · unfold evict
    split
    · exact ⟨.inl rfl, rfl⟩
    · exact ⟨.inr ⟨endpoint, rfl⟩, rfl⟩
  · unfold recycle
    rcases hstats with rfl | rfl <;> split <;> exact ⟨.inl rfl, rfl⟩
  · exact ⟨.inl rfl, rfl⟩

/-! ## Where a call stands -/

/-- The call is the given one, or it is over if there is none, and so far it was answered
with these. -/
structure At (p : Pool) (id : Nat) (c : Option Caller) (answers : List Answer) : Prop where
  below : id < p.nextTask
  task : p.task? id = c.map Task.caller
  answered : p.answersTo id = answers

variable {stood : Option Caller} {answers : List Answer}

theorem standing?_eq_iff :
    p.standing? id = stood.map Task.caller ↔ p.task? id = stood.map Task.caller := by
  cases stood with
  | none => exact standing?_eq_none_iff
  | some c => exact standing?_eq_caller_iff

namespace At

/-- What is done for others leaves a call where it stands. -/
theorem keeps {own : Option Nat} (h : p.At id stood answers) (hkeeps : Keeps own p q)
    (hother : own ≠ some id) : q.At id stood answers where
  below := Nat.lt_of_lt_of_le h.below hkeeps.next
  task := by
    rw [← standing?_eq_iff, hkeeps.stands id h.below hother, standing?_eq_iff]
    exact h.task
  answered := (hkeeps.answersTo id hother).trans h.answered

/-- And so do deeds that are no moves of its own. -/
theorem act (h : p.At id stood answers) (hact : p.act? d = some q)
    (hother : d.mover? ≠ some id) : q.At id stood answers := by
  by_cases hget : ∃ wanted cancel, d = .get wanted cancel
  · obtain ⟨wanted, cancel, rfl⟩ := hget
    rw [← Option.some.inj hact]
    exact ⟨Nat.lt_succ_of_lt h.below, (task?_spawn_of_lt h.below _).trans h.task, h.answered⟩
  · have hkeeps := keeps_of_act? hact fun wanted cancel heq => hget ⟨wanted, cancel, heq⟩
    exact h.keeps hkeeps hother

theorem put (h : p.At id stood answers) (hkeeps : Keeps none p mid) (new : Caller) :
    (mid.put id (.caller new)).At id (some new) answers where
  below := Nat.lt_of_lt_of_le h.below hkeeps.next
  task := task?_put_self ..
  answered := (hkeeps.answersTo id nofun).trans h.answered

theorem finish (h : p.At id stood answers) (hkeeps : Keeps none p mid) (answer : Answer) :
    (mid.finish id answer).At id none (answers ++ [answer]) where
  below := Nat.lt_of_lt_of_le h.below hkeeps.next
  task := task?_remove mid id
  answered := by
    rw [answersTo_finish_self, hkeeps.answersTo id nofun, h.answered]

theorem remove (h : p.At id stood answers) (hkeeps : Keeps none p mid) :
    (mid.remove id).At id none answers where
  below := Nat.lt_of_lt_of_le h.below hkeeps.next
  task := task?_remove mid id
  answered := (hkeeps.answersTo id nofun).trans h.answered

end At

/-! ## Moves of a caller -/

/-- The moves that callers make. -/
def byCaller : Move → Bool
  | .dispense _ | .cancel | .abandon | .redialled _ | .dialled _ | .responded _ => true
  | _ => false

/-- A caller makes no other moves. -/
theorem byCaller_of_move? (htask : p.task? id = some (.caller c)) {move : Move}
    (h : p.move? id move = some q) : byCaller move = true := by
  cases move with
  | dispense _ | cancel | abandon | redialled _ | dialled _ | responded _ => rfl
  | _ =>
      simp [move?, halt?, lockIntake?, receive?, forward?, look?, tick?, pick?, deliver?, wake?,
        comeBack?, attempted?, htask] at h

/-- A task that is over does not move. -/
theorem move?_eq_none (hgone : p.task? id = none) (move : Move) : p.move? id move = none := by
  cases move <;>
    simp [move?, halt?, lockIntake?, receive?, forward?, look?, tick?, pick?, deliver?, wake?,
      comeBack?, dispense?, cancel?, abandon?, attempted?, redialled?, dialled?, responded?, hgone]

/-- Who moves has a number that was given out. -/
theorem lt_of_mover? (hnum : Numbered p.tasks p.nextTask) (hact : p.act? d = some q)
    (hmoves : d.mover? = some id) : id < p.nextTask := by
  obtain ⟨move, rfl⟩ := Deed.eq_move_of_mover? hmoves
  cases hfind : p.task? id with
  | some task => exact hnum.lt_of_lookup hfind
  | none =>
      have hdone : p.move? id move = some q := hact
      rw [move?_eq_none hfind] at hdone
      cases hdone

/-- A number that was not given out has no answers. -/
def Fresh (p : Pool) : Prop := ∀ id, p.nextTask ≤ id → p.answersTo id = []

theorem Fresh.act (h : p.Fresh) (hnum : Numbered p.tasks p.nextTask) (hact : p.act? d = some q) :
    q.Fresh := by
  intro id hnext
  by_cases hget : ∃ wanted cancel, d = .get wanted cancel
  · obtain ⟨wanted, cancel, rfl⟩ := hget
    rw [← Option.some.inj hact] at hnext ⊢
    exact h id (Nat.le_of_succ_le hnext)
  · have hkeeps := keeps_of_act? hact fun wanted cancel heq => hget ⟨wanted, cancel, heq⟩
    have hbefore : p.nextTask ≤ id := Nat.le_trans hkeeps.next hnext
    rw [hkeeps.answersTo id fun hmoves => ?_]
    · exact h id hbefore
    · exact absurd (lt_of_mover? hnum hact hmoves) (Nat.not_lt.2 hbefore)

theorem fresh_of_withSlots {config : Config} {slots : Slots}
    (h : Pool.withSlots config slots = .ok p) : p.Fresh := by
  intro id _
  unfold Pool.withSlots at h
  split at h
  · cases h
  · rw [← Except.ok.inj h]
    rfl

/-- In a run, all answers are to calls that have begun. -/
theorem Fresh.throughout {steps : List Step} (h : p.Fresh) (horderly : Orderly p)
    (hrun : Run p steps q) : q.Fresh := by
  induction hrun with
  | rest => exact h
  | step s hrun ih => exact ih.act (horderly.throughout hrun).1.numbered s.done

/-- A reachable pool is orderly, and has no answers to calls that are yet to begin. -/
theorem orderly_and_fresh {config : Config} {slots : Slots} {steps : List Step}
    (hmade : Pool.withSlots config slots = .ok p) (hrun : Run p steps q) :
    Orderly q ∧ q.Fresh := by
  have horderly := orderly_of_withSlots hmade
  exact ⟨(horderly.throughout hrun).1, (fresh_of_withSlots hmade).throughout horderly hrun⟩

/-- A call begins with a wait, and without an answer. -/
theorem at_call (horderly : Orderly p) (hfresh : p.Fresh) (purpose : Purpose)
    (patience : Option Nat) :
    (p.call purpose patience).At p.nextTask (some ⟨purpose, patience, .waiting⟩) [] where
  below := Nat.lt_succ_self _
  task := task?_spawn_self horderly.numbered _
  answered := hfresh _ (Nat.le_refl _)

/-- A caller that looks at a candidate waits on, or has it re-dialled. -/
theorem dispense?_reports_nothing {protocol : Protocol} (hat : p.At id (some c) answers)
    (h : p.dispense? id protocol = some q) :
    c.stage = .waiting ∧ ∃ stage, stage.Seeks ∧ q.At id (some { c with stage }) answers ∧
      (q.backoff = p.backoff ∨ ∃ endpoint, q.backoff = p.backoff.forget endpoint) ∧
      q.stats.dispensed = p.stats.dispensed := by
  have htask : p.task? id = some (.caller c) := hat.task
  unfold dispense? at h
  rw [htask] at h
  split at h
  · next found candidate rest hfound hqueue =>
      cases hfound
      split at h
      · next hwaits =>
          obtain ⟨hbackoff, hdispensed⟩ :=
            judge_reports_nothing { p with outputs := p.outputs.set protocol rest }
              candidate.endpoint
          have hkeeps : Keeps none p
              (judge { p with outputs := p.outputs.set protocol rest } candidate.endpoint).1 := by
            apply Keeps.judge
            exact (Keeps.refl p).same rfl rfl rfl
          generalize judge { p with outputs := p.outputs.set protocol rest } candidate.endpoint =
            judged at h hbackoff hdispensed hkeeps
          obtain ⟨mid, _ | life⟩ := judged
          · rw [← Option.some.inj h]
            exact ⟨hwaits.1, c.stage, .inl hwaits.1, hat.put hkeeps c, hbackoff, hdispensed⟩
          · rw [← Option.some.inj h]
            exact ⟨hwaits.1, _, .inr ⟨candidate, life, _, _, _, rfl⟩, hat.put hkeeps _, hbackoff,
              hdispensed⟩
      · cases h
  · cases h

/-- A caller whose candidate does not answer waits on. -/
theorem redialled?_false (hat : p.At id (some c) answers) (hasks : c.purpose ≠ .recheck)
    (h : p.redialled? id false = some q) :
    q.At id (some { c with stage := .waiting }) answers ∧ q.backoff = p.backoff ∧
      q.stats = p.stats := by
  have htask : p.task? id = some (.caller c) := hat.task
  unfold redialled? at h
  rw [htask] at h
  dsimp only at h
  split at h
  · next candidate life timeout recycle since hstage =>
      rw [if_neg nofun] at h
      have hkeeps : Keeps none p
          ((((p.tell (.skippedDead candidate.endpoint)).markBad life).1.recycle recycle
            candidate.endpoint).unlock life) := by
        refine Keeps.same (Keeps.recycle ?_ recycle candidate.endpoint) rfl rfl rfl
        exact (Keeps.refl p).same rfl rfl rfl
      unfold reject at h
      split at h
      · next hrecheck => exact absurd hrecheck hasks
      · rw [← Option.some.inj h]
        refine ⟨hat.put hkeeps _, ?_, ?_⟩
        all_goals cases recycle <;> rfl
  · cases h

/-- A caller whose candidate answers is handed what is known of its life now. -/
theorem redialled?_true (horderly : Orderly p) (hat : p.At id (some c) answers)
    (h : p.redialled? id true = some q) :
    ∃ candidate life timeout recycle since entry mid,
      c.stage = .checking candidate life timeout recycle since ∧
      p.registry.entry? life = some entry ∧ Keeps none p mid ∧ mid.now = p.now ∧
      mid.config = p.config ∧
      mid.records = (p.registry.release life, p.backoff, p.usage, p.stats) ∧
      q = mid.hand id c entry.snapshot := by
  have htask : p.task? id = some (.caller c) := hat.task
  unfold redialled? at h
  rw [htask] at h
  dsimp only at h
  split at h
  · next candidate life timeout recycle since hstage =>
      have hholds : (Task.caller c).token?.isSome = true :=
        Option.isSome_of_eq_some (Task.token?_of_checking hstage)
      obtain ⟨entry, hentry, -⟩ :=
        ((horderly.backed_of_task? htask hholds).of_checking hstage).1
      rw [if_pos rfl] at h
      rw [entry?_unlock_recycle, hentry] at h
      have hkeeps : Keeps none p ((p.recycle recycle candidate.endpoint).unlock life) :=
        ((Keeps.refl p).recycle recycle candidate.endpoint).same rfl rfl rfl
      refine ⟨candidate, life, timeout, recycle, since, entry, _, hstage, hentry, hkeeps, ?_, ?_,
        ?_, (Option.some.inj h).symm⟩
      all_goals cases recycle <;> rfl
  · cases h

/-- Whoever is handed a proxy for use is counted, and nothing else is written down. -/
theorem records_hand (p : Pool) (id : Nat) (proxy : Proxy) (hasks : c.purpose ≠ .recheck) :
    (p.hand id c proxy).records =
      (p.registry, p.backoff, p.usage, p.stats.recordDispensed) := by
  unfold hand
  split
  · next hrecheck => exact absurd hrecheck hasks
  · rfl
  · rfl
  · dsimp only
    split <;> rfl

/-- A caller that gives up gets the answer that it is told. -/
theorem cancel?_reports_nothing (hat : p.At id (some c) answers) (h : p.cancel? id = some q) :
    ∃ patience mid, c.patience = some patience ∧ Instant.reached patience p.now = true ∧
      Keeps none p mid ∧ mid.backoff = p.backoff ∧ mid.stats = p.stats ∧
      q = mid.giveUp id c := by
  have htask : p.task? id = some (.caller c) := hat.task
  unfold cancel? at h
  rw [htask] at h
  dsimp only at h
  split at h
  · cases h
  · next patience hpatience =>
      split at h
      · next hreached =>
          split at h
          · next candidate life timeout recycle since hstage =>
              have hunlocked : Keeps none p (p.unlock life) := (Keeps.refl p).same rfl rfl rfl
              refine ⟨patience, _, hpatience, hreached, hunlocked.restore candidate, ?_, ?_,
                (Option.some.inj h).symm⟩
              all_goals
                unfold restore
                split
                · rfl
                · split <;> rfl
          all_goals
            exact ⟨patience, p, hpatience, hreached, .refl p, rfl, rfl,
              (Option.some.inj h).symm⟩
      · cases h

/-- A caller that is dropped gets none. -/
theorem abandon?_reports_nothing (hat : p.At id (some c) answers) (h : p.abandon? id = some q) :
    q.At id none answers ∧ q.backoff = p.backoff ∧ q.stats = p.stats := by
  have htask : p.task? id = some (.caller c) := hat.task
  unfold abandon? at h
  rw [htask] at h
  dsimp only at h
  split at h
  · next candidate life timeout recycle since hstage =>
      have hunlocked : Keeps none p (p.unlock life) := (Keeps.refl p).same rfl rfl rfl
      rw [← Option.some.inj h]
      exact ⟨hat.remove hunlocked, rfl, rfl⟩
  · rw [← Option.some.inj h]
    exact ⟨hat.remove (.refl p), rfl, rfl⟩

/-- Whatever a caller waits for lets it go on: a candidate of a protocol that it accepts,
the end of a re-dial, the end of its patience, and the end of what it uses its proxy for. -/
structure GoesOn (p : Pool) (id : Nat) (c : Caller) : Prop where
  candidate : c.stage = .waiting → ∀ protocol, Purpose.accepts c.purpose protocol = true →
    p.outputs.get protocol ≠ [] → (p.move? id (.dispense protocol)).isSome = true
  redial : ∀ candidate life timeout recycle since,
    c.stage = .checking candidate life timeout recycle since →
      ∀ good, (p.move? id (.redialled good)).isSome = true
  patience : ∀ patience, c.patience = some patience → Instant.reached patience p.now = true →
    (p.move? id .cancel).isSome = true
  tunnel : ∀ address proxy timeout since, c.purpose = .dial address →
    c.stage = .using proxy timeout since →
      ∀ outcome, (p.move? id (.dialled outcome)).isSome = true
  response : ∀ failures retries wait allowed cloneable proxy timeout since,
    c.purpose = .send failures retries wait allowed cloneable →
      c.stage = .using proxy timeout since →
        ∀ outcome, (p.move? id (.responded outcome)).isSome = true

theorem goesOn_of_caller (htask : p.task? id = some (.caller c)) : p.GoesOn id c where
  candidate hwaits protocol haccepts hqueue := by
    obtain ⟨candidate, rest, hhead⟩ := List.exists_cons_of_ne_nil hqueue
    show (p.dispense? id protocol).isSome = true
    unfold dispense?
    rw [htask, hhead]
    dsimp only
    rw [if_pos ⟨hwaits, haccepts⟩]
    split <;> rfl
  redial candidate life timeout recycle since hstage good := by
    show (p.redialled? id good).isSome = true
    unfold redialled?
    rw [htask]
    dsimp only
    rw [hstage]
    cases good with
    | false => rfl
    | true =>
        dsimp only
        rw [if_pos rfl]
        split <;> rfl
  patience patience hpatience hreached := by
    show (p.cancel? id).isSome = true
    unfold cancel?
    rw [htask]
    dsimp only
    rw [hpatience]
    dsimp only
    rw [if_pos hreached]
    cases c.stage <;> rfl
  tunnel address proxy timeout since hpurpose hstage outcome := by
    show (p.dialled? id outcome).isSome = true
    unfold dialled?
    rw [htask]
    dsimp only
    rw [hpurpose, hstage]
    cases outcome with
    | ok done => rfl
    | error e =>
        dsimp only
        split <;> rfl
  response failures retries wait allowed cloneable proxy timeout since hpurpose hstage outcome := by
    show (p.responded? id outcome).isSome = true
    unfold responded?
    rw [htask]
    dsimp only
    rw [hpurpose, hstage]
    cases outcome <;> rfl

end Pool

end SocksPool
