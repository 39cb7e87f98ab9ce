import SocksPool.Proofs.Fittings
import SocksPool.Proofs.Shifts

/-!
# What stops halfway

There are two ways in which a task or a call of a pool stops halfway. It strikes an
endpoint, and the window of the strike ends later than the clock can say; or it is a
scale loop that is to tick all the time. `Pool.Breaks` says of a deed, in terms of the
pool before it, that it is one of these. The count of what has stopped halfway goes
up with these deeds and with no others. A difference of worker counts that does not fit
a signed word wraps around and stops nothing; arithmetic that checks for overflow would
stop there too.

## Main definitions

* `Pool.Breaks` — the deed stops halfway.

## Main results

* `reportFailure_jams` — a report stops halfway, or comes to its end.
* `breaks_or_keeps` — a deed that is not made to change fittings keeps them, and
  raises the count exactly if it stops halfway.
* `tick?_cases` — a tick stops halfway, or is a tick of the scaler.
-/

namespace SocksPool

namespace Deed

/-- The deed may stop halfway. -/
def fallible : Deed → Bool
  | .reportFailure _ | .move _ .tick | .move _ (.attempted _) | .move _ (.dialled _)
  | .move _ (.responded _) => true
  | _ => false

/-- The deed is made to change fittings. -/
def refits : Deed → Bool
  | .adjust _ | .tune _ | .closeWorkers | .advance _ | .move _ .tick => true
  | _ => false

theorem refits_cases {d : Deed} (h : d.refits = true) :
    (∃ setting, d = .adjust setting) ∨ (∃ change, d = .tune change) ∨ d = .closeWorkers ∨
      (∃ span, d = .advance span) ∨ ∃ id, d = .move id .tick := by
  cases d with
  | adjust setting => exact .inl ⟨setting, rfl⟩
  | tune change => exact .inr (.inl ⟨change, rfl⟩)
  | closeWorkers => exact .inr (.inr (.inl rfl))
  | advance span => exact .inr (.inr (.inr (.inl ⟨span, rfl⟩)))
  | move id move =>
      cases move with
      | tick => exact .inr (.inr (.inr (.inr ⟨id, rfl⟩)))
      | _ => cases h
  | _ => cases h

end Deed

namespace Pool

/-- The deed stops halfway. -/
inductive Breaks (p : Pool) : Deed → Prop where
  /-- The clock cannot represent the end of the window of a strike. -/
  | strike {d : Deed} {endpoint : String} (hstrikes : p.Strikes d endpoint)
      (hlong : (p.backoff.strike p.now endpoint).2 = none) : Breaks p d
  /-- A scale loop is to tick all the time. -/
  | noPeriod {id epoch : Nat} (htask : p.task? id = some (.scaleLoop epoch none))
      (hzero : p.config.scaleInterval = 0) : Breaks p (.move id .tick)

variable {p q : Pool} {d : Deed} {id : Nat}

/-! ## Strikes -/

/-- The deed stops halfway and is counted, or it does not and keeps the fittings. -/
def BreaksOrKeeps (p : Pool) (d : Deed) (q : Pool) : Prop :=
  p.Breaks d ∧ q.fittings = p.fittings.crash ∨ ¬ p.Breaks d ∧ q.fittings = p.fittings

/-- A report of the endpoint stops halfway. -/
def Jams (p : Pool) (endpoint : String) : Prop :=
  p.registry.contains endpoint = true ∧ (p.backoff.strike p.now endpoint).2 = none

/-- A report stops halfway if it strikes and the end of the window does not exist, and
comes to its end otherwise. -/
theorem reportFailure_jams (p : Pool) (endpoint : String) :
    (p.Jams endpoint ∧ (p.reportFailure endpoint).2 = false ∧
        (p.reportFailure endpoint).1.fittings = p.fittings.crash) ∨
      (¬ p.Jams endpoint ∧ (p.reportFailure endpoint).2 = true ∧
        (p.reportFailure endpoint).1.fittings = p.fittings) := by
  have hkept (life : Nat) : ((p.markBad life).1.strike endpoint).1.fittings = p.fittings :=
    fittings_strike _ endpoint
  unfold Jams Registry.contains reportFailure
  cases hfind : p.registry.find? endpoint with
  | none => exact .inr ⟨by simp, rfl, rfl⟩
  | some life =>
      dsimp only
      have hwindow : ((p.markBad life).1.strike endpoint).2 =
          (p.backoff.strike p.now endpoint).2 := rfl
      specialize hkept life
      rw [← hwindow]
      generalize hstruck : (p.markBad life).1.strike endpoint = struck at hkept
      obtain ⟨struck, _ | window⟩ := struck
      · exact .inl ⟨by simp, rfl, congrArg Fittings.crash hkept⟩
      · refine .inr ⟨by simp, ?_⟩
        dsimp only
        split
        · exact ⟨rfl, (fittings_evict struck endpoint).trans hkept⟩
        · exact ⟨rfl, hkept⟩

/-- So does the end of a failed round. -/
theorem failRound_jams (p : Pool) (id : Nat) (r : Round) :
    ((p.backoff.strike p.now r.endpoint).2 = none ∧
        (p.failRound id r).fittings = p.fittings.crash) ∨
      ((p.backoff.strike p.now r.endpoint).2 ≠ none ∧
        (p.failRound id r).fittings = p.fittings) := by
  have hkept : ((markBad { p with stats := p.stats.recordBad } r.life).1.strike
      r.endpoint).1.fittings = p.fittings := fittings_strike _ r.endpoint
  have hwindow : ((markBad { p with stats := p.stats.recordBad } r.life).1.strike
      r.endpoint).2 = (p.backoff.strike p.now r.endpoint).2 := rfl
  unfold failRound
  dsimp only
  rw [← hwindow]
  generalize (markBad { p with stats := p.stats.recordBad } r.life).1.strike r.endpoint =
    struck at hkept
  obtain ⟨struck, _ | window⟩ := struck
  · refine .inl ⟨rfl, ?_⟩
    dsimp only
    split
    · exact (fittings_closeRound _ id true).trans (congrArg Fittings.crash hkept)
    · exact congrArg Fittings.crash hkept
  · refine .inr ⟨nofun, ?_⟩
    dsimp only
    rw [fittings_closeRound]
    split
    · exact (fittings_evict struck r.endpoint).trans hkept
    · exact hkept

theorem breaks_or_keeps_reportFailure (p : Pool) (endpoint : String) :
    p.BreaksOrKeeps (.reportFailure endpoint) (p.reportFailure endpoint).1 := by
  rcases p.reportFailure_jams endpoint with ⟨⟨hlisted, hlong⟩, -, hcrash⟩ | ⟨hjams, -, hkept⟩
  · exact .inl ⟨.strike (.reported hlisted) hlong, hcrash⟩
  · refine .inr ⟨fun hbreaks => hjams ?_, hkept⟩
    cases hbreaks with
    | strike hstrikes hlong =>
        cases hstrikes with
        | reported hlisted => exact ⟨hlisted, hlong⟩

theorem breaks_or_keeps_attempted? {outcome : Except PoolError Address}
    (h : p.attempted? id outcome = some q) : p.BreaksOrKeeps (.move id (.attempted outcome)) q := by
  -- A move of a round breaks off only as the failure of the round.
  have hfails (hbreaks : p.Breaks (.move id (.attempted outcome))) :
      ∃ r protocol since e, outcome = .error e ∧ p.task? id = some (.round r) ∧
        r.stage = .attempting protocol [] since ∧
        (p.backoff.strike p.now r.endpoint).2 = none := by
    cases hbreaks with
    | strike hstrikes hlong =>
        cases hstrikes with
        | failed htask hstage => exact ⟨_, _, _, _, rfl, htask, hstage, hlong⟩
  unfold attempted? at h
  split at h
  · next r htask =>
      split at h
      · next protocol rest since hstage =>
          split at h
          · next exit =>
              rw [← Option.some.inj h]
              refine .inr ⟨fun hbreaks => ?_, fittings_passRound p id r protocol exit⟩
              obtain ⟨_, _, _, _, hfailed, -⟩ := hfails hbreaks
              cases hfailed
          · next e =>
              dsimp only at h
              split at h
              · next another more =>
                  rw [← Option.some.inj h]
                  refine .inr ⟨fun hbreaks => ?_, rfl⟩
                  obtain ⟨found, _, _, _, -, hfound, hlast, -⟩ := hfails hbreaks
                  rw [htask] at hfound
                  cases hfound
                  rw [hstage] at hlast
                  cases hlast
              · rw [← Option.some.inj h]
                rcases (p.tell (.attemptFailed r.endpoint protocol e)).failRound_jams id r with
                  ⟨hlong, hcrash⟩ | ⟨hfits, hkept⟩
                · exact .inl ⟨.strike (.failed htask hstage) hlong, hcrash⟩
                · refine .inr ⟨fun hbreaks => hfits ?_, hkept⟩
                  obtain ⟨found, _, _, _, -, hfound, -, hlong⟩ := hfails hbreaks
                  rw [htask] at hfound
                  cases hfound
                  exact hlong
      · cases h
  · cases h

theorem breaks_or_keeps_dialled? {outcome : Except PoolError Unit}
    (h : p.dialled? id outcome = some q) : p.BreaksOrKeeps (.move id (.dialled outcome)) q := by
  have hjams (hbreaks : p.Breaks (.move id (.dialled outcome))) :
      ∃ c proxy timeout since e, outcome = .error e ∧ p.task? id = some (.caller c) ∧
        c.stage = .using proxy timeout since ∧ p.Jams proxy.endpoint := by
    cases hbreaks with
    | strike hstrikes hlong =>
        cases hstrikes with
        | undialled htask _ hstage hlisted =>
            exact ⟨_, _, _, _, _, rfl, htask, hstage, hlisted, hlong⟩
  unfold dialled? at h
  split at h
  · next c htask =>
      split at h
      · next address proxy timeout since hpurpose hstage =>
          split at h
          · rw [← Option.some.inj h]
            refine .inr ⟨fun hbreaks => ?_, rfl⟩
            obtain ⟨_, _, _, _, _, hfailed, -⟩ := hjams hbreaks
            cases hfailed
          · next e =>
              have hreport := (p.tell (.dialFailed address proxy.endpoint e)).reportFailure_jams
                proxy.endpoint
              split at h
              · next hended =>
                  rw [hended] at hreport
                  obtain ⟨-, hfalse, -⟩ | ⟨hnot, -, hkept⟩ := hreport
                  · cases hfalse
                  · rw [← Option.some.inj h]
                    refine .inr ⟨fun hbreaks => hnot ?_, hkept⟩
                    obtain ⟨_, _, _, _, _, -, hfound, husing, hjammed⟩ := hjams hbreaks
                    rw [htask] at hfound
                    cases hfound
                    rw [hstage] at husing
                    cases husing
                    exact hjammed
              · next hended =>
                  rw [hended] at hreport
                  obtain ⟨⟨hlisted, hlong⟩, -, hcrash⟩ | ⟨-, htrue, -⟩ := hreport
                  · rw [← Option.some.inj h]
                    exact .inl ⟨.strike (.undialled htask hpurpose hstage hlisted) hlong, hcrash⟩
                  · cases htrue
      · cases h
  · cases h

/-- A request that failed goes on or ends, unless the report stops halfway. -/
theorem next_jams (p : Pool) (id : Nat) (c : Caller) (failures retries wait timeout : Nat)
    (cloneable : Bool) (proxy : Proxy) (fault : HttpFault) :
    (p.Jams proxy.endpoint ∧
        (responded?.next id p c failures retries wait timeout cloneable proxy fault).fittings =
          p.fittings.crash) ∨
      (¬ p.Jams proxy.endpoint ∧
        (responded?.next id p c failures retries wait timeout cloneable proxy fault).fittings =
          p.fittings) := by
  have hreport := p.reportFailure_jams proxy.endpoint
  unfold responded?.next
  split
  · next hended =>
      rw [hended] at hreport
      obtain ⟨hjams, -, hcrash⟩ | ⟨-, htrue, -⟩ := hreport
      · exact .inl ⟨hjams, hcrash⟩
      · cases htrue
  · next hended =>
      rw [hended] at hreport
      obtain ⟨-, hfalse, -⟩ | ⟨hnot, -, hkept⟩ := hreport
      · cases hfalse
      · refine .inr ⟨hnot, ?_⟩
        split <;> exact hkept

theorem breaks_or_keeps_responded? {outcome : Exchange}
    (h : p.responded? id outcome = some q) : p.BreaksOrKeeps (.move id (.responded outcome)) q := by
  have hjams (hbreaks : p.Breaks (.move id (.responded outcome))) :
      ∃ c proxy timeout since, outcome ≠ .responded ∧ p.task? id = some (.caller c) ∧
        c.stage = .using proxy timeout since ∧ p.Jams proxy.endpoint := by
    cases hbreaks with
    | strike hstrikes hlong =>
        cases hstrikes with
        | unanswered htask _ hstage hfailed hlisted =>
            exact ⟨_, _, _, _, hfailed, htask, hstage, hlisted, hlong⟩
  unfold responded? at h
  split at h
  · next c htask =>
      split at h
      · next failures retries wait allowed cloneable proxy timeout since hpurpose hstage =>
          -- Both kinds of failure are told to the log and then go the same way.
          have hfailed (log : List Event) (fault : HttpFault) (hnot : outcome ≠ .responded)
              (hnext : responded?.next id { p with log } c failures retries wait allowed cloneable
                proxy fault = q) : p.BreaksOrKeeps (.move id (.responded outcome)) q := by
            have hends := next_jams { p with log } id c failures retries wait allowed cloneable
              proxy fault
            rw [hnext] at hends
            rcases hends with ⟨⟨hlisted, hlong⟩, hcrash⟩ | ⟨hfits, hkept⟩
            · exact .inl
                ⟨.strike (.unanswered htask hpurpose hstage hnot hlisted) hlong, hcrash⟩
            · refine .inr ⟨fun hbreaks => hfits ?_, hkept⟩
              obtain ⟨_, _, _, _, -, hfound, husing, hjammed⟩ := hjams hbreaks
              rw [htask] at hfound
              cases hfound
              rw [hstage] at husing
              cases husing
              exact hjammed
          split at h
          · rw [← Option.some.inj h]
            refine .inr ⟨fun hbreaks => ?_, rfl⟩
            obtain ⟨_, _, _, _, hnot, -⟩ := hjams hbreaks
            exact hnot rfl
          · exact hfailed _ _ nofun (Option.some.inj h)
          · exact hfailed _ _ nofun (Option.some.inj h)
      · cases h
  · cases h

/-! ## Deeds -/

theorem Breaks.fallible (h : p.Breaks d) : d.fallible = true := by
  cases h with
  | noPeriod _ _ => rfl
  | strike hstrikes _ => cases hstrikes <;> rfl

theorem BreaksOrKeeps.of_keeps (hdeed : d.fallible = false) (hkept : q.fittings = p.fittings) :
    p.BreaksOrKeeps d q := by
  refine .inr ⟨fun hbreaks => ?_, hkept⟩
  rw [hbreaks.fallible] at hdeed
  cases hdeed

/-- Every move but a tick keeps the fittings, unless it stops halfway. -/
theorem breaks_or_keeps_move? {move : Move} (h : p.move? id move = some q) (hmove : move ≠ .tick) :
    p.BreaksOrKeeps (.move id move) q := by
  cases move with
  | tick => exact absurd rfl hmove
  | attempted outcome => exact breaks_or_keeps_attempted? h
  | dialled outcome => exact breaks_or_keeps_dialled? h
  | responded outcome => exact breaks_or_keeps_responded? h
  | halt => exact .of_keeps rfl (fittings_of_halt? h)
  | lockIntake => exact .of_keeps rfl (fittings_of_lockIntake? h)
  | receive => exact .of_keeps rfl (fittings_of_receive? h)
  | forward => exact .of_keeps rfl (fittings_of_forward? h)
  | look => exact .of_keeps rfl (fittings_of_look? h)
  | pick => exact .of_keeps rfl (fittings_of_pick? h)
  | deliver => exact .of_keeps rfl (fittings_of_deliver? h)
  | wake => exact .of_keeps rfl (fittings_of_wake? h)
  | comeBack => exact .of_keeps rfl (fittings_of_comeBack? h)
  | dispense protocol => exact .of_keeps rfl (fittings_of_dispense? h)
  | cancel => exact .of_keeps rfl (fittings_of_cancel? h)
  | abandon => exact .of_keeps rfl (fittings_of_abandon? h)
  | redialled good => exact .of_keeps rfl (fittings_of_redialled? h)

/-- A deed that is not made to change fittings keeps them, unless it stops halfway. -/
theorem breaks_or_keeps (hact : p.act? d = some q) (hdeed : d.refits = false) :
    p.BreaksOrKeeps d q := by
  cases d with
  | reportFailure endpoint =>
      rw [← Option.some.inj hact]
      exact p.breaks_or_keeps_reportFailure endpoint
  | move id move =>
      refine breaks_or_keeps_move? hact ?_
      rintro rfl
      cases hdeed
  | load raw =>
      rw [← Option.some.inj hact]
      exact .of_keeps rfl (p.fittings_load raw)
  | loadList content =>
      rw [← Option.some.inj hact]
      exact .of_keeps rfl (p.fittings_loadAll _)
  | loadFetched source content =>
      rw [← Option.some.inj hact]
      exact .of_keeps rfl (fittings_loadAll _ _)
  | start =>
      rw [← Option.some.inj hact]
      exact .of_keeps rfl p.fittings_start
  | pause =>
      rw [← Option.some.inj hact]
      exact .of_keeps rfl p.fittings_pause
  | resume =>
      rw [← Option.some.inj hact]
      exact .of_keeps rfl p.fittings_resume
  | dial network address cancel =>
      rw [← Option.some.inj hact]
      refine .of_keeps rfl ?_
      unfold dial
      split <;> rfl
  | get _ _ | attach | send _ =>
      rw [← Option.some.inj hact]
      exact .of_keeps rfl rfl
  | adjust _ | tune _ | closeWorkers | advance _ => cases hdeed

theorem fittings_tickAt (p : Pool) (id epoch due : Nat) :
    (p.tickAt id epoch due).fittings =
      p.fittings.resize (p.gang.tick p.stats.backlog).1 :=
  p.fittings_tickAgainst p.stats.backlog

/-- A tick of a scale loop stops halfway, or ticks the scaler. -/
theorem tick?_cases (h : p.tick? id = some q) :
    (p.Breaks (.move id .tick) ∧ q.fittings = p.fittings.crash) ∨
      (¬ p.Breaks (.move id .tick) ∧
        q.fittings = p.fittings.resize (p.gang.tick p.stats.backlog).1) := by
  unfold tick? at h
  split at h
  · next epoch htask =>
      split at h
      · next hzero =>
          rw [← Option.some.inj h]
          exact .inl ⟨.noPeriod htask hzero, rfl⟩
      · next hperiod =>
          rw [← Option.some.inj h]
          refine .inr ⟨fun hbreaks => ?_, p.fittings_tickAt id epoch _⟩
          cases hbreaks with
          | strike hstrikes _ => cases hstrikes
          | noPeriod _ hzero => exact hperiod hzero
  · next epoch due htask =>
      split at h
      · next hreached =>
          rw [← Option.some.inj h]
          refine .inr ⟨fun hbreaks => ?_, p.fittings_tickAt id epoch due⟩
          cases hbreaks with
          | strike hstrikes _ => cases hstrikes
          | noPeriod hfound _ =>
              rw [htask] at hfound
              cases hfound
      · cases h
  · cases h

end Pool

end SocksPool
