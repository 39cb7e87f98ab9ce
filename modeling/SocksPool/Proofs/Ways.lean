import SocksPool.Proofs.Census
import SocksPool.Proofs.Typed

/-!
# Ways of rounds and copies

Every deed lets at most one round or copy go from one place to another.
`Way` lists the ways they can go, and `Follows` says that a deed takes one
way and posts it under the right counter: a round is counted as checked when it
begins, and under a protocol when it passes. A copy goes on until it is
dispensed or lost, and a way on which it is lost says how.

## Main definitions

* `Way` — the ways of a round and of its copy.
* `Step.discards`, `Step.forsakes` — the steps that lose a copy.

## Main results

* `follows_of_act?` — every deed takes one way.
-/

open SocksPool.Task (Numbered)

namespace SocksPool

/-- The ways of a round and of its copy. -/
inductive Way where
  /-- Nothing goes anywhere. -/
  | stays
  | begins
  | fails
  | passes
  | delivers
  /-- The gate lets a queued copy go on to its check. -/
  | takes
  /-- The gate turns a queued copy away. -/
  | rejects
  | serves
  /-- The candidate does not answer. -/
  | refuses
  /-- The candidate of a cancelled caller goes back. -/
  | restores
  /-- There is no room for it to go back. -/
  | overflows
  /-- The candidate of a dropped caller is lost with it. -/
  | leaves
deriving DecidableEq

namespace Way

/-- Where the way begins. -/
def out? : Way → Option Place
  | .stays | .begins => none
  | .fails | .passes => some .attempting
  | .delivers => some .delivering
  | .takes | .rejects => some .queued
  | .serves | .refuses | .restores | .overflows | .leaves => some .checking

/-- Where the way ends. -/
def into? : Way → Option Place
  | .stays | .rejects | .refuses | .overflows | .leaves => none
  | .begins => some .attempting
  | .fails => some .failed
  | .passes => some .delivering
  | .delivers | .restores => some .queued
  | .takes => some .checking
  | .serves => some .dispensed

/-- The copy is discarded. -/
def discards : Way → Bool
  | .rejects | .refuses | .overflows => true
  | _ => false

end Way

namespace Pool

/-- The deed discards a candidate: the gate turns it away, it does not answer,
or it is put back and there is no room. -/
def discards (p : Pool) (d : Deed) (q : Pool) : Bool :=
  match d with
  | .move id (.dispense _) => (q.candidate? id).isNone
  | .move _ (.redialled good) => !good
  | .move id .cancel =>
    match p.candidate? id with
    | some candidate => !p.outputRoom candidate.protocol
    | none => false
  | _ => false

/-- The deed drops a caller that re-dials a candidate. -/
def forsakes (p : Pool) (d : Deed) : Bool :=
  match d with
  | .move id .abandon => (p.candidate? id).isSome
  | _ => false

/-- A deed lets a round or copy go one way, and posts it. -/
structure Follows (p : Pool) (d : Deed) (q : Pool) (way : Way) : Prop where
  population : ∀ place, q.population place + way.out?.toList.count place =
    p.population place + way.into?.toList.count place
  checked : q.stats.checked = p.stats.checked + if way = .begins then 1 else 0
  validated : q.stats.totalValidated = p.stats.totalValidated + if way = .passes then 1 else 0
  discards : p.discards d q = way.discards
  forsakes : p.forsakes d = decide (way = .leaves)

end Pool

/-- A candidate is discarded in this step. -/
def Step.discards (s : Step) : Bool := s.before.discards s.deed s.after

/-- A caller is dropped in this step while it re-dials a candidate. -/
def Step.forsakes (s : Step) : Bool := s.before.forsakes s.deed

theorem Stats.checked_recordValid (s : Stats) (protocol : Protocol) :
    (s.recordValid protocol).checked = s.checked := by
  cases protocol <;> rfl

namespace Pool

variable {p q : Pool} {d : Deed} {id : Nat}

/-! ## Ways -/

theorem losses_of_isPlain (hplain : d.isPlain = true) (p q : Pool) :
    p.discards d q = false ∧ p.forsakes d = false := by
  cases d with
  | move id step => cases step <;> first | exact ⟨rfl, rfl⟩ | cases hplain
  | _ => exact ⟨rfl, rfl⟩

theorem losses_of_raws {raws : List String} (hraws : d.raws? = some raws) (p q : Pool) :
    p.discards d q = false ∧ p.forsakes d = false := by
  cases d with
  | move id step => cases hraws
  | _ => exact ⟨rfl, rfl⟩

/-- Nothing goes anywhere, and nothing is counted. -/
theorem Follows.stays (hpopulation : q.population = p.population)
    (hchecked : q.stats.checked = p.stats.checked)
    (hvalidated : q.stats.totalValidated = p.stats.totalValidated)
    (hlosses : p.discards d q = false ∧ p.forsakes d = false) : p.Follows d q .stays where
  population place := by
    rw [hpopulation]
    rfl
  checked := hchecked
  validated := hvalidated
  discards := hlosses.1
  forsakes := hlosses.2

/-- What a deed does quietly after its effect is not posted. -/
theorem Follows.quiet {mid : Pool} {way : Way} (h : p.Follows d mid way)
    (hnum : Numbered mid.tasks mid.nextTask) (hquiet : Quiet mid q) : p.Follows d q way where
  population place := by
    rw [hquiet.population]
    exact h.population place
  checked := by
    rw [hquiet.stats]
    exact h.checked
  validated := by
    rw [hquiet.stats]
    exact h.validated
  discards := by
    rw [← h.discards]
    unfold Pool.discards
    split
    · rw [hquiet.toAside.candidate? hnum]
    · rfl
    · rfl
    · rfl
  forsakes := h.forsakes

theorem checked_evict (p : Pool) (endpoint : String) :
    (p.evict endpoint).stats.checked = p.stats.checked := by
  unfold evict
  split <;> rfl

theorem validated_evict (p : Pool) (endpoint : String) :
    (p.evict endpoint).stats.totalValidated = p.stats.totalValidated := by
  unfold evict
  split <;> rfl

theorem stats_recycle (p : Pool) (wanted : Bool) (endpoint : String) :
    (p.recycle wanted endpoint).stats = p.stats := by
  cases wanted <;> rfl

theorem checked_serve (p : Pool) (id : Nat) (c : Caller) (proxy : Proxy) :
    (p.serve id c proxy).stats.checked = p.stats.checked := by
  unfold serve
  split <;> rfl

theorem validated_serve (p : Pool) (id : Nat) (c : Caller) (proxy : Proxy) :
    (p.serve id c proxy).stats.totalValidated = p.stats.totalValidated := by
  unfold serve
  split <;> rfl

/-- The gate turns away the head of a queue. -/
theorem Follows.rejects {protocol : Protocol} {candidate : Proxy} {rest : List Proxy}
    (hqueue : p.outputs.get protocol = candidate :: rest)
    (hpopulation : q.population =
      Pool.population { p with outputs := p.outputs.set protocol rest })
    (hchecked : q.stats.checked = p.stats.checked)
    (hvalidated : q.stats.totalValidated = p.stats.totalValidated) (hidle : q.Idle id) :
    p.Follows (.move id (.dispense protocol)) q .rejects where
  population place := by
    rw [hpopulation]
    exact population_dequeue hqueue place
  checked := hchecked
  validated := hvalidated
  discards := by
    show (q.candidate? id).isNone = true
    rw [hidle.candidate?]
    rfl
  forsakes := rfl

/-- A round has no protocol left. -/
theorem Follows.fails {r : Round} {protocol : Protocol} {since : Nat} {e : PoolError}
    (hnum : Numbered p.tasks p.nextTask) (htask : p.task? id = some (.round r))
    (hlast : r.stage = .attempting protocol [] since)
    (hpopulation : q.population = ((p.remove id).miss r).population)
    (hchecked : q.stats.checked = p.stats.checked)
    (hvalidated : q.stats.totalValidated = p.stats.totalValidated) :
    p.Follows (.move id (.attempted (.error e))) q .fails where
  population place := by
    have hgone := population_remove_of hnum htask (Task.place?_of_attempting hlast) place
    have hmissed := population_miss (p.remove id) r place
    show q.population place + [Place.attempting].count place =
      p.population place + [Place.failed].count place
    rw [hpopulation]
    omega
  checked := hchecked
  validated := hvalidated
  discards := rfl
  forsakes := rfl

/-- Every deed lets at most one round or copy go, and posts it. -/
theorem Effect.follows (horderly : Orderly p) (htyped : Typed p) (h : p.Effect d q) :
    ∃ way, p.Follows d q way := by
  have hafter := horderly.effect h
  have hnum := horderly.numbered
  cases h with
  | idled hplain => exact ⟨.stays, .stays rfl rfl rfl (losses_of_isPlain hplain _ _)⟩
  | elapsed | adjusted => exact ⟨.stays, .stays rfl rfl rfl ⟨rfl, rfl⟩⟩
  | @loaded d raws hraws =>
      obtain ⟨registry, intake, hloaded⟩ := p.loadAll_eq raws
      rw [hloaded]
      exact ⟨.stays, .stays rfl rfl rfl (losses_of_raws hraws _ _)⟩
  | reported hplain hfind => exact ⟨.stays, .stays rfl rfl rfl (losses_of_isPlain hplain _ _)⟩
  | @reportedOut d life endpoint hplain hfind hmarks =>
      have hlosses := losses_of_isPlain hplain p ((p.punish life endpoint).evict endpoint)
      exact ⟨.stays, .stays (population_evict (p.punish life endpoint) endpoint)
        (checked_evict (p.punish life endpoint) endpoint)
        (validated_evict (p.punish life endpoint) endpoint) hlosses⟩
  | handedBack htask | forwarded htask | cameBack htask =>
      refine ⟨.stays, .stays ?_ rfl rfl ⟨rfl, rfl⟩⟩
      funext place
      exact population_remove hnum htask place
  | received htask hintake =>
      refine ⟨.stays, .stays ?_ rfl rfl ⟨rfl, rfl⟩⟩
      funext place
      rw [population_put]
      exact population_remove hnum htask place
  | woke htask =>
      refine ⟨.stays, .stays ?_ rfl rfl ⟨rfl, rfl⟩⟩
      funext place
      rw [population_put]
      exact population_remove hnum htask place
  | skipped hidle hpending hfind => exact ⟨.stays, .stays rfl rfl rfl ⟨rfl, rfl⟩⟩
  | deferred due hidle hpending =>
      refine ⟨.stays, .stays ?_ rfl rfl ⟨rfl, rfl⟩⟩
      exact population_spawn _ rfl
  | opened htask hpending hfind hadmitted hclear =>
      refine ⟨.begins, fun place => ?_, rfl, rfl, rfl, rfl⟩
      have hgone := population_remove hnum htask place
      rw [population_put]
      exact congrArg (· + [Place.attempting].count place) hgone
  | @delivered id r copy htask hstage hroom =>
      refine ⟨.delivers, fun place => ?_, rfl, rfl, rfl, rfl⟩
      have hgone := population_remove_of hnum htask (Task.place?_of_delivering hstage) place
      show _ + [Place.delivering].count place = _ + [Place.queued].count place
      rw [population_deliver (known_of_room hroom)]
      omega
  | @passedOver id protocol candidate rest hidle hqueue hgate =>
      have hstill : Idle { p with outputs := p.outputs.set protocol rest } id :=
        ⟨hidle.below, hidle.free⟩
      exact ⟨.rejects, .rejects hqueue rfl rfl rfl hstill⟩
  | @struckOff id life protocol candidate rest hidle hqueue hfind hmarks =>
      have hstill : Idle { p with outputs := p.outputs.set protocol rest } id :=
        ⟨hidle.below, hidle.free⟩
      exact ⟨.rejects, .rejects hqueue (population_evict _ _) (checked_evict _ _)
        (validated_evict _ _) (hstill.evict candidate.endpoint)⟩
  | @sentBack id protocol candidate rest stats hidle hqueue hstats =>
      have hstill : Idle { p with outputs := p.outputs.set protocol rest, stats } id :=
        ⟨hidle.below, hidle.free⟩
      refine ⟨.rejects, .rejects hqueue ?_ ?_ ?_ (hstill.recycle _ candidate.endpoint)⟩
      · rw [population_recycle]
        funext place
        rcases hstats with rfl | rfl <;> cases place <;> rfl
      · rw [stats_recycle]
        rcases hstats with rfl | rfl <;> rfl
      · rw [stats_recycle]
        rcases hstats with rfl | rfl <;> rfl
  | @checked id life c protocol candidate rest locked entry htask hwaiting haccepts hqueue hfind
      hlock hentry hfresh =>
      refine ⟨.takes, fun place => ?_, rfl, rfl, ?_, rfl⟩
      · have hgone := population_remove
          (p := { p with outputs := p.outputs.set protocol rest, registry := locked })
          hnum htask place
        have hqueued := population_dequeue hqueue place
        rw [Task.place?_of_waiting hwaiting] at hgone
        show _ + [Place.queued].count place = _ + [Place.checking].count place
        rw [population_put, ← hqueued]
        refine Eq.trans ?_ (Nat.add_right_comm ..)
        exact congrArg (· + [Place.checking].count place + [Place.queued].count place) hgone
      · -- The caller is the last task now, and it is found by its number.
        have hfound := hafter.numbered.lookup_of_mem
          (List.mem_append_right _ (List.mem_singleton.2 rfl))
        unfold Pool.discards candidate? task?
        dsimp only
        rw [hfound]
        rfl
  | @cleared id life timeout since c candidate wanted entry htask hstage hentry =>
      have hholds := Option.isSome_of_eq_some (Task.token?_of_checking hstage)
      have haccepts := ((typed_of_task? htyped htask hholds).of_checking hstage).1
      have hpurpose : c.purpose ≠ .recheck := by
        intro hrecheck
        rw [hrecheck] at haccepts
        cases haccepts
      refine ⟨.serves, fun place => ?_, ?_, ?_, rfl, rfl⟩
      · have hgone := population_remove_of hnum htask (Task.place?_of_checking hstage) place
        show _ + [Place.checking].count place = _ + [Place.dispensed].count place
        rw [population_serve _ _ hpurpose, unlock_recycle, population_recycle, ← hgone]
        exact Nat.add_right_comm ..
      · rw [checked_serve, unlock_recycle, stats_recycle]
        rfl
      · rw [validated_serve, unlock_recycle, stats_recycle]
        rfl
  | voided htask hstage hentry =>
      have hholds := Option.isSome_of_eq_some (Task.token?_of_checking hstage)
      obtain ⟨found, hfound, -⟩ := ((horderly.backed_of_task? htask hholds).of_checking hstage).1
      rw [hentry] at hfound
      cases hfound
  | refused htask hstage =>
      refine ⟨.refuses, fun place => ?_, ?_, ?_, rfl, rfl⟩
      · rw [unlock_recycle, population_recycle]
        exact population_remove_of hnum htask (Task.place?_of_checking hstage) place
      · rw [unlock_recycle, stats_recycle]
        rfl
      · rw [unlock_recycle, stats_recycle]
        rfl
  | restored htask hstage hroom =>
      refine ⟨.restores, fun place => ?_, rfl, rfl, ?_, rfl⟩
      · have hgone := population_remove_of hnum htask (Task.place?_of_checking hstage) place
        show _ + [Place.checking].count place = _ + [Place.queued].count place
        rw [population_deliver (known_of_room hroom), ← hgone]
        exact Nat.add_right_comm ..
      · unfold Pool.discards
        dsimp only
        rw [candidate?_of_task? htask hstage]
        exact congrArg (!·) hroom
  | overflowed htask hstage hroom =>
      refine ⟨.overflows, fun place => ?_, rfl, rfl, ?_, rfl⟩
      · exact population_remove_of hnum htask (Task.place?_of_checking hstage) place
      · unfold Pool.discards
        dsimp only
        rw [candidate?_of_task? htask hstage]
        exact congrArg (!·) hroom
  | gaveUp hidle =>
      refine ⟨.stays, .stays rfl rfl rfl ⟨?_, rfl⟩⟩
      unfold Pool.discards
      dsimp only
      rw [hidle.candidate?]
  | dropped htask hstage =>
      refine ⟨.leaves, fun place => ?_, rfl, rfl, rfl, ?_⟩
      · exact population_remove_of hnum htask (Task.place?_of_checking hstage) place
      · unfold Pool.forsakes
        dsimp only
        rw [candidate?_of_task? htask hstage]
        rfl
  | left hidle =>
      refine ⟨.stays, .stays rfl rfl rfl ⟨rfl, ?_⟩⟩
      unfold Pool.forsakes
      dsimp only
      rw [hidle.candidate?]
      rfl
  | retried htask hstage =>
      refine ⟨.stays, .stays ?_ rfl rfl ⟨rfl, rfl⟩⟩
      funext place
      rw [population_put]
      exact population_remove_of hnum htask (Task.place?_of_attempting hstage) place
  | @passed id since r protocol rest exit entry htask hstage hentry =>
      have hprotocols := (typed_of_task? htyped htask rfl).of_attempting hstage
      have hknown : (entry.recordValidation p.now protocol exit).protocol ≠ .unknown := by
        apply Registry.protocol_recordValidation_ne
        rintro rfl
        exact hprotocols List.mem_cons_self
      refine ⟨.passes, fun place => ?_, ?_, ?_, rfl, rfl⟩
      · have hcounted := p.population_recordValid
          (p.registry.update r.life (·.recordValidation p.now protocol exit))
          (entry.recordValidation p.now protocol exit).protocol
        have hgone := population_remove_of (p := { p with
          registry := p.registry.update r.life (·.recordValidation p.now protocol exit)
          stats := p.stats.recordValid (entry.recordValidation p.now protocol exit).protocol })
          hnum htask (Task.place?_of_attempting hstage) place
        show _ + [Place.attempting].count place = _ + [Place.delivering].count place
        rw [population_put, ← hcounted, ← hgone]
        exact Nat.add_right_comm ..
      · exact Stats.checked_recordValid _ _
      · show (p.stats.recordValid _).totalValidated = _
        rw [Stats.totalValidated_recordValid, if_neg hknown]
        rfl
  | vanished htask hstage hentry =>
      obtain ⟨found, hfound, -⟩ := (horderly.backed_of_task? htask rfl).1
      rw [hentry] at hfound
      cases hfound
  | failedHalfway htask hlast hwindow => exact ⟨.fails, .fails hnum htask hlast rfl rfl rfl⟩
  | failedOut htask hlast hwindow hmarks =>
      exact ⟨.fails, .fails hnum htask hlast (population_evict _ _) (checked_evict _ _)
        (validated_evict _ _)⟩
  | failedKept htask hlast hwindow hmarks =>
      exact ⟨.fails, .fails hnum htask hlast (population_spawn _ rfl) rfl rfl⟩

/-- Every deed takes one way. -/
theorem follows_of_act? (horderly : Orderly p) (htyped : Typed p) (hact : p.act? d = some q) :
    ∃ way, p.Follows d q way := by
  obtain ⟨mid, heffect, hquiet⟩ := effects_of_act? horderly.numbered hact
  obtain ⟨way, hfollows⟩ := heffect.follows horderly htyped
  exact ⟨way, hfollows.quiet (horderly.effect heffect).numbered hquiet⟩

end Pool

end SocksPool
