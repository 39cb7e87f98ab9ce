import SocksPool.Proofs.Effect

/-!
# Effects of loops and rounds

The moves of the intake loop, of the spawner, of requeue tasks and of
validation rounds, each with its effect. A round whose last attempt fails has
one of three ends: it stops halfway, it evicts its endpoint, or it sends it
back.

## Main results

* `effects_of_pick?`, `effects_of_attempted?`, `effects_of_deliver?` — the
  moves of a round.
* `Fails.cases` — how a round ends that has failed.
-/

open SocksPool.Task (Numbered)

namespace SocksPool

/-- A timer that is set for some time ends later. -/
theorem Instant.lt_deadline {span : Nat} (hpos : 0 < span) (t : Nat) : t < deadline t span := by
  unfold deadline add? farAhead Span.second
  split
  · exact Nat.lt_add_of_pos_right hpos
  · exact Nat.lt_add_of_pos_right (by decide)

/-- A use that is not admitted has to wait. -/
theorem Usage.wait_pos {u : Usage} {now wait : Nat} {endpoint : String}
    (h : (u.check now endpoint).2 = some wait) : 0 < wait := by
  unfold check at h
  dsimp only at h
  split at h
  · next hlater =>
      rw [← Option.some.inj h]
      exact Nat.sub_pos_of_lt hlater
  · cases h

/-- So has an endpoint that is backed off. -/
theorem Backoff.wait_pos {b : Backoff} {now wait : Nat} {endpoint : String}
    (h : b.retryAfter? now endpoint = some wait) : 0 < wait := by
  unfold retryAfter? at h
  split at h
  · split at h
    · next hlater =>
        rw [← Option.some.inj h]
        exact Nat.sub_pos_of_lt hlater
    · cases h
  · cases h

/-- What is asked before a round of an endpoint begins. -/
inductive Limiter where
  | usage
  | backoff
deriving DecidableEq

/-- How long a limiter would refuse the endpoint at some time, if it would. -/
def Limiter.wait? (p : Pool) (time : Nat) (endpoint : String) : Limiter → Option Nat
  | .usage => (p.usage.check time endpoint).2
  | .backoff => p.backoff.retryAfter? time endpoint

/-- A limiter that refuses an endpoint makes it wait. -/
theorem Limiter.wait_pos {limiter : Limiter} {p : Pool} {time wait : Nat} {endpoint : String}
    (h : limiter.wait? p time endpoint = some wait) : 0 < wait := by
  cases limiter with
  | usage => exact Usage.wait_pos h
  | backoff => exact Backoff.wait_pos h

namespace Pool

/-- The first limiter that refuses the endpoint now, and for how long. -/
def refusal? (p : Pool) (endpoint : String) : Option (Limiter × Nat) :=
  ((Limiter.usage.wait? p p.now endpoint).map (.usage, ·)).or
    ((Limiter.backoff.wait? p p.now endpoint).map (.backoff, ·))

theorem refusal?_eq_none {p : Pool} {endpoint : String} :
    p.refusal? endpoint = none ↔ (p.usage.check p.now endpoint).2 = none ∧
      p.backoff.retryAfter? p.now endpoint = none := by
  simp [refusal?, Limiter.wait?]

theorem wait?_of_refusal? {p : Pool} {endpoint : String} {limiter : Limiter} {wait : Nat}
    (h : p.refusal? endpoint = some (limiter, wait)) :
    limiter.wait? p p.now endpoint = some wait := by
  unfold refusal? at h
  rcases Option.or_eq_some_iff.1 h with husage | ⟨-, hbackoff⟩
  · obtain ⟨found, hfound, hsame⟩ := Option.map_eq_some_iff.1 husage
    cases hsame
    exact hfound
  · obtain ⟨found, hfound, hsame⟩ := Option.map_eq_some_iff.1 hbackoff
    cases hsame
    exact hfound

/-- The deed is the failure of the round's last attempt. -/
def Fails (p : Pool) (d : Deed) (r : Round) : Prop :=
  ∃ id protocol since e, d = .move id (.attempted (.error e)) ∧
    p.task? id = some (.round r) ∧ r.stage = .attempting protocol [] since

variable {p q : Pool} {d : Deed} {id : Nat}

/-! ## Loops -/

theorem effects_of_halt? (hnum : Numbered p.tasks p.nextTask) (h : p.halt? id = some q) :
    p.Effects (.move id .halt) q := by
  unfold halt? at h
  split at h
  · next epoch stage htask =>
      split at h
      · cases stage with
        | holding endpoint => exact ⟨_, .handedBack htask, Option.some.inj h ▸ .refl _⟩
        | waiting | receiving =>
            exact .quiet rfl (Option.some.inj h ▸ .remove (.of_task? hnum htask rfl))
      · cases h
  · next htask =>
      split at h
      · exact .quiet rfl (Option.some.inj h ▸ .remove (.of_task? hnum htask rfl))
      · cases h
  · next htask =>
      split at h
      · exact .quiet rfl (Option.some.inj h ▸ .remove (.of_task? hnum htask rfl))
      · cases h
  · next htask =>
      split at h
      · apply Effects.quiet rfl
        rw [← Option.some.inj h]
        exact (Quiet.remove (.of_task? hnum htask rfl)).trans (.releaseSlot _)
      · cases h
  · cases h

theorem effects_of_lockIntake? (hnum : Numbered p.tasks p.nextTask)
    (h : p.lockIntake? id = some q) : p.Effects (.move id .lockIntake) q := by
  unfold lockIntake? at h
  split at h
  · next htask =>
      split at h
      · cases h
      · exact .quiet rfl (Option.some.inj h ▸ .put_idle (.of_task? hnum htask rfl) rfl)
  · cases h

theorem effects_of_receive? (h : p.receive? id = some q) : p.Effects (.move id .receive) q := by
  unfold receive? at h
  split at h
  · next htask hintake => exact ⟨_, .received htask hintake, Option.some.inj h ▸ .refl _⟩
  · cases h

theorem effects_of_forward? (hnum : Numbered p.tasks p.nextTask) (h : p.forward? id = some q) :
    p.Effects (.move id .forward) q := by
  unfold forward? at h
  split at h
  · next epoch endpoint htask =>
      split at h
      · refine ⟨_, .forwarded htask, ?_⟩
        rw [← Option.some.inj h]
        show Quiet ((p.pushPending endpoint).remove id) _
        exact .put (hnum.lt_of_lookup htask) rfl
      · cases h
  · cases h

theorem effects_of_look? (hnum : Numbered p.tasks p.nextTask) (h : p.look? id = some q) :
    p.Effects (.move id .look) q := by
  unfold look? at h
  split at h
  · next epoch htask =>
      have hidle : p.Idle id := .of_task? hnum htask rfl
      split at h
      · apply Effects.quiet rfl
        rw [← Option.some.inj h]
        exact (Quiet.remove hidle).trans (.tell _ _)
      · split at h
        · apply Effects.quiet rfl
          rw [← Option.some.inj h]
          have htaken : Quiet p { p with slots := p.slots.take } :=
            .housekeeping rfl (Nat.le_refl _)
          exact (htaken.trans (.put_idle (htaken.idle hidle) rfl)).trans (.spawn _ rfl)
        · exact .quiet rfl (Option.some.inj h ▸ .put_idle hidle rfl)
  · cases h

theorem tickAt_quiet {epoch : Nat} (hidle : p.Idle id) (due : Nat) :
    Quiet p (p.tickAt id epoch due) :=
  have hticked := Quiet.tickScaler p
  hticked.trans (.put_idle (hticked.idle hidle) rfl)

theorem effects_of_tick? (hnum : Numbered p.tasks p.nextTask) (h : p.tick? id = some q) :
    p.Effects (.move id .tick) q := by
  unfold tick? at h
  split at h
  · next htask =>
      have hidle : p.Idle id := .of_task? hnum htask rfl
      apply Effects.quiet rfl
      split at h
      · rw [← Option.some.inj h]
        exact (Quiet.remove hidle).trans (.housekeeping rfl (Nat.le_succ _))
      · exact Option.some.inj h ▸ tickAt_quiet hidle _
  · next htask =>
      split at h
      · exact .quiet rfl (Option.some.inj h ▸ tickAt_quiet (.of_task? hnum htask rfl) _)
      · cases h
  · cases h

theorem effects_of_wake? (h : p.wake? id = some q) : p.Effects (.move id .wake) q := by
  unfold wake? at h
  split at h
  · next htask =>
      split at h
      · exact ⟨_, .woke htask, Option.some.inj h ▸ .refl _⟩
      · cases h
  · cases h

theorem effects_of_comeBack? (h : p.comeBack? id = some q) :
    p.Effects (.move id .comeBack) q := by
  unfold comeBack? at h
  split at h
  · next htask =>
      split at h
      · exact ⟨_, .cameBack htask, Option.some.inj h ▸ .refl _⟩
      · cases h
  · cases h

/-! ## Rounds -/

theorem requeue_of_pos {endpoint : String} {delay : Nat} (hpos : 0 < delay) :
    p.requeue endpoint delay =
      p.spawn (.requeue endpoint (some (Instant.deadline p.now delay))) := by
  unfold requeue
  rw [if_neg (Nat.ne_of_gt hpos)]

/-- A round is not opened for an unknown endpoint, is put off by a limiter, or
begins. -/
theorem openRound_cases (p : Pool) (endpoint : String) :
    (p.registry.find? endpoint = none ∧ p.openRound endpoint true = (p, none)) ∨
    (∃ log limiter wait, p.refusal? endpoint = some (limiter, wait) ∧
      p.openRound endpoint true = (spawn { p.meter endpoint with log }
        (.requeue endpoint (some (Instant.deadline p.now wait))), none)) ∨
    ∃ life, p.registry.find? endpoint = some life ∧ p.refusal? endpoint = none ∧
      p.openRound endpoint true =
        ({ p.meter endpoint with stats := p.stats.recordChecked },
          some (p.firstRound endpoint life)) := by
  unfold openRound refusal? Limiter.wait?
  cases hfind : p.registry.find? endpoint with
  | none => exact .inl ⟨rfl, rfl⟩
  | some life =>
      right
      dsimp only
      split
      · next wait hthrottled =>
          refine .inl ⟨p.log ++ [.throttled endpoint wait], .usage, wait, ?_, ?_⟩
          · rw [hthrottled]
            rfl
          · rw [requeue_of_pos (Usage.wait_pos hthrottled)]
            rfl
      · next wait hadmitted hbacked =>
          refine .inl ⟨p.log ++ [.backedOff endpoint wait], .backoff, wait, ?_, ?_⟩
          · rw [hadmitted, hbacked]
            rfl
          · rw [requeue_of_pos (Backoff.wait_pos hbacked)]
            rfl
      · next hadmitted hclear =>
          refine .inr ⟨life, rfl, ?_, rfl⟩
          rw [hadmitted, hclear]
          rfl

/-- A job that is idle takes the head off the pending queue. It finds the endpoint
evicted, or puts it off, or begins a round of it. -/
theorem pick?_cases (hnum : Numbered p.tasks p.nextTask) (h : p.pick? id = some q) :
    ∃ epoch endpoint rest, p.task? id = some (.idleJob epoch) ∧ p.pending = endpoint :: rest ∧
      ((p.registry.find? endpoint = none ∧ Quiet { p with pending := rest } q) ∨
        (∃ limiter wait, p.refusal? endpoint = some (limiter, wait) ∧
          Quiet (spawn { p.meter endpoint with pending := rest }
            (.requeue endpoint (some (Instant.deadline p.now wait)))) q) ∨
        ∃ life, p.registry.find? endpoint = some life ∧ p.refusal? endpoint = none ∧
          q = put { p.meter endpoint with pending := rest, stats := p.stats.recordChecked } id
            (.round (p.firstRound endpoint life))) := by
  unfold pick? at h
  split at h
  · next epoch endpoint rest htask hpending =>
      refine ⟨epoch, endpoint, rest, htask, hpending, ?_⟩
      have hidle : p.Idle id := .of_task? hnum htask rfl
      have hpopped : Idle { p with pending := rest } id := .of_task? hnum htask rfl
      rcases openRound_cases { p with pending := rest } endpoint with
        ⟨hfind, hopen⟩ | ⟨log, limiter, wait, hrefused, hopen⟩ | ⟨life, hfind, hadmitted, hopen⟩
      all_goals rw [hopen] at h; rw [← Option.some.inj h]
      · exact .inl ⟨hfind, (Quiet.remove hpopped).trans (.closeRound _ id true)⟩
      · refine .inr (.inl ⟨limiter, wait, hrefused, ?_⟩)
        have hlogged : Quiet
            (spawn { p.meter endpoint with pending := rest }
              (.requeue endpoint (some (Instant.deadline p.now wait))))
            (spawn { p.meter endpoint with pending := rest, log }
              (.requeue endpoint (some (Instant.deadline p.now wait)))) :=
          .housekeeping rfl (Nat.le_refl _)
        have hmetered : Idle { p.meter endpoint with pending := rest } id :=
          ⟨hidle.below, hidle.free⟩
        have hstill := hlogged.idle (hmetered.spawn _)
        exact (hlogged.trans (.remove hstill)).trans (.closeRound _ id true)
      · exact .inr (.inr ⟨life, hfind, hadmitted, rfl⟩)
  · cases h

theorem effects_of_pick? (hnum : Numbered p.tasks p.nextTask) (h : p.pick? id = some q) :
    p.Effects (.move id .pick) q := by
  obtain ⟨epoch, endpoint, rest, htask, hpending, hcases⟩ := pick?_cases hnum h
  have hidle : p.Idle id := .of_task? hnum htask rfl
  rcases hcases with ⟨hfind, hquiet⟩ | ⟨limiter, wait, -, hquiet⟩ | ⟨life, hfind, hadmitted, rfl⟩
  · exact ⟨_, .skipped hidle hpending hfind, hquiet⟩
  · exact ⟨_, .deferred (some (Instant.deadline p.now wait)) hidle hpending, hquiet⟩
  · obtain ⟨husage, hclear⟩ := refusal?_eq_none.1 hadmitted
    exact ⟨_, .opened htask hpending hfind husage hclear, .refl _⟩

theorem effects_of_deliver? (h : p.deliver? id = some q) :
    p.Effects (.move id .deliver) q := by
  unfold deliver? at h
  split at h
  · next r htask =>
      split at h
      · next copy hstage =>
          split at h
          · next hroom =>
              refine ⟨_, .delivered htask hstage hroom, ?_⟩
              rw [← Option.some.inj h]
              exact .closeRound (p.deliver copy) id r.inSlot
          · cases h
      · cases h
  · cases h

/-! ## Attempts -/

/-- How a round ends that has no protocol left. -/
theorem failRound_cases (hbelow : id < p.nextTask) (log : List Event) (r : Round) :
    ((p.backoff.strike p.now r.endpoint).2 = none ∧
      Quiet ((p.remove id).miss r).crash (failRound { p with log } id r)) ∨
    ((p.backoff.strike p.now r.endpoint).2.isSome = true ∧ p.Exhausts r.life ∧
      Quiet (((p.remove id).miss r).evict r.endpoint) (failRound { p with log } id r)) ∨
    ∃ window, (p.backoff.strike p.now r.endpoint).2 = some window ∧ ¬ p.Exhausts r.life ∧
      Quiet (((p.remove id).miss r).requeue r.endpoint window) (failRound { p with log } id r) := by
  have hmissed : (p.remove id).miss r =
      { p.remove id with
        registry := p.registry.update r.life Entry.markBad
        backoff := (p.backoff.strike p.now r.endpoint).1
        stats := p.stats.recordBad } := rfl
  rw [hmissed]
  -- The strike comes before the marks are looked at, so its overflow ends the round first.
  unfold failRound strike markBad
  rcases hstrike : p.backoff.strike p.now r.endpoint with ⟨backoff, _ | window⟩
  · refine .inl ⟨rfl, ?_⟩
    dsimp only
    rw [hstrike]
    dsimp only
    have hcrashed : Quiet
        (crash { p.remove id with
          registry := p.registry.update r.life Entry.markBad, backoff
          stats := p.stats.recordBad })
        (remove (crash { p with
          registry := p.registry.update r.life Entry.markBad, backoff, log
          stats := p.stats.recordBad }) id) := .housekeeping rfl (Nat.le_refl _)
    split
    · exact hcrashed.trans (.closeRound _ id true)
    · exact hcrashed.trans (.finish _ id rfl)
  · right
    dsimp only
    rw [hstrike]
    dsimp only
    by_cases hmarks : p.Exhausts r.life
    · refine .inl ⟨rfl, hmarks, ?_⟩
      rw [if_pos]
      · refine .trans ?_ (.closeRound _ id r.inSlot)
        rw [remove_evict]
        refine .evict ?_ r.endpoint
        exact .housekeeping rfl (Nat.le_refl _)
      · exact hmarks
    · refine .inr ⟨window, rfl, hmarks, ?_⟩
      rw [if_neg]
      · refine .trans ?_ (.closeRound _ id r.inSlot)
        unfold requeue
        rw [remove_spawn]
        · exact .housekeeping rfl (Nat.le_refl _)
        · exact hbelow
      · exact hmarks

theorem attempted?_last {r : Round} {protocol : Protocol} {since : Nat} {e : PoolError}
    (htask : p.task? id = some (.round r)) (hlast : r.stage = .attempting protocol [] since) :
    p.attempted? id (.error e) =
      some (failRound { p with log := p.log ++ [.attemptFailed r.endpoint protocol e] } id r) := by
  unfold attempted?
  rw [htask]
  dsimp only
  rw [hlast]
  rfl

/-- A protocol has worked for a life that there is. -/
theorem passRound_eq {r : Round} {entry : Entry} (hentry : p.registry.entry? r.life = some entry)
    (id : Nat) (protocol : Protocol) (exit : Address) :
    p.passRound id r protocol exit =
      put { p with
        registry := p.registry.update r.life (·.recordValidation p.now protocol exit)
        stats := p.stats.recordValid (entry.recordValidation p.now protocol exit).protocol
        log := p.log ++
          [.validated r.endpoint (entry.recordValidation p.now protocol exit).protocol exit] } id
        (.round { r with
          stage := .delivering (entry.recordValidation p.now protocol exit).snapshot }) := by
  unfold passRound
  dsimp only
  rw [Registry.entry?_update, if_pos rfl, hentry]
  rfl

theorem effects_of_attempted? (hnum : Numbered p.tasks p.nextTask)
    {outcome : Except PoolError Address} (h : p.attempted? id outcome = some q) :
    p.Effects (.move id (.attempted outcome)) q := by
  unfold attempted? at h
  split at h
  · next r htask =>
      have hbelow : id < p.nextTask := hnum.lt_of_lookup htask
      split at h
      · next protocol rest since hstage =>
          split at h
          · next exit =>
              rw [← Option.some.inj h]
              cases hentry : p.registry.entry? r.life with
              | none =>
                  refine ⟨_, .vanished htask hstage hentry, ?_⟩
                  have hnone : Registry.entry?
                      (p.registry.update r.life (·.recordValidation p.now protocol exit)) r.life =
                        none := by
                    rw [Registry.entry?_update, if_pos rfl, hentry]
                    rfl
                  unfold passRound
                  dsimp only
                  rw [hnone]
                  exact .closeRound p id r.inSlot
              | some entry =>
                  rw [passRound_eq hentry]
                  exact ⟨_, .passed htask hstage hentry, .housekeeping rfl (Nat.le_refl _)⟩
          · next e =>
              split at h
              · next following more =>
                refine ⟨_, .retried htask hstage, ?_⟩
                rw [← Option.some.inj h]
                exact .housekeeping rfl (Nat.le_refl _)
              · rw [← Option.some.inj h]
                have hends := failRound_cases hbelow
                  (p.log ++ [.attemptFailed r.endpoint protocol e]) r
                rcases hends with ⟨hwindow, hrest⟩ | ⟨hwindow, hmarks, hrest⟩ |
                  ⟨window, hwindow, hmarks, hrest⟩
                · exact ⟨_, .failedHalfway htask hstage hwindow, hrest⟩
                · exact ⟨_, .failedOut htask hstage hwindow hmarks, hrest⟩
                · exact ⟨_, .failedKept htask hstage hwindow hmarks, hrest⟩
      · cases h
  · cases h

/-- A round that has failed stops halfway, evicts its endpoint, or sends it back. -/
theorem Fails.cases {r : Round} (h : p.Fails d r) (hnum : Numbered p.tasks p.nextTask)
    (hact : p.act? d = some q) :
    ∃ id, p.task? id = some (.round r) ∧
      (((p.backoff.strike p.now r.endpoint).2 = none ∧
          Quiet ((p.remove id).miss r).crash q) ∨
        ((p.backoff.strike p.now r.endpoint).2.isSome = true ∧ p.Exhausts r.life ∧
          Quiet (((p.remove id).miss r).evict r.endpoint) q) ∨
        ∃ window, (p.backoff.strike p.now r.endpoint).2 = some window ∧ ¬ p.Exhausts r.life ∧
          Quiet (((p.remove id).miss r).requeue r.endpoint window) q) := by
  obtain ⟨id, protocol, since, e, rfl, htask, hlast⟩ := h
  have hafter : p.attempted? id (.error e) = some q := hact
  rw [attempted?_last htask hlast] at hafter
  refine ⟨id, htask, ?_⟩
  rw [← Option.some.inj hafter]
  exact failRound_cases (hnum.lt_of_lookup htask) _ r

end Pool

end SocksPool
