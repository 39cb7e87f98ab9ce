import SocksPool.Proofs.Waning

/-!
# How long a dead endpoint lasts

From its first load on, an endpoint that answers no attempt is in one of three states: it
was not heard of yet, it declines, or it is gone. What takes it from one to the next is
its registration and the failure of its rounds, so its state can be read off how often
either has happened. Calls, timers, loops and the rounds of other endpoints may come in
between, in any order.

## Main definitions

* `Pool.Stands` — the state of the endpoint after so many registrations and failures.

## Main results

* `Stands.step` — one step takes the endpoint as far as it registers it or fails a round.
* `evicted_after_threshold` — the endpoint comes back after each round that fails, and is
  evicted in the round that gives it its last mark.
-/

namespace SocksPool

namespace Pool

/-- The state of an endpoint that answers no attempt, after it was registered and has
failed rounds so many times. -/
inductive Stands (p : Pool) (e : String) (threshold : Nat) : Nat → Nat → Prop where
  | unheard (habsent : p.Absent e) (hnever : ∀ life, ¬ p.registry.IsLife life e) :
      Stands p e threshold 0 0
  | declining {missed : Nat} (hfew : missed < threshold) (hdeclines : p.Declines e missed) :
      Stands p e threshold 1 missed
  | departed (habsent : p.Absent e) : Stands p e threshold 1 threshold

variable {p q : Pool} {steps more : List Step} {s t : Step} {e : String}
  {threshold registered missed : Nat}

/-- Nothing was heard of an endpoint before anything was loaded. -/
theorem Blank.stands (h : p.Blank) (e : String) (threshold : Nat) :
    p.Stands e threshold 0 0 := by
  have hforgotten : p.Forgotten e := by
    refine ⟨h.not_contains e, ?_, ?_⟩
    · rw [h.strikes]
      rfl
    · rw [h.tokens]
      exact List.not_mem_nil
  refine .unheard ⟨hforgotten, ?_, ?_⟩ ?_
  · intro protocol copy hmem
    rw [h.outputs] at hmem
    cases protocol <;> cases hmem
  · intro task proxy hmem
    unfold crew at hmem
    rw [h.tasks] at hmem
    cases hmem
  · rintro life ⟨entry, hentry, -⟩
    rw [h.registry] at hentry
    cases hentry

/-- One step takes the endpoint as far as it registers it or fails a round of it. -/
theorem Stands.step (h : s.before.Stands e threshold registered missed)
    (horderly : Orderly s.before) (hfruitless : s.Fruitless e threshold) (hpos : 0 < threshold)
    (honce : registered + (if s.registers e then 1 else 0) ≤ 1) :
    s.after.Stands e threshold (registered + if s.registers e then 1 else 0)
      (missed + if s.misses e then 1 else 0) := by
  cases h with
  | unheard habsent hnever =>
      rw [habsent.not_misses]
      cases hregisters : s.registers e with
      | true =>
          obtain ⟨-, hin⟩ := Bool.and_eq_true_iff.1 hregisters
          exact .declining hpos (habsent.registered horderly s.done hnever hin)
      | false =>
          obtain ⟨hstill, hsame⟩ :=
            habsent.act horderly s.done (Step.admitted_eq_zero hregisters)
          exact .unheard hstill fun life hlife =>
            hnever life ((isLife_of_dossier hsame life).1 hlife)
  | declining hfew hdeclines =>
      have hregisters : s.registers e = false := by
        unfold Step.registers
        rw [hdeclines.sole.contains]
        rfl
      rw [hregisters]
      cases hmisses : s.misses e with
      | true =>
          rcases hdeclines.fails horderly hfruitless hmisses with
            ⟨hfewer, hafter, -⟩ | ⟨hmany, habsent, -⟩
          · exact .declining hfewer hafter
          · obtain rfl : threshold = missed + 1 := by omega
            exact .departed habsent
      | false =>
          exact .declining hfew (hdeclines.endure horderly hfruitless hmisses)
  | departed habsent =>
      have hregisters : s.registers e = false := by
        cases hregisters : s.registers e with
        | true => simp [hregisters] at honce
        | false => rfl
      rw [hregisters, habsent.not_misses]
      exact .departed (habsent.act horderly s.done (Step.admitted_eq_zero hregisters)).1

/-- So does a run, step by step. -/
theorem Stands.run (h : p.Stands e threshold 0 0) (horderly : Orderly p) (hpos : 0 < threshold)
    (hrun : Run p steps q) (hfruitless : ∀ s ∈ steps, s.Fruitless e threshold)
    (honce : steps.countP (·.registers e) ≤ 1) :
    q.Stands e threshold (steps.countP (·.registers e)) (steps.countP (·.misses e)) := by
  induction hrun with
  | rest => exact h
  | step s hrun ih =>
      rw [List.countP_append, List.countP_singleton] at honce ⊢
      rw [List.countP_append, List.countP_singleton]
      have hbefore := ih (fun t ht => hfruitless t (List.mem_append_left _ ht)) (by omega)
      exact hbefore.step (horderly.throughout hrun).1 (hfruitless s (by simp)) hpos honce

/-- A decline goes no further until a round fails. -/
theorem Declines.run {k : Nat} (h : p.Declines e k) (horderly : Orderly p)
    (hrun : Run p steps q) (hspared : ∀ s ∈ steps, s.Fruitless e threshold ∧ s.misses e = false) :
    q.Declines e k := by
  induction hrun with
  | rest => exact h
  | step s hrun ih =>
      have hbefore := ih fun t ht => hspared t (List.mem_append_left _ ht)
      obtain ⟨hfruitless, hmisses⟩ := hspared s (by simp)
      exact hbefore.endure (horderly.throughout hrun).1 hfruitless hmisses

/-- An endpoint that is gone stays so until it is registered. -/
theorem Absent.run (h : p.Absent e) (horderly : Orderly p) (hrun : Run p steps q)
    (hout : ∀ s ∈ steps, s.registers e = false) : q.Absent e := by
  induction hrun with
  | rest => exact h
  | step s hrun ih =>
      have hbefore := ih fun t ht => hout t (List.mem_append_left _ ht)
      have hnone := Step.admitted_eq_zero (hout s (by simp))
      exact (hbefore.act (horderly.throughout hrun).1 s.done hnone).1

/-- No round has begun of an endpoint that is gone. -/
theorem Forgotten.not_opens (h : s.after.Forgotten e) : s.opens e = false := by
  refine Bool.eq_false_iff.2 fun hopens => ?_
  unfold Step.opens at hopens
  split at hopens
  · split at hopens
    · next htask => exact h.round_ne htask (beq_iff_eq.1 hopens)
    · cases hopens
  · cases hopens

/-- The windows of a pool are those of its configuration. -/
theorem windows_of_withSlots {config : Config} {slots : Slots}
    (hmade : Pool.withSlots config slots = .ok p) (hrun : Run p steps q) :
    q.backoff.base = config.badBackoff ∧
      q.backoff.ceiling = max config.maxBadBackoff config.badBackoff := by
  have hstart : p.timing.window =
      (config.badBackoff, max config.maxBadBackoff config.badBackoff) := by
    unfold Pool.withSlots at hmade
    split at hmade
    · cases hmade
    · obtain rfl := Except.ok.inj hmade
      rfl
  have hsame := hrun.timing.2.2.1.trans hstart
  exact ⟨congrArg Prod.fst hsame, congrArg Prod.snd hsame⟩

end Pool

/-- The first steps of a run are a run. -/
theorem Run.of_isPrefix {p q : Pool} {steps more : List Step} {t : Step} (hrun : Run p steps q)
    (hfirst : more ++ [t] <+: steps) : Run p (more ++ [t]) t.after := by
  obtain ⟨rest, rfl⟩ := hfirst
  exact .step t (hrun.upto (by rw [List.append_assoc, List.singleton_append]))

/-- In a run of a pool, an endpoint that was registered once and finds no attempt to
succeed comes back after each round that fails, with as many marks and strikes as rounds
have failed, as far as strikes are counted, when the window of its last strike has passed,
and this is how it stands until the next round fails. The window has doubled with each
strike up to the ceiling, where the ceiling is within sixteen doublings. In the round that
gives it as many marks as the configuration allows it is evicted and forgotten, and no
round of it begins unless it is registered again. -/
theorem evicted_after_threshold {config : Config} {slots : Slots} {p q : Pool}
    {earlier later : List Step} {s : Step} {e : String} {k : Nat}
    (hmade : Pool.withSlots config slots = .ok p) (hrun : Run p (earlier ++ s :: later) q)
    (hfruitless : ∀ t ∈ earlier ++ [s], t.Fruitless e config.removeAfter)
    (honce : earlier.countP (·.registers e) ≤ 1) (hmisses : s.misses e = true)
    (hk : earlier.countP (·.misses e) + 1 = k) :
    (k < config.removeAfter ∧
        (∃ window, (s.before.backoff.strike s.before.now e).2 = some window ∧
          s.Returns e k window ∧
          (k ≤ 17 ∨ config.badBackoff = 0 ∨
              max config.maxBadBackoff config.badBackoff ≤ config.badBackoff * 2 ^ 16 →
            window = min (config.badBackoff * 2 ^ (k - 1))
              (max config.maxBadBackoff config.badBackoff))) ∧
        ∀ more t, more ++ [t] <+: later →
          (∀ u ∈ more ++ [t], u.Fruitless e config.removeAfter ∧ u.misses e = false) →
          t.after.Marked e k) ∨
      (k = config.removeAfter ∧ s.Evicts e ∧
        ∀ more t, more ++ [t] <+: later → (∀ u ∈ more ++ [t], u.registers e = false) →
          t.opens e = false ∧ t.after.Forgotten e) := by
  have hsound : config.Sound := by
    unfold Pool.withSlots at hmade
    split at hmade
    · cases hmade
    · next hvalid => exact Config.validate_eq_ok.1 hvalid
  have hpos := Nat.pos_of_ne_zero hsound.removeAfter_pos
  have hstart := orderly_of_withSlots hmade
  have hupto := hrun.upto rfl
  have horderly := (hstart.throughout hrun).2 s (by simp)
  obtain ⟨hbase, hceiling⟩ := Pool.windows_of_withSlots hmade hupto
  have hunheard := (blank_of_withSlots hmade).stands e config.removeAfter
  have hstands := hunheard.run hstart hpos hupto
    (fun t ht => hfruitless t (List.mem_append_left _ ht)) honce
  have hlast := hfruitless s (by simp)
  -- Only while it declines is there a round of it that can fail.
  have hdeclines : earlier.countP (·.misses e) < config.removeAfter ∧
      s.before.Declines e (earlier.countP (·.misses e)) := by
    generalize earlier.countP (·.registers e) = registered at hstands
    generalize earlier.countP (·.misses e) = missed at hstands ⊢
    cases hstands with
    | declining hfew hdeclines => exact ⟨hfew, hdeclines⟩
    | unheard habsent _ | departed habsent =>
        rw [habsent.not_misses] at hmisses
        cases hmisses
  obtain ⟨hfew, hdeclines⟩ := hdeclines
  have hafterwards := (hrun.since rfl).2
  have horderlyAfter := horderly.2
  rcases hdeclines.fails horderly.1 hlast hmisses with
    ⟨hfewer, hafter, hreturns⟩ | ⟨hmany, habsent, hevicts⟩
  · left
    obtain ⟨window, hwindow⟩ := Option.ne_none_iff_exists'.1 (hlast.fits hmisses)
    have hdoubled := Backoff.window_of_strike hwindow hdeclines.struck
    rw [← hdoubled] at hreturns
    rw [hbase, hceiling] at hdoubled
    subst hk
    refine ⟨hfewer, ⟨window, hwindow, hreturns, fun hwithin => ?_⟩, fun more t hfirst hspared => ?_⟩
    · rw [hdoubled]
      exact Backoff.doubled_eq_iff.2 (hwithin.imp_left Nat.le_of_succ_le_succ)
    exact (hafter.run horderlyAfter (hafterwards.of_isPrefix hfirst) hspared).marked
  · right
    refine ⟨by omega, hevicts, fun more t hfirst hout => ?_⟩
    have hgone := habsent.run horderlyAfter (hafterwards.of_isPrefix hfirst) hout
    exact ⟨hgone.not_opens, hgone.toForgotten⟩

/-- Not every strike is counted, and windows stop doubling below the ceiling. An endpoint
that comes back after a nanosecond at first and after a second at most has a window of
65536 nanoseconds after its eighteenth failure, half of what the doubling comes to. And
where billions of failures are forgiven, it has a mark for each of them, but one strike
less as soon as the count of strikes is at its maximum. -/
theorem marks_outrun_strikes :
    let config := Config.lenient 8589934592
    (∃ p steps s, Pool.new config = .ok p ∧ Scene.Fails p 8589934592 17 steps s ∧
      s.after.comebacks "a:1" = [some (s.before.now + 65536)] ∧
      min (config.badBackoff * 2 ^ 17) (max config.maxBadBackoff config.badBackoff) =
        131072) ∧
    ∃ p steps s, Pool.new config = .ok p ∧ Scene.Fails p 8589934592 4294967295 steps s ∧
      s.after.registry.get? "a:1" = some { endpoint := "a:1", timesBad := 4294967296 } ∧
      s.after.backoff.count "a:1" = 4294967295 := by
  intro config
  have hword : 8589934592 ≤ Word.limit := by decide
  constructor
  · obtain ⟨p, steps, s, hmade, hfails, -, -, hback⟩ :=
      exists_failing_run hword 17 (by decide)
    exact ⟨p, steps, s, hmade, hfails, hback, by decide⟩
  · obtain ⟨p, steps, s, hmade, hfails, hmarks, hstrikes, -⟩ :=
      exists_failing_run hword 4294967295 (by decide)
    exact ⟨p, steps, s, hmade, hfails, hmarks, hstrikes⟩

/-- With a threshold of two, an endpoint fails one round, comes back a minute later, fails
another one and is gone. -/
theorem evicted_in_second_round :
    ∃ p earlier x between y q, Pool.new { Config.default with removeAfter := 2 } = .ok p ∧
      Run p (earlier ++ x :: (between ++ [y])) q ∧
      (earlier ++ x :: (between ++ [y])).map Step.deed =
        [.load "a:1", .start, .move 0 .lockIntake, .move 0 .receive, .move 0 .forward,
          .move 1 .look, .move 3 .pick, .move 3 (.attempted (.error (.dialTimeout "a:1"))),
          .move 3 (.attempted (.error (.dialTimeout "a:1"))),
          .move 3 (.attempted (.error (.dialTimeout "a:1"))), .advance 60000000000,
          .move 4 .wake, .move 4 .comeBack, .move 1 .look, .move 5 .pick,
          .move 5 (.attempted (.error (.dialTimeout "a:1"))),
          .move 5 (.attempted (.error (.dialTimeout "a:1"))),
          .move 5 (.attempted (.error (.dialTimeout "a:1")))] ∧
      x.misses "a:1" = true ∧ x.Returns "a:1" 1 60000000000 ∧
      y.misses "a:1" = true ∧ y.Evicts "a:1" := by
  obtain ⟨p, view, hmeans, hmade, hview⟩ :
      ∃ (p : Pool) (view : Step → (Bool × Bool) × Nat × Bool),
        (∀ s, view s = ((s.registers "a:1", s.misses "a:1"), s.before.config.removeAfter,
          (s.before.backoff.strike s.before.now "a:1").2.isSome)) ∧
        Pool.new { Config.default with removeAfter := 2 } = .ok p ∧
        (p.steps?
          [.load "a:1", .start, .move 0 .lockIntake, .move 0 .receive, .move 0 .forward,
            .move 1 .look, .move 3 .pick, .move 3 (.attempted (.error (.dialTimeout "a:1"))),
            .move 3 (.attempted (.error (.dialTimeout "a:1"))),
            .move 3 (.attempted (.error (.dialTimeout "a:1"))), .advance 60000000000,
            .move 4 .wake, .move 4 .comeBack, .move 1 .look, .move 5 .pick,
            .move 5 (.attempted (.error (.dialTimeout "a:1"))),
            .move 5 (.attempted (.error (.dialTimeout "a:1"))),
            .move 5 (.attempted (.error (.dialTimeout "a:1")))]).map (List.map view) =
        some ((((true, false), 2, true) :: List.replicate 8 ((false, false), 2, true)) ++
          ((false, true), 2, true) ::
            (List.replicate 7 ((false, false), 2, true) ++ [((false, true), 2, true)])) :=
    ⟨_, _, fun _ => rfl, rfl, rfl⟩
  obtain ⟨steps, q, hrun, hdeeds, hseen⟩ := Run.of_views view hview
  have hfruitless : ∀ s ∈ steps, s.Fruitless "a:1" 2 := by
    intro s hs
    have hquiet := Step.forall_of_deeds
      (P := fun d => d ≠ .reportFailure "a:1" ∧ ∀ id exit, d ≠ .move id (.attempted (.ok exit)))
      hdeeds (by simp) s hs
    have hfits : ∀ seen ∈ steps.map view, seen.2 = (2, true) := by
      rw [hseen]
      decide
    have hlooks := hfits _ (List.mem_map_of_mem hs)
    rw [hmeans] at hlooks
    refine ⟨congrArg Prod.fst hlooks, hquiet.1, ?_, fun _ hnone => ?_⟩
    · rintro ⟨id, exit, r, hdeed, -, -⟩
      exact hquiet.2 id exit hdeed
    · have hends := congrArg Prod.snd hlooks
      rw [hnone] at hends
      cases hends
  obtain ⟨earlier, rest, rfl, hearlier, hrest⟩ := List.map_eq_append_iff.1 hseen
  obtain ⟨x, rest, rfl, hx, hrest⟩ := List.map_eq_cons_iff.1 hrest
  obtain ⟨between, rest, rfl, hbetween, hrest⟩ := List.map_eq_append_iff.1 hrest
  obtain ⟨y, rest, rfl, hy, hrest⟩ := List.map_eq_cons_iff.1 hrest
  obtain rfl := List.map_eq_nil_iff.1 hrest
  rw [hmeans] at hx hy
  have hxmisses : x.misses "a:1" = true := congrArg (·.1.2) hx
  have hymisses : y.misses "a:1" = true := congrArg (·.1.2) hy
  have hregistered (seen : List Step) :
      seen.countP (·.registers "a:1") = (seen.map view).countP (·.1.1) := by
    simp only [List.countP_map, Function.comp_def, hmeans]
  have hmissed (seen : List Step) :
      seen.countP (·.misses "a:1") = (seen.map view).countP (·.1.2) := by
    simp only [List.countP_map, Function.comp_def, hmeans]
  have hviewed : (earlier ++ x :: between).map view =
      ((true, false), 2, true) :: List.replicate 8 ((false, false), 2, true) ++
        ((false, true), 2, true) :: List.replicate 7 ((false, false), 2, true) := by
    rw [List.map_append, List.map_cons, hearlier, hmeans, hx, hbetween]
  have hwhole : earlier ++ x :: (between ++ [y]) = (earlier ++ x :: between) ++ [y] := by simp
  obtain ⟨-, ⟨window, -, hreturns, hdoubled⟩, -⟩ | ⟨hone, -⟩ :=
    evicted_after_threshold (k := 1) hmade hrun
    (fun t ht => hfruitless t (by rw [hwhole]; simp at ht ⊢; tauto))
    (by rw [hregistered, hearlier]; decide) hxmisses (by rw [hmissed, hearlier]; decide)
  · obtain rfl : window = 60000000000 := hdoubled (.inl (by decide))
    rw [hwhole] at hfruitless
    obtain ⟨htwo, -⟩ | ⟨-, hevicts, -⟩ := evicted_after_threshold (k := 2) hmade
      (hwhole ▸ hrun) hfruitless
      (by rw [hregistered, hviewed]; decide) hymisses (by rw [hmissed, hviewed]; decide)
    · exact absurd htwo (Nat.lt_irrefl _)
    · exact ⟨p, earlier, x, between, y, q, hmade, hrun, hdeeds, hxmisses, hreturns, hymisses,
        hevicts⟩
  · cases hone

end SocksPool
