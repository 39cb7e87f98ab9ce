import SocksPool.Proofs.Orderly

/-!
# Evictions that are earned

A life is evicted by the gate that a candidate passes through, by a report, or
by a round whose last attempt fails. The gate and the report count the marks of
the life that the name leads to. A round counts those of the life that it began
with, and then evicts by name. If that life was evicted before and its endpoint
was loaded again, the name leads to a later life, which is then evicted for the
marks of the earlier one.

So a life leaves the registry unearned exactly when a round of an earlier life
fails out over it.

## Main results

* `Turn.earned` — a life that leaves has its marks, or a round has failed over
  it.
* `evictions_earned_iff` — the runs in which every eviction is earned.
-/

namespace SocksPool

namespace Pool

variable {p q : Pool} {d : Deed} {e : String} {life : Nat}

/-- Only the endpoint of an eviction leaves. -/
theorem eq_of_evict {endpoint : String} (h : p.registry.find? e = some life)
    (hout : (p.evict endpoint).registry.find? e ≠ some life) : e = endpoint := by
  rw [find?_evict] at hout
  by_cases he : e = endpoint
  · exact he
  · rw [if_neg he] at hout
    exact absurd h hout

/-- A life that leaves the registry has as many marks as it takes, or a round
has failed out over it. -/
theorem Turn.earned (hturn : p.Turn d q) (hfind : p.registry.find? e = some life)
    (hout : q.registry.find? e ≠ some life) :
    p.config.removeAfter ≤ q.registry.badMarks life ∨
      ∃ r, p.Fails d r ∧ r.endpoint = e ∧ r.life ≠ life ∧ p.Exhausts r.life ∧
        (p.backoff.strike p.now e).2.isSome = true ∧
        q.registry.badMarks life = p.registry.badMarks life := by
  cases hturn with
  | loaded raws => exact absurd (find?_loadAll hfind raws) hout
  | @reportedOut _ marked endpoint hmarked hmarks =>
      obtain rfl : e = endpoint := eq_of_evict (p := p.punish marked endpoint) hfind hout
      rw [hmarked] at hfind
      obtain rfl := Option.some.inj hfind
      rw [badMarks_evict]
      exact .inl hmarks
  | @struckOff _ marked protocol candidate rest hqueue hmarked hmarks =>
      obtain rfl : e = candidate.endpoint :=
        eq_of_evict (p := { p with outputs := p.outputs.set protocol rest }) hfind hout
      rw [hmarked] at hfind
      obtain rfl := Option.some.inj hfind
      rw [badMarks_evict]
      exact .inl hmarks
  | sentBack hqueue =>
      rw [registry_recycle] at hout
      exact absurd hfind hout
  | checked htask hwaits hqueue hlife hlock =>
      obtain ⟨-, rfl⟩ := Registry.tryLock?_eq_some hlock
      exact absurd hfind hout
  | cleared htask hstage =>
      rw [unlock_recycle, registry_recycle] at hout
      exact absurd hfind hout
  | refused htask hstage =>
      rw [unlock_recycle, registry_recycle] at hout
      exact absurd hfind hout
  | @failedOut id since r protocol err htask hlast hwindow hmarks =>
      obtain rfl : e = r.endpoint :=
        eq_of_evict (p := (p.remove id).punish r.life r.endpoint) hfind hout
      rw [badMarks_evict]
      -- The name may lead to another life than the one whose marks were counted.
      by_cases hsame : r.life = life
      · rw [← hsame]
        exact .inl hmarks
      · refine .inr ⟨r, ⟨id, protocol, since, err, rfl, htask, hlast⟩, rfl, hsame, hmarks,
          hwindow, ?_⟩
        exact p.registry.badMarks_update_of_ne (fun heq => hsame heq.symm) _
  | _ => exact absurd hfind hout

end Pool

namespace Step

/-- The life of the endpoint leaves the registry. -/
def Removes (s : Step) (endpoint : String) (life : Nat) : Prop :=
  s.before.registry.find? endpoint = some life ∧ s.after.registry.find? endpoint ≠ some life

/-- A round of an earlier life fails out, while the name of its endpoint leads
to a life that has too few marks to be evicted. -/
def FailsOver (s : Step) (endpoint : String) (life : Nat) : Prop :=
  s.before.registry.find? endpoint = some life ∧
    s.before.registry.badMarks life < s.before.config.removeAfter ∧
    ∃ r, s.before.Fails s.deed r ∧ r.endpoint = endpoint ∧ r.life < life ∧
      s.before.Exhausts r.life ∧ (s.before.backoff.strike s.before.now endpoint).2.isSome = true

variable {s : Step} {e : String} {life : Nat}

/-- A round that fails is of a life of its endpoint. -/
theorem isLife_of_fails {r : Round} (h : Orderly s.before) (hfails : s.before.Fails s.deed r) :
    s.before.registry.IsLife r.life r.endpoint := by
  obtain ⟨id, protocol, since, err, -, htask, -⟩ := hfails
  exact (h.backed_of_task? htask rfl).1

theorem earned_of_removes (h : Orderly s.before) (hremoves : s.Removes e life)
    (hfresh : ¬ s.FailsOver e life) :
    s.before.config.removeAfter ≤ s.after.registry.badMarks life := by
  obtain ⟨hfind, hout⟩ := hremoves
  obtain ⟨mid, hturn, haside⟩ := Pool.turns_of_act? h.numbered s.done
  rw [haside.registry] at hout ⊢
  rcases hturn.earned hfind hout with hmarks | ⟨r, hfails, rfl, hne, hmarks, hwindow, hkept⟩
  · exact hmarks
  · have hle : r.life ≤ life := h.sound.latest hfind (isLife_of_fails h hfails)
    have holder : r.life < life := Nat.lt_of_le_of_ne hle hne
    rw [hkept]
    apply Nat.le_of_not_lt
    intro hfew
    exact hfresh ⟨hfind, hfew, r, hfails, rfl, holder, hmarks, hwindow⟩

/-- A round that fails out over a later life evicts it without a mark. -/
theorem removes_of_failsOver (h : Orderly s.before) (hover : s.FailsOver e life) :
    s.Removes e life ∧ s.after.registry.badMarks life < s.before.config.removeAfter := by
  obtain ⟨hfind, hfew, r, hfails, rfl, holder, hmarks, hwindow⟩ := hover
  obtain ⟨id, -, hends⟩ := hfails.cases h.numbered s.done
  rcases hends with ⟨hnone, -⟩ | ⟨-, -, hquiet⟩ | ⟨-, -, hspared, -⟩
  · rw [hnone] at hwindow
    cases hwindow
  · have hgone : s.after.registry.find? r.endpoint = none := by
      rw [hquiet.registry, Pool.find?_evict, if_pos rfl]
    have hkept : s.after.registry.badMarks life = s.before.registry.badMarks life := by
      rw [hquiet.registry, Pool.badMarks_evict]
      exact s.before.registry.badMarks_update_of_ne (Nat.ne_of_gt holder) _
    constructor
    · exact ⟨hfind, by simp [hgone]⟩
    · rw [hkept]
      exact hfew
  · exact absurd hmarks hspared

end Step

/-- In a run of a pool every life that leaves the registry has itself been
marked bad as often as it takes by then, exactly if no round fails out over a
later life of its endpoint that has too few marks. -/
theorem evictions_earned_iff {config : Config} {slots : Slots} {p q : Pool} {steps : List Step}
    (hmade : Pool.withSlots config slots = .ok p) (hrun : Run p steps q) :
    (∀ s ∈ steps, ∀ e life, s.Removes e life →
        s.before.config.removeAfter ≤ s.after.registry.badMarks life) ↔
      ∀ s ∈ steps, ∀ e life, ¬ s.FailsOver e life := by
  have horderly := (orderly_of_withSlots hmade).throughout hrun
  constructor
  · intro hearned s hs e life hover
    obtain ⟨hremoves, hfew⟩ := s.removes_of_failsOver (horderly.2 s hs).1 hover
    exact absurd (hearned s hs e life hremoves) (Nat.not_le_of_lt hfew)
  · intro hfresh s hs e life hremoves
    exact s.earned_of_removes (horderly.2 s hs).1 hremoves (hfresh s hs e life)

/-- A round begins, its endpoint is evicted and loaded again, and then the round
fails. The new life leaves without a mark. -/
theorem evicted_without_mark :
    ∃ p steps s, Pool.new { Config.default with removeAfter := 1 } = .ok p ∧
      Run p (steps ++ [s]) s.after ∧
      (steps ++ [s]).map Step.deed =
        [.load "a:1", .start, .move 0 .lockIntake, .move 0 .receive, .move 0 .forward,
          .move 1 .look, .move 3 .pick, .reportFailure "a:1", .load "a:1",
          .move 3 (.attempted (.error (.dialTimeout "a:1"))),
          .move 3 (.attempted (.error (.dialTimeout "a:1"))),
          .move 3 (.attempted (.error (.dialTimeout "a:1")))] ∧
      s.Removes "a:1" 1 ∧ s.before.config.removeAfter = 1 ∧ s.after.registry.badMarks 1 = 0 := by
  obtain ⟨p, hmade, hview⟩ : ∃ p, Pool.new { Config.default with removeAfter := 1 } = .ok p ∧
      ((p.perform?
        [.load "a:1", .start, .move 0 .lockIntake, .move 0 .receive, .move 0 .forward,
          .move 1 .look, .move 3 .pick, .reportFailure "a:1", .load "a:1",
          .move 3 (.attempted (.error (.dialTimeout "a:1"))),
          .move 3 (.attempted (.error (.dialTimeout "a:1")))]).bind fun q =>
        (q.act? (.move 3 (.attempted (.error (.dialTimeout "a:1"))))).map fun r =>
          (q.registry.find? "a:1", r.registry.find? "a:1", q.config.removeAfter,
            r.registry.badMarks 1)) = some (some 1, none, 1, 0) := ⟨_, rfl, rfl⟩
  obtain ⟨steps, s, hrun, hdeeds, hseen⟩ := Run.of_last_view
    (fun q r => (q.registry.find? "a:1", r.registry.find? "a:1", q.config.removeAfter,
      r.registry.badMarks 1)) hview
  simp only [Prod.mk.injEq] at hseen
  obtain ⟨hfind, hgone, hneeded, hmarks⟩ := hseen
  have hremoved : s.Removes "a:1" 1 := ⟨hfind, by simp [hgone]⟩
  exact ⟨p, steps, s, hmade, hrun, hdeeds, hremoved, hneeded, hmarks⟩

/-- One report earns an eviction where one mark is enough. -/
theorem earned_by_report :
    ∃ p steps q, Pool.new { Config.default with removeAfter := 1 } = .ok p ∧ Run p steps q ∧
      steps.map Step.deed = [.load "a:1", .reportFailure "a:1"] ∧
      q.registry.contains "a:1" = false ∧
      ∀ s ∈ steps, ∀ e life, s.Removes e life →
        s.before.config.removeAfter ≤ s.after.registry.badMarks life := by
  obtain ⟨p, hmade, hview⟩ : ∃ p, Pool.new { Config.default with removeAfter := 1 } = .ok p ∧
      (p.perform? [.load "a:1", .reportFailure "a:1"]).map
        (fun q => q.registry.contains "a:1") = some false := ⟨_, rfl, rfl⟩
  obtain ⟨steps, q, hrun, hdeeds, hseen⟩ := Run.of_view _ hview
  have hfresh : ∀ s ∈ steps, ∀ e life, ¬ s.FailsOver e life := by
    rintro s hs e life ⟨-, -, r, ⟨id, protocol, since, err, hdeed, -, -⟩, -⟩
    have hmem : s.deed ∈ steps.map Step.deed := List.mem_map_of_mem hs
    rw [hdeeds, hdeed] at hmem
    simp at hmem
  have hearned := (evictions_earned_iff hmade hrun).2 hfresh
  exact ⟨p, steps, q, hmade, hrun, hdeeds, hseen, hearned⟩

end SocksPool
