import Mathlib.Algebra.GroupWithZero.Nat
import SocksPool.Proofs.Admission
import SocksPool.Proofs.Ways

/-!
# The ledgers of a pool

The counters of a pool are a ledger of its rounds. A round that was checked is
under way, or was counted as bad or under a protocol. From then on the ledger
follows its copy, until the copy is dispensed or lost. The ledgers balance
because every way that a round or a copy can take does, and a run is a sequence
of such ways.

A second ledger is kept of the registry. A name that a load registers anew is
either still registered or has been evicted.

## Main results

* `copies_accounted` — every validation is matched by a copy.
* `rounds_accounted` — every round ends in one counter, and every new name is
  registered or evicted.
-/

namespace SocksPool

/-- How many names the calls of this step answer that they registered anew. -/
def Step.created (s : Step) : Nat := s.before.created s.deed

namespace Pool

variable {p q : Pool} {d : Deed}

/-! ## Balances -/

/-- The copies that were made and not lost. -/
def copies (p : Pool) : Nat :=
  p.population .delivering + p.population .queued + p.population .checking +
    p.population .dispensed

/-- The rounds that have begun, by what became of them. -/
def rounds (p : Pool) : Nat :=
  p.population .attempting + p.population .failed + p.stats.totalValidated

/-- A way makes a copy, keeps it or loses it. -/
theorem Follows.copies {way : Way} (h : p.Follows d q way) :
    q.stats.totalValidated + p.copies =
      p.stats.totalValidated + q.copies + ((p.discards d q).toNat + (p.forsakes d).toNat) := by
  have hdelivering := h.population .delivering
  have hqueued := h.population .queued
  have hchecking := h.population .checking
  have hdispensed := h.population .dispensed
  rw [h.validated, h.discards, h.forsakes]
  unfold Pool.copies
  cases way <;> simp [Way.out?, Way.into?, Way.discards] at * <;> omega

/-- A way begins a round, keeps it or ends it. -/
theorem Follows.rounds {way : Way} (h : p.Follows d q way) :
    q.stats.checked + p.rounds = p.stats.checked + q.rounds := by
  have hattempting := h.population .attempting
  have hfailed := h.population .failed
  unfold Pool.rounds
  rw [h.checked, h.validated]
  cases way <;> simp [Way.out?, Way.into?] at * <;> omega

end Pool

/-! ## Runs -/

variable {p q : Pool} {steps : List Step}

/-- In a run every validation is matched by a copy, kept or lost. -/
theorem validated_of_run (horderly : Orderly p) (htyped : Typed p)
    (hstart : p.stats.totalValidated = p.copies) (hrun : Run p steps q) :
    q.stats.totalValidated =
      q.copies + (steps.countP Step.discards + steps.countP Step.forsakes) := by
  induction hrun with
  | rest => exact hstart
  | @step steps s hrun ih =>
      have hbefore := (horderly.throughout hrun).1
      obtain ⟨way, hfollows⟩ :=
        Pool.follows_of_act? hbefore (htyped.throughout horderly hrun).1 s.done
      have hstep : s.after.stats.totalValidated + s.before.copies =
          s.before.stats.totalValidated + s.after.copies +
            (s.discards.toNat + s.forsakes.toNat) := hfollows.copies
      have hdiscards : [s].countP Step.discards = s.discards.toNat := by
        cases hlost : s.discards <;> simp [hlost]
      have hforsakes : [s].countP Step.forsakes = s.forsakes.toNat := by
        cases hlost : s.forsakes <;> simp [hlost]
      rw [List.countP_append, List.countP_append, hdiscards, hforsakes]
      omega

/-- In a run every round that begins is under way or ends in one counter. -/
theorem checked_of_run (horderly : Orderly p) (htyped : Typed p)
    (hstart : p.stats.checked = p.rounds) (hrun : Run p steps q) :
    q.stats.checked = q.rounds := by
  induction hrun with
  | rest => exact hstart
  | @step steps s hrun ih =>
      have hbefore := (horderly.throughout hrun).1
      obtain ⟨way, hfollows⟩ :=
        Pool.follows_of_act? hbefore (htyped.throughout horderly hrun).1 s.done
      have hstep := hfollows.rounds
      omega

/-- In a run every name that is new is registered or evicted. -/
theorem entered_of_run (horderly : Orderly p) (htyped : Typed p)
    (hnodup : p.registry.names.keys.Nodup) (hrun : Run p steps q) :
    q.registry.names.keys.Nodup ∧ q.entered = p.entered + (steps.map Step.created).sum := by
  induction hrun with
  | rest => exact ⟨hnodup, rfl⟩
  | @step steps s hrun ih =>
      obtain ⟨hnames, hentered⟩ := ih
      have hbefore := (horderly.throughout hrun).1
      obtain ⟨mid, heffect, hquiet⟩ := Pool.effects_of_act? hbefore.numbered s.done
      have hgrown := heffect.evolves (htyped.throughout horderly hrun).1
      have hstep := heffect.entered hnames
      have hsame : s.after.entered = mid.entered := by
        unfold Pool.entered
        rw [hquiet.registry, hquiet.stats]
      constructor
      · rw [hquiet.registry]
        exact Registry.nodup_of_evolves hnames hgrown
      · rw [hsame, hstep, hentered]
        simp [Step.created, Nat.add_assoc]

/-- A pool begins with its counters at zero. -/
theorem stats_of_withSlots {config : Config} {slots : Slots} {p : Pool}
    (h : Pool.withSlots config slots = .ok p) : p.stats = {} := by
  unfold Pool.withSlots at h
  split at h
  · cases h
  · obtain rfl := Except.ok.inj h
    rfl

/-- Nobody is anywhere in a pool that begins. -/
theorem population_of_withSlots {config : Config} {slots : Slots} {p : Pool}
    (h : Pool.withSlots config slots = .ok p) (place : Place) : p.population place = 0 := by
  have hblank := blank_of_withSlots h
  unfold Pool.population Pool.places Pool.stock
  rw [hblank.tasks, hblank.outputs, stats_of_withSlots h]
  cases place <;> rfl

/-- The three output queues hold the copies that are queued. -/
theorem length_copies (o : Outputs) :
    o.copies.length = o.socks4.length + o.socks4a.length + o.socks5.length := by
  unfold Outputs.copies
  rw [List.length_append, List.length_append]

/-- In every state of a run of a pool, the validations that were counted are the
proxies that were dispensed, the copies that are queued, those that rounds have
still to queue, the candidates under a check, and those that were discarded, or
lost with a caller that was dropped in the middle of a check. So no more was
ever dispensed and queued than was validated, and the backlog is exact. -/
theorem copies_accounted {config : Config} {slots : Slots} {p q : Pool} {steps : List Step}
    (hmade : Pool.withSlots config slots = .ok p) (hrun : Run p steps q) :
    q.stats.valid4 + q.stats.valid4a + q.stats.valid5 =
        q.stats.dispensed +
          (q.outputs.socks4.length + q.outputs.socks4a.length + q.outputs.socks5.length) +
          q.places.count .delivering + q.places.count .checking +
          steps.countP Step.discards + steps.countP Step.forsakes ∧
      q.stats.dispensed +
          (q.outputs.socks4.length + q.outputs.socks4a.length + q.outputs.socks5.length) ≤
        q.stats.totalValidated ∧
      q.stats.backlog + q.stats.dispensed = q.stats.totalValidated := by
  have horderly := orderly_of_withSlots hmade
  have htyped := typed_of_blank (blank_of_withSlots hmade)
  have hstart : p.stats.totalValidated = p.copies := by
    unfold Pool.copies
    simp only [population_of_withSlots hmade]
    rw [stats_of_withSlots hmade]
    rfl
  have hbalance := validated_of_run horderly htyped hstart hrun
  have hdelivering : q.population .delivering = q.places.count .delivering := rfl
  have hchecking : q.population .checking = q.places.count .checking := rfl
  unfold Pool.copies at hbalance
  rw [hdelivering, hchecking, Pool.population_queued, Pool.population_dispensed,
    length_copies] at hbalance
  have htotal : q.stats.totalValidated =
      q.stats.valid4 + q.stats.valid4a + q.stats.valid5 := rfl
  have hbacklog : q.stats.backlog = q.stats.totalValidated - q.stats.dispensed := rfl
  omega

/-- A copy is delivered and put under a check, and its proxy does not answer.
The one validation is matched by the one copy that was discarded. -/
theorem discarded_copy_accounted :
    ∃ p steps q, Pool.new Config.default = .ok p ∧ Run p steps q ∧
      steps.map Step.deed =
        [.load "a:1", .start, .move 0 .lockIntake, .move 0 .receive, .move 0 .forward,
          .move 1 .look, .move 3 .pick, .move 3 (.attempted (.ok (.v4 ⟨198, 51, 100, 7⟩))),
          .move 3 .deliver, .get (some .socks5) none, .move 4 (.dispense .socks5),
          .move 4 (.redialled false)] ∧
      q.stats.valid5 = 1 ∧ steps.countP Step.forsakes = 0 ∧ steps.countP Step.discards = 1 := by
  obtain ⟨p, hmade, hview⟩ : ∃ p, Pool.new Config.default = .ok p ∧
      (p.perform?
        [.load "a:1", .start, .move 0 .lockIntake, .move 0 .receive, .move 0 .forward,
          .move 1 .look, .move 3 .pick, .move 3 (.attempted (.ok (.v4 ⟨198, 51, 100, 7⟩))),
          .move 3 .deliver, .get (some .socks5) none, .move 4 (.dispense .socks5),
          .move 4 (.redialled false)]).map
        (fun q => (q.stats, q.outputs, q.places)) =
          some ({ valid5 := 1, checked := 1 }, {}, []) := ⟨_, rfl, rfl⟩
  obtain ⟨steps, q, hrun, hdeeds, hseen⟩ := Run.of_view _ hview
  simp only [Prod.mk.injEq] at hseen
  obtain ⟨hstats, houtputs, hplaces⟩ := hseen
  have hkept : steps.countP Step.forsakes = 0 := by
    rw [List.countP_eq_zero]
    intro s hs hforsakes
    have hmem : s.deed ∈ steps.map Step.deed := List.mem_map_of_mem hs
    rw [hdeeds] at hmem
    unfold Step.forsakes Pool.forsakes at hforsakes
    split at hforsakes
    · next hdeed =>
        rw [hdeed] at hmem
        simp at hmem
    · cases hforsakes
  obtain ⟨hbalance, -, -⟩ := copies_accounted hmade hrun
  rw [hstats, houtputs, hplaces, hkept] at hbalance
  have hdiscarded : steps.countP Step.discards = 1 := by
    simp at hbalance
    exact hbalance.symm
  exact ⟨p, steps, q, hmade, hrun, hdeeds, by rw [hstats], hkept, hdiscarded⟩

/-- In every state of a run of a pool, the rounds that were checked are those
that were counted under a protocol, those that were counted as bad, and those
that still try protocols. And the names that loads answered they registered
anew are those that are registered and those that were evicted. -/
theorem rounds_accounted {config : Config} {slots : Slots} {p q : Pool} {steps : List Step}
    (hmade : Pool.withSlots config slots = .ok p) (hrun : Run p steps q) :
    q.stats.checked =
        q.stats.valid4 + q.stats.valid4a + q.stats.valid5 + q.stats.bad +
          q.places.count .attempting ∧
      (steps.map Step.created).sum = q.registry.size + q.stats.evicted := by
  have horderly := orderly_of_withSlots hmade
  have hblank := blank_of_withSlots hmade
  have htyped := typed_of_blank hblank
  have hstart : p.stats.checked = p.rounds := by
    unfold Pool.rounds
    simp only [population_of_withSlots hmade]
    rw [stats_of_withSlots hmade]
    rfl
  have hnodup : p.registry.names.keys.Nodup := by
    rw [hblank.registry]
    exact List.nodup_nil
  have hnothing : p.entered = 0 := by
    unfold Pool.entered
    rw [hblank.registry, stats_of_withSlots hmade]
    rfl
  have hbalance := checked_of_run horderly htyped hstart hrun
  have hattempting : q.population .attempting = q.places.count .attempting := rfl
  unfold Pool.rounds at hbalance
  rw [hattempting, Pool.population_failed] at hbalance
  have htotal : q.stats.totalValidated =
      q.stats.valid4 + q.stats.valid4a + q.stats.valid5 := rfl
  obtain ⟨-, hentered⟩ := entered_of_run horderly htyped hnodup hrun
  have hnames : q.entered = q.registry.size + q.stats.evicted := rfl
  omega

/-- A round begins, and its endpoint is evicted and loaded again. The round is
still under way, and of the two names that were new one is registered. -/
theorem round_of_evicted_accounted :
    ∃ p steps q, Pool.new { Config.default with removeAfter := 1 } = .ok p ∧ Run p steps q ∧
      steps.map Step.deed =
        [.load "a:1", .start, .move 0 .lockIntake, .move 0 .receive, .move 0 .forward,
          .move 1 .look, .move 3 .pick, .reportFailure "a:1", .load "a:1"] ∧
      q.stats.checked = 1 ∧ q.places.count .attempting = 1 ∧ q.registry.size = 1 ∧
      (steps.map Step.created).sum = 2 := by
  obtain ⟨p, hmade, hview⟩ : ∃ p, Pool.new { Config.default with removeAfter := 1 } = .ok p ∧
      (p.perform?
        [.load "a:1", .start, .move 0 .lockIntake, .move 0 .receive, .move 0 .forward,
          .move 1 .look, .move 3 .pick, .reportFailure "a:1", .load "a:1"]).map
        (fun q => (q.stats, q.registry.size)) = some ({ checked := 1, evicted := 1 }, 1) :=
    ⟨_, rfl, rfl⟩
  obtain ⟨steps, q, hrun, hdeeds, hseen⟩ := Run.of_view _ hview
  simp only [Prod.mk.injEq] at hseen
  obtain ⟨hstats, hsize⟩ := hseen
  obtain ⟨hbalance, hnames⟩ := rounds_accounted hmade hrun
  rw [hstats, hsize] at hnames
  rw [hstats] at hbalance
  have hattempting : q.places.count .attempting = 1 := by
    simp at hbalance
    exact hbalance.symm
  exact ⟨p, steps, q, hmade, hrun, hdeeds, by rw [hstats], hattempting, hsize, hnames⟩

end SocksPool
