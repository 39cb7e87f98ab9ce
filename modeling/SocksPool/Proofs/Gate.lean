import SocksPool.Proofs.Crew
import SocksPool.Proofs.Orderly

/-!
# The rules of the gate

A candidate passes the gate if it keeps six rules, and the gate asks for them in a fixed
order. What becomes of a candidate depends on the first rule that it breaks, and on
nothing else: the registry decides and not the queued copy, the soft lock that the gate
takes is given back, and neither queues nor tasks are looked at. So the gate can be said
without the locks and the tasks that carry it out.

## Main definitions

* `Rule`, `Pool.fails?` — the first rule that a candidate breaks.
* `Pool.Good` — a candidate that breaks none before it is re-dialled.
* `Pool.discard` — what becomes of one that breaks a rule.
* `Pool.Rejects` — candidates that break rules one after the other.

## Main results

* `breaks?_eq_none` — to break no rule before the re-dial is to be good.
* `judge_of_breaks`, `judge_of_good` — the gate up to the re-dial follows the rules.
* `Rejects.stats_eq`, `Rejects.crew_eq` — what they are counted as, and who is requeued.
* `Rejects.isLocked_iff` — no rule leaves a lock behind.
-/

namespace SocksPool

/-- What the gate asks of a candidate, in the order in which it asks. -/
inductive Rule where
  | registered
  | unlocked
  | fewMarks
  | notBackedOff
  | fresh
  | reachable
deriving DecidableEq, Repr

/-- Whether a candidate that breaks the rule may be validated again. -/
def Rule.recycles : Rule → Bool
  | .registered | .unlocked | .fewMarks => false
  | .notBackedOff | .fresh | .reachable => true

/-- The counters after candidates have broken the given rules. -/
def Stats.rejected (s : Stats) (rules : List Rule) : Stats :=
  { s with stale := s.stale + rules.count .fresh, evicted := s.evicted + rules.count .fewMarks }

theorem Stats.rejected_cons (s : Stats) (rule : Rule) (rules : List Rule) :
    (s.rejected [rule]).rejected rules = s.rejected (rule :: rules) := by
  unfold rejected
  cases rule <;> simp [Nat.add_comm, Nat.add_left_comm]

namespace Registry

variable {r : Registry} {endpoint : String} {life : Nat} {entry : Entry}

/-- Only the entry as it is matters to a change. -/
theorem update_congr {f g : Entry → Entry} (hentry : r.entry? life = some entry)
    (hsame : f entry = g entry) : r.update life f = r.update life g := by
  have hfound : r.lives[life]? = some entry := hentry
  have hlives : r.lives.modify life f = r.lives.modify life g := by
    refine List.ext_getElem? fun other => ?_
    rw [List.getElem?_modify, List.getElem?_modify]
    by_cases hother : life = other
    · subst hother
      simp [hfound, hsame]
    · simp [hother]
  exact congrArg (Registry.mk r.names) hlives

theorem update_update (r : Registry) (life : Nat) (f g : Entry → Entry) :
    (r.update life f).update life g = r.update life (g ∘ f) :=
  congrArg (Registry.mk r.names) (List.modify_modify_eq f g life r.lives)

/-- A lock that is taken and given back has not been there. -/
theorem release_lock (hentry : r.entry? life = some entry) (hfree : entry.locked = false) :
    (r.update life ({ · with locked := true })).release life = r := by
  have hkept : r.update life id = r :=
    congrArg (Registry.mk r.names) (List.modify_id life r.lives)
  unfold release
  rw [update_update, update_congr (g := id) hentry, hkept]
  simp [← hfree]

/-- Nor has it if a bad mark was added meanwhile. -/
theorem release_markBad_lock (hentry : r.entry? life = some entry)
    (hfree : entry.locked = false) :
    ((r.update life ({ · with locked := true })).update life Entry.markBad).release life =
      r.update life Entry.markBad := by
  unfold release
  rw [update_update, update_update]
  refine update_congr hentry ?_
  simp [Entry.markBad, ← hfree]

end Registry

namespace Pool

/-- The first rule that a candidate breaks before it is re-dialled, if it breaks one. -/
def breaks? (p : Pool) (endpoint : String) : Option Rule :=
  match p.registry.get? endpoint with
  | none => some .registered
  | some entry =>
    if entry.locked then some .unlocked
    else if p.config.removeAfter ≤ entry.timesBad then some .fewMarks
    else if p.backoff.peek p.now endpoint then some .notBackedOff
    else if entry.snapshot.isStale p.now p.config.staleAfter then some .fresh
    else none

/-- The first rule that a candidate breaks in all, if it breaks one. -/
def fails? (p : Pool) (endpoint : String) (reachable : Bool) : Option Rule :=
  (p.breaks? endpoint).or (if reachable then none else some .reachable)

/-- A candidate whose endpoint has an entry that keeps all rules but the last. -/
structure Good (p : Pool) (endpoint : String) (entry : Entry) : Prop where
  registered : p.registry.get? endpoint = some entry
  unlocked : entry.locked = false
  fewMarks : entry.timesBad < p.config.removeAfter
  notBackedOff : p.backoff.peek p.now endpoint = false
  fresh : ∃ validated, entry.lastValidated = some validated ∧
    p.now - validated ≤ p.config.staleAfter

/-- The pool with the soft lock of a life held. -/
def lock (p : Pool) (life : Nat) : Pool :=
  { p with registry := p.registry.update life ({ · with locked := true }) }

/-- What a candidate leaves behind by the first rule that it breaks: nothing, an eviction,
a line in the log, a stale count, or a bad mark. -/
def penalise (p : Pool) (endpoint : String) : Rule → Pool
  | .registered | .unlocked => p
  | .fewMarks => p.evict endpoint
  | .notBackedOff => p.tell (.skippedBackedOff endpoint)
  | .fresh => { p.tell (.skippedStale endpoint) with stats := p.stats.recordStale }
  | .reachable =>
    match p.registry.find? endpoint with
    | some life => ((p.tell (.skippedDead endpoint)).markBad life).1
    | none => p

/-- What becomes of a candidate: with recycling on it is requeued, unless it was passed over
or struck off. -/
def discard (p : Pool) (endpoint : String) (rule : Rule) : Pool :=
  (p.penalise endpoint rule).recycle (rule.recycles && p.config.recycle) endpoint

/-- Candidates that are rejected one after the other, by the given rules. Each comes with
what its re-dial would come to. -/
inductive Rejects : Pool → List (Proxy × Bool) → List Rule → Pool → Prop where
  | nil (p : Pool) : Rejects p [] [] p
  | cons {p q : Pool} {candidate : Proxy} {reachable : Bool} {rule : Rule}
      {more : List (Proxy × Bool)} {rules : List Rule}
      (hrule : p.fails? candidate.endpoint reachable = some rule)
      (hmore : Rejects (p.discard candidate.endpoint rule) more rules q) :
      Rejects p ((candidate, reachable) :: more) (rule :: rules) q

/-- The tasks that bring rejected candidates back. -/
def requeues (recycle : Bool) (trials : List (Proxy × Bool)) (rules : List Rule) : List Task :=
  if recycle then
    ((trials.zip rules).filter (·.2.recycles)).map fun trial => .requeue trial.1.1.endpoint none
  else []

variable {p q : Pool} {id : Nat} {endpoint : String} {rule : Rule} {entry : Entry}

/-! ## Who passes -/

theorem isStale_eq_false {now age : Nat} :
    entry.snapshot.isStale now age = false ↔
      ∃ validated, entry.lastValidated = some validated ∧ now - validated ≤ age := by
  unfold Proxy.isStale Entry.snapshot
  cases entry.lastValidated <;> simp

/-- The entry of a good candidate is that of the life which its name leads to. -/
theorem Good.entry? (h : p.Good endpoint entry) {life : Nat}
    (hfind : p.registry.find? endpoint = some life) : p.registry.entry? life = some entry := by
  simpa [Registry.get?, hfind] using h.registered

/-- Tests that are made one after the other find nothing if none of them does. -/
theorem ite_some_eq_none {α : Type} {c : Prop} [Decidable c] {found : α} {rest : Option α} :
    (if c then some found else rest) = none ↔ ¬ c ∧ rest = none := by
  split <;> simp [*]

/-- To break no rule before the re-dial is to be good. -/
theorem breaks?_eq_none : p.breaks? endpoint = none ↔ ∃ entry, p.Good endpoint entry := by
  unfold breaks?
  refine ⟨fun hnone => ?_, fun ⟨entry, hgood⟩ => ?_⟩
  · split at hnone
    · cases hnone
    · next entry hget =>
        simp only [ite_some_eq_none, Bool.not_eq_true, Nat.not_le, and_true] at hnone
        obtain ⟨hlocked, hmarks, hbacked, hstale⟩ := hnone
        exact ⟨entry, hget, hlocked, hmarks, hbacked, isStale_eq_false.1 hstale⟩
  · have hfresh := isStale_eq_false.2 hgood.fresh
    simp [hgood.registered, hgood.unlocked, hgood.fewMarks, hgood.notBackedOff, hfresh]

/-- Who breaks a rule before the re-dial need not be re-dialled. -/
theorem fails?_of_breaks (hrule : p.breaks? endpoint = some rule) (reachable : Bool) :
    p.fails? endpoint reachable = some rule := by
  unfold fails?
  rw [hrule]
  rfl

/-- For a good candidate it is all a matter of the re-dial. -/
theorem Good.fails? (h : p.Good endpoint entry) (reachable : Bool) :
    p.fails? endpoint reachable = if reachable then none else some .reachable := by
  unfold Pool.fails?
  rw [breaks?_eq_none.2 ⟨entry, h⟩]
  rfl

/-- To break no rule at all is to be good and to be reached. -/
theorem fails?_eq_none {reachable : Bool} :
    p.fails? endpoint reachable = none ↔ reachable = true ∧ ∃ entry, p.Good endpoint entry := by
  unfold Pool.fails?
  rw [Option.or_eq_none_iff, breaks?_eq_none]
  cases reachable <;> simp

/-! ## The gate follows the rules -/

/-- Up to the re-dial the gate discards a candidate by the first rule that it breaks, and
locks the life of one that breaks none. -/
theorem judge_of_entry {life : Nat} (hfind : p.registry.find? endpoint = some life)
    (hentry : p.registry.entry? life = some entry) :
    p.judge endpoint =
      match p.breaks? endpoint with
      | some rule => (p.discard endpoint rule, none)
      | none => (p.lock life, some life) := by
  have hget : p.registry.get? endpoint = some entry :=
    Registry.get?_eq_some.2 ⟨life, hfind, hentry⟩
  unfold judge breaks? Registry.tryLock?
  simp only [hfind, hentry, hget]
  -- Gate and rules ask the same questions in the same order.
  cases entry.locked with
  | true => rfl
  | false =>
      simp only [Bool.false_eq_true, if_false]
      split
      · rfl
      · split
        · rfl
        · split <;> rfl

theorem judge_of_breaks (hrule : p.breaks? endpoint = some rule) :
    p.judge endpoint = (p.discard endpoint rule, none) := by
  cases hget : p.registry.get? endpoint with
  | none =>
      obtain rfl : Rule.registered = rule := by simpa [breaks?, hget] using hrule
      unfold judge Registry.tryLock?
      cases hfind : p.registry.find? endpoint with
      | none => rfl
      | some life =>
          have hentry : p.registry.entry? life = none := by
            simpa [Registry.get?, hfind] using hget
          simp only [hentry]
          rfl
  | some entry =>
      obtain ⟨life, hfind, hentry⟩ := Registry.get?_eq_some.1 hget
      rw [judge_of_entry hfind hentry, hrule]

theorem judge_of_good {life : Nat} (hfind : p.registry.find? endpoint = some life)
    (hgood : p.Good endpoint entry) : p.judge endpoint = (p.lock life, some life) := by
  rw [judge_of_entry hfind (hgood.entry? hfind), breaks?_eq_none.2 ⟨entry, hgood⟩]

/-! ## What a discarded candidate leaves alone -/

/-- A candidate leaves its effect in registry, limiters, counters and log. -/
theorem penalise_frame (p : Pool) (endpoint : String) (rule : Rule) :
    { p.penalise endpoint rule with
      registry := p.registry, backoff := p.backoff, usage := p.usage, stats := p.stats,
      log := p.log } = p := by
  cases rule with
  | registered | unlocked | notBackedOff | fresh => rfl
  | fewMarks =>
      show { p.evict endpoint with
        registry := p.registry, backoff := p.backoff, usage := p.usage, stats := p.stats,
        log := p.log } = p
      unfold evict
      cases p.registry.delete endpoint <;> rfl
  | reachable =>
      unfold penalise
      cases p.registry.find? endpoint <;> rfl

/-- And it may begin a task. -/
theorem discard_frame (p : Pool) (endpoint : String) (rule : Rule) :
    { p.discard endpoint rule with
      registry := p.registry, backoff := p.backoff, usage := p.usage, stats := p.stats,
      log := p.log, tasks := p.tasks, nextTask := p.nextTask } = p := by
  have hpenalty := congrArg (fun q : Pool => { q with tasks := p.tasks, nextTask := p.nextTask })
    (p.penalise_frame endpoint rule)
  unfold discard
  cases rule.recycles && p.config.recycle <;> exact hpenalty

theorem config_discard (p : Pool) (endpoint : String) (rule : Rule) :
    (p.discard endpoint rule).config = p.config :=
  (congrArg Pool.config (p.discard_frame endpoint rule) :)

theorem outputs_discard (p : Pool) (endpoint : String) (rule : Rule) :
    (p.discard endpoint rule).outputs = p.outputs :=
  (congrArg Pool.outputs (p.discard_frame endpoint rule) :)

theorem answers_discard (p : Pool) (endpoint : String) (rule : Rule) :
    (p.discard endpoint rule).answers = p.answers :=
  (congrArg Pool.answers (p.discard_frame endpoint rule) :)

theorem nextTask_penalise (p : Pool) (endpoint : String) (rule : Rule) :
    (p.penalise endpoint rule).nextTask = p.nextTask :=
  (congrArg Pool.nextTask (p.penalise_frame endpoint rule) :)

theorem lt_nextTask_discard (hbelow : id < p.nextTask) (endpoint : String) (rule : Rule) :
    id < (p.discard endpoint rule).nextTask :=
  lt_nextTask_recycle (nextTask_penalise p endpoint rule ▸ hbelow) _ endpoint

/-- A task that ends takes no part in what becomes of a candidate. -/
theorem remove_discard (hbelow : id < p.nextTask) (endpoint : String) (rule : Rule) :
    (p.discard endpoint rule).remove id = (p.remove id).discard endpoint rule := by
  have hpenalty : (p.penalise endpoint rule).remove id = (p.remove id).penalise endpoint rule := by
    cases rule with
    | registered | unlocked | notBackedOff | fresh => rfl
    | fewMarks => exact remove_evict p id endpoint
    | reachable =>
        have hsame : (p.remove id).registry = p.registry := rfl
        unfold penalise
        rw [hsame]
        cases p.registry.find? endpoint <;> rfl
  unfold discard
  rw [remove_recycle (nextTask_penalise p endpoint rule ▸ hbelow), hpenalty]
  rfl

/-- Who breaks any rule but the first is registered. -/
theorem contains_of_fails {reachable : Bool} (hrule : p.fails? endpoint reachable = some rule)
    (hother : rule ≠ .registered) : p.registry.contains endpoint = true := by
  unfold Registry.contains
  cases hfind : p.registry.find? endpoint with
  | some life => rfl
  | none =>
      have hget : p.registry.get? endpoint = none := by simp [Registry.get?, hfind]
      have hfirst : p.breaks? endpoint = some .registered := by simp [breaks?, hget]
      rw [fails?_of_breaks hfirst] at hrule
      exact absurd (Option.some.inj hrule).symm hother

/-- A discarded candidate is counted by its rule. -/
theorem stats_discard {reachable : Bool} (hrule : p.fails? endpoint reachable = some rule) :
    (p.discard endpoint rule).stats = p.stats.rejected [rule] := by
  have hpenalty : (p.penalise endpoint rule).stats = p.stats.rejected [rule] := by
    cases rule with
    | registered | unlocked | notBackedOff | fresh => rfl
    | fewMarks =>
        have hcontains := contains_of_fails hrule nofun
        unfold penalise evict Registry.delete
        rw [if_pos hcontains]
        rfl
    | reachable =>
        unfold penalise
        cases p.registry.find? endpoint <;> rfl
  unfold discard
  cases rule.recycles && p.config.recycle <;> exact hpenalty

/-- A discarded candidate is requeued once if its rule allows it, and recycling is on. -/
theorem crew_discard (p : Pool) (endpoint : String) (rule : Rule) :
    (p.discard endpoint rule).crew = p.crew ++
      if rule.recycles && p.config.recycle then [Task.requeue endpoint none] else [] := by
  have hpenalty : (p.penalise endpoint rule).tasks = p.tasks :=
    (congrArg Pool.tasks (p.penalise_frame endpoint rule) :)
  unfold discard recycle crew
  split
  · show ((p.penalise endpoint rule).tasks ++ [(_, Task.requeue endpoint none)]).map Prod.snd = _
    rw [hpenalty, List.map_append]
    rfl
  · rw [hpenalty, List.append_nil]

/-- No rule leaves a lock behind, or takes one away. -/
theorem isLocked_discard (p : Pool) (endpoint : String) (rule : Rule) (life : Nat) :
    (p.discard endpoint rule).registry.IsLocked life ↔ p.registry.IsLocked life := by
  unfold discard
  rw [registry_recycle]
  cases rule with
  | registered | unlocked | notBackedOff | fresh => rfl
  | fewMarks =>
      show (p.evict endpoint).registry.IsLocked life ↔ _
      unfold evict
      cases hdelete : p.registry.delete endpoint with
      | error e => rfl
      | ok deleted =>
          show deleted.IsLocked life ↔ _
          unfold Registry.IsLocked
          rw [Registry.entry?_delete hdelete]
  | reachable =>
      unfold penalise
      cases p.registry.find? endpoint with
      | none => rfl
      | some marked =>
          refine Registry.isLocked_update _ _ ?_
          exact fun _ => rfl

/-! ## One candidate after the other -/

section Rejected

variable {trials : List (Proxy × Bool)} {rules : List Rule}

theorem Rejects.config_eq (h : p.Rejects trials rules q) : q.config = p.config := by
  induction h with
  | nil => rfl
  | cons _ _ ih => exact ih.trans (config_discard ..)

theorem Rejects.outputs_eq (h : p.Rejects trials rules q) : q.outputs = p.outputs := by
  induction h with
  | nil => rfl
  | cons _ _ ih => exact ih.trans (outputs_discard ..)

theorem Rejects.answers_eq (h : p.Rejects trials rules q) : q.answers = p.answers := by
  induction h with
  | nil => rfl
  | cons _ _ ih => exact ih.trans (answers_discard ..)

theorem Rejects.stats_eq (h : p.Rejects trials rules q) :
    q.stats = p.stats.rejected rules := by
  induction h with
  | nil => rfl
  | cons hrule _ ih => rw [ih, stats_discard hrule, Stats.rejected_cons]

theorem Rejects.isLocked_iff (h : p.Rejects trials rules q) (life : Nat) :
    q.registry.IsLocked life ↔ p.registry.IsLocked life := by
  induction h with
  | nil => rfl
  | cons _ _ ih => exact ih.trans (isLocked_discard ..)

/-- A number that belongs to the call belongs to none of the tasks that it begins. -/
theorem Rejects.absent (h : p.Rejects trials rules q) (hbelow : id < p.nextTask)
    (habsent : p.remove id = p) : id < q.nextTask ∧ q.remove id = q := by
  induction h with
  | nil => exact ⟨hbelow, habsent⟩
  | @cons p q candidate reachable rule more rules _ _ ih =>
      refine ih (lt_nextTask_discard hbelow candidate.endpoint rule) ?_
      rw [remove_discard hbelow, habsent]

/-- Rejected candidates are requeued once each if their rules allow it, and recycling is
on. -/
theorem Rejects.crew_eq (h : p.Rejects trials rules q) :
    q.crew = p.crew ++ requeues p.config.recycle trials rules := by
  induction h with
  | nil p => cases hrecycle : p.config.recycle <;> simp [requeues]
  | @cons p q candidate reachable rule more rules _ _ ih =>
      rw [ih, crew_discard, config_discard, List.append_assoc]
      unfold requeues
      cases p.config.recycle <;> cases hrecycles : rule.recycles <;> simp [hrecycles]

end Rejected

end Pool

end SocksPool
