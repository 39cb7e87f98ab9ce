import SocksPool.Pool.Lifecycle
import SocksPool.Pool.Move

/-!
# Runs of a pool

A pool changes because its user calls it, because one of its tasks moves, or
because time passes. `Deed` names these causes, and `Pool.act?` is the pool
after a deed, or nothing if the deed is not possible now. Nothing is assumed
about the order of deeds: a *run* is any sequence of possible ones, so what
holds of every run holds under every scheduling of the tasks, every answer
of the network, and every advance of the clock.

Deeds are the calls that a user of the pool can make, and the moves of tasks
that such calls begin. A call that is rejected changes nothing and is a deed
all the same. Dropping a call that waits is the move `abandon` of its task.

## Main results

* `Run.throughout` — what holds at the start and is kept by every step of a
  run holds before and after every step.
* `Run.of_perform?` — deeds that can be computed one after the other make up
  a run.
-/

namespace SocksPool

/-- A setting of a pool that its user can change. -/
inductive Setting where
  | staleAfter (age : Nat)
  | validationTimeout (timeout : Nat)
  | recycling (recycle : Bool)
  | removeAfter (count : Nat)
  | echoEndpoints (urls : List String)
  | userAgents (agents : List String)
  | maxWorkers (ceiling : Nat)
  | workers (count : Nat)
  | scaleThreshold (threshold : Nat)
  | autoscaler (enabled : Bool)
deriving DecidableEq

/-- One thing that happens to a pool. -/
inductive Deed where
  | load (raw : String)
  | loadList (content : String)
  /-- Loads the candidates of a text that was fetched from `source`. -/
  | loadFetched (source content : String)
  | reportFailure (endpoint : String)
  | start
  | pause
  | resume
  | adjust (setting : Setting)
  | get (wanted : Option Protocol) (cancel : Option Nat)
  | dial (network address : String) (cancel : Option Nat)
  | attach
  | send (cloneable : Bool)
  /-- The owner of the workers changes their capacity. -/
  | tune (change : Int)
  /-- The owner of the workers closes them. -/
  | closeWorkers
  | advance (span : Nat)
  | move (id : Nat) (move : Move)

namespace Pool

/-- Changes a setting. -/
def adjust (p : Pool) : Setting → Except PoolError Pool
  | .staleAfter age => .ok (p.setStaleAfter age)
  | .validationTimeout timeout => p.setValidationTimeout timeout
  | .recycling recycle => .ok (p.setRecycling recycle)
  | .removeAfter count => p.setRemoveAfter count
  | .echoEndpoints urls => p.setEchoEndpoints urls
  | .userAgents agents => .ok (p.setUserAgents agents)
  | .maxWorkers ceiling => p.setMaxWorkers ceiling
  | .workers count => p.setWorkers count
  | .scaleThreshold threshold => .ok (p.setScaleThreshold threshold)
  | .autoscaler enabled => .ok (if enabled then p.enableScaler else p.disableScaler)

/-- The pool after a call that may be rejected. -/
def afterCall (p : Pool) (outcome : Except PoolError Pool) : Pool :=
  match outcome with
  | .ok q => q
  | .error _ => p

/-- The pool after a deed, if the deed is possible. -/
def act? (p : Pool) : Deed → Option Pool
  | .load raw => some (p.load raw).1
  | .loadList content => some (p.loadList content).1
  | .loadFetched source content => some (p.loadFetched source content).1
  | .reportFailure endpoint => some (p.reportFailure endpoint).1
  | .start => some (p.afterCall p.start)
  | .pause => some (p.afterCall p.pause)
  | .resume => some (p.afterCall p.resume)
  | .adjust setting => some (p.afterCall (p.adjust setting))
  | .get wanted cancel => some (p.get wanted cancel)
  | .dial network address cancel => some (p.afterCall (p.dial network address cancel))
  | .attach => some p.attach
  | .send cloneable => some (p.send cloneable)
  | .tune change => some (p.tune change)
  | .closeWorkers => some p.closeWorkers
  | .advance span => some (p.advance span)
  | .move id move => p.move? id move

end Pool

/-- A deed that was done, with the pool before and after it. -/
structure Step where
  before : Pool
  deed : Deed
  after : Pool
  done : before.act? deed = some after

/-- The steps, one after the other, lead from `p` to the last pool. -/
inductive Run (p : Pool) : List Step → Pool → Prop where
  | rest : Run p [] p
  | step {steps : List Step} (s : Step) : Run p steps s.before → Run p (steps ++ [s]) s.after

namespace Run

variable {p q : Pool} {steps : List Step}

/-- What holds at the start of a run and is kept by its steps holds at its
end, and before and after every step. -/
theorem throughout {P : Pool → Prop} (hrun : Run p steps q) (hstart : P p)
    (hstep : ∀ s ∈ steps, P s.before → P s.after) :
    P q ∧ ∀ s ∈ steps, P s.before ∧ P s.after := by
  induction hrun with
  | rest => exact ⟨hstart, by simp⟩
  | step s _ ih =>
      obtain ⟨hbefore, hall⟩ := ih fun t ht => hstep t (by simp [ht])
      have hafter := hstep s (by simp) hbefore
      refine ⟨hafter, fun t ht => ?_⟩
      rcases List.mem_append.1 ht with hold | hnew
      · exact hall t hold
      · obtain rfl := List.mem_singleton.1 hnew
        exact ⟨hbefore, hafter⟩

/-- The pool at the end of a run is the one at its start or the one after
some step. -/
theorem last_eq (hrun : Run p steps q) : q = p ∨ ∃ s ∈ steps, q = s.after := by
  cases hrun with
  | rest => exact .inl rfl
  | step s _ => exact .inr ⟨s, by simp, rfl⟩

/-- The steps before a step of a run lead to it. -/
theorem upto {earlier later : List Step} {s : Step} (hrun : Run p steps q)
    (hsplit : steps = earlier ++ s :: later) : Run p earlier s.before := by
  induction hrun generalizing later with
  | rest =>
      have hempty := congrArg List.length hsplit
      simp at hempty
  | @step steps last hrun ih =>
      rcases List.eq_nil_or_concat later with rfl | ⟨more, final, rfl⟩
      · obtain ⟨rfl, hlast⟩ := List.append_inj' hsplit rfl
        rw [← List.singleton_inj.1 hlast]
        exact hrun
      · rw [List.concat_eq_append, ← List.cons_append, ← List.append_assoc] at hsplit
        exact ih (List.append_inj_left' hsplit rfl)

/-- The steps from a step of a run on lead to its end, and so do those after it. -/
theorem since {earlier later : List Step} {s : Step} (hrun : Run p steps q)
    (hsplit : steps = earlier ++ s :: later) :
    Run s.before (s :: later) q ∧ Run s.after later q := by
  induction hrun generalizing later with
  | rest =>
      have hempty := congrArg List.length hsplit
      simp at hempty
  | @step steps last hrun ih =>
      rcases List.eq_nil_or_concat later with rfl | ⟨more, final, rfl⟩
      · obtain ⟨-, hlast⟩ := List.append_inj' hsplit rfl
        rw [← List.singleton_inj.1 hlast]
        exact ⟨.step last .rest, .rest⟩
      · rw [List.concat_eq_append, ← List.cons_append, ← List.append_assoc] at hsplit
        obtain ⟨hinit, hlast⟩ := List.append_inj' hsplit rfl
        rw [List.concat_eq_append, ← List.singleton_inj.1 hlast]
        exact ⟨.step last (ih hinit).1, .step last (ih hinit).2⟩

end Run

namespace Pool

/-- The pool after deeds that are done one after the other, if all of them
are possible. -/
def perform? (p : Pool) : List Deed → Option Pool
  | [] => some p
  | d :: more => (p.act? d).bind (perform? · more)

theorem perform?_append (p : Pool) (first later : List Deed) :
    p.perform? (first ++ later) = (p.perform? first).bind (perform? · later) := by
  induction first generalizing p with
  | nil => rfl
  | cons d more ih =>
      show (p.act? d).bind _ = ((p.act? d).bind _).bind _
      cases p.act? d with
      | none => rfl
      | some q => exact ih q

end Pool

/-- Deeds that can be done one after the other make up a run. -/
theorem Run.of_perform? {p q r : Pool} {before : List Step} {deeds : List Deed}
    (hrun : Run p before q) (hdone : q.perform? deeds = some r) :
    ∃ steps, Run p (before ++ steps) r ∧ steps.map Step.deed = deeds := by
  induction deeds generalizing q before with
  | nil =>
      obtain rfl : q = r := by simpa [Pool.perform?] using hdone
      exact ⟨[], by simpa using hrun, rfl⟩
  | cons d more ih =>
      obtain ⟨mid, hact, hrest⟩ := Option.bind_eq_some_iff.1 hdone
      obtain ⟨steps, hsteps, hdeeds⟩ := ih (Run.step ⟨q, d, mid, hact⟩ hrun) hrest
      exact ⟨⟨q, d, mid, hact⟩ :: steps, by simpa using hsteps, by simp [hdeeds]⟩

/-- What holds of all deeds holds of the steps in which they are done. -/
theorem Step.forall_of_deeds {P : Deed → Prop} {steps : List Step} {deeds : List Deed}
    (hdeeds : steps.map Step.deed = deeds) (hall : ∀ d ∈ deeds, P d) :
    ∀ s ∈ steps, P s.deed := by
  intro s hs
  refine hall _ ?_
  rw [← hdeeds]
  exact List.mem_map_of_mem hs

/-- A run of given deeds, and what is seen of the pool at its end. -/
theorem Run.of_view {α : Type} {p : Pool} {deeds : List Deed} (view : Pool → α) {seen : α}
    (hview : (p.perform? deeds).map view = some seen) :
    ∃ steps q, Run p steps q ∧ steps.map Step.deed = deeds ∧ view q = seen := by
  obtain ⟨q, hdone, hseen⟩ := Option.map_eq_some_iff.1 hview
  obtain ⟨steps, hrun, hdeeds⟩ := Run.of_perform? Run.rest hdone
  exact ⟨steps, q, hrun, hdeeds, hseen⟩

/-- A run of given deeds and a last one, and what is seen of its last step. -/
theorem Run.of_last_view {α : Type} {p : Pool} {deeds : List Deed} {last : Deed}
    (view : Pool → Pool → α) {seen : α}
    (hview : ((p.perform? deeds).bind fun q => (q.act? last).map (view q)) = some seen) :
    ∃ steps s, Run p (steps ++ [s]) s.after ∧
      (steps ++ [s]).map Step.deed = deeds ++ [last] ∧ view s.before s.after = seen := by
  obtain ⟨q, hdone, hlast⟩ := Option.bind_eq_some_iff.1 hview
  obtain ⟨after, hact, hseen⟩ := Option.map_eq_some_iff.1 hlast
  obtain ⟨steps, hrun, hdeeds⟩ := Run.of_perform? Run.rest hdone
  exact ⟨steps, ⟨q, last, after, hact⟩, Run.step _ hrun, by simp [hdeeds], hseen⟩

namespace Pool

/-- The steps of deeds that are done one after the other, if all of them are
possible. -/
def steps? (p : Pool) : List Deed → Option (List Step)
  | [] => some []
  | d :: more =>
    match h : p.act? d with
    | none => none
    | some q => (q.steps? more).map (⟨p, d, q, h⟩ :: ·)

end Pool

/-- Steps that can be computed one after the other make up a run. -/
theorem Run.of_steps? {p q : Pool} {before steps : List Step} {deeds : List Deed}
    (hrun : Run p before q) (hdone : q.steps? deeds = some steps) :
    steps.map Step.deed = deeds ∧ ∃ r, Run p (before ++ steps) r := by
  induction deeds generalizing q before steps with
  | nil =>
      obtain rfl := Option.some.inj hdone
      exact ⟨rfl, q, by simpa using hrun⟩
  | cons d more ih =>
      unfold Pool.steps? at hdone
      split at hdone
      · cases hdone
      · next mid hact =>
          obtain ⟨rest, hrest, rfl⟩ := Option.map_eq_some_iff.1 hdone
          obtain ⟨hdeeds, r, hwhole⟩ := ih (Run.step ⟨q, d, mid, hact⟩ hrun) hrest
          exact ⟨congrArg (d :: ·) hdeeds, r, by simpa using hwhole⟩

/-- A run of given deeds, and what is seen of each of its steps. -/
theorem Run.of_views {α : Type} {p : Pool} {deeds : List Deed} (view : Step → α) {seen : List α}
    (hview : (p.steps? deeds).map (List.map view) = some seen) :
    ∃ steps q, Run p steps q ∧ steps.map Step.deed = deeds ∧ steps.map view = seen := by
  obtain ⟨steps, hdone, hseen⟩ := Option.map_eq_some_iff.1 hview
  obtain ⟨hdeeds, q, hrun⟩ := Run.of_steps? Run.rest hdone
  exact ⟨steps, q, hrun, hdeeds, hseen⟩

end SocksPool
