import SocksPool.Network.Dialer

/-!
# Talks that succeed

A talk is written step after step, and what its success means is read off in the same order:
each step has succeeded, and the next one went on at the time at which it ended. Most steps
take no time. The one that does compares the clock with the deadline of the talk, and does not
come to an end if the deadline has passed. A handshake takes such a step behind everything
that can take time, so one that succeeds has done so before its deadline.

## Main results

* `Talk.run_bind_eq_ok` — two talks in a row succeed exactly if each of them does.
* `Talk.run_pass_eq_ok` — time goes by only before the deadline.
* `Dialer.early_of_dial` — a handshake that succeeds does so before its deadline.
-/

namespace SocksPool

/-! ## Laws -/

namespace Talk

variable {ε ε' α β : Type} {c d : Course}

theorem run_bind (talk : Talk ε α) (next : α → Talk ε β) (c : Course) :
    run (talk >>= next) c =
      match run talk c with
      | (some (.ok a), mid) => run (next a) mid
      | (some (.error e), mid) => (some (.error e), mid)
      | (none, mid) => (none, mid) := by
  rcases htalk : run talk c with ⟨outcome, mid⟩
  have hraw : talk c = (outcome, mid) := htalk
  simp only [run, bind, ExceptT.bind, ExceptT.run, ExceptT.mk, ExceptT.bindCont, OptionT.bind,
    OptionT.mk, OptionT.run, StateT.bind]
  rw [hraw]
  rcases outcome with _ | _ | _ <;> rfl

/-- The next talk goes on where the first one succeeded. -/
theorem run_bind_eq_ok {talk : Talk ε α} {next : α → Talk ε β} {b : β} :
    run (talk >>= next) c = (some (.ok b), d) ↔
      ∃ a mid, run talk c = (some (.ok a), mid) ∧ run (next a) mid = (some (.ok b), d) := by
  rw [run_bind]
  rcases run talk c with ⟨_ | _ | a, mid⟩
  · simp
  · simp
  · constructor
    · intro h
      exact ⟨a, mid, rfl, h⟩
    · rintro ⟨a, mid, hfirst, h⟩
      cases hfirst
      exact h

theorem run_pure_eq_ok {a b : α} :
    run (pure a : Talk ε α) c = (some (.ok b), d) ↔ a = b ∧ c = d := by
  show (some (Except.ok a), c) = (some (Except.ok b), d) ↔ _
  simp

theorem run_throw_ne_ok {e : ε} {b : α} : run (throw e : Talk ε α) c ≠ (some (.ok b), d) := by
  show (some (Except.error e), c) ≠ _
  simp

theorem run_stall_ne_ok {b : α} : run (stall : Talk ε α) c ≠ (some (.ok b), d) := by
  show (none, c) ≠ _
  simp

/-- A talk that is no more than a result. -/
theorem run_result_eq_ok {result : Except ε α} {b : α} :
    run (ExceptT.mk (pure result) : Talk ε α) c = (some (.ok b), d) ↔ result = .ok b ∧ c = d := by
  show (some result, c) = (some (Except.ok b), d) ↔ _
  simp

/-- Other faults are no other success. -/
theorem run_adapt_eq_ok {talk : Talk ε α} {f : ε → ε'} {a : α} :
    run (ExceptT.adapt f talk) c = (some (.ok a), d) ↔ run talk c = (some (.ok a), d) := by
  rcases htalk : run talk c with ⟨outcome, mid⟩
  have hraw : talk c = (outcome, mid) := htalk
  show (ExceptT.mk (Except.mapError f <$> ExceptT.run talk) : Talk ε' α) c = _ ↔ _
  simp only [ExceptT.run, ExceptT.mk, Functor.map, OptionT.bind, OptionT.mk, StateT.bind, bind]
  rw [hraw]
  rcases outcome with _ | _ | a
  · show (none, mid) = _ ↔ _
    simp
  · show (some (Except.error _), mid) = _ ↔ _
    simp
  · show (some (Except.ok a), mid) = _ ↔ _
    simp

theorem run_map_eq_ok {f : α → β} {talk : Talk ε α} {b : β} :
    run (f <$> talk) c = (some (.ok b), d) ↔ ∃ a, run talk c = (some (.ok a), d) ∧ f a = b := by
  rw [map_eq_pure_bind, run_bind_eq_ok]
  simp only [run_pure_eq_ok]
  constructor
  · rintro ⟨a, mid, hrun, hvalue, rfl⟩
    exact ⟨a, hrun, hvalue⟩
  · rintro ⟨a, hrun, hvalue⟩
    exact ⟨a, d, hrun, hvalue, rfl⟩

/-- A talk goes on after a time only before its deadline. -/
theorem run_pass_eq_ok {span : Nat} :
    run (pass span : Talk ε Unit) c = (some (.ok ()), d) ↔
      d = { c with now := c.now + span } ∧
        ∀ deadline, d.deadline = some deadline → Instant.reached deadline d.now = false := by
  have hget : run (get : Talk ε Course) { c with now := c.now + span } =
      (some (.ok { c with now := c.now + span }), { c with now := c.now + span }) := rfl
  have hmodify : run (modify fun c => { c with now := c.now + span } : Talk ε Unit) c =
      (some (.ok ()), { c with now := c.now + span }) := rfl
  unfold pass
  rw [run_bind, hmodify]
  dsimp only
  rw [run_bind, hget]
  dsimp only
  cases hdeadline : c.deadline with
  | none =>
      rw [run_pure_eq_ok]
      grind
  | some deadline =>
      dsimp only
      split
      · next hlate => grind [run_stall_ne_ok]
      · next hearly =>
          rw [run_pure_eq_ok]
          grind

end Talk

/-! ## Handshakes -/

namespace Tunnel

/-- Connecting takes no time. -/
theorem course_of_connect {n : Network} {socket : Socket} {server : Server} {c d : Course}
    (h : Talk.run (connect n socket) c = (some (.ok server), d)) : d = c := by
  unfold connect at h
  split at h
  · split at h
    · exact absurd h Talk.run_stall_ne_ok
    · exact (Talk.run_pure_eq_ok.1 h).2.symm
  · exact (Talk.run_pure_eq_ok.1 h).2.symm
  · exact absurd h Talk.run_throw_ne_ok

/-- A tunnel is granted before the deadline. -/
theorem early_of_ask {n : Network} {script : ProxyScript} {wire : Protocol} {target : Target}
    {far : Option Server} {c d : Course}
    (h : Talk.run (ask n script wire target) c = (some (.ok far), d)) :
    ∀ deadline, c.deadline = some deadline → Instant.reached deadline d.now = false := by
  unfold ask at h
  obtain ⟨⟨⟩, mid, hpass, h⟩ := Talk.run_bind_eq_ok.1 h
  obtain ⟨hmid, hearly⟩ := Talk.run_pass_eq_ok.1 hpass
  suffices d = mid by
    intro deadline hdeadline
    rw [this]
    refine hearly deadline ?_
    rw [hmid]
    exact hdeadline
  split at h
  · exact absurd h Talk.run_stall_ne_ok
  split at h
  · exact absurd h Talk.run_throw_ne_ok
  split at h
  · exact absurd h Talk.run_throw_ne_ok
  split at h
  · exact absurd h Talk.run_throw_ne_ok
  split at h
  · split at h
    · exact (Talk.run_pure_eq_ok.1 h).2.symm
    · exact absurd h Talk.run_throw_ne_ok
  · split at h
    · exact absurd h Talk.run_throw_ne_ok
    · obtain ⟨server, hconnect, -⟩ := Talk.run_map_eq_ok.1 h
      exact course_of_connect (Talk.run_adapt_eq_ok.1 hconnect)

theorem early_of_dig {n : Network} {proxy : Socket} {protocol : Protocol} {target : Target}
    {far : Option Server} {c d : Course}
    (h : Talk.run (dig n proxy protocol target) c = (some (.ok far), d)) :
    ∀ deadline, c.deadline = some deadline → Instant.reached deadline d.now = false := by
  unfold dig at h
  obtain ⟨server, mid, hconnect, hdug⟩ := Talk.run_bind_eq_ok.1 h
  rw [course_of_connect (Talk.run_adapt_eq_ok.1 hconnect)] at hdug
  cases server with
  | proxy script =>
      dsimp only at hdug
      split at hdug
      · exact absurd hdug Talk.run_throw_ne_ok
      · exact absurd hdug Talk.run_throw_ne_ok
      · exact early_of_ask hdug
  | page _ => exact absurd hdug Talk.run_throw_ne_ok
  | echo => exact absurd hdug Talk.run_throw_ne_ok

end Tunnel

/-- A handshake that succeeds does so before its deadline. -/
theorem Dialer.early_of_dial {dialer : Dialer} {n : Network} {text : String}
    {far : Option Server} {c d : Course}
    (h : Talk.run (dialer.dial n text) c = (some (.ok far), d)) :
    ∀ deadline, c.deadline = some deadline → Instant.reached deadline d.now = false := by
  unfold dial at h
  split at h
  · exact absurd h Talk.run_throw_ne_ok
  · unfold dialTarget at h
    split at h
    · exact absurd h Talk.run_throw_ne_ok
    · exact Tunnel.early_of_dig (Talk.run_adapt_eq_ok.1 h)

end SocksPool
