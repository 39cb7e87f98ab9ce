import SocksPool.Proofs.Lives

/-!
# How a registry changes

In a run of a pool the registry changes in a few ways only: names are added
and deleted, and the entries of lives are marked bad, locked, unlocked, and
validated under protocols that are known. `Evolves r s` says that `s` comes
about from `r` in these ways.

What they all keep is proved here once. A life that has settled on a protocol
stays with it, whatever becomes of its name. A life that was ever validated has
settled. And no name is registered twice.

## Main results

* `Settled.evolves` — a protocol that was found is never changed in its life.
* `Known.evolves` — a validated life has a known protocol.
* `nodup_of_evolves` — names stay distinct.
-/

namespace SocksPool.Registry

/-- The life is one of the endpoint, and it has found the protocol. -/
def Settled (r : Registry) (life : Nat) (endpoint : String) (protocol : Protocol) : Prop :=
  protocol ≠ .unknown ∧
    ∃ entry, r.entry? life = some entry ∧ entry.endpoint = endpoint ∧ entry.protocol = protocol

/-- Every life that was validated has found its protocol. -/
def Known (r : Registry) : Prop :=
  ∀ life entry, r.entry? life = some entry → entry.lastValidated.isSome = true →
    entry.protocol ≠ .unknown

/-- The second registry comes about from the first one. -/
inductive Evolves (r : Registry) : Registry → Prop where
  | refl : Evolves r r
  | added {s : Registry} {endpoint : String} (h : Evolves r s)
      (hfind : s.find? endpoint = none) : Evolves r (s.add endpoint).1
  | deleted {s t : Registry} {endpoint : String} (h : Evolves r s)
      (hdelete : s.delete endpoint = .ok t) : Evolves r t
  | marked {s : Registry} (h : Evolves r s) (life : Nat) : Evolves r (s.update life Entry.markBad)
  | locked {s : Registry} (h : Evolves r s) (life : Nat) :
      Evolves r (s.update life ({ · with locked := true }))
  | released {s : Registry} (h : Evolves r s) (life : Nat) : Evolves r (s.release life)
  | validated {s : Registry} {protocol : Protocol} (h : Evolves r s)
      (hknown : protocol ≠ .unknown) (life now : Nat) (exit : Address) :
      Evolves r (s.update life (·.recordValidation now protocol exit))

variable {r s : Registry} {life : Nat} {endpoint : String} {protocol : Protocol}

/-! ## Protocols of entries -/

/-- A protocol that was found is kept by a later validation. -/
theorem protocol_recordValidation_of_known {e : Entry} (h : e.protocol ≠ .unknown) (now : Nat)
    (protocol : Protocol) (exit : Address) :
    (e.recordValidation now protocol exit).protocol = e.protocol := by
  have hno : e.acceptsProtocol protocol = false := by simp [Entry.acceptsProtocol, h]
  simp [Entry.recordValidation, Entry.setProtocol, hno]

/-- After a validation the protocol is known. -/
theorem protocol_recordValidation_ne {protocol : Protocol} (hknown : protocol ≠ .unknown)
    (e : Entry) (now : Nat) (exit : Address) :
    (e.recordValidation now protocol exit).protocol ≠ .unknown := by
  by_cases h : e.protocol = .unknown
  · have hyes : e.acceptsProtocol protocol = true := by simp [Entry.acceptsProtocol, h, hknown]
    simpa [Entry.recordValidation, Entry.setProtocol, hyes] using hknown
  · rw [protocol_recordValidation_of_known h]
    exact h

/-! ## Settled lives -/

theorem Settled.isLife (h : r.Settled life endpoint protocol) : r.IsLife life endpoint := by
  obtain ⟨-, entry, hentry, hname, -⟩ := h
  exact ⟨entry, hentry, hname⟩

/-- A life has found one protocol. -/
theorem Settled.unique {other : Protocol} (h : r.Settled life endpoint protocol)
    (hother : r.Settled life endpoint other) : other = protocol := by
  obtain ⟨-, entry, hentry, -, rfl⟩ := h
  obtain ⟨-, found, hfound, -, rfl⟩ := hother
  rw [hentry] at hfound
  rw [Option.some.inj hfound]

theorem Settled.update (h : r.Settled life endpoint protocol) (other : Nat)
    {change : Entry → Entry} (hname : ∀ e, (change e).endpoint = e.endpoint)
    (hkeep : ∀ e, e.protocol ≠ .unknown → (change e).protocol = e.protocol) :
    (r.update other change).Settled life endpoint protocol := by
  obtain ⟨hknown, entry, hentry, rfl, rfl⟩ := h
  by_cases hsame : life = other
  · refine ⟨hknown, change entry, ?_, hname entry, hkeep entry hknown⟩
    rw [entry?_update, if_pos hsame, hentry]
    rfl
  · refine ⟨hknown, entry, ?_, rfl, rfl⟩
    rw [entry?_update, if_neg hsame, hentry]

/-- A protocol that was found is never changed in its life. -/
theorem Settled.evolves (hsettled : r.Settled life endpoint protocol) (h : r.Evolves s) :
    s.Settled life endpoint protocol := by
  induction h with
  | refl => exact hsettled
  | added h hfind ih =>
      have hold := ih.isLife.lt_length
      obtain ⟨hknown, entry, hentry, hname, hprotocol⟩ := ih
      refine ⟨hknown, entry, ?_, hname, hprotocol⟩
      rw [entry?_add hfind, if_neg (Nat.ne_of_lt hold), hentry]
  | deleted h hdelete ih =>
      obtain ⟨hknown, entry, hentry, hname, hprotocol⟩ := ih
      refine ⟨hknown, entry, ?_, hname, hprotocol⟩
      rw [entry?_delete hdelete, hentry]
  | marked h other ih => exact ih.update other (fun _ => rfl) fun _ _ => rfl
  | locked h other ih => exact ih.update other (fun _ => rfl) fun _ _ => rfl
  | released h other ih => exact ih.update other (fun _ => rfl) fun _ _ => rfl
  | validated h hknown other now exit ih =>
      exact ih.update other (fun e => endpoint_recordValidation e _ _ _) fun e he =>
        protocol_recordValidation_of_known he _ _ _

/-! ## Validated lives -/

theorem Known.update (h : r.Known) (other : Nat) {change : Entry → Entry}
    (hkeep : ∀ e, (e.lastValidated.isSome = true → e.protocol ≠ .unknown) →
      (change e).lastValidated.isSome = true → (change e).protocol ≠ .unknown) :
    (r.update other change).Known := by
  intro life entry hentry hvalidated
  rw [entry?_update] at hentry
  by_cases hsame : life = other
  · rw [if_pos hsame] at hentry
    obtain ⟨old, hold, rfl⟩ := Option.map_eq_some_iff.1 hentry
    exact hkeep old (h life old hold) hvalidated
  · rw [if_neg hsame] at hentry
    exact h life entry hentry hvalidated

/-- A validated life has a known protocol. -/
theorem Known.evolves (hknown : r.Known) (h : r.Evolves s) : s.Known := by
  induction h with
  | refl => exact hknown
  | @added s endpoint h hfind ih =>
      intro life entry hentry hvalidated
      rw [entry?_add hfind] at hentry
      by_cases hnew : life = s.lives.length
      · rw [if_pos hnew] at hentry
        rw [← Option.some.inj hentry] at hvalidated
        cases hvalidated
      · rw [if_neg hnew] at hentry
        exact ih life entry hentry hvalidated
  | deleted h hdelete ih =>
      intro life entry hentry hvalidated
      rw [entry?_delete hdelete] at hentry
      exact ih life entry hentry hvalidated
  | marked h other ih => exact ih.update other fun _ he => he
  | locked h other ih => exact ih.update other fun _ he => he
  | released h other ih => exact ih.update other fun _ he => he
  | validated h hfound other now exit ih =>
      exact ih.update other fun e _ _ => protocol_recordValidation_ne hfound e now exit

/-! ## Names -/

/-- Names stay distinct. -/
theorem nodup_of_evolves (hnodup : r.names.keys.Nodup) (h : r.Evolves s) :
    s.names.keys.Nodup := by
  induction h with
  | added h hfind ih =>
      rw [add_of_none hfind]
      exact Table.nodup_put ih _ _
  | deleted h hdelete ih =>
      obtain ⟨-, rfl⟩ := delete_eq_ok hdelete
      exact Table.nodup_erase ih _
  | refl => exact hnodup
  | marked h other ih => exact ih
  | locked h other ih => exact ih
  | released h other ih => exact ih
  | validated h hknown other now exit ih => exact ih

/-! ## Composition -/

theorem Evolves.trans {t : Registry} (hrs : r.Evolves s) (hst : s.Evolves t) : r.Evolves t := by
  induction hst with
  | refl => exact hrs
  | added h hfind ih => exact ih.added hfind
  | deleted h hdelete ih => exact ih.deleted hdelete
  | marked h other ih => exact ih.marked other
  | locked h other ih => exact ih.locked other
  | released h other ih => exact ih.released other
  | validated h hknown other now exit ih => exact ih.validated hknown other now exit

end SocksPool.Registry
