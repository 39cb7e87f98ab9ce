import SocksPool.Proofs.Growth
import SocksPool.Proofs.Whereabouts

/-!
# Protocols of copies

A round tries known protocols only, so what it finds is known, and the copy
that it delivers is of a protocol on which some life of its endpoint has
settled. The copy may outlive that life: its endpoint can be evicted and loaded
again while it is queued. So all that can be said of a candidate is that an
earlier life, or the same one, has settled on its protocol, and that the life
which is re-dialled has settled too, on some protocol.

## Main results

* `Effect.evolves` — how a deed changes the registry.
* `Typed.throughout` — every state of a run is typed.
-/

open SocksPool.Task (holders)

namespace SocksPool

/-- What a task carries is typed. A round has known protocols before it, or a
copy of a life that has settled on its protocol. A caller that re-dials a
candidate may take it, and both the candidate and the life have settled. -/
def Task.Typed (r : Registry) : Task → Prop
  | .round ⟨_, _, _, _, .attempting protocol rest _⟩ => .unknown ∉ protocol :: rest
  | .round ⟨_, _, _, _, .delivering copy⟩ => ∃ life, r.Settled life copy.endpoint copy.protocol
  | .caller ⟨purpose, _, .checking candidate life _ _ _⟩ =>
      Pool.Purpose.accepts purpose candidate.protocol = true ∧
      (∃ first ≤ life, r.Settled first candidate.endpoint candidate.protocol) ∧
      ∃ protocol, r.Settled life candidate.endpoint protocol
  | _ => True

/-- Entries, queues and tasks have the protocols that they should. -/
structure Typed (p : Pool) : Prop where
  known : p.registry.Known
  queued : ∀ protocol, ∀ copy ∈ p.outputs.get protocol,
    ∃ life, p.registry.Settled life copy.endpoint copy.protocol
  held : ∀ entry ∈ holders p.tasks, entry.2.Typed p.registry

namespace Task

variable {r s : Registry} {task : Task} {copy : Proxy}

/-- Lives stay settled, so what is typed stays typed. -/
theorem Typed.evolves (htyped : task.Typed r) (h : r.Evolves s) : task.Typed s := by
  unfold Typed at htyped ⊢
  split at htyped
  · exact htyped
  · obtain ⟨life, hsettled⟩ := htyped
    exact ⟨life, hsettled.evolves h⟩
  · obtain ⟨haccepts, ⟨first, hle, hfirst⟩, protocol, hsettled⟩ := htyped
    exact ⟨haccepts, ⟨first, hle, hfirst.evolves h⟩, protocol, hsettled.evolves h⟩
  · trivial

/-- A copy that is carried is of a life that has settled. -/
theorem Typed.settled (htyped : task.Typed r) (hcopy : task.copy? = some copy) :
    ∃ life, r.Settled life copy.endpoint copy.protocol := by
  unfold copy? at hcopy
  split at hcopy
  · rw [← Option.some.inj hcopy]
    exact htyped
  · rw [← Option.some.inj hcopy]
    obtain ⟨-, ⟨first, -, hfirst⟩, -⟩ := htyped
    exact ⟨first, hfirst⟩
  · cases hcopy

theorem token?_of_copy? (hcopy : task.copy? = some copy) : task.token?.isSome = true := by
  unfold copy? at hcopy
  split at hcopy
  · rfl
  · rfl
  · cases hcopy

/-- A round tries known protocols. -/
theorem Typed.of_attempting {begun : Round} {protocol : Protocol} {rest : List Protocol}
    {since : Nat} (htyped : (Task.round begun).Typed r)
    (hstage : begun.stage = .attempting protocol rest since) : .unknown ∉ protocol :: rest := by
  obtain ⟨endpoint, life, probe, inSlot, stage⟩ := begun
  obtain rfl : stage = .attempting protocol rest since := hstage
  exact htyped

/-- A caller may take the candidate that it re-dials. -/
theorem Typed.of_checking {c : Caller} {candidate : Proxy} {life timeout since : Nat}
    {wanted : Bool} (htyped : (Task.caller c).Typed r)
    (hstage : c.stage = .checking candidate life timeout wanted since) :
    Pool.Purpose.accepts c.purpose candidate.protocol = true ∧
      (∃ first ≤ life, r.Settled first candidate.endpoint candidate.protocol) ∧
      ∃ protocol, r.Settled life candidate.endpoint protocol := by
  obtain ⟨purpose, patience, stage⟩ := c
  obtain rfl : stage = .checking candidate life timeout wanted since := hstage
  exact htyped

end Task

namespace Pool

variable {p q : Pool} {d : Deed} {id : Nat} {task : Task}

theorem evolves_evict (p : Pool) (endpoint : String) :
    p.registry.Evolves (p.evict endpoint).registry := by
  unfold evict
  cases hdelete : p.registry.delete endpoint with
  | error e => exact .refl
  | ok deleted => exact .deleted .refl hdelete

theorem evolves_loadAll (p : Pool) (raws : List String) :
    p.registry.Evolves (p.loadAll raws).1.registry := by
  induction raws generalizing p with
  | nil => exact .refl
  | cons raw more ih =>
      refine .trans ?_ (ih (p.load raw).1)
      rcases p.load_cases raw with hsame | ⟨endpoint, hfind, hnew⟩
      · rw [hsame]
        exact .refl
      · rw [hnew]
        exact .added .refl hfind

theorem registry_serve (p : Pool) (id : Nat) (c : Caller) (proxy : Proxy) :
    (p.serve id c proxy).registry = p.registry := by
  unfold serve
  split <;> rfl

theorem typed_of_task? (h : Typed p) (hfind : p.task? id = some task)
    (hholds : task.token?.isSome = true) : task.Typed p.registry :=
  h.held (id, task) (Task.mem_holders.2 ⟨Task.mem_of_lookup hfind, hholds⟩)

/-- How a deed changes the registry. -/
theorem Effect.evolves (htyped : Typed p) (h : p.Effect d q) :
    p.registry.Evolves q.registry := by
  cases h with
  | @loaded d raws hraws => exact p.evolves_loadAll raws
  | @reported d life endpoint hplain hfind => exact .marked .refl life
  | @reportedOut d life endpoint hplain hfind hmarks =>
      refine .trans ?_ ((p.punish life endpoint).evolves_evict endpoint)
      exact .marked .refl life
  | @struckOff id life protocol candidate rest hidle hqueue hfind hmarks =>
      exact evolves_evict { p with outputs := p.outputs.set protocol rest } candidate.endpoint
  | sentBack hidle hqueue hstats =>
      rw [registry_recycle]
      exact .refl
  | checked htask hwaiting haccepts hqueue hfind hlock =>
      obtain ⟨-, rfl⟩ := Registry.tryLock?_eq_some hlock
      exact .locked .refl _
  | cleared htask hstage hentry =>
      rw [registry_serve, unlock_recycle, registry_recycle]
      exact .released .refl _
  | voided htask hstage hentry =>
      rw [unlock_recycle, registry_recycle]
      exact .released .refl _
  | refused htask hstage =>
      rw [unlock_recycle, registry_recycle]
      exact .released (.marked .refl _) _
  | restored | overflowed | dropped => exact .released .refl _
  | @passed id since r protocol rest exit entry htask hstage hentry =>
      have hprotocols := (typed_of_task? htyped htask rfl).of_attempting hstage
      refine .validated .refl ?_ r.life p.now exit
      rintro rfl
      exact hprotocols List.mem_cons_self
  | failedHalfway | failedKept => exact .marked .refl _
  | @failedOut id since r protocol e htask hlast hwindow hmarks =>
      refine .trans ?_ (((p.remove id).miss r).evolves_evict r.endpoint)
      exact .marked .refl r.life
  | _ => exact .refl

/-- What arrives is typed. -/
theorem Arrives.typed {entry : Nat × Task} (h : p.Arrives d q entry) (horderly : Orderly p)
    (htyped : Typed p) (hgrown : p.registry.Evolves q.registry) : entry.2.Typed q.registry := by
  cases h with
  | received | requeued => trivial
  | opened hfind =>
      show Protocol.unknown ∉ Protocol.negotiationOrder
      decide
  | retried htask hstage =>
      have hprotocols := (typed_of_task? htyped htask rfl).of_attempting hstage
      exact fun hmem => hprotocols (List.mem_cons_of_mem _ hmem)
  | @passed q id since r protocol rest exit entry htask hstage hentry hnoted =>
      have hprotocols := (typed_of_task? htyped htask rfl).of_attempting hstage
      have hprotocol : protocol ≠ .unknown := by
        rintro rfl
        exact hprotocols List.mem_cons_self
      refine ⟨r.life, Registry.protocol_recordValidation_ne hprotocol entry p.now exit,
        entry.recordValidation p.now protocol exit, ?_, rfl, rfl⟩
      rw [hnoted, Registry.entry?_update, if_pos rfl, hentry]
      rfl
  | @checked q id life c protocol candidate rest entry htask haccepts hqueue hfind hentry hfresh =>
      have hhead : candidate ∈ p.outputs.get protocol := hqueue ▸ List.mem_cons_self
      have hprotocol : candidate.protocol = protocol := horderly.sorted protocol candidate hhead
      obtain ⟨first, hfirst⟩ := htyped.queued protocol candidate hhead
      have hle : first ≤ life := horderly.sound.latest hfind hfirst.isLife
      -- A life that is not stale was validated, so it has found a protocol.
      have hvalidated : entry.lastValidated.isSome = true := by
        have hstamp : entry.snapshot.lastValidated = entry.lastValidated := rfl
        unfold Proxy.isStale at hfresh
        rw [hstamp] at hfresh
        cases hlast : entry.lastValidated with
        | some validated => rfl
        | none =>
            rw [hlast] at hfresh
            cases hfresh
      have hname : entry.endpoint = candidate.endpoint := by
        obtain ⟨named, hnamed, hendpoint⟩ := horderly.sound.named hfind
        rw [hentry] at hnamed
        rw [Option.some.inj hnamed]
        exact hendpoint
      have hlife : p.registry.Settled life candidate.endpoint entry.protocol :=
        ⟨htyped.known life entry hentry hvalidated, entry, hentry, hname, rfl⟩
      refine ⟨?_, ⟨first, hle, hfirst.evolves hgrown⟩, entry.protocol, hlife.evolves hgrown⟩
      rw [hprotocol]
      exact haccepts

end Pool

namespace Typed

variable {p q : Pool} {d : Deed}

/-- Changes aside keep a pool typed. -/
theorem aside (h : Typed p) (haside : Aside p q) : Typed q where
  known := haside.registry ▸ h.known
  queued := by
    rw [haside.outputs, haside.registry]
    exact h.queued
  held := by
    rw [haside.holders, haside.registry]
    exact h.held

theorem effect (h : Typed p) (horderly : Orderly p) (heffect : p.Effect d q) : Typed q := by
  have hgrown := heffect.evolves h
  constructor
  · exact h.known.evolves hgrown
  · intro protocol copy hmem
    rcases heffect.copy_cases hmem with hold | ⟨-, id, task, hfind, hcopy⟩
    · obtain ⟨life, hsettled⟩ := h.queued protocol copy hold
      exact ⟨life, hsettled.evolves hgrown⟩
    · have hcarried := Pool.typed_of_task? h hfind (Task.token?_of_copy? hcopy)
      obtain ⟨life, hsettled⟩ := hcarried.settled hcopy
      exact ⟨life, hsettled.evolves hgrown⟩
  · intro entry hmem
    rcases heffect.holder_cases hmem with hold | harrives
    · exact (h.held entry hold).evolves hgrown
    · exact harrives.typed horderly h hgrown

/-- Every deed keeps an orderly pool typed. -/
theorem act (h : Typed p) (horderly : Orderly p) (hact : p.act? d = some q) : Typed q := by
  obtain ⟨mid, heffect, hquiet⟩ := Pool.effects_of_act? horderly.numbered hact
  exact (h.effect horderly heffect).aside hquiet.toAside

end Typed

/-- A blank pool is typed. -/
theorem typed_of_blank {p : Pool} (h : p.Blank) : Typed p where
  known := by
    rw [h.registry]
    intro life entry hentry
    cases hentry
  queued := by
    rw [h.outputs]
    intro protocol copy hmem
    cases protocol <;> cases hmem
  held := by
    rw [h.tasks]
    intro entry hmem
    exact absurd hmem List.not_mem_nil

/-- Every state of a run is typed. -/
theorem Typed.throughout {p q : Pool} {steps : List Step} (h : Typed p) (horderly : Orderly p)
    (hrun : Run p steps q) : Typed q ∧ ∀ s ∈ steps, Typed s.before ∧ Typed s.after := by
  have hall := horderly.throughout hrun
  exact hrun.throughout h fun s hs hbefore => hbefore.act (hall.2 s hs).1 s.done

end SocksPool
