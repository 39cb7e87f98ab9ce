import SocksPool.Proofs.Dossier
import SocksPool.Proofs.Loading

/-!
# The names that a pool knows

Only loads open lives, and a load opens one under the normal form of its candidate. Lives
are never taken back and keep their endpoints, so every endpoint that was ever registered is
a normal form. The proxies that tasks have to do with are copies of lives that have settled
on a protocol. So they bear such names as well, also after an eviction, and their protocol
is known.

## Main definitions

* `Registry.endpoints` — the endpoints of all lives.
* `Pool.Canonical` — they are normal forms.
* `Pool.Vouched` — the proxies in the hands of tasks are of lives that have settled.

## Main results

* `Turn.endpoints_or_loaded` — only a load opens lives.
* `Pool.Canonical.throughout`, `Pool.Vouched.throughout` — this holds throughout a run.
-/

namespace SocksPool

open Endpoint (normalize?)

/-! ## The endpoints of lives -/

namespace Registry

/-- The endpoints of all lives, those of deleted names included. -/
def endpoints (r : Registry) : List String := r.lives.map (·.endpoint)

variable {r : Registry} {endpoint : String}

theorem mem_endpoints {e : String} : e ∈ r.endpoints ↔ ∃ life, r.IsLife life e := by
  simp [endpoints, List.mem_iff_getElem?, IsLife, entry?]

theorem endpoints_update (r : Registry) (life : Nat) {change : Entry → Entry}
    (hkeep : ∀ e, (change e).endpoint = e.endpoint) :
    (r.update life change).endpoints = r.endpoints := by
  apply List.ext_getElem?
  intro other
  simp only [endpoints, update, List.getElem?_map, List.getElem?_modify]
  cases r.lives[other]? with
  | none => simp
  | some entry => by_cases hlife : life = other <;> simp [hlife, hkeep]

theorem endpoints_add (hfind : r.find? endpoint = none) :
    (r.add endpoint).1.endpoints = r.endpoints ++ [endpoint] := by
  simp [endpoints, add_of_none hfind]

end Registry

namespace Pool

variable {p q : Pool} {d : Deed}

theorem endpoints_evict (p : Pool) (endpoint : String) :
    (p.evict endpoint).registry.endpoints = p.registry.endpoints := by
  unfold evict
  cases hdelete : p.registry.delete endpoint with
  | error e => rfl
  | ok deleted =>
      obtain ⟨-, rfl⟩ := Registry.delete_eq_ok hdelete
      rfl

theorem endpoints_punish (p : Pool) (life : Nat) (endpoint : String) :
    (p.punish life endpoint).registry.endpoints = p.registry.endpoints :=
  p.registry.endpoints_update life Entry.endpoint_markBad

theorem endpoints_recycle (p : Pool) (wanted : Bool) (endpoint : String) :
    (p.recycle wanted endpoint).registry.endpoints = p.registry.endpoints := by
  rw [registry_recycle]

theorem endpoints_unlock (p : Pool) (life : Nat) :
    (p.unlock life).registry.endpoints = p.registry.endpoints :=
  p.registry.endpoints_update life fun _ => rfl

/-- Only a load opens lives. -/
theorem Turn.endpoints_or_loaded (hturn : p.Turn d q) :
    (∃ raws, q = (p.loadAll raws).1) ∨ q.registry.endpoints = p.registry.endpoints := by
  cases hturn with
  | loaded raws => exact .inl ⟨raws, rfl⟩
  | reported hfind => exact .inr (p.endpoints_punish _ _)
  | reportedOut hfind hmarks =>
      exact .inr ((endpoints_evict _ _).trans (p.endpoints_punish _ _))
  | struckOff hqueue hfind hmarks => exact .inr (endpoints_evict _ _)
  | sentBack hqueue => exact .inr (endpoints_recycle _ _ _)
  | checked htask hwaits hqueue hfind hlock =>
      obtain ⟨-, rfl⟩ := Registry.tryLock?_eq_some hlock
      exact .inr (p.registry.endpoints_update _ fun _ => rfl)
  | cleared htask hstage =>
      exact .inr ((endpoints_unlock _ _).trans (endpoints_recycle _ _ _))
  | refused htask hstage =>
      refine .inr ((endpoints_unlock _ _).trans ((endpoints_recycle _ _ _).trans ?_))
      exact p.registry.endpoints_update _ Entry.endpoint_markBad
  | restored htask hstage hroom | overflowed htask hstage hroom | dropped htask hstage =>
      exact .inr (endpoints_unlock _ _)
  | passed htask hentry =>
      exact .inr (p.registry.endpoints_update _ fun e => Registry.endpoint_recordValidation e _ _ _)
  | @failedHalfway id since r protocol e htask hlast hwindow =>
      exact .inr ((p.remove id).endpoints_punish r.life r.endpoint)
  | @failedKept id since window r protocol e htask hlast hwindow hmarks =>
      exact .inr ((p.remove id).endpoints_punish r.life r.endpoint)
  | failedOut htask hlast hwindow hmarks =>
      exact .inr ((endpoints_evict _ _).trans (endpoints_punish _ _ _))
  | _ => exact .inr rfl

/-! ## Normal forms -/

/-- All endpoints that were ever registered are normal forms. -/
def Canonical (p : Pool) : Prop := ∀ e ∈ p.registry.endpoints, normalize? e = some e

namespace Canonical

theorem load (h : p.Canonical) (raw : String) : (p.load raw).1.Canonical := by
  cases hname : normalize? raw with
  | none => rwa [load_of_none hname]
  | some endpoint =>
      cases hfind : p.registry.find? endpoint with
      | some life => rwa [load_of_registered hname hfind]
      | none =>
          rw [load_of_new hname hfind]
          intro e hmem
          rw [Registry.endpoints_add hfind, List.mem_append, List.mem_singleton] at hmem
          rcases hmem with hold | rfl
          · exact h e hold
          · exact Endpoint.normalize?_fixed hname

theorem loadAll (h : p.Canonical) (raws : List String) : (p.loadAll raws).1.Canonical := by
  induction raws generalizing p with
  | nil => exact h
  | cons raw more ih => exact ih (h.load raw)

/-- Every deed registers normal forms only. -/
theorem act (h : p.Canonical) (horderly : Orderly p) (hact : p.act? d = some q) :
    q.Canonical := by
  obtain ⟨mid, hturn, haside⟩ := turns_of_act? horderly.numbered hact
  unfold Canonical
  rw [haside.registry]
  rcases hturn.endpoints_or_loaded with ⟨raws, rfl⟩ | hsame
  · exact h.loadAll raws
  · rwa [hsame]

theorem of_blank (h : p.Blank) : p.Canonical := by
  unfold Canonical
  rw [h.registry]
  exact List.forall_mem_nil _

/-- A pool knows normal forms only, throughout a run. -/
theorem throughout {steps : List Step} (h : p.Canonical) (horderly : Orderly p)
    (hrun : Run p steps q) :
    q.Canonical ∧ ∀ s ∈ steps, s.before.Canonical ∧ s.after.Canonical := by
  have hall := horderly.throughout hrun
  exact hrun.throughout h fun s hs hbefore => hbefore.act (hall.2 s hs).1 s.done

/-- A registered name is a normal form. -/
theorem of_contains (h : p.Canonical) (horderly : Orderly p) {e : String}
    (hin : p.registry.contains e = true) : normalize? e = some e := by
  obtain ⟨life, hfind⟩ := Option.isSome_iff_exists.1 hin
  exact h e (Registry.mem_endpoints.2 ⟨life, horderly.sound.named hfind⟩)

end Canonical

/-! ## Proxies -/

/-- The proxies that tasks have to do with are of lives that have settled. -/
def Vouched (p : Pool) : Prop :=
  ∀ task ∈ p.crew, ∀ proxy, task.proxy? = some proxy →
    ∃ life, p.registry.Settled life proxy.endpoint proxy.protocol

namespace Vouched

/-- Every deed leaves tasks with proxies of settled lives only. -/
theorem act (h : p.Vouched) (horderly : Orderly p) (htyped : Typed p)
    (hact : p.act? d = some q) : q.Vouched := by
  intro task hmem proxy hproxy
  obtain ⟨mid, heffect, hquiet⟩ := effects_of_act? horderly.numbered hact
  have hgrown : p.registry.Evolves q.registry := hquiet.registry ▸ heffect.evolves htyped
  have hkept : (∃ life, p.registry.Settled life proxy.endpoint proxy.protocol) →
      ∃ life, q.registry.Settled life proxy.endpoint proxy.protocol :=
    fun ⟨life, hsettled⟩ => ⟨life, hsettled.evolves hgrown⟩
  obtain ⟨gone, come, mid, hshift, hswap⟩ := shifts_of_act? horderly.numbered hact
  rcases hshift.mem_cases hswap hmem with ⟨old, hold, rfl | rfl⟩ | hcame
  · exact hkept (h _ hold proxy hproxy)
  · rw [Task.proxy?_wakened] at hproxy
    exact hkept (h old hold proxy hproxy)
  rcases hshift.proxy_cases hcame hproxy with hold | ⟨protocol, hqueued⟩ |
    ⟨id, exit, r, hdeed, htask, rfl⟩ |
    ⟨id, c, candidate, life, timeout, wanted, since, entry, htask, hstage, hentry, rfl⟩
  · exact hkept (h task hold proxy hproxy)
  · exact hkept (htyped.queued protocol proxy hqueued)
  · -- What a round delivers is typed in the pool that it has just been noted in.
    obtain ⟨⟨number, _⟩, hheld, rfl⟩ := List.mem_map.1 hmem
    exact (htyped.act horderly hact).held _ (Task.mem_holders.2 ⟨hheld, rfl⟩)
  · have hchecks := (typed_of_task? htyped htask (by rw [Task.token?_of_checking hstage]; rfl)
      ).of_checking hstage
    obtain ⟨protocol, hknown, found, hfound, hname, rfl⟩ := hchecks.2.2
    rw [hentry] at hfound
    obtain rfl := Option.some.inj hfound
    exact hkept ⟨life, hknown, entry, hentry, rfl, rfl⟩

theorem of_blank (h : p.Blank) : p.Vouched := by
  unfold Vouched crew
  rw [h.tasks]
  exact List.forall_mem_nil _

/-- Tasks have to do with proxies of settled lives only, throughout a run. -/
theorem throughout {steps : List Step} (h : p.Vouched) (horderly : Orderly p) (htyped : Typed p)
    (hrun : Run p steps q) : q.Vouched ∧ ∀ s ∈ steps, s.before.Vouched ∧ s.after.Vouched := by
  have hall := horderly.throughout hrun
  have htypes := htyped.throughout horderly hrun
  exact hrun.throughout h fun s hs hbefore =>
    hbefore.act (hall.2 s hs).1 (htypes.2 s hs).1 s.done

end Vouched

end Pool

end SocksPool
