import Mathlib.Data.List.Nodup
import SocksPool.Proofs.Typed

/-!
# Names that are admitted

A load admits the names that it finds new, and answers how many these were. An
eviction deletes a name and counts it. Nothing else adds or deletes names, so
the names that are registered and those that were evicted add up to those that
were ever admitted, however often an endpoint is loaded and evicted.

An eviction is asked for by name, also when the name is gone already. It then
counts nothing, which is why the equation survives rounds, reports and checks
that evict the same endpoint one after the other.

## Main results

* `entered_evict`, `entered_loadAll` — evictions and loads keep the equation.
* `Effect.entered` — so does every deed.
-/

namespace SocksPool

namespace Table

variable {α : Type} {t : Table α} {key : String}

theorem size_put_of_none (h : t.get? key = none) (value : α) :
    (t.put key value).size = t.size + 1 := by
  have hnew : ¬ t.entries.any (·.1 == key) = true := by
    intro hany
    obtain ⟨entry, hmem, hkey⟩ := List.any_eq_true.1 hany
    have hfound := List.find?_eq_none.1 (Option.map_eq_none_iff.1 h) entry hmem
    exact hfound hkey
  unfold put size
  rw [if_neg hnew, List.length_append]
  rfl

/-- Among distinct keys an erased one stood once. -/
theorem size_erase (hnodup : t.keys.Nodup) (hin : t.contains key = true) :
    (t.erase key).size + 1 = t.size := by
  have hmem : key ∈ t.keys := by
    unfold contains get? at hin
    rw [Option.isSome_map, List.find?_isSome] at hin
    obtain ⟨entry, hentry, hkey⟩ := hin
    exact List.mem_map.2 ⟨entry, hentry, beq_iff_eq.1 hkey⟩
  have hones : t.keys.count key = 1 := List.count_eq_one_of_mem hnodup hmem
  have hcount : t.entries.countP (·.1 == key) = 1 := by
    rw [← hones]
    unfold keys List.count
    rw [List.countP_map]
    rfl
  have hsplit := List.length_eq_countP_add_countP (fun entry : String × α => entry.1 == key)
    (l := t.entries)
  unfold erase size
  rw [← List.countP_eq_length_filter]
  have hrest : t.entries.countP (fun entry => !(entry.1 == key)) =
      t.entries.countP (fun entry => decide (¬ (entry.1 == key) = true)) := by
    congr 1
    funext entry
    cases entry.1 == key <;> rfl
  rw [hrest]
  omega

end Table

namespace Pool

/-- The candidate's name was not in use. -/
def admits (outcome : Except PoolError Bool) : Nat :=
  match outcome with
  | .ok true => 1
  | _ => 0

/-- How many names the calls of a deed answer that they registered anew. -/
def created (p : Pool) : Deed → Nat
  | .load raw => admits (p.load raw).2
  | .loadList content => (p.loadList content).2
  | .loadFetched source content => (p.loadFetched source content).2
  | _ => 0

/-- The names that are registered, and those that were evicted. -/
def entered (p : Pool) : Nat := p.registry.size + p.stats.evicted

variable {p q : Pool} {d : Deed}

/-! ## Evictions -/

/-- An eviction deletes a name and counts it, or does neither. -/
theorem entered_evict (hnodup : p.registry.names.keys.Nodup) (endpoint : String) :
    (p.evict endpoint).entered = p.entered := by
  unfold evict
  cases hdelete : p.registry.delete endpoint with
  | error e => rfl
  | ok deleted =>
      obtain ⟨hin, rfl⟩ := Registry.delete_eq_ok hdelete
      have hsize := Table.size_erase hnodup hin
      show (p.registry.names.erase endpoint).size + (p.stats.evicted + 1) =
        p.registry.names.size + p.stats.evicted
      omega

/-! ## Loads -/

/-- A load counts its name if it is new. -/
theorem entered_load (p : Pool) (raw : String) :
    (p.load raw).1.entered = p.entered + admits (p.load raw).2 := by
  cases hname : Endpoint.normalize? raw with
  | none =>
      rw [load_of_none hname]
      rfl
  | some endpoint =>
      cases hfind : p.registry.find? endpoint with
      | some life =>
          rw [load_of_registered hname hfind]
          rfl
      | none =>
          have hsize := Table.size_put_of_none hfind p.registry.lives.length
          rw [load_of_new hname hfind, Registry.add_of_none hfind]
          show (p.registry.names.put endpoint p.registry.lives.length).size + p.stats.evicted =
            p.registry.names.size + p.stats.evicted + 1
          omega

theorem admitted_loadAll_cons (p : Pool) (raw : String) (more : List String) :
    (p.loadAll (raw :: more)).2 = ((p.load raw).1.loadAll more).2 + admits (p.load raw).2 := by
  unfold admits
  show (match (p.load raw).2 with
    | .ok true => ((p.load raw).1.loadAll more).2 + 1
    | _ => ((p.load raw).1.loadAll more).2) = _
  split <;> rfl

/-- Loads count the names that they find new. -/
theorem entered_loadAll (p : Pool) (raws : List String) :
    (p.loadAll raws).1.entered = p.entered + (p.loadAll raws).2 := by
  induction raws generalizing p with
  | nil => rfl
  | cons raw more ih =>
      have hhead := p.entered_load raw
      have htail := ih (p.load raw).1
      rw [admitted_loadAll_cons]
      show ((p.load raw).1.loadAll more).1.entered = _
      omega

/-- What a load answers depends on the registry only. -/
theorem load_congr (h : q.registry = p.registry) (raw : String) :
    (q.load raw).2 = (p.load raw).2 ∧
      (q.load raw).1.registry = (p.load raw).1.registry := by
  unfold load
  cases Endpoint.normalize? raw with
  | none => exact ⟨rfl, h⟩
  | some endpoint =>
      dsimp only
      rw [h]
      exact ⟨rfl, rfl⟩

theorem loadAll_congr (h : q.registry = p.registry) (raws : List String) :
    (q.loadAll raws).2 = (p.loadAll raws).2 := by
  induction raws generalizing p q with
  | nil => rfl
  | cons raw more ih =>
      obtain ⟨hanswer, hregistry⟩ := load_congr h raw
      rw [admitted_loadAll_cons, admitted_loadAll_cons, ih hregistry, hanswer]

theorem created_of_raws {raws : List String} (hraws : d.raws? = some raws) :
    p.created d = (p.loadAll raws).2 := by
  cases d with
  | load raw =>
      obtain rfl := Option.some.inj hraws
      rw [admitted_loadAll_cons]
      exact (Nat.zero_add _).symm
  | loadList content =>
      obtain rfl := Option.some.inj hraws
      rfl
  | loadFetched source content =>
      obtain rfl := Option.some.inj hraws
      refine loadAll_congr ?_ _
      rfl
  | _ => cases hraws

/-! ## Deeds -/

theorem created_of_isPlain (hplain : d.isPlain = true) : p.created d = 0 := by
  cases d with
  | load | loadList | loadFetched => cases hplain
  | _ => rfl

theorem entered_recycle (p : Pool) (wanted : Bool) (endpoint : String) :
    (p.recycle wanted endpoint).entered = p.entered := by
  cases wanted <;> rfl

theorem entered_serve (p : Pool) (id : Nat) (c : Caller) (proxy : Proxy) :
    (p.serve id c proxy).entered = p.entered := by
  unfold serve
  split <;> rfl

/-- Every deed accounts for the names that it admits. -/
theorem Effect.entered (hnodup : p.registry.names.keys.Nodup) (h : p.Effect d q) :
    q.entered = p.entered + p.created d := by
  cases h with
  | idled hplain => rw [created_of_isPlain hplain, Nat.add_zero]
  | @loaded d raws hraws =>
      rw [created_of_raws hraws]
      exact p.entered_loadAll raws
  | reported hplain hfind =>
      rw [created_of_isPlain hplain]
      rfl
  | @reportedOut d life endpoint hplain hfind hmarks =>
      rw [created_of_isPlain hplain]
      exact entered_evict (p := p.punish life endpoint) hnodup endpoint
  | @struckOff id life protocol candidate rest hidle hqueue hfind hmarks =>
      exact entered_evict (p := { p with outputs := p.outputs.set protocol rest }) hnodup _
  | sentBack hidle hqueue hstats =>
      rw [entered_recycle]
      rcases hstats with rfl | rfl <;> rfl
  | checked htask hwaiting haccepts hqueue hfind hlock =>
      obtain ⟨-, rfl⟩ := Registry.tryLock?_eq_some hlock
      rfl
  | cleared htask hstage hentry =>
      rw [entered_serve, unlock_recycle, entered_recycle]
      rfl
  | voided htask hstage hentry =>
      rw [unlock_recycle, entered_recycle]
      rfl
  | refused htask hstage =>
      rw [unlock_recycle, entered_recycle]
      rfl
  | @passed id since r protocol rest exit entry htask hstage hentry =>
      cases hfound : (entry.recordValidation p.now protocol exit).protocol <;> rfl
  | @failedOut id since r protocol e htask hlast hwindow hmarks =>
      exact entered_evict (p := (p.remove id).miss r) hnodup r.endpoint
  | _ => rfl

end Pool

end SocksPool
