import SocksPool.Guarded
import SocksPool.Proofs.Lives

/-!
# Handles

Whoever adds or gets an endpoint holds a *handle* to its life from then on, whatever becomes of
the name. A `Desk` is a registry together with what was handed out from it: the guards that are
held, and the copies that were taken. It is used in any order, through any handles.

A use that takes a name away ends what the name stood for: no handle of the name from before is
ever obtained again. Everything else leaves the name with its life. So two handles are the same
exactly if they were obtained for one endpoint and the name was not taken away in between.

## Main definitions

* `Use`, `Desk.apply`, `Desk.after` — what is done with a registry, and what comes of it.
* `Obtains` — a use hands out a handle.

## Main results

* `Desk.find?_apply` — where names lead after a use.
* `Desk.entry?_apply` — what a use does to the entry of a life.
* `Desk.sound_after` — names lead to their latest lives throughout.
* `same_handle_iff` — when two handles are the same.
-/

namespace SocksPool

/-! ## Changes that leave lives and names alone -/

namespace Registry

theorem entry?_update_of_ne {r : Registry} {life other : Nat} {change : Entry → Entry}
    (h : other ≠ life) : Registry.entry? (r.update life change) other = r.entry? other := by
  rw [entry?_update, if_neg h]

/-- Names and copies are the same in both registries, which may differ in locks. -/
structure SameAside (r s : Registry) : Prop where
  names : s.names = r.names
  lives : s.lives.map Entry.snapshot = r.lives.map Entry.snapshot

variable {r s t : Registry}

theorem SameAside.symm (h : r.SameAside s) : s.SameAside r :=
  ⟨h.names.symm, h.lives.symm⟩

theorem SameAside.trans (h : r.SameAside s) (hnext : s.SameAside t) : r.SameAside t :=
  ⟨hnext.names.trans h.names, hnext.lives.trans h.lives⟩

theorem sameAside_update (r : Registry) (life : Nat) {change : Entry → Entry}
    (hkeep : ∀ e, (change e).snapshot = e.snapshot) : r.SameAside (r.update life change) where
  names := rfl
  lives := by
    apply List.ext_getElem?
    intro other
    simp only [update, List.getElem?_map, List.getElem?_modify]
    cases r.lives[other]? with
    | none => simp
    | some entry => by_cases hlife : life = other <;> simp [hlife, hkeep]

theorem sameAside_release (r : Registry) (life : Nat) : r.SameAside (r.release life) :=
  sameAside_update r life fun _ => rfl

theorem SameAside.find? (h : r.SameAside s) (e : String) : s.find? e = r.find? e := by
  unfold Registry.find?
  rw [h.names]

/-- A life has the same copy in both registries. -/
theorem SameAside.exists_entry (h : r.SameAside s) {life : Nat} {entry : Entry}
    (hentry : r.entry? life = some entry) :
    ∃ other, s.entry? life = some other ∧ other.snapshot = entry.snapshot := by
  have hcopies := congrArg (·[life]?) h.lives
  simp only [List.getElem?_map] at hcopies
  unfold Registry.entry? at hentry ⊢
  rw [hentry, Option.map_some] at hcopies
  exact Option.map_eq_some_iff.1 hcopies

theorem SameAside.isLife (h : r.SameAside s) {life : Nat} {e : String}
    (hlife : r.IsLife life e) : s.IsLife life e := by
  obtain ⟨entry, hentry, rfl⟩ := hlife
  obtain ⟨other, hother, hcopy⟩ := h.exists_entry hentry
  exact ⟨other, hother, congrArg Proxy.endpoint hcopy⟩

theorem Sound.of_sameAside (h : r.Sound) (hsame : r.SameAside s) : s.Sound where
  named hfind := hsame.isLife (h.named ((hsame.find? _).symm.trans hfind))
  latest hfind hlife := h.latest ((hsame.find? _).symm.trans hfind) (hsame.symm.isLife hlife)

end Registry

/-! ## Uses -/

/-- What is done with a registry and with the handles, the guards and the copies that were
obtained from it. A handle is the number of a life, and guards are kept under names. -/
inductive Use where
  | add (endpoint : String)
  | get (endpoint : String)
  | delete (endpoint : String)
  | clear
  | setProtocol (life : Nat) (protocol : Protocol)
  | markBad (life : Nat)
  | record (life now : Nat) (protocol : Protocol) (exit : Address)
  | lock (guard : String) (life : Nat)
  | unlock (guard : String)
  | snapshot (guard : String)
deriving DecidableEq, Repr

namespace Use

/-- What the use writes into the entry of a life. -/
def change (u : Use) (life : Nat) (entry : Entry) : Entry :=
  match u with
  | .setProtocol target protocol => if life = target then entry.setProtocol protocol else entry
  | .markBad target => if life = target then entry.markBad else entry
  | .record target now protocol exit =>
    if life = target then entry.recordValidation now protocol exit else entry
  | _ => entry

theorem endpoint_setProtocol (entry : Entry) (protocol : Protocol) :
    (entry.setProtocol protocol).endpoint = entry.endpoint := by
  unfold Entry.setProtocol
  split <;> rfl

theorem endpoint_markBad (entry : Entry) : entry.markBad.endpoint = entry.endpoint := rfl

/-- The use takes the name away. -/
def TakesAway (u : Use) (endpoint : String) : Prop := u = .delete endpoint ∨ u = .clear

instance (u : Use) (endpoint : String) : Decidable (u.TakesAway endpoint) :=
  inferInstanceAs (Decidable (_ ∨ _))

end Use

/-- A registry, the guards that are held and the copies that were taken. -/
structure Desk extends Guarded where
  copies : List Proxy := []

namespace Desk

/-- The desk after a use. A name that is not registered is not deleted, and what refers to no
life or no guard changes nothing. -/
def apply (d : Desk) : Use → Desk
  | .add endpoint => { d with registry := (d.registry.add endpoint).1 }
  | .get _ => d
  | .delete endpoint =>
    { d with registry := (d.registry.delete endpoint).toOption.getD d.registry }
  | .clear => { d with registry := d.registry.clear }
  | .setProtocol life protocol =>
    { d with registry := d.registry.update life (·.setProtocol protocol) }
  | .markBad life => { d with registry := d.registry.update life Entry.markBad }
  | .record life now protocol exit =>
    let registry := d.registry.update life (·.recordValidation now protocol exit)
    { d with
      registry, copies := d.copies ++ (registry.entry? life).toList.map Entry.snapshot }
  | .lock guard life => { d with toGuarded := (d.lock? guard life).getD d.toGuarded }
  | .unlock guard => { d with toGuarded := (d.unlock? guard).getD d.toGuarded }
  | .snapshot guard =>
    { d with
      copies := d.copies ++
        ((d.guards.get? guard).bind d.registry.entry?).toList.map Entry.snapshot }

/-- The desk after some uses. -/
def after (uses : List Use) : Desk := uses.foldl apply {}

theorem after_append (uses more : List Use) :
    after (uses ++ more) = more.foldl apply (after uses) :=
  List.foldl_append

theorem after_concat (uses : List Use) (u : Use) : after (uses ++ [u]) = (after uses).apply u :=
  after_append uses [u]

variable (d : Desk) (u : Use)

/-! ## Names and lives after a use -/

/-- Taking a lock and dropping a guard change locks only. -/
theorem sameAside_unlock? {g freed : Guarded} {guard : String} (h : g.unlock? guard = some freed) :
    g.registry.SameAside freed.registry := by
  obtain ⟨life, -, rfl⟩ := Option.map_eq_some_iff.1 h
  exact Registry.sameAside_release g.registry life

theorem sameAside_lock? {g locked : Guarded} {guard : String} {life : Nat}
    (h : g.lock? guard life = some locked) : g.registry.SameAside locked.registry := by
  obtain ⟨registry, hlock, rfl⟩ := Option.map_eq_some_iff.1 h
  have htaken : g.registry.SameAside registry := by
    rw [(Registry.tryLock?_eq_some hlock).2]
    exact Registry.sameAside_update g.registry life fun _ => rfl
  cases hfreed : Guarded.unlock? { g with registry } guard with
  | none => exact htaken
  | some freed => exact htaken.trans (sameAside_unlock? hfreed)

/-- A use of a lock changes locks only. -/
theorem sameAside_getD {changed : Option Guarded}
    (h : ∀ g, changed = some g → d.registry.SameAside g.registry) :
    d.registry.SameAside (changed.getD d.toGuarded).registry := by
  cases changed with
  | none => exact ⟨rfl, rfl⟩
  | some g => exact h g rfl

/-- Where a name leads after a use: nowhere if the use takes it away, to a new life if it is
added and led nowhere, and otherwise where it led. -/
theorem find?_apply (e : String) :
    (d.apply u).registry.find? e =
      if u.TakesAway e then none
      else if u = .add e ∧ d.registry.find? e = none then some d.registry.lives.length
      else d.registry.find? e := by
  cases u with
  | add endpoint =>
      rw [if_neg (by simp [Use.TakesAway])]
      show (d.registry.add endpoint).1.find? e = _
      cases hfind : d.registry.find? endpoint with
      | none =>
          rw [Registry.find?_add hfind]
          by_cases he : e = endpoint
          · simp [he, hfind]
          · simp [he, Ne.symm he]
      | some life =>
          rw [Registry.add_of_some hfind, if_neg]
          rintro ⟨hsame, hnone⟩
          obtain rfl := Use.add.inj hsame
          rw [hfind] at hnone
          cases hnone
  | delete endpoint =>
      show ((d.registry.delete endpoint).toOption.getD d.registry).find? e = _
      cases hdelete : d.registry.delete endpoint with
      | ok deleted =>
          refine (Registry.find?_delete hdelete e).trans ?_
          by_cases he : e = endpoint
          · simp [Use.TakesAway, he]
          · simp [Use.TakesAway, he, Ne.symm he]
      | error err =>
          by_cases he : e = endpoint
          · simp [Use.TakesAway, he, Except.toOption, Registry.delete_eq_error hdelete]
          · simp [Use.TakesAway, Except.toOption, Ne.symm he]
  | clear => simp [Use.TakesAway, apply, Registry.clear, Registry.find?, Table.get?]
  | lock guard life =>
      rw [if_neg (by simp [Use.TakesAway]), if_neg (by simp)]
      exact (d.sameAside_getD fun g hg => sameAside_lock? hg).find? e
  | unlock guard =>
      rw [if_neg (by simp [Use.TakesAway]), if_neg (by simp)]
      exact (d.sameAside_getD fun g hg => sameAside_unlock? hg).find? e
  | _ => rfl

/-- What a use does to the entry of a life, locks aside. -/
theorem entry?_apply {life : Nat} {entry : Entry} (h : d.registry.entry? life = some entry) :
    ∃ changed, Registry.entry? (d.apply u).registry life = some changed ∧
      changed.snapshot = (u.change life entry).snapshot := by
  have hupdate (target : Nat) (change : Entry → Entry) :
      Registry.entry? (d.registry.update target change) life =
        some (if life = target then change entry else entry) := by
    rw [Registry.entry?_update, h]
    split <;> rfl
  cases u with
  | add endpoint =>
      refine ⟨entry, ?_, rfl⟩
      show Registry.entry? (d.registry.add endpoint).1 life = some entry
      cases hfind : d.registry.find? endpoint with
      | none =>
          have hlt : life < d.registry.lives.length := (List.getElem?_eq_some_iff.1 h).1
          rw [Registry.entry?_add hfind, if_neg (Nat.ne_of_lt hlt), h]
      | some other => rw [Registry.add_of_some hfind, h]
  | delete endpoint =>
      refine ⟨entry, ?_, rfl⟩
      show Registry.entry? ((d.registry.delete endpoint).toOption.getD d.registry) life = _
      cases hdelete : d.registry.delete endpoint with
      | ok deleted => exact (Registry.entry?_delete hdelete life).trans h
      | error err => exact h
  | setProtocol target protocol => exact ⟨_, hupdate target _, rfl⟩
  | markBad target => exact ⟨_, hupdate target _, rfl⟩
  | record target now protocol exit => exact ⟨_, hupdate target _, rfl⟩
  | lock guard target => exact (d.sameAside_getD fun g hg => sameAside_lock? hg).exists_entry h
  | unlock guard => exact (d.sameAside_getD fun g hg => sameAside_unlock? hg).exists_entry h
  | _ => exact ⟨entry, h, rfl⟩

/-- Lives stay lives of their endpoints, and only the addition of a name that leads nowhere opens
one. -/
theorem isLife_apply_iff {life : Nat} {e : String} :
    (d.apply u).registry.IsLife life e ↔ d.registry.IsLife life e ∨
      u = .add e ∧ d.registry.find? e = none ∧ life = d.registry.lives.length := by
  have hold (hu : ∀ f, u ≠ .add f)
      (hsame : (d.apply u).registry.IsLife life e ↔ d.registry.IsLife life e) :
      (d.apply u).registry.IsLife life e ↔ d.registry.IsLife life e ∨
        u = .add e ∧ d.registry.find? e = none ∧ life = d.registry.lives.length := by
    simp [hsame, hu]
  have haside {s : Registry} (h : d.registry.SameAside s) :
      s.IsLife life e ↔ d.registry.IsLife life e := ⟨h.symm.isLife, h.isLife⟩
  cases u with
  | add endpoint =>
      show (d.registry.add endpoint).1.IsLife life e ↔ _
      cases hfind : d.registry.find? endpoint with
      | none =>
          rw [Registry.isLife_add hfind, or_comm]
          refine or_congr_right ⟨?_, ?_⟩
          · rintro ⟨rfl, rfl⟩
            exact ⟨rfl, hfind, rfl⟩
          · rintro ⟨hadd, -, rfl⟩
            exact ⟨rfl, (Use.add.inj hadd).symm⟩
      | some other =>
          rw [Registry.add_of_some hfind]
          refine (or_iff_left ?_).symm
          rintro ⟨hadd, hnone, -⟩
          rw [← Use.add.inj hadd, hfind] at hnone
          cases hnone
  | delete endpoint =>
      refine hold (fun f => Use.noConfusion) ?_
      show ((d.registry.delete endpoint).toOption.getD d.registry).IsLife life e ↔ _
      cases hdelete : d.registry.delete endpoint with
      | ok deleted =>
          show deleted.IsLife life e ↔ _
          unfold Registry.IsLife
          rw [Registry.entry?_delete hdelete]
      | error err => rfl
  | setProtocol target protocol =>
      exact hold (fun f => Use.noConfusion) (Registry.isLife_update _ _ fun entry =>
        Use.endpoint_setProtocol entry protocol)
  | markBad target =>
      exact hold (fun f => Use.noConfusion) (Registry.isLife_update _ _ Use.endpoint_markBad)
  | record target now protocol exit =>
      exact hold (fun f => Use.noConfusion) (Registry.isLife_update _ _ fun entry =>
        Registry.endpoint_recordValidation entry now protocol exit)
  | lock guard target =>
      exact hold (fun f => Use.noConfusion)
        (haside (d.sameAside_getD fun g hg => sameAside_lock? hg))
  | unlock guard =>
      exact hold (fun f => Use.noConfusion)
        (haside (d.sameAside_getD fun g hg => sameAside_unlock? hg))
  | _ => exact hold (fun f => Use.noConfusion) Iff.rfl

/-- A life stays a life of its endpoint. -/
theorem isLife_apply {life : Nat} {e : String} (h : d.registry.IsLife life e) :
    (d.apply u).registry.IsLife life e := (d.isLife_apply_iff u).2 (.inl h)

theorem lt_length_apply {life : Nat} (h : life < d.registry.lives.length) :
    life < (d.apply u).registry.lives.length :=
  (d.isLife_apply u ⟨_, List.getElem?_eq_getElem h, rfl⟩).lt_length

theorem sound_apply (h : d.registry.Sound) : (d.apply u).registry.Sound := by
  cases u with
  | add endpoint =>
      show (d.registry.add endpoint).1.Sound
      cases hfind : d.registry.find? endpoint with
      | none => exact h.add hfind
      | some life => rwa [Registry.add_of_some hfind]
  | delete endpoint =>
      show ((d.registry.delete endpoint).toOption.getD d.registry).Sound
      cases hdelete : d.registry.delete endpoint with
      | ok deleted => exact h.delete hdelete
      | error err => exact h
  | clear =>
      exact
        { named := fun hfind => by cases hfind
          latest := fun hfind => by cases hfind }
  | setProtocol life protocol =>
      exact h.update life fun e => Use.endpoint_setProtocol e protocol
  | markBad life => exact h.update life Use.endpoint_markBad
  | record life now protocol exit =>
      exact h.update life fun e => Registry.endpoint_recordValidation e now protocol exit
  | lock guard life => exact h.of_sameAside (d.sameAside_getD fun g hg => sameAside_lock? hg)
  | unlock guard => exact h.of_sameAside (d.sameAside_getD fun g hg => sameAside_unlock? hg)
  | _ => exact h

/-! ## Names and lives after some uses -/

section Uses

variable {d : Desk} {e : String} {life : Nat}

/-- What every use keeps, all uses keep. -/
theorem foldl_of_apply {P : Desk → Prop} (hkeep : ∀ d u, P d → P (d.apply u)) (h : P d)
    (uses : List Use) : P (uses.foldl apply d) :=
  List.foldlRecOn uses apply h fun d hd u _ => hkeep d u hd

/-- Names lead to their latest lives throughout. -/
theorem sound_after (uses : List Use) : (after uses).registry.Sound :=
  foldl_of_apply (P := fun d => d.registry.Sound) (fun d u => d.sound_apply u)
    Registry.sound_empty uses

/-- A name leads to its life until it is taken away. -/
theorem find?_foldl {uses : List Use} (h : d.registry.find? e = some life)
    (huses : ∀ u ∈ uses, ¬ u.TakesAway e) :
    (uses.foldl apply d).registry.find? e = some life := by
  refine List.foldlRecOn (motive := fun d => d.registry.find? e = some life) uses apply h ?_
  intro d hd u hu
  rw [find?_apply, if_neg (huses u hu), if_neg (by simp [hd]), hd]

/-- A life that its name leads to no more: it is there, and no handle of the name is one to it. -/
def Lost (d : Desk) (e : String) (life : Nat) : Prop :=
  life < d.registry.lives.length ∧ d.registry.find? e ≠ some life

/-- A lost life is not found again. -/
theorem Lost.apply (h : d.Lost e life) (u : Use) : (d.apply u).Lost e life := by
  refine ⟨d.lt_length_apply u h.1, ?_⟩
  rw [find?_apply]
  split
  · exact (Option.some_ne_none life).symm
  · split
    · exact fun hnew => absurd (Option.some.inj hnew) (Nat.ne_of_gt h.1)
    · exact h.2

/-- A name that was taken away never leads to its former life again. -/
theorem lost_foldl {uses : List Use} (h : d.registry.IsLife life e)
    (hgone : ∃ u ∈ uses, u.TakesAway e) : (uses.foldl Desk.apply d).Lost e life := by
  induction uses generalizing d with
  | nil =>
      obtain ⟨u, hu, -⟩ := hgone
      cases hu
  | cons u rest ih =>
      by_cases htakes : u.TakesAway e
      · refine foldl_of_apply (P := fun d => d.Lost e life) (fun d u hd => hd.apply u) ?_ rest
        refine ⟨d.lt_length_apply u h.lt_length, ?_⟩
        rw [find?_apply, if_pos htakes]
        exact (Option.some_ne_none life).symm
      · obtain ⟨w, hw, htakesw⟩ := hgone
        rcases List.mem_cons.1 hw with rfl | hrest
        · exact absurd htakesw htakes
        · exact ih (d.isLife_apply u h) ⟨w, hrest, htakesw⟩

end Uses

/-! ## Handles -/

/-- The handle that a use hands out, and the endpoint that it was asked for. -/
def handle? (d : Desk) : Use → Option (String × Nat)
  | .add endpoint => some (endpoint, (d.registry.add endpoint).2.1)
  | .get endpoint => (d.registry.find? endpoint).map (endpoint, ·)
  | _ => none

/-- The name of a handle leads to its life, and the use took nothing away. -/
theorem find?_of_handle? {d : Desk} {u : Use} {e : String} {life : Nat}
    (h : d.handle? u = some (e, life)) :
    (d.apply u).registry.find? e = some life ∧ ∀ f, ¬ u.TakesAway f := by
  unfold handle? at h
  split at h
  · next endpoint =>
    cases h
    refine ⟨?_, fun f => by simp [Use.TakesAway]⟩
    show (d.registry.add e).1.find? e = some (d.registry.add e).2.1
    cases hfind : d.registry.find? e with
    | none => rw [Registry.find?_add hfind, if_pos rfl, Registry.add_of_none hfind]
    | some other => rw [Registry.add_of_some hfind, hfind]
  · next endpoint =>
    obtain ⟨other, hfind, hpair⟩ := Option.map_eq_some_iff.1 h
    cases hpair
    exact ⟨hfind, fun f => by simp [Use.TakesAway]⟩
  · cases h

end Desk

/-- After some uses, the next one hands out a handle to a life of the endpoint. -/
def Obtains (before : List Use) (u : Use) (endpoint : String) (life : Nat) : Prop :=
  (Desk.after before).handle? u = some (endpoint, life)

instance (before : List Use) (u : Use) (endpoint : String) (life : Nat) :
    Decidable (Obtains before u endpoint life) :=
  inferInstanceAs (Decidable (_ = _))

variable {before between : List Use} {u v : Use} {e f : String} {life other : Nat}

theorem Obtains.find? (h : Obtains before u e life) :
    (Desk.after (before ++ [u])).registry.find? e = some life := by
  rw [Desk.after_concat]
  exact (Desk.find?_of_handle? h).1

theorem Obtains.isLife (h : Obtains before u e life) :
    (Desk.after (before ++ [u])).registry.IsLife life e :=
  (Desk.sound_after _).named h.find?

/-- Two handles are the same exactly if they were obtained for one endpoint and its name was not
taken away in between. -/
theorem same_handle_iff (h : Obtains before u e life)
    (hlater : Obtains (before ++ u :: between) v f other) :
    life = other ↔ e = f ∧ ∀ w ∈ between, ¬ w.TakesAway e := by
  have hreached : Desk.after ((before ++ u :: between) ++ [v]) =
      (between ++ [v]).foldl Desk.apply (Desk.after (before ++ [u])) := by
    rw [← Desk.after_append]
    simp
  have hfind := hlater.find?
  constructor
  · rintro rfl
    have hlife := hlater.isLife
    rw [hreached] at hfind hlife
    have hold : ((between ++ [v]).foldl Desk.apply (Desk.after (before ++ [u]))).registry.IsLife
        life e :=
      Desk.foldl_of_apply (P := fun d => d.registry.IsLife life e)
        (fun d w hd => d.isLife_apply w hd) h.isLife _
    obtain rfl := hold.unique hlife
    refine ⟨rfl, fun w hw htakes => ?_⟩
    exact (Desk.lost_foldl h.isLife ⟨w, List.mem_append_left _ hw, htakes⟩).2 hfind
  · rintro ⟨rfl, hkept⟩
    rw [hreached, Desk.find?_foldl h.find?] at hfind
    · exact Option.some.inj hfind
    · intro w hw
      rcases List.mem_append.1 hw with hbetween | hlast
      · exact hkept w hbetween
      · rw [List.mem_singleton.1 hlast]
        exact (Desk.find?_of_handle? hlater).2 e

end SocksPool
