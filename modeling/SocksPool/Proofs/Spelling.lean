import SocksPool.Address
import SocksPool.Proofs.Digits

/-!
# The spelling of an IPv6 address

An IPv6 address has many spellings, and `Ipv6.compressed` chooses one. The reader takes
every spelling, so it has to find in the chosen one the groups that were written. Three
facts make it so. A written group is not empty and holds no colon, so the colons of the
text are exactly those between groups and two of them meet only where the gap was put. The
gap replaces a stretch of groups that are all zero, which is what the reader fills it with.
And the gap is put only in place of two groups or more, so it never stands for none.

## Main results

* `Ipv6.cutGap_joinGroups` — joined groups hold no gap, so the first gap is the one put
  behind them.
* `Ipv6.longestRun_spec` — the stretch that is left out consists of zero groups.
* `Ipv6.parse?_compressed` — the spelling of an address reads as that address.
-/

namespace SocksPool

namespace Text

theorem pieces_of_notMem {sep : Char} {text : List Char} (h : sep ∉ text) :
    pieces sep text = [text] := by
  induction text with
  | nil => rfl
  | cons c rest ih =>
      have hc : sep ≠ c := List.ne_of_not_mem_cons h
      have hrest : sep ∉ rest := List.not_mem_of_not_mem_cons h
      rw [pieces, if_neg (Ne.symm hc), ih hrest]

theorem pieces_append {sep : Char} {text : List Char} (h : sep ∉ text) (rest : List Char) :
    pieces sep (text ++ sep :: rest) = text :: pieces sep rest := by
  induction text with
  | nil => simp [pieces]
  | cons c more ih =>
      have hc : sep ≠ c := List.ne_of_not_mem_cons h
      have hmore : sep ∉ more := List.not_mem_of_not_mem_cons h
      rw [List.cons_append, pieces, if_neg (Ne.symm hc), ih hmore]

end Text

namespace Ipv6

/-! ## Groups -/

/-- The written form of one group. -/
def groupText (g : UInt16) : List Char := Text.hexadecimal g.toNat

theorem mem_groupText {g : UInt16} {c : Char} (h : c ∈ groupText g) :
    ∃ d < 16, c = Nat.digitChar d :=
  Text.exists_of_mem_toDigits (by decide) h

theorem colon_notMem_groupText (g : UInt16) : ':' ∉ groupText g := by
  intro h
  obtain ⟨d, -, hcolon⟩ := mem_groupText h
  exact Nat.digitChar_ne ':' (by decide) hcolon.symm

theorem groupText_eq_cons (g : UInt16) :
    ∃ c rest, groupText g = c :: rest ∧ c ≠ ':' := by
  obtain ⟨c, rest, htext⟩ :=
    List.exists_cons_of_ne_nil (Nat.toDigits_ne_nil (n := g.toNat) (b := 16))
  refine ⟨c, rest, htext, fun hc => colon_notMem_groupText g ?_⟩
  rw [groupText, Text.hexadecimal, htext, hc]
  exact List.mem_cons_self

theorem group?_groupText (g : UInt16) : group? (groupText g) = some g := by
  have hlength : (groupText g).length ≤ 4 := Text.length_hexadecimal_le g.toNat_lt
  have hread : Text.number? 16 (groupText g) = some g.toNat :=
    Text.number?_toDigits (by decide) (by decide) g.toNat
  rw [group?, if_pos hlength, hread]
  simp

theorem sequence?_groupText (tail : Bool) (groups : List UInt16) :
    sequence? tail (groups.map groupText) = some groups := by
  induction groups with
  | nil => rfl
  | cons g rest ih =>
      cases rest with
      | nil => simp [sequence?, group?_groupText]
      | cons next more =>
          rw [List.map_cons, List.map_cons, sequence?, ← List.map_cons, ih, group?_groupText]
          · rfl
          · simp

/-! ## Joined groups -/

@[simp]
theorem joinGroups_singleton (g : UInt16) : joinGroups [g] = groupText g := by
  simp [joinGroups, groupText]

@[simp]
theorem joinGroups_cons_cons (g next : UInt16) (more : List UInt16) :
    joinGroups (g :: next :: more) = groupText g ++ ':' :: joinGroups (next :: more) := by
  simp [joinGroups, groupText, List.intercalate]

/-- Joined groups are written with hexadecimal digits and colons. -/
theorem mem_joinGroups {groups : List UInt16} {c : Char} (h : c ∈ joinGroups groups) :
    c = ':' ∨ ∃ d < 16, c = Nat.digitChar d := by
  induction groups with
  | nil => exact absurd h List.not_mem_nil
  | cons g rest ih =>
      cases rest with
      | nil => exact .inr (mem_groupText (by simpa using h))
      | cons next more =>
          rw [joinGroups_cons_cons, List.mem_append, List.mem_cons] at h
          rcases h with hgroup | hcolon | hrest
          · exact .inr (mem_groupText hgroup)
          · exact .inl hcolon
          · exact ih hrest

theorem joinGroups_eq_cons (g : UInt16) (more : List UInt16) :
    ∃ c rest, joinGroups (g :: more) = c :: rest ∧ c ≠ ':' := by
  obtain ⟨c, rest, htext, hc⟩ := groupText_eq_cons g
  cases more with
  | nil => exact ⟨c, rest, by rw [joinGroups_singleton, htext], hc⟩
  | cons next more =>
      exact ⟨c, rest ++ ':' :: joinGroups (next :: more), by
        rw [joinGroups_cons_cons, htext]; rfl, hc⟩

theorem pieces_joinGroups (g : UInt16) (more : List UInt16) :
    Text.pieces ':' (joinGroups (g :: more)) = (g :: more).map groupText := by
  induction more generalizing g with
  | nil => simpa using Text.pieces_of_notMem (colon_notMem_groupText g)
  | cons next more ih =>
      rw [joinGroups_cons_cons, Text.pieces_append (colon_notMem_groupText g), ih next]
      rfl

theorem side?_joinGroups (tail : Bool) (groups : List UInt16) :
    side? tail (joinGroups groups) = some groups := by
  cases groups with
  | nil => rfl
  | cons g more =>
      obtain ⟨c, rest, htext, -⟩ := joinGroups_eq_cons g more
      have hside : side? tail (joinGroups (g :: more)) =
          sequence? tail (Text.pieces ':' (joinGroups (g :: more))) := by
        rw [htext]; rfl
      rw [hside, pieces_joinGroups, sequence?_groupText]

/-! ## The gap -/

theorem cutGap_cons {c : Char} (hc : c ≠ ':') (rest : List Char) :
    cutGap (c :: rest) = (cutGap rest).map fun parts => (c :: parts.1, parts.2) := by
  rw [cutGap]
  rintro more hmore -
  exact hc hmore

theorem cutGap_colon_cons {c : Char} (hc : c ≠ ':') (rest : List Char) :
    cutGap (':' :: c :: rest) =
      (cutGap (c :: rest)).map fun parts => (':' :: parts.1, parts.2) := by
  rw [cutGap]
  rintro more - hmore
  exact hc (List.cons.inj hmore).1

theorem cutGap_append {text : List Char} (h : ':' ∉ text) (rest : List Char) :
    cutGap (text ++ rest) = (cutGap rest).map fun parts => (text ++ parts.1, parts.2) := by
  induction text with
  | nil => simp
  | cons c more ih =>
      have hc : ':' ≠ c := List.ne_of_not_mem_cons h
      have hmore : ':' ∉ more := List.not_mem_of_not_mem_cons h
      rw [List.cons_append, cutGap_cons (Ne.symm hc), ih hmore, Option.map_map]
      rfl

/-- Joined groups hold no gap: the first gap of a text that begins with them is the first
gap behind them. -/
theorem cutGap_joinGroups (groups : List UInt16) (rest : List Char) :
    cutGap (joinGroups groups ++ rest) =
      (cutGap rest).map fun parts => (joinGroups groups ++ parts.1, parts.2) := by
  induction groups with
  | nil => exact Option.map_id'.symm
  | cons g more ih =>
      cases more with
      | nil => simpa using cutGap_append (colon_notMem_groupText g) rest
      | cons next more =>
          obtain ⟨c, after, htext, hc⟩ := joinGroups_eq_cons next more
          rw [joinGroups_cons_cons, List.append_assoc, cutGap_append (colon_notMem_groupText g)]
          rw [htext] at ih ⊢
          rw [List.cons_append, List.cons_append, cutGap_colon_cons hc, ← List.cons_append, ih,
            Option.map_map, Option.map_map]
          simp [Function.comp_def]

theorem takeWhile_zero (groups : List UInt16) :
    groups.takeWhile (· == 0) = List.replicate (zeroRun groups) 0 := by
  refine List.eq_replicate_iff.2 ⟨rfl, fun g hg => ?_⟩
  simpa using List.all_eq_true.1 List.all_takeWhile g hg

/-- The stretch that is left out consists of zero groups. -/
theorem longestRun_spec (start : Nat) (groups : List UInt16) :
    ∃ before after, (longestRun start groups).1 = start + before.length ∧
      groups = before ++ List.replicate (longestRun start groups).2 0 ++ after := by
  induction groups generalizing start with
  | nil => exact ⟨[], [], by simp [longestRun]⟩
  | cons g rest ih =>
      rw [longestRun]
      split
      · obtain ⟨before, after, hstart, hgroups⟩ := ih (start + 1)
        refine ⟨g :: before, after, ?_, ?_⟩
        · rw [hstart, List.length_cons]; omega
        · rw [List.cons_append, List.cons_append, ← hgroups]
      · refine ⟨[], (g :: rest).dropWhile (· == 0), rfl, ?_⟩
        rw [List.nil_append, ← takeWhile_zero, List.takeWhile_append_dropWhile]

/-- The spelling of an address reads as that address. -/
theorem parse?_compressed (ip : Ipv6) : parse? ip.compressed = some ip := by
  obtain ⟨before, after, hstart, hgroups⟩ := longestRun_spec 0 ip.groups
  have hlength := ip.length_groups
  simp only [compressed]
  generalize longestRun 0 ip.groups = run at hstart hgroups ⊢
  split
  · have hcut := cutGap_joinGroups ip.groups []
    obtain ⟨g, more, hcons⟩ := List.exists_cons_of_ne_nil (l := ip.groups) (by
      intro hnil; simp [hnil] at hlength)
    have hread : sequence? true (Text.pieces ':' (joinGroups ip.groups)) = some ip.groups := by
      rw [hcons, pieces_joinGroups, sequence?_groupText]
    rw [List.append_nil] at hcut
    rw [parse?, hcut, hread]
    simp [cutGap, hlength]
  · next hlong =>
    have htake : ip.groups.take run.1 = before := by
      rw [hgroups, hstart, Nat.zero_add, List.append_assoc, List.take_left]
    have hdrop : ip.groups.drop (run.1 + run.2) = after := by
      have hsplit : run.1 + run.2 = (before ++ List.replicate run.2 (0 : UInt16)).length := by
        simp [hstart]
      rw [hgroups, hsplit, List.drop_left]
    have hsum : before.length + run.2 + after.length = 8 := by
      rw [hgroups] at hlength
      simpa [Nat.add_assoc] using hlength
    have hcut : cutGap (joinGroups before ++ [':', ':'] ++ joinGroups after) =
        some (joinGroups before, joinGroups after) := by
      rw [List.append_assoc, cutGap_joinGroups]
      simp [cutGap]
    have hgap : 8 - before.length - after.length = run.2 := by omega
    rw [htake, hdrop, parse?, hcut]
    simp only [side?_joinGroups, Option.bind_eq_bind, Option.bind_some, fill?, hgap]
    rw [dif_pos (by omega), Option.some.injEq]
    cases ip
    simpa using hgroups.symm

/-- The spelling of an address uses hexadecimal digits and colons. -/
theorem mem_compressed {ip : Ipv6} {c : Char} (h : c ∈ ip.compressed) :
    c = ':' ∨ ∃ d < 16, c = Nat.digitChar d := by
  simp only [compressed] at h
  generalize longestRun 0 ip.groups = run at h
  split at h
  · exact mem_joinGroups h
  · simp only [List.mem_append, List.mem_cons, List.not_mem_nil, or_false, or_self] at h
    rcases h with (hbefore | hcolon) | hafter
    · exact mem_joinGroups hbefore
    · exact .inl hcolon
    · exact mem_joinGroups hafter

end Ipv6

end SocksPool
