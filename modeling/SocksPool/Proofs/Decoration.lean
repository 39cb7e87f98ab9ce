import Mathlib.Data.List.TakeWhile
import SocksPool.Endpoint

/-!
# Decorated candidates

Seed lists dress one endpoint in many ways: with blanks around it, with a scheme in front of
it in any mixture of letter cases, with slashes behind it. The reader takes the dress off in
a fixed order, blanks, scheme, slashes, and each step has to find what was put on and no
more. A scheme begins with a letter and ends in a slash, neither of which is blank, so the
blanks that are trimmed are those around the whole. No known scheme begins with another one,
so the scheme that is found is the one in front. Slashes that are added join those that the
text ends in itself, and a text loses these with or without a scheme.

## Main definitions

* `Endpoint.IsScheme` — a known scheme, in any mixture of letter cases.
* `Endpoint.location` — what of a candidate is read as a location.

## Main results

* `Text.trim_append` — blanks around a text do not matter for what is left of it.
* `Endpoint.stripScheme_append` — what stands behind a scheme is what is left of the text.
* `Endpoint.decoration_ignored` — a decorated text has the normal form of the bare one.
-/

namespace SocksPool

/-! ## The ends of a text -/

namespace Text

variable {p : Char → Bool} {text : List Char}

theorem dropWhile_of_head? (h : ∀ c ∈ text.head?, p c = false) : text.dropWhile p = text := by
  cases text with
  | nil => rfl
  | cons c rest => rw [List.dropWhile_cons, h c rfl]; rfl

theorem dropEndWhile_of_getLast? (h : ∀ c ∈ text.getLast?, p c = false) :
    dropEndWhile p text = text := by
  have hhead : ∀ c ∈ text.reverse.head?, p c = false := by rwa [List.head?_reverse]
  rw [dropEndWhile, dropWhile_of_head? hhead, List.reverse_reverse]

theorem dropEndWhile_of_forall (h : ∀ c ∈ text, p c = false) : dropEndWhile p text = text :=
  dropEndWhile_of_getLast? fun c hc => h c (List.mem_of_getLast? hc)

/-- Characters that are dropped may be added at the end. -/
theorem dropEndWhile_append {tail : List Char} (h : ∀ c ∈ tail, p c = true) (text : List Char) :
    dropEndWhile p (text ++ tail) = dropEndWhile p text := by
  have htail : ∀ c ∈ tail.reverse, p c = true := fun c hc => h c (List.mem_reverse.1 hc)
  rw [dropEndWhile, List.reverse_append, List.dropWhile_append_of_pos htail, dropEndWhile]

/-- Nothing is dropped before a character that stays. -/
theorem dropEndWhile_append_cons {c : Char} (hc : p c = false) (front rest : List Char) :
    dropEndWhile p (front ++ c :: rest) = front ++ c :: dropEndWhile p rest := by
  have hstop : ∀ text : List Char,
      (text ++ c :: front.reverse).dropWhile p = text.dropWhile p ++ c :: front.reverse := by
    intro text
    induction text with
    | nil => rw [List.nil_append, List.dropWhile_cons, hc]; rfl
    | cons d more ih =>
        cases hd : p d with
        | true => simpa [hd] using ih
        | false => simp [hd]
  have hreverse : (front ++ c :: rest).reverse = rest.reverse ++ c :: front.reverse := by simp
  rw [dropEndWhile, hreverse, hstop, dropEndWhile]
  simp

theorem trim_of_ends (hstart : ∀ c ∈ text.head?, isBlank c = false)
    (hend : ∀ c ∈ text.getLast?, isBlank c = false) : trim text = text := by
  rw [trim, dropWhile_of_head? hstart, dropEndWhile_of_getLast? hend]

theorem trim_of_forall (h : ∀ c ∈ text, isBlank c = false) : trim text = text :=
  trim_of_ends (fun c hc => h c (List.mem_of_head? hc)) fun c hc => h c (List.mem_of_getLast? hc)

/-- A trimmed text does not end in a blank. -/
theorem getLast?_trim (text : List Char) : ∀ c ∈ (trim text).getLast?, isBlank c = false := by
  intro c hc
  rw [trim, dropEndWhile, List.getLast?_reverse] at hc
  have hstop := List.head?_dropWhile_not isBlank (text.dropWhile isBlank).reverse
  rw [Option.mem_def.1 hc] at hstop
  exact hstop

/-- Blanks around a text do not matter for what is left of it. -/
theorem trim_append {before after : List Char} (hbefore : ∀ c ∈ before, isBlank c = true)
    (hafter : ∀ c ∈ after, isBlank c = true) (text : List Char) :
    trim (before ++ text ++ after) = trim text := by
  rw [trim, List.append_assoc, List.dropWhile_append_of_pos hbefore, List.dropWhile_append, trim]
  split
  · next hblank =>
    rw [List.isEmpty_iff.1 hblank, List.dropWhile_eq_nil_iff.2 hafter]
  · exact dropEndWhile_append hafter _

/-- No letter is blank. -/
theorem isBlank_of_isAlpha {c : Char} (h : c.isAlpha = true) : isBlank c = false := by
  have hletter : (65 ≤ c.toNat ∧ c.toNat ≤ 90) ∨ (97 ≤ c.toNat ∧ c.toNat ≤ 122) := by
    rcases Bool.or_eq_true_iff.1 h with hupper | hlower
    · obtain ⟨hlow, hhigh⟩ := of_decide_eq_true hupper
      exact .inl ⟨UInt32.le_iff_toNat_le.1 hlow, UInt32.le_iff_toNat_le.1 hhigh⟩
    · obtain ⟨hlow, hhigh⟩ := Bool.and_eq_true_iff.1 hlower
      exact .inr ⟨UInt32.le_iff_toNat_le.1 (of_decide_eq_true hlow),
        UInt32.le_iff_toNat_le.1 (of_decide_eq_true hhigh)⟩
  simp [isBlank]
  omega

/-- Only letters are letters in lower case. -/
theorem isAlpha_of_toLower {c : Char} (h : c.toLower.isAlpha = true) : c.isAlpha = true := by
  unfold Char.toLower at h
  split at h
  · next hupper => exact Bool.or_eq_true_iff.2 (.inl (decide_eq_true hupper))
  · exact h

end Text

namespace Endpoint

/-! ## Schemes -/

/-- A known scheme, in any mixture of letter cases. -/
def IsScheme (text : List Char) : Prop := text.map Char.toLower ∈ knownSchemes

instance (text : List Char) : Decidable (IsScheme text) :=
  inferInstanceAs (Decidable (_ ∈ _))

variable {scheme text rest : List Char}

/-- What is dropped is the scheme, letter case aside. -/
theorem dropScheme?_eq_some_iff :
    dropScheme? scheme text = some rest ↔
      ∃ front, text = front ++ rest ∧ front.map Char.toLower = scheme := by
  unfold dropScheme?
  constructor
  · intro h
    split at h
    · next hfront =>
      obtain rfl := Option.some.inj h
      exact ⟨_, (List.take_append_drop _ _).symm, hfront⟩
    · cases h
  · rintro ⟨front, rfl, rfl⟩
    simp

/-- No known scheme begins with another one. -/
theorem scheme_eq_of_prefix {first second : List Char} (hfirst : first ∈ knownSchemes)
    (hsecond : second ∈ knownSchemes) (h : first <+: text) (hother : second <+: text) :
    first = second := by
  have hapart : ∀ a ∈ knownSchemes, ∀ b ∈ knownSchemes, a <+: b → a = b := by decide
  rcases List.prefix_or_prefix_of_prefix h hother with hle | hle
  · exact hapart first hfirst second hsecond hle
  · exact (hapart second hsecond first hfirst hle).symm

/-- What stands behind a scheme is what is left of the text. -/
theorem stripScheme_append (h : IsScheme scheme) (rest : List Char) :
    stripScheme (scheme ++ rest) = rest := by
  have hstarts : scheme.map Char.toLower <+: (scheme ++ rest).map Char.toLower := by simp
  unfold stripScheme
  cases hfound : knownSchemes.findSome? (dropScheme? · (scheme ++ rest)) with
  | none =>
      have hnone := List.findSome?_eq_none_iff.1 hfound _ h
      rw [dropScheme?_eq_some_iff.2 ⟨scheme, rfl, rfl⟩] at hnone
      cases hnone
  | some found =>
      obtain ⟨other, hother, hdrop⟩ := List.exists_of_findSome?_eq_some hfound
      obtain ⟨front, htext, rfl⟩ := dropScheme?_eq_some_iff.1 hdrop
      have hfront : front.map Char.toLower <+: (scheme ++ rest).map Char.toLower := by
        rw [htext]; simp
      have hsame := scheme_eq_of_prefix h hother hstarts hfront
      have hlength : scheme.length = front.length := by simpa using congrArg List.length hsame
      exact (List.append_inj htext hlength).2.symm

/-- A text that begins with no known scheme is left as it is. -/
theorem stripScheme_of_bare (h : ∀ scheme ∈ knownSchemes, ¬ scheme <+: text.map Char.toLower) :
    stripScheme text = text := by
  have hnone : ∀ scheme ∈ knownSchemes, dropScheme? scheme text = none := by
    intro scheme hscheme
    refine Option.eq_none_iff_forall_not_mem.2 fun rest hrest => ?_
    obtain ⟨front, rfl, rfl⟩ := dropScheme?_eq_some_iff.1 hrest
    exact h _ hscheme (by simp)
  rw [stripScheme, List.findSome?_eq_none_iff.2 hnone]
  rfl

/-- Only a slash is a slash in lower case. -/
theorem eq_slash_of_toLower {c : Char} (h : c.toLower = '/') : c = '/' := by
  unfold Char.toLower at h
  split at h
  · next hupper =>
    have hval : c.val + 32 = 47 := congrArg Char.val h
    have hnat := congrArg UInt32.toNat hval
    have hlow := UInt32.le_iff_toNat_le.1 hupper.1
    have hhigh := UInt32.le_iff_toNat_le.1 hupper.2
    simp at hnat hlow hhigh
    omega
  · exact h

theorem head?_known {known : List Char} (h : known ∈ knownSchemes) : known.head? = some 's' := by
  have hall : ∀ known ∈ knownSchemes, known.head? = some 's' := by decide
  exact hall known h

/-- A scheme begins with a letter. -/
theorem IsScheme.head? (h : IsScheme scheme) : ∃ c, scheme.head? = some c ∧ c.isAlpha = true := by
  have hfirst := head?_known h
  rw [List.head?_map] at hfirst
  obtain ⟨c, hc, hlower⟩ := Option.map_eq_some_iff.1 hfirst
  exact ⟨c, hc, Text.isAlpha_of_toLower (by rw [hlower]; rfl)⟩

/-- A scheme ends in a slash. -/
theorem IsScheme.getLast? (h : IsScheme scheme) : scheme.getLast? = some '/' := by
  have hknown : ∀ known ∈ knownSchemes, known.getLast? = some '/' := by decide
  have hlast := hknown _ h
  rw [List.getLast?_map] at hlast
  obtain ⟨c, hc, hlower⟩ := Option.map_eq_some_iff.1 hlast
  rw [hc, eq_slash_of_toLower hlower]

/-! ## Candidates -/

/-- What of a candidate is read as a location: the line without blanks around it and without
a known scheme in front of it. -/
def location (raw : List Char) : List Char := stripScheme (Text.trim raw)

/-- Blanks around a candidate do not matter. -/
theorem normalizeChars?_append {before after : List Char}
    (hbefore : ∀ c ∈ before, Text.isBlank c = true) (hafter : ∀ c ∈ after, Text.isBlank c = true)
    (text : List Char) : normalizeChars? (before ++ text ++ after) = normalizeChars? text := by
  simp only [normalizeChars?, Text.trim_append hbefore hafter]

/-- Of a line that is neither empty nor a comment the location is read, without slashes at
its end. -/
theorem normalizeChars?_of_head? {raw : List Char} {c : Char}
    (hhead : (Text.trim raw).head? = some c) (hhash : c ≠ '#') :
    normalizeChars? raw = readBare? (Text.dropEndWhile (· == '/') (location raw)) := by
  simp only [normalizeChars?, location]
  cases hline : Text.trim raw with
  | nil => rw [hline] at hhead; cases hhead
  | cons first rest =>
      rw [hline] at hhead
      obtain rfl := Option.some.inj hhead
      simp [hhash]

/-- Behind a scheme everything but slashes at the end is read. -/
theorem normalizeChars?_scheme (hscheme : IsScheme scheme)
    (hend : ∀ c ∈ text.getLast?, Text.isBlank c = false) :
    normalizeChars? (scheme ++ text) = readBare? (Text.dropEndWhile (· == '/') text) := by
  obtain ⟨first, hfirst, halpha⟩ := hscheme.head?
  have hhead : (scheme ++ text).head? = some first := by rw [List.head?_append, hfirst]; rfl
  have hstart : ∀ c ∈ (scheme ++ text).head?, Text.isBlank c = false := by
    intro c hc
    obtain rfl := Option.some.inj (hhead.symm.trans hc)
    exact Text.isBlank_of_isAlpha halpha
  have hlast : ∀ c ∈ (scheme ++ text).getLast?, Text.isBlank c = false := by
    intro c hc
    rw [List.getLast?_append, hscheme.getLast?] at hc
    cases htext : text.getLast? with
    | none =>
        rw [htext] at hc
        obtain rfl := Option.some.inj hc
        decide
    | some last =>
        rw [htext] at hc
        obtain rfl := Option.some.inj hc
        exact hend _ htext
  have hhash : first ≠ '#' := by
    rintro rfl
    cases halpha
  have htrim := Text.trim_of_ends hstart hlast
  rw [normalizeChars?_of_head? (by rw [htrim, hhead]) hhash, location, htrim,
    stripScheme_append hscheme]

/-- A candidate without decoration is read as it stands. -/
theorem normalizeChars?_bare (hstart : ∀ c ∈ text.head?, Text.isBlank c = false)
    (hend : ∀ c ∈ text.getLast?, Text.isBlank c = false) (hhash : text.head? ≠ some '#')
    (hbare : ∀ scheme ∈ knownSchemes, ¬ scheme <+: text.map Char.toLower) :
    normalizeChars? text = readBare? (Text.dropEndWhile (· == '/') text) := by
  cases text with
  | nil => decide
  | cons c rest =>
      have hsign : c ≠ '#' := fun hc => hhash (congrArg some hc)
      have htrim := Text.trim_of_ends hstart hend
      rw [normalizeChars?_of_head? (by rw [htrim]; rfl) hsign, location, htrim,
        stripScheme_of_bare hbare]

/-- Blanks around a candidate, a known scheme in front of it and slashes behind it do not
change its normal form. -/
theorem decoration_ignored {before scheme text after : String} (slashes : Nat)
    (hbefore : ∀ c ∈ before.toList, Text.isBlank c = true)
    (hafter : ∀ c ∈ after.toList, Text.isBlank c = true) (hscheme : IsScheme scheme.toList)
    (hstart : ∀ c ∈ text.toList.head?, Text.isBlank c = false)
    (hend : ∀ c ∈ text.toList.getLast?, Text.isBlank c = false)
    (hhash : text.toList.head? ≠ some '#')
    (hbare : ∀ known ∈ knownSchemes, ¬ known <+: text.toList.map Char.toLower) :
    normalize? (before ++ scheme ++ text ++ String.ofList (List.replicate slashes '/') ++ after) =
      normalize? text := by
  have hslash : ∀ c ∈ List.replicate slashes '/', (c == '/') = true := fun c hc => by
    rw [List.eq_of_mem_replicate hc]; rfl
  have hlast : ∀ c ∈ (text.toList ++ List.replicate slashes '/').getLast?,
      Text.isBlank c = false := by
    intro c hc
    rw [List.getLast?_append] at hc
    cases slashes with
    | zero => exact hend c hc
    | succ n =>
        obtain rfl : '/' = c := by simpa [List.getLast?_replicate] using hc
        decide
  have hread : normalizeChars? (before.toList ++
      (scheme.toList ++ (text.toList ++ List.replicate slashes '/')) ++ after.toList) =
      normalizeChars? text.toList := by
    rw [normalizeChars?_append hbefore hafter, normalizeChars?_scheme hscheme hlast,
      Text.dropEndWhile_append hslash, normalizeChars?_bare hstart hend hhash hbare]
  simp only [normalize?, String.toList_append, String.toList_ofList, List.append_assoc] at hread ⊢
  rw [hread]

/-- An address between an ideographic blank and a line feed, behind a scheme in mixed case. -/
theorem decoration_ignored_bracketed :
    normalize? ("\u3000 " ++ "SoCkS5H://" ++ "[2001:DB8::0:1]:01080" ++
        String.ofList (List.replicate 2 '/') ++ "\r\n") = some "[2001:db8::1]:1080" ∧
      normalize? "[2001:DB8::0:1]:01080" = some "[2001:db8::1]:1080" := by
  have hread : normalize? "[2001:DB8::0:1]:01080" = some "[2001:db8::1]:1080" := by
    decide +kernel
  have hbefore : ∀ c ∈ "\u3000 ".toList, Text.isBlank c = true := List.all_eq_true.1 (by decide)
  have hafter : ∀ c ∈ "\r\n".toList, Text.isBlank c = true := List.all_eq_true.1 (by decide)
  refine ⟨?_, hread⟩
  rw [decoration_ignored 2 hbefore hafter (by decide) (by simp; decide) (by simp; decide)
    (by decide) (by decide), hread]

end Endpoint

end SocksPool
