import SocksPool.Proofs.LetterCase

/-!
# Literals of addresses

The readers of addresses cut a text at its separators and try each part. What they take can
also be said from the other side, as a grammar of what may be written. An IPv4 address has
one literal, the one that is printed, because an octet has no leading zeros. An IPv6 address
has many. Each group has up to four digits in either case, zeros in front may stay or go, the
last two groups may have dots, and one gap may stand for zero groups.

The grammar says nothing of how a text is read. That the readers take exactly its texts, and
each for the address that it spells, rests on two facts. A part holds no separator, so the
cuts find the parts again. And no row of groups begins or ends with a colon or has two of them
together, so the first two colons that meet are those of the gap.

## Main definitions

* `Ipv6.Row` — groups between colons.
* `Ipv6.Spells` — a text spells an IPv6 address.
* `Address.Literal` — a text is one literal of an address.

## Main results

* `Text.number?_eq_some_iff` — which texts read as a number.
* `Ipv4.parse?_eq_some_iff` — an IPv4 address has one literal.
* `Ipv6.parse?_eq_some_iff` — the reader takes exactly the spellings of an address.
* `Address.parse?_eq_some_iff` — the same for addresses of either kind.
* `Address.literal_print` — what is printed for an address is a literal of it.
-/

namespace SocksPool

namespace Text

/-! ## Numbers -/

theorem toNat_lt_of_hexValue? {c : Char} {d : Nat} (h : hexValue? c = some d) :
    c.toNat < 103 := by
  have hle (a b : Char) : a ≤ b ↔ a.toNat ≤ b.toNat := UInt32.le_iff_toNat_le
  have hnine : '9'.toNat = 57 := rfl
  have hf : 'f'.toNat = 102 := rfl
  have hF : 'F'.toNat = 70 := rfl
  unfold hexValue? at h
  simp only [hle, hnine, hf, hF] at h
  grind

/-- A digit is the written one in either case. -/
theorem digit?_eq_some {base d : Nat} {c : Char} (h : digit? base c = some d) :
    d < base ∧ c.toLower = d.digitChar := by
  obtain ⟨hvalue, hbound⟩ := Option.filter_eq_some_iff.1 h
  have hsmall : ∀ n < 103, ∀ e ∈ hexValue? (Char.ofNat n),
      (Char.ofNat n).toLower = e.digitChar := by decide
  have hlower := hsmall c.toNat (toNat_lt_of_hexValue? hvalue) d
  rw [Char.ofNat_toNat] at hlower
  exact ⟨of_decide_eq_true hbound, hlower hvalue⟩

/-- The digits that are read go behind those of the number so far. -/
theorem toDigits_append_of_foldDigits? {base : Nat} (hbase : 1 < base) {text : List Char}
    {acc n : Nat} (h : foldDigits? base text acc = some n) :
    ∃ zeros, Nat.toDigits base acc ++ lower text =
      List.replicate zeros '0' ++ Nat.toDigits base n := by
  induction text generalizing acc with
  | nil =>
      obtain rfl : acc = n := Option.some.inj h
      exact ⟨0, by simp [lower]⟩
  | cons c rest ih =>
      obtain ⟨d, hdigit, hrest⟩ := Option.bind_eq_some_iff.1 h
      obtain ⟨hd, hlower⟩ := digit?_eq_some hdigit
      obtain ⟨zeros, hread⟩ := ih hrest
      have hcons : lower (c :: rest) = d.digitChar :: lower rest :=
        congrArg (· :: lower rest) hlower
      rcases Nat.eq_zero_or_pos acc with rfl | hpos
      · rw [Nat.zero_mul, Nat.zero_add, Nat.toDigits_of_lt_base hd] at hread
        rw [Nat.toDigits_of_lt_base (Nat.zero_lt_of_lt hbase), hcons]
        exact ⟨zeros + 1, congrArg ('0' :: ·) hread⟩
      · rw [Nat.mul_comm, ← Nat.toDigits_append_toDigits hbase hpos hd,
          Nat.toDigits_of_lt_base hd, List.append_assoc] at hread
        rw [hcons]
        exact ⟨zeros, hread⟩

/-- Zeros in front do not count. -/
theorem foldDigits?_replicate {base : Nat} (hlow : 1 < base) (hhigh : base ≤ 16) (zeros : Nat)
    (text : List Char) :
    foldDigits? base (List.replicate zeros '0' ++ text) 0 = foldDigits? base text 0 := by
  have hzero : digit? base '0' = some 0 :=
    digit?_digitChar (Nat.zero_lt_of_lt hlow) hhigh
  induction zeros with
  | zero => rfl
  | succ more ih => simp [List.replicate_succ, foldDigits?, hzero, ih]

/-- A text reads as a number exactly if it has the digits of the number, in either case, and
zeros in front. -/
theorem number?_eq_some_iff {base n : Nat} (hlow : 1 < base) (hhigh : base ≤ 16)
    {text : List Char} :
    number? base text = some n ↔
      ∃ zeros, lower text = List.replicate zeros '0' ++ Nat.toDigits base n := by
  have hfold (hne : text ≠ []) : number? base text = foldDigits? base text 0 := by
    obtain ⟨c, rest, rfl⟩ := List.exists_cons_of_ne_nil hne
    rfl
  constructor
  · intro h
    have hne : text ≠ [] := by
      rintro rfl
      cases h
    rw [hfold hne] at h
    obtain ⟨zeros, hread⟩ := toDigits_append_of_foldDigits? hlow h
    rw [Nat.toDigits_of_lt_base (Nat.zero_lt_of_lt hlow)] at hread
    cases zeros with
    | succ zeros => exact ⟨zeros, (List.cons.inj hread).2⟩
    | zero =>
        -- The zero that nothing was read before is a digit of the number, which is zero then.
        rcases Nat.eq_zero_or_pos n with rfl | hpos
        · rw [Nat.toDigits_of_lt_base (Nat.zero_lt_of_lt hlow)] at hread
          exact absurd (List.map_eq_nil_iff.1 (List.cons.inj hread).2) hne
        · exact absurd (congrArg List.head? hread).symm (head?_toDigits_ne hlow hpos)
  · rintro ⟨zeros, htext⟩
    have hne : text ≠ [] := by
      rintro rfl
      have hnil := List.append_eq_nil_iff.1 htext.symm
      exact Nat.toDigits_ne_nil hnil.2
    rw [hfold hne, ← foldDigits?_lower, htext, foldDigits?_replicate hlow hhigh,
      foldDigits?_toDigits hlow hhigh]

/-- A text without letters is the only one with its lower case. -/
theorem eq_of_lower_eq {text other : List Char} (h : lower text = other)
    (hother : ∀ c ∈ other, c.isAlpha = false) : text = other := by
  induction text generalizing other with
  | nil => exact h
  | cons c rest ih =>
      subst h
      have hc : c.toLower.isAlpha = false := hother c.toLower List.mem_cons_self
      have hrest := ih rfl fun d hd => hother d (List.mem_cons_of_mem _ hd)
      exact congrArg₂ List.cons ((toLower_eq_iff hc c).1 rfl) hrest

/-! ## Cutting -/

variable {sep : Char} {text part next : List Char} {more : List (List Char)}

theorem pieces_ne_nil (sep : Char) (text : List Char) : pieces sep text ≠ [] := by
  cases text with
  | nil => exact List.cons_ne_nil _ _
  | cons c rest =>
      rw [pieces]
      split
      · exact List.cons_ne_nil _ _
      · split <;> exact List.cons_ne_nil _ _

/-- A text holds no separator, or is cut at the first one. -/
theorem pieces_cases (sep : Char) (text : List Char) :
    pieces sep text = [text] ∨
      ∃ part rest, text = part ++ sep :: rest ∧ pieces sep text = part :: pieces sep rest := by
  by_cases hmem : sep ∈ text
  · obtain ⟨part, rest, rfl, hpart⟩ := List.eq_append_cons_of_mem hmem
    exact .inr ⟨part, rest, rfl, pieces_append hpart rest⟩
  · exact .inl (pieces_of_notMem hmem)

theorem eq_of_pieces_singleton (h : pieces sep text = [part]) : text = part := by
  rcases pieces_cases sep text with hwhole | ⟨first, rest, -, hcut⟩
  · rw [hwhole] at h
    exact List.singleton_inj.1 h
  · rw [hcut] at h
    exact absurd (List.cons.inj h).2 (pieces_ne_nil sep rest)

theorem eq_of_pieces_cons (h : pieces sep text = part :: next :: more) :
    ∃ rest, text = part ++ sep :: rest ∧ pieces sep rest = next :: more := by
  rcases pieces_cases sep text with hwhole | ⟨first, rest, htext, hcut⟩
  · rw [hwhole] at h
    cases (List.cons.inj h).2
  · rw [hcut] at h
    obtain ⟨rfl, hrest⟩ := List.cons.inj h
    exact ⟨rest, htext, hrest⟩

end Text

/-! ## IPv4 addresses -/

namespace Ipv4

theorem isAlpha_of_mem_decimal {n : Nat} {c : Char} (h : c ∈ Text.decimal n) :
    c.isAlpha = false := by
  obtain ⟨d, hd, rfl⟩ := Text.exists_of_mem_toDigits (by decide) h
  have hdigits : ∀ e < 10, (Nat.digitChar e).isAlpha = false := by decide
  exact hdigits d hd

theorem dot_notMem_decimal (n : Nat) : '.' ∉ Text.decimal n := by
  intro h
  have hdigit := Text.isDigit_of_mem_decimal h
  cases hdigit

/-- An octet is written in one way. -/
theorem octet?_eq_some_iff {text : List Char} {v : UInt8} :
    octet? text = some v ↔ text = Text.decimal v.toNat := by
  constructor
  · intro h
    unfold octet? at h
    split at h
    · next hshort =>
        obtain ⟨n, hdecimal, rfl⟩ := Option.map_eq_some_iff.1 h
        obtain ⟨hnumber, hbound⟩ := Option.filter_eq_some_iff.1 hdecimal
        obtain ⟨zeros, htext⟩ := (Text.number?_eq_some_iff (by decide) (by decide)).1 hnumber
        have hn : n ≤ 255 := of_decide_eq_true hbound
        have hvalue : (UInt8.ofNat n).toNat = n := UInt8.toNat_ofNat_of_lt' (Nat.lt_succ_of_le hn)
        cases zeros with
        | zero =>
            rw [hvalue]
            exact Text.eq_of_lower_eq htext fun c => isAlpha_of_mem_decimal
        | succ zeros =>
            have hhead : text.head? = some '0' := by
              cases text with
              | nil => cases htext
              | cons c rest =>
                  have hlower : c.toLower = '0' := (List.cons.inj htext).1
                  rw [List.head?_cons, (Text.toLower_eq_iff (by decide) c).1 hlower]
            have hsingle := hshort.2.resolve_left (not_not_intro hhead)
            have hlength := congrArg List.length htext
            rw [Text.lower, List.length_map, List.length_append, List.length_replicate] at hlength
            have hdigits : 0 < (Nat.toDigits 10 n).length := Nat.length_toDigits_pos
            omega
    · cases h
  · rintro rfl
    have hlength : (Text.decimal v.toNat).length ≤ 3 :=
      (Nat.length_toDigits_le_iff (by decide) (by decide)).2 (by have := v.toNat_lt; omega)
    have hread : Text.decimal? 255 (Text.decimal v.toNat) = some v.toNat :=
      Text.decimal?_decimal (Nat.le_of_lt_succ v.toNat_lt)
    have hzeros :
        (Text.decimal v.toNat).head? ≠ some '0' ∨ (Text.decimal v.toNat).length = 1 := by
      rcases Nat.eq_zero_or_pos v.toNat with hzero | hpos
      · rw [hzero]
        exact .inr rfl
      · exact .inl (Text.head?_toDigits_ne (by decide) hpos)
    rw [octet?, if_pos ⟨hlength, hzeros⟩, hread]
    simp

/-- An address is written in one way. -/
theorem parse?_eq_some_iff {text : List Char} {ip : Ipv4} :
    parse? text = some ip ↔ text = ip.print := by
  constructor
  · intro h
    unfold parse? at h
    split at h
    · next a b c d hpieces =>
        obtain ⟨_, rfl, hthree⟩ := Text.eq_of_pieces_cons hpieces
        obtain ⟨_, rfl, htwo⟩ := Text.eq_of_pieces_cons hthree
        obtain ⟨_, rfl, hone⟩ := Text.eq_of_pieces_cons htwo
        obtain rfl := Text.eq_of_pieces_singleton hone
        simp only [Option.bind_eq_bind, Option.bind_eq_some_iff, octet?_eq_some_iff] at h
        obtain ⟨first, rfl, second, rfl, third, rfl, fourth, rfl, hip⟩ := h
        rw [← Option.some.inj hip]
        simp [print]
    · cases h
  · rintro rfl
    have hpieces : Text.pieces '.' ip.print =
        [Text.decimal ip.first.toNat, Text.decimal ip.second.toNat,
          Text.decimal ip.third.toNat, Text.decimal ip.fourth.toNat] := by
      simp only [print, List.append_assoc, List.cons_append]
      rw [Text.pieces_append (dot_notMem_decimal _), Text.pieces_append (dot_notMem_decimal _),
        Text.pieces_append (dot_notMem_decimal _), Text.pieces_of_notMem (dot_notMem_decimal _)]
    have hread (v : UInt8) : octet? (Text.decimal v.toNat) = some v := octet?_eq_some_iff.2 rfl
    simp [parse?, hpieces, hread]

/-- An address is written with digits and dots. -/
theorem mem_print {ip : Ipv4} {c : Char} (h : c ∈ ip.print) :
    c = '.' ∨ ∃ d < 10, c = Nat.digitChar d := by
  have hdecimal {n : Nat} (hc : c ∈ Text.decimal n) : ∃ d < 10, c = Nat.digitChar d :=
    Text.exists_of_mem_toDigits (by decide) hc
  simp only [print, List.mem_append, List.mem_cons] at h
  grind

theorem colon_notMem_print (ip : Ipv4) : ':' ∉ ip.print := by
  intro h
  rcases mem_print h with hdot | ⟨d, -, hcolon⟩
  · cases hdot
  · exact Nat.digitChar_ne ':' (by decide) hcolon.symm

theorem isBlank_print (ip : Ipv4) : ∀ c ∈ ip.print, Text.isBlank c = false := by
  intro c hc
  have hdigits : ∀ e < 10, Text.isBlank (Nat.digitChar e) = false := by decide
  rcases mem_print hc with rfl | ⟨d, hd, rfl⟩
  · rfl
  · exact hdigits d hd

theorem print_ne_nil (ip : Ipv4) : ip.print ≠ [] := by simp [print]

theorem dot_mem_print (ip : Ipv4) : '.' ∈ ip.print := by simp [print]

end Ipv4

/-! ## IPv6 addresses -/

namespace Ipv6

/-- A text is a group: its hexadecimal digits in either case, four at most, and zeros in
front. -/
def IsGroup (text : List Char) (g : UInt16) : Prop :=
  text.length ≤ 4 ∧ ∃ zeros, Text.lower text = List.replicate zeros '0' ++ groupText g

/-- One or more groups between colons. With a `tail`, the last two may be written as an IPv4
address. -/
inductive Row (tail : Bool) : List Char → List UInt16 → Prop where
  | group {text : List Char} {g : UInt16} (htext : IsGroup text g) : Row tail text [g]
  | dotted (htail : tail = true) (ip : Ipv4) : Row tail ip.print ip.groups
  | cons {text rest : List Char} {g : UInt16} {groups : List UInt16} (htext : IsGroup text g)
      (hrest : Row tail rest groups) : Row tail (text ++ ':' :: rest) (g :: groups)

/-- The groups on one side of a gap, of which there may be none. -/
inductive Side (tail : Bool) : List Char → List UInt16 → Prop where
  | none : Side tail [] []
  | some {text : List Char} {groups : List UInt16} (hrow : Row tail text groups) :
      Side tail text groups

/-- A text spells an address. -/
inductive Spells : List Char → Ipv6 → Prop where
  /-- With all groups. -/
  | full {text : List Char} {ip : Ipv6} (hrow : Row true text ip.groups) : Spells text ip
  /-- With a gap, which stands for one or more zero groups. -/
  | gap {before after : List Char} {first last : List UInt16} {zeros : Nat} {ip : Ipv6}
      (hbefore : Side false before first) (hafter : Side true after last) (hzeros : 0 < zeros)
      (hgroups : ip.groups = first ++ List.replicate zeros 0 ++ last) :
      Spells (before ++ ':' :: ':' :: after) ip

variable {tail : Bool} {text rest : List Char} {g : UInt16} {groups : List UInt16}

/-! ### Groups -/

theorem group?_eq_some_iff : group? text = some g ↔ IsGroup text g := by
  unfold group? IsGroup
  split
  · next hshort =>
      rw [Option.map_eq_some_iff]
      constructor
      · rintro ⟨n, hnumber, rfl⟩
        obtain ⟨zeros, htext⟩ := (Text.number?_eq_some_iff (by decide) (by decide)).1 hnumber
        refine ⟨hshort, zeros, ?_⟩
        have hlength := congrArg List.length htext
        rw [Text.lower, List.length_map, List.length_append, List.length_replicate] at hlength
        have hn : n < 16 ^ 4 := (Nat.length_toDigits_le_iff (by decide) (by decide)).1
          (show (Nat.toDigits 16 n).length ≤ 4 by omega)
        rw [groupText, UInt16.toNat_ofNat_of_lt' hn]
        exact htext
      · rintro ⟨-, hspelled⟩
        exact ⟨g.toNat, (Text.number?_eq_some_iff (by decide) (by decide)).2 hspelled, by simp⟩
  · next hlong => simp [hlong]

/-- The written form of a group is one of its forms. -/
theorem isGroup_groupText (g : UInt16) : IsGroup (groupText g) g :=
  group?_eq_some_iff.1 (group?_groupText g)

/-- A group is written with hexadecimal digits. -/
theorem IsGroup.exists_digit (h : IsGroup text g) {c : Char} (hc : c ∈ text) :
    ∃ d < 16, c.toLower = Nat.digitChar d := by
  obtain ⟨-, zeros, htext⟩ := h
  have hlower : c.toLower ∈ Text.lower text := List.mem_map_of_mem hc
  rw [htext, List.mem_append] at hlower
  rcases hlower with hzero | hdigit
  · exact ⟨0, by decide, (List.mem_replicate.1 hzero).2⟩
  · exact mem_groupText hdigit

theorem IsGroup.notMem (h : IsGroup text g) {mark : Char}
    (hmark : ∀ d < 16, Nat.digitChar d ≠ mark.toLower) : mark ∉ text := by
  intro hmem
  obtain ⟨d, hd, hlower⟩ := h.exists_digit hmem
  exact hmark d hd hlower.symm

theorem IsGroup.isBlank_eq_false (h : IsGroup text g) : ∀ c ∈ text, Text.isBlank c = false := by
  intro c hc
  obtain ⟨d, hd, hlower⟩ := h.exists_digit hc
  have hdigits : ∀ e < 16, Text.isBlank (Nat.digitChar e) = false := by decide
  rw [← Text.class_toLower (fun _ => Text.isBlank_of_isAlpha) c, hlower]
  exact hdigits d hd

theorem IsGroup.ne_nil (h : IsGroup text g) : text ≠ [] := by
  rintro rfl
  obtain ⟨-, zeros, htext⟩ := h
  exact Nat.toDigits_ne_nil (List.append_eq_nil_iff.1 htext.symm).2

theorem IsGroup.colon_notMem (h : IsGroup text g) : ':' ∉ text := h.notMem (by decide)

/-- A row begins with a digit. -/
theorem Row.eq_cons (h : Row tail text groups) : ∃ c more, text = c :: more ∧ c ≠ ':' := by
  have hbegin {part : List Char} (hne : part ≠ []) (hcolon : ':' ∉ part) (more : List Char) :
      ∃ c others, part ++ more = c :: others ∧ c ≠ ':' := by
    obtain ⟨c, others, rfl⟩ := List.exists_cons_of_ne_nil hne
    exact ⟨c, others ++ more, rfl, (List.ne_of_not_mem_cons hcolon).symm⟩
  cases h with
  | group htext => simpa using hbegin htext.ne_nil htext.colon_notMem []
  | dotted _ ip => simpa using hbegin ip.print_ne_nil ip.colon_notMem_print []
  | cons htext _ => exact hbegin htext.ne_nil htext.colon_notMem _

/-! ### Rows and sides -/

theorem Row.sequence?_pieces (h : Row tail text groups) :
    sequence? tail (Text.pieces ':' text) = some groups := by
  induction h with
  | group htext =>
      rw [Text.pieces_of_notMem htext.colon_notMem, Ipv6.sequence?, group?_eq_some_iff.2 htext]
  | dotted htail ip =>
      have hgroup : group? ip.print = none := by
        refine Option.eq_none_iff_forall_ne_some.2 fun g hgroup => ?_
        exact (group?_eq_some_iff.1 hgroup).notMem (by decide) ip.dot_mem_print
      rw [Text.pieces_of_notMem ip.colon_notMem_print, Ipv6.sequence?, hgroup, if_pos htail,
        Ipv4.parse?_eq_some_iff.2 rfl]
      rfl
  | @cons part rest g groups htext hrest ih =>
      obtain ⟨next, more, hpieces⟩ := List.exists_cons_of_ne_nil (Text.pieces_ne_nil ':' rest)
      rw [hpieces] at ih
      rw [Text.pieces_append htext.colon_notMem, hpieces, Ipv6.sequence?, ih,
        group?_eq_some_iff.2 htext]
      · rfl
      · exact List.cons_ne_nil _ _

theorem row_of_sequence? {parts : List (List Char)} (hpieces : Text.pieces ':' text = parts)
    (h : sequence? tail parts = some groups) : Row tail text groups := by
  induction parts generalizing text groups with
  | nil => exact absurd hpieces (Text.pieces_ne_nil ':' text)
  | cons part more ih =>
      cases more with
      | nil =>
          obtain rfl := Text.eq_of_pieces_singleton hpieces
          unfold sequence? at h
          split at h
          · next g hgroup =>
              rw [← Option.some.inj h]
              exact .group (group?_eq_some_iff.1 hgroup)
          · split at h
            · next htail =>
                obtain ⟨ip, hip, rfl⟩ := Option.map_eq_some_iff.1 h
                rw [Ipv4.parse?_eq_some_iff.1 hip]
                exact .dotted htail ip
            · cases h
      | cons next more =>
          obtain ⟨rest, rfl, hrest⟩ := Text.eq_of_pieces_cons hpieces
          rw [sequence?] at h
          · obtain ⟨g, hgroup, h⟩ := Option.bind_eq_some_iff.1 h
            obtain ⟨others, hothers, h⟩ := Option.bind_eq_some_iff.1 h
            rw [← Option.some.inj h]
            exact .cons (group?_eq_some_iff.1 hgroup) (ih hrest hothers)
          · exact List.cons_ne_nil _ _

theorem sequence?_eq_some_iff :
    sequence? tail (Text.pieces ':' text) = some groups ↔ Row tail text groups :=
  ⟨row_of_sequence? rfl, Row.sequence?_pieces⟩

theorem side?_eq_some_iff : side? tail text = some groups ↔ Side tail text groups := by
  cases text with
  | nil =>
      constructor
      · intro h
        rw [← Option.some.inj h]
        exact .none
      · intro h
        cases h with
        | none => rfl
        | some hrow =>
            obtain ⟨_, _, hcons, -⟩ := hrow.eq_cons
            cases hcons
  | cons c rest =>
      show sequence? tail (Text.pieces ':' (c :: rest)) = some groups ↔ _
      rw [sequence?_eq_some_iff]
      constructor
      · exact .some
      · intro h
        cases h with
        | some hrow => exact hrow

/-! ### The gap -/

theorem eq_of_cutGap {before after : List Char} (h : cutGap text = some (before, after)) :
    text = before ++ ':' :: ':' :: after := by
  fun_induction cutGap text generalizing before with
  | case1 rest =>
      cases h
      rfl
  | case2 c rest _ ih =>
      obtain ⟨⟨first, last⟩, hcut, hparts⟩ := Option.map_eq_some_iff.1 h
      cases hparts
      rw [ih hcut, List.cons_append]
  | case3 => cases h

/-- A row holds no gap: the first gap of a text that begins with it is the first one behind
it. -/
theorem Row.cutGap_append (h : Row tail text groups) (rest : List Char) :
    cutGap (text ++ rest) = (cutGap rest).map fun parts => (text ++ parts.1, parts.2) := by
  induction h with
  | group htext => exact Ipv6.cutGap_append htext.colon_notMem rest
  | dotted _ ip => exact Ipv6.cutGap_append ip.colon_notMem_print rest
  | @cons part others g groups htext hrest ih =>
      obtain ⟨c, more, hcons, hc⟩ := hrest.eq_cons
      rw [List.append_assoc, Ipv6.cutGap_append htext.colon_notMem]
      rw [hcons] at ih ⊢
      rw [List.cons_append, List.cons_append, cutGap_colon_cons hc, ← List.cons_append, ih,
        Option.map_map, Option.map_map]
      simp [Function.comp_def]

theorem fill?_eq_some_iff {first last : List UInt16} {ip : Ipv6} :
    fill? first last = some ip ↔
      ∃ zeros, 0 < zeros ∧ ip.groups = first ++ List.replicate zeros 0 ++ last := by
  unfold fill?
  constructor
  · intro h
    split at h
    · next hroom =>
        rw [← Option.some.inj h]
        exact ⟨8 - first.length - last.length, by omega, rfl⟩
    · cases h
  · rintro ⟨zeros, hzeros, hgroups⟩
    have hlength := ip.length_groups
    rw [hgroups, List.length_append, List.length_append, List.length_replicate] at hlength
    have hgap : 8 - first.length - last.length = zeros := by omega
    rw [dif_pos (by omega), Option.some.injEq]
    cases ip
    simp only [hgap]
    congr 1
    exact hgroups.symm

/-- The reader takes exactly the spellings of an address. -/
theorem parse?_eq_some_iff {ip : Ipv6} : parse? text = some ip ↔ Spells text ip := by
  constructor
  · intro h
    unfold parse? at h
    split at h
    · next before after hcut =>
        obtain ⟨first, hfirst, h⟩ := Option.bind_eq_some_iff.1 h
        obtain ⟨last, hlast, h⟩ := Option.bind_eq_some_iff.1 h
        obtain ⟨zeros, hzeros, hgroups⟩ := fill?_eq_some_iff.1 h
        rw [eq_of_cutGap hcut]
        exact .gap (side?_eq_some_iff.1 hfirst) (side?_eq_some_iff.1 hlast) hzeros hgroups
    · split at h
      · next groups hread =>
          split at h
          · rw [← Option.some.inj h]
            exact .full (sequence?_eq_some_iff.1 hread)
          · cases h
      · cases h
  · intro h
    cases h with
    | full hrow =>
        have hcut := hrow.cutGap_append []
        rw [List.append_nil] at hcut
        rw [parse?, hcut, hrow.sequence?_pieces]
        simp [cutGap, ip.length_groups]
    | @gap before after first last zeros _ hbefore hafter hzeros hgroups =>
        have hcut : cutGap (before ++ ':' :: ':' :: after) = some (before, after) := by
          cases hbefore with
          | none => rfl
          | some hrow => simp [hrow.cutGap_append, cutGap]
        rw [parse?, hcut]
        dsimp only
        rw [side?_eq_some_iff.2 hbefore, side?_eq_some_iff.2 hafter]
        exact fill?_eq_some_iff.2 ⟨zeros, hzeros, hgroups⟩

/-- An address has colons in all its spellings. -/
theorem Spells.colon_mem {ip : Ipv6} (h : Spells text ip) : ':' ∈ text := by
  cases h with
  | gap => simp
  | full hrow =>
      have hlength := ip.length_groups
      generalize ip.groups = groups at hrow hlength
      cases hrow with
      | cons => simp
      | group | dotted => cases hlength

theorem Row.isBlank_eq_false (h : Row tail text groups) : ∀ c ∈ text, Text.isBlank c = false := by
  induction h with
  | group htext => exact htext.isBlank_eq_false
  | dotted _ ip => exact ip.isBlank_print
  | cons htext _ ih =>
      intro c hc
      rcases List.mem_append.1 hc with hfirst | hrest
      · exact htext.isBlank_eq_false c hfirst
      · rcases List.mem_cons.1 hrest with rfl | hrest
        · rfl
        · exact ih c hrest

theorem Side.isBlank_eq_false (h : Side tail text groups) :
    ∀ c ∈ text, Text.isBlank c = false := by
  cases h with
  | none => exact nofun
  | some hrow => exact hrow.isBlank_eq_false

theorem Spells.isBlank_eq_false {ip : Ipv6} (h : Spells text ip) :
    ∀ c ∈ text, Text.isBlank c = false := by
  cases h with
  | full hrow => exact hrow.isBlank_eq_false
  | gap hbefore hafter _ _ =>
      intro c hc
      rcases List.mem_append.1 hc with hfirst | hrest
      · exact hbefore.isBlank_eq_false c hfirst
      · simp only [List.mem_cons] at hrest
        rcases hrest with rfl | rfl | hrest
        · rfl
        · rfl
        · exact hafter.isBlank_eq_false c hrest

/-! ### Printing -/

/-- Two groups that are cut into four octets come back. -/
theorem groups_ofNat (high low : UInt16) :
    (Ipv4.ofNat (high.toNat * 65536 + low.toNat)).groups = [high, low] := by
  have octets {h l : Nat} (hh : h < 65536) (hl : l < 65536) :
      (h * 65536 + l) / 16777216 % 256 * 256 + (h * 65536 + l) / 65536 % 256 = h ∧
        (h * 65536 + l) / 256 % 256 * 256 + (h * 65536 + l) % 256 = l := by
    have hmiddle : (h * 65536 + l) / 256 = h * 256 + l / 256 := by omega
    exact ⟨by omega, by rw [hmiddle]; omega⟩
  obtain ⟨hfirst, hsecond⟩ := octets high.toNat_lt low.toNat_lt
  simp only [Ipv4.groups, Ipv4.ofNat, UInt8.toNat_ofNat', Nat.reducePow]
  rw [hfirst, hsecond, UInt16.ofNat_toNat, UInt16.ofNat_toNat]

/-- What is printed for an address spells it, dotted or not. -/
theorem spells_print (ip : Ipv6) : ip.Spells ip.print := by
  unfold print
  split
  · next inner hmapped =>
      unfold mapped? at hmapped
      split at hmapped
      · next high low hgroups =>
          rw [← Option.some.inj hmapped]
          have hstart : "::ffff:".toList = ':' :: ':' :: (groupText 0xffff ++ [':']) := by
            decide +kernel
          have hdotted :
              Row true (Ipv4.ofNat (high.toNat * 65536 + low.toNat)).print [high, low] := by
            rw [← groups_ofNat]
            exact .dotted rfl _
          have hlast : Side true _ [0xffff, high, low] :=
            .some (.cons (isGroup_groupText 0xffff) hdotted)
          rw [hstart, List.cons_append, List.cons_append, List.append_assoc]
          exact .gap .none hlast (Nat.succ_pos 4) hgroups
      · cases hmapped
  · exact parse?_eq_some_iff.1 (parse?_compressed ip)

end Ipv6

/-! ## Addresses of either kind -/

namespace Address

/-- A text is one literal of an address: the four octets of an IPv4 address between dots, or
a spelling of an IPv6 address. -/
inductive Literal : List Char → Address → Prop where
  | v4 (ip : Ipv4) : Literal ip.print (.v4 ip)
  | v6 {text : List Char} {ip : Ipv6} (h : ip.Spells text) : Literal text (.v6 ip)

/-- The reader takes exactly the literals of an address. -/
theorem parse?_eq_some_iff {text : List Char} {ip : Address} :
    parse? text = some ip ↔ Literal text ip := by
  constructor
  · intro h
    unfold parse? at h
    split at h
    · next inner hinner =>
        rw [← Option.some.inj h, Ipv4.parse?_eq_some_iff.1 hinner]
        exact .v4 inner
    · obtain ⟨inner, hinner, rfl⟩ := Option.map_eq_some_iff.1 h
      exact .v6 (Ipv6.parse?_eq_some_iff.1 hinner)
  · intro h
    cases h with
    | v4 inner => rw [parse?, Ipv4.parse?_eq_some_iff.2 rfl]
    | @v6 _ inner hspells =>
        have hother : Ipv4.parse? text = none := by
          refine Option.eq_none_iff_forall_ne_some.2 fun other hother => ?_
          rw [Ipv4.parse?_eq_some_iff.1 hother] at hspells
          exact other.colon_notMem_print hspells.colon_mem
        rw [parse?, hother, Ipv6.parse?_eq_some_iff.2 hspells]
        rfl

/-- What is printed for an address is a literal of it. -/
theorem literal_print (ip : Address) : Literal ip.print ip := by
  cases ip with
  | v4 ip => exact .v4 ip
  | v6 ip => exact .v6 ip.spells_print

theorem parse?_print (ip : Address) : parse? ip.print = some ip :=
  parse?_eq_some_iff.2 ip.literal_print

/-- A literal holds no blanks. -/
theorem Literal.isBlank_eq_false {text : List Char} {ip : Address} (h : Literal text ip) :
    ∀ c ∈ text, Text.isBlank c = false := by
  cases h with
  | v4 ip => exact ip.isBlank_print
  | v6 h => exact h.isBlank_eq_false

end Address

end SocksPool
