import Mathlib
import SocksPool.Proofs.Credentials
import SocksPool.Proofs.Operations

/-!
# Letter case in a candidate

Names of hosts are the same in every letter case, so two candidates that differ in case only
name one proxy. The reader looks at case in three places. Schemes are compared in lower case.
The digits of an address are read in either case, and an address is written in lower case. But
the scheme behind which a candidate is read gives its host no meaning, and so the letters of a
name are kept as they are. Everything else that the reader looks for is no letter.

So the reader takes two such candidates for the same ones up to case: it refuses both or none,
it finds the same port, and it spells the hosts alike up to case. What is left is the host. An
address has one key in all its spellings, and a name has one for each.

## Main definitions

* `Endpoint.SameLetters` — the texts differ in the case of ASCII letters only.
* `Endpoint.spelledHost` — the host as a candidate spells it.

## Main results

* `Endpoint.normalizeChars?_lower` — the reader refuses a text in lower case exactly if it
  refuses the text, and the keys are the same up to case.
* `Endpoint.keys_agree_iff` — which candidates have one key.
-/

namespace SocksPool

namespace Text

/-! ## Letters in lower case -/

/-- A text in lower case. -/
def lower (text : List Char) : List Char := text.map Char.toLower

/-- Only a capital letter has another lower case. -/
theorem toLower_cases (c : Char) :
    c.toLower = c ∨ 65 ≤ c.toNat ∧ c.toNat ≤ 90 ∧ c.toLower.toNat = c.toNat + 32 := by
  unfold Char.toLower
  split
  · next hupper =>
    have hlow : 65 ≤ c.toNat := UInt32.le_iff_toNat_le.1 hupper.1
    have hhigh : c.toNat ≤ 90 := UInt32.le_iff_toNat_le.1 hupper.2
    refine .inr ⟨hlow, hhigh, ?_⟩
    show (c.val + 32).toNat = c.val.toNat + 32
    rw [UInt32.toNat_add]
    show (c.toNat + 32) % 4294967296 = c.toNat + 32
    omega
  · exact .inl rfl

theorem le_toNat_of_isAlpha {c : Char} (h : c.isAlpha = true) : 65 ≤ c.toNat := by
  rcases Bool.or_eq_true_iff.1 h with hupper | hlower
  · exact UInt32.le_iff_toNat_le.1 (of_decide_eq_true hupper).1
  · have hlow : 97 ≤ c.toNat :=
      UInt32.le_iff_toNat_le.1 (of_decide_eq_true (Bool.and_eq_true_iff.1 hlower).1)
    omega

/-- A class without letters does not look at case. -/
theorem class_toLower {p : Char → Bool} (h : ∀ c : Char, c.isAlpha = true → p c = false)
    (c : Char) : p c.toLower = p c := by
  by_cases hletter : c.isAlpha = true
  · rw [h c hletter, h c.toLower (by rwa [Char.isAlpha_toLower_eq_isAlpha])]
  · have hupper : ¬ c.isUpper = true := fun hupper => hletter (Bool.or_eq_true_iff.2 (.inl hupper))
    rw [Char.toLower_eq_of_not_isUpper hupper]

/-- A character that is no letter is met in lower case exactly where it stands. -/
theorem toLower_eq_iff {mark : Char} (h : mark.isAlpha = false) (c : Char) :
    c.toLower = mark ↔ c = mark := by
  have hclass := class_toLower (p := (· == mark)) (fun d hd => ?_) c
  · rwa [Bool.eq_iff_iff, beq_iff_eq, beq_iff_eq] at hclass
  · refine beq_false_of_ne ?_
    rintro rfl
    rw [h] at hd
    cases hd

/-! ## Cutting a text in lower case -/

section Cut

variable {p : Char → Bool}

theorem takeWhile_lower (h : ∀ c : Char, p c.toLower = p c) (text : List Char) :
    (lower text).takeWhile p = lower (text.takeWhile p) := by
  rw [lower, List.takeWhile_map, show p ∘ Char.toLower = p from funext h, lower]

theorem dropWhile_lower (h : ∀ c : Char, p c.toLower = p c) (text : List Char) :
    (lower text).dropWhile p = lower (text.dropWhile p) := by
  rw [lower, List.dropWhile_map, show p ∘ Char.toLower = p from funext h, lower]

theorem filter_lower (h : ∀ c : Char, p c.toLower = p c) (text : List Char) :
    (lower text).filter p = lower (text.filter p) := by
  rw [lower, List.filter_map, show p ∘ Char.toLower = p from funext h, lower]

theorem reverse_lower (text : List Char) : (lower text).reverse = lower text.reverse :=
  List.map_reverse.symm

theorem dropEndWhile_lower (h : ∀ c : Char, p c.toLower = p c) (text : List Char) :
    dropEndWhile p (lower text) = lower (dropEndWhile p text) := by
  rw [dropEndWhile, reverse_lower, dropWhile_lower h, reverse_lower, dropEndWhile]

theorem trim_lower (text : List Char) : trim (lower text) = lower (trim text) := by
  have hblank : ∀ c : Char, isBlank c.toLower = isBlank c :=
    class_toLower fun _ => isBlank_of_isAlpha
  rw [trim, dropWhile_lower hblank, dropEndWhile_lower hblank, trim]

end Cut

variable {sep : Char}

theorem cutFirst_lower (h : sep.isAlpha = false) (text : List Char) :
    cutFirst sep (lower text) = (cutFirst sep text).map (Prod.map lower lower) := by
  induction text with
  | nil => rfl
  | cons c rest ih =>
      show cutFirst sep (c.toLower :: lower rest) = _
      simp only [cutFirst, ih, toLower_eq_iff h]
      split
      · rfl
      · cases cutFirst sep rest <;> rfl

theorem cutLast_lower (h : sep.isAlpha = false) (text : List Char) :
    cutLast sep (lower text) = (cutLast sep text).map (Prod.map lower lower) := by
  induction text with
  | nil => rfl
  | cons c rest ih =>
      show cutLast sep (c.toLower :: lower rest) = _
      simp only [cutLast, ih, toLower_eq_iff h]
      cases cutLast sep rest with
      | some parts => rfl
      | none => by_cases hc : c = sep <;> simp [hc, lower]

theorem pieces_lower (h : sep.isAlpha = false) (text : List Char) :
    pieces sep (lower text) = (pieces sep text).map lower := by
  induction text with
  | nil => rfl
  | cons c rest ih =>
      show pieces sep (c.toLower :: lower rest) = _
      simp only [pieces, ih, toLower_eq_iff h]
      split
      · rfl
      · cases pieces sep rest <;> rfl

/-! ## Numbers in lower case -/

/-- A digit has its value in either case. -/
theorem hexValue?_toLower (c : Char) : hexValue? c.toLower = hexValue? c := by
  have hle (a b : Char) : a ≤ b ↔ a.toNat ≤ b.toNat := UInt32.le_iff_toNat_le
  rcases toLower_cases c with hsame | ⟨hlow, hhigh, hlower⟩
  · rw [hsame]
  · have hzero : '0'.toNat = 48 := rfl
    have hnine : '9'.toNat = 57 := rfl
    have ha : 'a'.toNat = 97 := rfl
    have hf : 'f'.toNat = 102 := rfl
    have hA : 'A'.toNat = 65 := rfl
    have hF : 'F'.toNat = 70 := rfl
    unfold hexValue?
    simp only [hle, hlower, hzero, hnine, ha, hf, hA, hF]
    rw [if_neg (by omega), if_neg (c := 48 ≤ c.toNat ∧ c.toNat ≤ 57) (by omega),
      if_neg (c := 97 ≤ c.toNat ∧ c.toNat ≤ 102) (by omega)]
    split
    · rw [if_pos (by omega)]
      congr 1
    · rw [if_neg (by omega), if_neg (by omega)]

theorem foldDigits?_lower (base : Nat) (text : List Char) (acc : Nat) :
    foldDigits? base (lower text) acc = foldDigits? base text acc := by
  induction text generalizing acc with
  | nil => rfl
  | cons c rest ih =>
      show foldDigits? base (c.toLower :: lower rest) acc = _
      simp only [foldDigits?, digit?, hexValue?_toLower, ih]

theorem number?_lower (base : Nat) (text : List Char) :
    number? base (lower text) = number? base text := by
  cases text with
  | nil => rfl
  | cons c rest => exact foldDigits?_lower base (c :: rest) 0

end Text

/-! ## Addresses in lower case -/

open Text (lower)

theorem Ipv4.parse?_lower (text : List Char) : parse? (lower text) = parse? text := by
  have hoctet (part : List Char) : octet? (lower part) = octet? part := by
    have hhead : (lower part).head? = some '0' ↔ part.head? = some '0' := by
      cases part with
      | nil => rfl
      | cons c rest => simpa [lower] using Text.toLower_eq_iff (by decide) c
    have hlength : (lower part).length = part.length := List.length_map _
    simp only [octet?, hlength, ne_eq, hhead, Text.decimal?, Text.number?_lower]
  unfold parse?
  rw [Text.pieces_lower (by decide)]
  rcases Text.pieces '.' text with _ | ⟨a, _ | ⟨b, _ | ⟨c, _ | ⟨d, _ | ⟨e, more⟩⟩⟩⟩⟩
  all_goals simp [hoctet]

namespace Ipv6

theorem sequence?_lower (tail : Bool) (parts : List (List Char)) :
    sequence? tail (parts.map lower) = sequence? tail parts := by
  have hgroup (part : List Char) : group? (lower part) = group? part := by
    have hlength : (lower part).length = part.length := List.length_map _
    rw [group?, hlength, Text.number?_lower, group?]
  induction parts with
  | nil => rfl
  | cons part more ih =>
      cases more with
      | nil => simp only [List.map_cons, List.map_nil, sequence?, hgroup, Ipv4.parse?_lower]
      | cons next rest =>
          rw [List.map_cons] at ih
          simp only [List.map_cons, sequence?, hgroup, ih]

theorem side?_lower (tail : Bool) (text : List Char) :
    side? tail (lower text) = side? tail text := by
  cases text with
  | nil => rfl
  | cons c rest =>
      show sequence? tail (Text.pieces ':' (lower (c :: rest))) = _
      rw [Text.pieces_lower (by decide), sequence?_lower, side?]
      simp

theorem cutGap_lower (text : List Char) :
    cutGap (lower text) = (cutGap text).map (Prod.map lower lower) := by
  fun_induction cutGap text with
  | case1 rest => rfl
  | case2 c rest hgap ih =>
      show cutGap (c.toLower :: lower rest) = _
      rw [cutGap, ih]
      · cases cutGap rest <;> rfl
      · intro more hc hrest
        cases rest with
        | nil => cases hrest
        | cons d rest =>
            obtain ⟨hd, -⟩ := List.cons_eq_cons.1 hrest
            exact hgap rest ((Text.toLower_eq_iff (by decide) c).1 hc)
              (congrArg (· :: rest) ((Text.toLower_eq_iff (by decide) d).1 hd))
  | case3 => rfl

/-- An address is read in any case. -/
theorem parse?_lower (text : List Char) : parse? (lower text) = parse? text := by
  unfold parse?
  rw [cutGap_lower, Text.pieces_lower (by decide), sequence?_lower]
  cases cutGap text with
  | none => rfl
  | some parts => simp [side?_lower]

end Ipv6

/-! ## Hosts in lower case -/

namespace Text.Percent

theorem isPlain_of_letter {c : Char} (h : 65 ≤ c.toNat ∧ c.toNat ≤ 122) : isPlain c = true := by
  simp [isPlain, isControl]
  omega

/-- A letter stands for itself, and every other character is its own lower case. -/
theorem encodeChar_cases (c d : Char) (h : c.toLower = d.toLower) :
    c = d ∨ encodeChar (fun _ => false) c = [c] ∧ encodeChar (fun _ => false) d = [d] := by
  have hplain {a b : Char} (hlower : a.toLower = b.toLower)
      (hupper : 65 ≤ a.toNat ∧ a.toNat ≤ 90 ∧ a.toLower.toNat = a.toNat + 32) :
      encodeChar (fun _ => false) a = [a] ∧ encodeChar (fun _ => false) b = [b] := by
    refine ⟨encodeChar_of_isPlain (isPlain_of_letter (by omega)),
      encodeChar_of_isPlain (isPlain_of_letter ?_)⟩
    rcases toLower_cases b with hsame | hother
    · rw [hlower, hsame] at hupper
      omega
    · omega
  rcases toLower_cases c with hc | hc
  · rcases toLower_cases d with hd | hd
    · exact .inl (hc.symm.trans (h.trans hd))
    · exact .inr (hplain h.symm hd).symm
  · exact .inr (hplain h hc)

/-- Escaping changes no letter. -/
theorem lower_encode_lower (text : List Char) :
    lower (encode (fun _ => false) (lower text)) = lower (encode (fun _ => false) text) := by
  induction text with
  | nil => rfl
  | cons c rest ih =>
      have hchar : lower (encodeChar (fun _ => false) c.toLower) =
          lower (encodeChar (fun _ => false) c) := by
        rcases encodeChar_cases c.toLower c c.toLower_toLower_eq_toLower with hsame | ⟨hlower, hc⟩
        · rw [hsame]
        · rw [hlower, hc]
          exact congrArg (fun d => [d]) c.toLower_toLower_eq_toLower
      unfold lower encode at *
      rw [List.map_cons, List.flatMap_cons, List.flatMap_cons, List.map_append, List.map_append,
        hchar, ih]

/-- Texts that are the same up to case are escaped alike only if they are the same. -/
theorem eq_of_encode_eq {first second : List Char} (h : lower first = lower second)
    (hencoded : encode (fun _ => false) first = encode (fun _ => false) second) :
    first = second := by
  induction first generalizing second with
  | nil => exact (List.map_eq_nil_iff.1 h.symm).symm
  | cons c rest ih =>
      cases second with
      | nil => cases h
      | cons d more =>
          obtain ⟨hhead, htail⟩ := List.cons_eq_cons.1 h
          unfold encode at hencoded ih
          rw [List.flatMap_cons, List.flatMap_cons] at hencoded
          rcases encodeChar_cases c d hhead with rfl | ⟨hc, hd⟩
          · rw [ih htail (List.append_cancel_left hencoded)]
          · rw [hc, hd] at hencoded
            obtain ⟨rfl, hrest⟩ := List.cons_eq_cons.1 hencoded
            rw [ih htail hrest]

end Text.Percent

namespace Url

namespace Host

/-- A host in lower case. -/
def lowered : Host → Host
  | .name text => .name (lower text)
  | host => host

/-- The digits of an address are written in lower case. -/
theorem lower_compressed (address : Ipv6) : lower address.compressed = address.compressed := by
  have hdigit : ∀ d < 16, (Nat.digitChar d).toLower = Nat.digitChar d := by decide
  refine (List.map_congr_left fun c hc => ?_).trans (List.map_id _)
  rcases Ipv6.mem_compressed hc with rfl | ⟨d, hd, rfl⟩
  · rfl
  · exact hdigit d hd

theorem print_lowered {host : Host} (h : host.Settled) : host.lowered.print = lower host.print := by
  cases h with
  | name => rfl
  | v6 address =>
      show '[' :: (address.compressed ++ [']']) = lower ('[' :: (address.compressed ++ [']']))
      have haddress := lower_compressed address
      unfold lower at haddress ⊢
      rw [List.map_cons, List.map_append, haddress]
      rfl

theorem parseBracketed?_lower (text : List Char) :
    parseBracketed? (lower text) = parseBracketed? text := by
  unfold parseBracketed?
  rw [Text.reverse_lower]
  cases text.reverse with
  | nil => rfl
  | cons c inner =>
      by_cases hc : c = ']'
      · subst hc
        show (Ipv6.parse? (lower inner).reverse).map Host.v6 =
          (Ipv6.parse? inner.reverse).map Host.v6
        rw [Text.reverse_lower, Ipv6.parse?_lower]
      · have hlower : c.toLower ≠ ']' := mt (Text.toLower_eq_iff (by decide) c).1 hc
        simp [lower, hc, hlower]

/-- What does not begin with a bracket is a name. -/
theorem parseOpaque?_of_head? {text : List Char} (h : text.head? ≠ some '[') :
    parseOpaque? text =
      if text.any isForbidden then none
      else some (.name (Text.Percent.encode (fun _ => false) text)) := by
  unfold parseOpaque?
  split
  · exact absurd rfl h
  · rfl

theorem head?_lower_eq_some {mark : Char} (hmark : mark.isAlpha = false) (text : List Char) :
    (lower text).head? = some mark ↔ text.head? = some mark := by
  cases text with
  | nil => rfl
  | cons c rest => simpa [lower] using Text.toLower_eq_iff hmark c

theorem parseOpaque?_lower (text : List Char) :
    (parseOpaque? (lower text)).map lowered = (parseOpaque? text).map lowered := by
  have hhead : (lower text).head? = some '[' ↔ text.head? = some '[' :=
    head?_lower_eq_some (by decide) text
  by_cases hbracket : text.head? = some '['
  · obtain ⟨rest, rfl⟩ := List.head?_eq_some_iff.1 hbracket
    exact congrArg (Option.map lowered) (parseBracketed?_lower rest)
  · have hforbidden : ∀ c : Char, isForbidden c.toLower = isForbidden c := by
      refine Text.class_toLower fun c hc => Bool.eq_false_iff.2 fun hmark => ?_
      have hletter := List.all_eq_true (p := fun d : Char => !d.isAlpha) |>.1
        (by decide) c (of_decide_eq_true hmark)
      rw [hc] at hletter
      cases hletter
    rw [parseOpaque?_of_head? (mt hhead.1 hbracket), parseOpaque?_of_head? hbracket, lower,
      List.any_map, show isForbidden ∘ Char.toLower = isForbidden from funext hforbidden]
    split
    · rfl
    · exact congrArg (fun name => some (Host.name name)) (Text.Percent.lower_encode_lower text)

/-- Two hosts that are spelled alike up to case are the same if they are addresses, and
otherwise if they are spelled alike. -/
theorem print_eq_iff {first second : List Char} {host other : Host}
    (h : lower first = lower second) (hhost : parseOpaque? first = some host)
    (hother : parseOpaque? second = some other) :
    host.print = other.print ↔ first.head? = some '[' ∨ first = second := by
  have hhead : first.head? = some '[' ↔ second.head? = some '[' := by
    rw [← head?_lower_eq_some (by decide) first, h, head?_lower_eq_some (by decide)]
  by_cases hbracket : first.head? = some '['
  · obtain ⟨inner, rfl⟩ := List.head?_eq_some_iff.1 hbracket
    obtain ⟨more, rfl⟩ := List.head?_eq_some_iff.1 (hhead.1 hbracket)
    have hinner : lower inner = lower more := (List.cons_eq_cons.1 h).2
    have hsame : parseBracketed? inner = parseBracketed? more := by
      rw [← parseBracketed?_lower inner, hinner, parseBracketed?_lower]
    have hequal : host = other := Option.some.inj (hhost.symm.trans (hsame.trans hother))
    simp [hequal]
  · rw [parseOpaque?_of_head? hbracket] at hhost
    rw [parseOpaque?_of_head? (mt hhead.2 hbracket)] at hother
    split at hhost
    · cases hhost
    · split at hother
      · cases hother
      · cases hhost
        cases hother
        refine ⟨fun hprint => .inr (Text.Percent.eq_of_encode_eq h hprint), ?_⟩
        rintro (hopen | rfl)
        · exact absurd hopen hbracket
        · rfl

end Host

namespace Authority

/-- An authority in lower case. -/
def lowered (a : Authority) : Authority :=
  { a with user := lower a.user, password := lower a.password, host := a.host.lowered }

theorem splitUser_lower (text : List Char) :
    splitUser (lower text) = Prod.map lower (Prod.map lower lower) (splitUser text) := by
  unfold splitUser
  rw [Text.cutLast_lower (by decide)]
  cases Text.cutLast '@' text with
  | none => rfl
  | some parts =>
      obtain ⟨info, rest⟩ := parts
      dsimp only [Option.map_some, Prod.map_apply]
      rw [Text.cutFirst_lower (by decide)]
      cases Text.cutFirst ':' info <;> rfl

theorem splitPort_lower (inBrackets : Bool) (text : List Char) :
    splitPort inBrackets (lower text) =
      Prod.map lower (Option.map lower) (splitPort inBrackets text) := by
  induction text generalizing inBrackets with
  | nil => rfl
  | cons c rest ih =>
      have hcolon : c.toLower = ':' ↔ c = ':' := Text.toLower_eq_iff (by decide) c
      have hopens : c.toLower = '[' ↔ c = '[' := Text.toLower_eq_iff (by decide) c
      have hcloses : c.toLower = ']' ↔ c = ']' := Text.toLower_eq_iff (by decide) c
      show splitPort inBrackets (c.toLower :: lower rest) = _
      simp only [splitPort, ih, hcolon, hopens, hcloses]
      split <;> rfl

theorem port?_lower (text : Option (List Char)) : port? (text.map lower) = port? text := by
  rcases text with _ | ⟨_ | ⟨c, rest⟩⟩
  · rfl
  · rfl
  · show (Text.decimal? 65535 (lower (c :: rest))).map some = _
    rw [Text.decimal?, Text.number?_lower]
    rfl

theorem parse?_lower (text : List Char) :
    (parse? Host.parseOpaque? (lower text)).map lowered =
      (parse? Host.parseOpaque? text).map lowered := by
  simp only [parse?, splitUser_lower, Prod.map_fst, Prod.map_snd, splitPort_lower, port?_lower]
  generalize splitUser text = parts
  obtain ⟨user, password, rest⟩ := parts
  generalize splitPort false rest = ends
  obtain ⟨hostText, portText⟩ := ends
  have hempty : (lower hostText).isEmpty = hostText.isEmpty := List.isEmpty_map
  have hport : (portText.map lower).isSome = portText.isSome := Option.isSome_map
  have hhost := Host.parseOpaque?_lower hostText
  simp only [hempty, hport]
  split
  · rfl
  · cases hfound : Host.parseOpaque? hostText with
    | none =>
        rw [hfound, Option.map_none, Option.map_eq_none_iff] at hhost
        rw [hhost]
        rfl
    | some host =>
        rw [hfound, Option.map_some, Option.map_eq_some_iff] at hhost
        obtain ⟨other, hother, hsame⟩ := hhost
        rw [hother]
        cases port? portText with
        | none => rfl
        | some port => simp [lowered, hsame, lower]

/-- Host and port are read from the two parts of what follows the user information. -/
theorem read_of_parse? {host? : List Char → Option Host} {text : List Char} {found : Authority}
    (h : parse? host? text = some found) :
    host? (splitPort false (splitUser text).2.2).1 = some found.host ∧
      port? (splitPort false (splitUser text).2.2).2 = some found.port := by
  simp only [parse?] at h
  split at h
  · cases h
  · obtain ⟨host, hhost, h⟩ := Option.bind_eq_some_iff.1 h
    obtain ⟨port, hport, h⟩ := Option.bind_eq_some_iff.1 h
    cases h
    exact ⟨hhost, hport⟩

theorem settled_of_parse? {text : List Char} {found : Authority}
    (h : parse? Host.parseOpaque? text = some found) : found.host.Settled :=
  Host.settled_of_parseOpaque? (read_of_parse? h).1

end Authority

end Url

/-! ## Candidates in lower case -/

namespace Endpoint

open Url (Host Authority)

/-- The texts differ in the case of ASCII letters only. -/
def SameLetters (first second : List Char) : Prop := lower first = lower second

instance (first second : List Char) : Decidable (SameLetters first second) :=
  inferInstanceAs (Decidable (_ = _))

/-- The authority that is read behind the scheme. -/
def readAuthority (bare : List Char) : List Char := (counted bare).takeWhile (!endsAuthority ·)

/-- Host and port as a candidate spells them. -/
def spelled (raw : List Char) : List Char × Option (List Char) :=
  Authority.splitPort false
    (Authority.splitUser (readAuthority (Text.dropEndWhile (· == '/') (location raw)))).2.2

/-- The host as a candidate spells it. -/
def spelledHost (raw : List Char) : List Char := (spelled raw).1

/-- The key that an authority gives. -/
def keyOf? : Authority → Option (List Char)
  | ⟨[], _, host, some (port + 1)⟩ =>
    if host.print.isEmpty then none else some (write host (port + 1))
  | _ => none

theorem readBare?_eq (bare : List Char) :
    readBare? bare =
      if ((counted bare).dropWhile (!endsAuthority ·)).head? = some '/' then none
      else (Authority.parse? Host.parseOpaque? (readAuthority bare)).bind keyOf? := by
  unfold readBare? readAuthority counted
  dsimp only
  split
  · rfl
  · cases Authority.parse? Host.parseOpaque? _ with
    | none => rfl
    | some found =>
        obtain ⟨_ | ⟨c, name⟩, password, host, _ | _ | port⟩ := found <;> rfl

theorem keyOf?_eq_some {found : Authority} {text : List Char} (h : keyOf? found = some text) :
    ∃ port, found.port = some port ∧ text = write found.host port := by
  unfold keyOf? at h
  split at h
  · next host port =>
    split at h
    · cases h
    · exact ⟨port + 1, rfl, (Option.some.inj h).symm⟩
  · cases h

theorem lower_write {host : Host} (h : host.Settled) (port : Nat) :
    lower (write host port) = host.lowered.print ++ lower (':' :: Text.decimal port) := by
  rw [Host.print_lowered h, write, lower, List.map_append]
  rfl

theorem keyOf?_lowered {first second : Authority} (h : first.lowered = second.lowered)
    (hfirst : first.host.Settled) (hsecond : second.host.Settled) :
    (keyOf? first).map lower = (keyOf? second).map lower := by
  obtain ⟨user, password, host, port⟩ := first
  obtain ⟨user', password', host', port'⟩ := second
  simp only [Authority.lowered, Authority.mk.injEq] at h hfirst hsecond
  obtain ⟨huser, -, hhost, rfl⟩ := h
  cases user with
  | cons c name =>
      cases user' with
      | nil => cases huser
      | cons d more => rfl
  | nil =>
      obtain rfl : user' = [] := List.map_eq_nil_iff.1 huser.symm
      rcases port with _ | _ | port
      · rfl
      · rfl
      · have hempty : host.print.isEmpty = host'.print.isEmpty := by
          have hlower := congrArg List.isEmpty (congrArg Host.print hhost)
          rw [Host.print_lowered hfirst, Host.print_lowered hsecond] at hlower
          simpa [lower] using hlower
        simp only [keyOf?, hempty]
        split
        · rfl
        · simp only [Option.map_some, lower_write hfirst, lower_write hsecond, hhost]

/-- The reader looks for no letter at the end of a text, inside it, or after an authority. -/
theorem classes_toLower (c : Char) :
    isControlOrSpace c.toLower = isControlOrSpace c ∧ (!isIgnored c.toLower) = (!isIgnored c) ∧
      (!endsAuthority c.toLower) = (!endsAuthority c) := by
  have hsame {p : Char → Bool} (h : ∀ d : Char, p d = true → d.isAlpha = false) :
      p c.toLower = p c := by
    refine Text.class_toLower (fun d hd => Bool.eq_false_iff.2 fun hmark => ?_) c
    rw [h d hmark] at hd
    cases hd
  refine ⟨hsame fun d hd => ?_, congrArg Bool.not (hsame fun d hd => ?_),
    congrArg Bool.not (hsame fun d hd => ?_)⟩
  · cases hletter : d.isAlpha with
    | false => rfl
    | true =>
        have hlow := Text.le_toNat_of_isAlpha hletter
        have hhigh : d.toNat ≤ 32 := of_decide_eq_true hd
        omega
  · have hall : ['\t', '\n', '\r'].all (fun e => !e.isAlpha) = true := by decide
    have hmem : d ∈ ['\t', '\n', '\r'] := by simpa [isIgnored, or_assoc] using hd
    simpa using List.all_eq_true.1 hall d hmem
  · have hall : ['/', '?', '#'].all (fun e => !e.isAlpha) = true := by decide
    have hmem : d ∈ ['/', '?', '#'] := by simpa [endsAuthority, or_assoc] using hd
    simpa using List.all_eq_true.1 hall d hmem

theorem counted_lower (bare : List Char) : counted (lower bare) = lower (counted bare) := by
  rw [counted, Text.dropEndWhile_lower fun c => (classes_toLower c).1,
    Text.filter_lower fun c => (classes_toLower c).2.1, counted]

theorem readAuthority_lower (bare : List Char) :
    readAuthority (lower bare) = lower (readAuthority bare) := by
  rw [readAuthority, counted_lower, Text.takeWhile_lower fun c => (classes_toLower c).2.2,
    readAuthority]

theorem readBare?_lower (bare : List Char) :
    (readBare? (lower bare)).map lower = (readBare? bare).map lower := by
  have hpath : ((lower (counted bare)).dropWhile (!endsAuthority ·)).head? = some '/' ↔
      ((counted bare).dropWhile (!endsAuthority ·)).head? = some '/' := by
    rw [Text.dropWhile_lower fun c => (classes_toLower c).2.2]
    exact Host.head?_lower_eq_some (by decide) _
  have hparse := Authority.parse?_lower (readAuthority bare)
  rw [readBare?_eq, readBare?_eq, counted_lower, readAuthority_lower]
  simp only [hpath]
  split
  · rfl
  · cases hfound : Authority.parse? Host.parseOpaque? (readAuthority bare) with
    | none =>
        rw [hfound, Option.map_none, Option.map_eq_none_iff] at hparse
        rw [hparse]
    | some found =>
        rw [hfound, Option.map_some, Option.map_eq_some_iff] at hparse
        obtain ⟨other, hother, hsame⟩ := hparse
        rw [hother]
        exact keyOf?_lowered hsame (Authority.settled_of_parse? hother)
          (Authority.settled_of_parse? hfound)

theorem stripScheme_lower (text : List Char) :
    stripScheme (lower text) = lower (stripScheme text) := by
  have hdrop (scheme : List Char) :
      dropScheme? scheme (lower text) = (dropScheme? scheme text).map lower := by
    have hfront : ((lower text).take scheme.length).map Char.toLower =
        (text.take scheme.length).map Char.toLower := by
      simp [lower, ← List.map_take]
    unfold dropScheme?
    rw [hfront]
    split
    · exact congrArg some List.map_drop.symm
    · rfl
  have hfound : knownSchemes.findSome? (dropScheme? · (lower text)) =
      (knownSchemes.findSome? (dropScheme? · text)).map lower := by
    rw [List.map_findSome?]
    exact congrArg (List.findSome? · knownSchemes) (funext hdrop)
  rw [stripScheme, hfound, Option.getD_map, stripScheme]

theorem location_lower (raw : List Char) : location (lower raw) = lower (location raw) := by
  rw [location, Text.trim_lower, stripScheme_lower, location]

theorem slash_toLower (c : Char) : (c.toLower == '/') = (c == '/') := by
  rw [Bool.eq_iff_iff, beq_iff_eq, beq_iff_eq]
  exact Text.toLower_eq_iff (by decide) c

/-- The reader refuses a text in lower case exactly if it refuses the text, and the keys are
the same up to case. -/
theorem normalizeChars?_lower (raw : List Char) :
    (normalizeChars? (lower raw)).map lower = (normalizeChars? raw).map lower := by
  have hempty : (lower (Text.trim raw)).isEmpty = (Text.trim raw).isEmpty := List.isEmpty_map
  have hhash : (lower (Text.trim raw)).head? = some '#' ↔ (Text.trim raw).head? = some '#' :=
    Host.head?_lower_eq_some (by decide) _
  simp only [normalizeChars?, Text.trim_lower, hempty, hhash, stripScheme_lower,
    Text.dropEndWhile_lower (p := (· == '/')) slash_toLower]
  split
  · rfl
  · exact readBare?_lower _

/-- A text in lower case spells host and port in lower case. -/
theorem spelled_lower (raw : List Char) :
    spelled (lower raw) = Prod.map lower (Option.map lower) (spelled raw) := by
  unfold spelled
  rw [location_lower, Text.dropEndWhile_lower (p := (· == '/')) slash_toLower,
    readAuthority_lower, Authority.splitUser_lower, Prod.map_snd, Prod.map_snd,
    Authority.splitPort_lower]

/-- A key is written from the host and the port that the candidate spells. -/
theorem exists_spelled {raw text : List Char} (h : normalizeChars? raw = some text) :
    ∃ host port, Host.parseOpaque? (spelledHost raw) = some host ∧
      Authority.port? (spelled raw).2 = some (some port) ∧ text = write host port := by
  simp only [normalizeChars?] at h
  split at h
  · cases h
  · rw [readBare?_eq] at h
    split at h
    · cases h
    · obtain ⟨found, hparse, hkey⟩ := Option.bind_eq_some_iff.1 h
      obtain ⟨port, hport, rfl⟩ := keyOf?_eq_some hkey
      obtain ⟨hhost, hread⟩ := Authority.read_of_parse? hparse
      rw [hport] at hread
      unfold spelledHost spelled location
      exact ⟨found.host, port, hhost, hread, rfl⟩

/-- The keys of two candidates that differ in the case of letters only are the same exactly if
the host is an address in brackets, or both candidates spell it alike. -/
theorem keyChars_eq_iff {first second key other : List Char} (h : SameLetters first second)
    (hkey : normalizeChars? first = some key) (hother : normalizeChars? second = some other) :
    key = other ↔
      (spelledHost first).head? = some '[' ∨ spelledHost first = spelledHost second := by
  obtain ⟨host, port, hhost, hport, rfl⟩ := exists_spelled hkey
  obtain ⟨host', port', hhost', hport', rfl⟩ := exists_spelled hother
  have hspelled : Prod.map lower (Option.map lower) (spelled first) =
      Prod.map lower (Option.map lower) (spelled second) := by
    rw [← spelled_lower, h, spelled_lower]
  have hhosts : lower (spelledHost first) = lower (spelledHost second) := by
    simpa only [spelledHost, Prod.map_fst] using congrArg Prod.fst hspelled
  have hports : (spelled first).2.map lower = (spelled second).2.map lower := by
    simpa only [Prod.map_snd] using congrArg Prod.snd hspelled
  have hnumber : port = port' := by
    rw [← Authority.port?_lower, hports, Authority.port?_lower, hport'] at hport
    exact (Option.some.inj (Option.some.inj hport)).symm
  rw [hnumber, write, write, List.append_cancel_right_eq]
  exact Host.print_eq_iff hhosts hhost hhost'

end Endpoint

/-! ## Loading both spellings -/

namespace Pool

variable {raw endpoint : String}

/-- A load answers whether its key was free. -/
theorem answer_load (p : Pool) (h : Endpoint.normalize? raw = some endpoint) :
    (p.load raw).2 = .ok (!p.registry.contains endpoint) := by
  unfold Registry.contains
  cases hfind : p.registry.find? endpoint with
  | none => rw [load_of_new h hfind]; rfl
  | some life => rw [load_of_registered h hfind]; rfl

/-- After a load its key is registered, and what was registered is. -/
theorem contains_load_key (p : Pool) (h : Endpoint.normalize? raw = some endpoint) (e : String) :
    (p.load raw).1.registry.contains e = (decide (e = endpoint) || p.registry.contains e) := by
  cases hfind : p.registry.find? endpoint with
  | none =>
      rw [load_of_new h hfind]
      refine (contains_add hfind e).trans ?_
      by_cases he : e = endpoint <;> simp [he]
  | some life =>
      rw [load_of_registered h hfind]
      by_cases he : e = endpoint
      · simp [he, Registry.contains, hfind]
      · simp [he]

end Pool

namespace Endpoint

/-- Two candidates that differ in the case of letters only are both refused or both have a key,
and the keys are the same up to case. They are the same exactly if the host is an address in
brackets, or a name that both candidates spell alike. So of two such candidates that are loaded
one after the other, the second is new exactly if it spells a name in another way. -/
theorem keys_agree_iff {first second : String} (h : SameLetters first.toList second.toList) :
    (normalize? first = none ∧ normalize? second = none) ∨
    ∃ key other, normalize? first = some key ∧ normalize? second = some other ∧
      SameLetters key.toList other.toList ∧
      (key = other ↔ (spelledHost first.toList).head? = some '[' ∨
        spelledHost first.toList = spelledHost second.toList) ∧
      ∀ p : Pool, ((p.load first).1.load second).2 =
        .ok (decide (key ≠ other ∧ p.registry.contains other = false)) := by
  have hboth : (normalizeChars? first.toList).map lower =
      (normalizeChars? second.toList).map lower := by
    rw [← normalizeChars?_lower, h, normalizeChars?_lower]
  cases hfirst : normalizeChars? first.toList with
  | none =>
      rw [hfirst, Option.map_none] at hboth
      have hsecond := Option.map_eq_none_iff.1 hboth.symm
      exact .inl ⟨by rw [normalize?, hfirst, Option.map_none],
        by rw [normalize?, hsecond, Option.map_none]⟩
  | some key =>
      rw [hfirst, Option.map_some] at hboth
      obtain ⟨other, hsecond, hletters⟩ := Option.map_eq_some_iff.1 hboth.symm
      have hkey : normalize? first = some (String.ofList key) := by
        rw [normalize?, hfirst, Option.map_some]
      have hother : normalize? second = some (String.ofList other) := by
        rw [normalize?, hsecond, Option.map_some]
      refine .inr ⟨String.ofList key, String.ofList other, hkey, hother, ?_, ?_, fun p => ?_⟩
      · rw [SameLetters, String.toList_ofList, String.toList_ofList]
        exact hletters.symm
      · rw [String.ofList_inj, keyChars_eq_iff h hfirst hsecond]
      · rw [Pool.answer_load _ hother, Pool.contains_load_key p hkey]
        by_cases hsame : String.ofList key = String.ofList other
        · simp [hsame]
        · cases p.registry.contains (String.ofList other) <;> simp [hsame, Ne.symm hsame]

/-- An address has one key in all its spellings. -/
theorem keys_agree_address :
    SameLetters "SOCKS5://[2001:DB8::A]:80".toList "socks5://[2001:db8::a]:80".toList ∧
      normalize? "SOCKS5://[2001:DB8::A]:80" = normalize? "socks5://[2001:db8::a]:80" := by
  have hletters : SameLetters "SOCKS5://[2001:DB8::A]:80".toList
      "socks5://[2001:db8::a]:80".toList := by decide +kernel
  refine ⟨hletters, ?_⟩
  rcases keys_agree_iff hletters with ⟨hfirst, hsecond⟩ | ⟨key, other, hfirst, hsecond, -, hsame, -⟩
  · rw [hfirst, hsecond]
  · rw [hfirst, hsecond, hsame.2 (.inl (by decide +kernel))]

/-- A name that is spelled in two ways is registered twice. -/
theorem name_registered_twice :
    ∃ p, Pool.new Config.default = .ok p ∧
      SameLetters "Example.com:80".toList "example.com:80".toList ∧
      normalize? "Example.com:80" ≠ normalize? "example.com:80" ∧
      ((p.load "Example.com:80").1.load "example.com:80").2 = .ok true ∧
      ((p.load "Example.com:80").1.load "example.com:80").1.registry.size = 2 :=
  ⟨_, rfl, by decide +kernel, by decide +kernel, rfl, rfl⟩

end Endpoint

end SocksPool
