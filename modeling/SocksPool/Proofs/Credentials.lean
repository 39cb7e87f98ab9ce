import Mathlib.Data.List.DropRight
import SocksPool.Proofs.NormalForm

/-!
# Credentials in a candidate

A proxy that wants a login stands in seed lists with a user name and a password before an
at-sign. A pool has no use for it, since an endpoint has no place for a login, so such a
candidate should be refused. The reader refuses it for its user name only: the name is what
stands before the first colon of the user information, leaving out the characters that a
location ignores. Where the name is empty the rest of the user information is not looked at,
and the candidate is read as if it stood there without its user information. So the password
of a candidate without a name is dropped, and an endpoint is made of what is left.

## Main definitions

* `Endpoint.authority`, `Endpoint.remainder` — the parts of a candidate without decoration.
* `Endpoint.NamesUser` — the user information has a name.

## Main results

* `Url.Authority.parse?_signed` — a user information changes user and password only.
* `Endpoint.readBare?_signed` — what is read behind a user information.
* `Endpoint.credentials_refused_iff` — when a candidate with an at-sign is refused.
-/

namespace SocksPool

/-! ## Cutting off the user information -/

namespace Text

theorem notMem_of_cutFirst_eq_none {sep : Char} {text : List Char}
    (h : cutFirst sep text = none) : sep ∉ text := by
  induction text with
  | nil => exact List.not_mem_nil
  | cons c rest ih =>
      rw [cutFirst] at h
      split at h
      · cases h
      · next hc => exact List.not_mem_cons_of_ne_of_not_mem (Ne.symm hc) (ih (by simpa using h))

/-- Cutting a text at the last occurrence of a character. -/
theorem exists_last_of_mem {sep : Char} {text : List Char} (h : sep ∈ text) :
    ∃ before after, text = before ++ sep :: after ∧ sep ∉ after := by
  obtain ⟨after, before, hreverse, hafter⟩ :=
    List.eq_append_cons_of_mem (List.mem_reverse.2 h)
  refine ⟨before.reverse, after.reverse, ?_, fun hmem => hafter (List.mem_reverse.1 hmem)⟩
  have hback := congrArg List.reverse hreverse
  simpa using hback

theorem dropEndWhile_prefix (p : Char → Bool) (text : List Char) : dropEndWhile p text <+: text :=
  List.rdropWhile_prefix p text

/-- What the condition holds of up to a character, it holds of in a longer text. -/
theorem takeWhile_subset {p : Char → Bool} {front text : List Char} (h : front <+: text) :
    front.takeWhile p ⊆ text.takeWhile p := by
  obtain ⟨rest, rfl⟩ := h
  intro c hc
  rw [List.takeWhile_append]
  split
  · exact List.mem_append_left _ ((List.takeWhile_prefix p).subset hc)
  · exact hc

end Text

namespace Url.Authority

theorem splitUser_of_notMem {text : List Char} (h : '@' ∉ text) :
    splitUser text = ([], [], text) := by
  rw [splitUser, Text.cutLast_of_notMem h]

/-- The user name ends at the first colon of the user information. -/
theorem splitUser_signed (info : List Char) {rest : List Char} (h : '@' ∉ rest) :
    ∃ password, splitUser (info ++ '@' :: rest) =
      (info.takeWhile (· != ':'), password, rest) := by
  rw [splitUser, Text.cutLast_append h]
  cases hcut : Text.cutFirst ':' info with
  | none =>
      have hcolon : ':' ∉ info := Text.notMem_of_cutFirst_eq_none hcut
      have hwhole : info.takeWhile (· != ':') = info :=
        List.takeWhile_eq_self_iff.2 fun c hc => bne_iff_ne.2 (ne_of_mem_of_not_mem hc hcolon)
      exact ⟨[], by simp [hcut, hwhole]⟩
  | some parts =>
      obtain ⟨hinfo, hcolon⟩ := Text.cutFirst_eq_some hcut
      have hname : info.takeWhile (· != ':') = parts.1 := by
        rw [hinfo, List.takeWhile_append_of_pos fun c hc =>
          bne_iff_ne.2 (ne_of_mem_of_not_mem hc hcolon)]
        simp
      exact ⟨parts.2, by simp [hcut, hname]⟩

/-- A user information changes user and password only. -/
theorem parse?_signed (host? : List Char → Option Host) (info : List Char) {rest : List Char}
    (h : '@' ∉ rest) :
    ∃ password, parse? host? (info ++ '@' :: rest) =
      (parse? host? rest).map fun authority =>
        { authority with user := info.takeWhile (· != ':'), password } := by
  obtain ⟨password, hsplit⟩ := splitUser_signed info h
  refine ⟨password, ?_⟩
  simp only [parse?, hsplit, splitUser_of_notMem h]
  split
  · rfl
  · cases host? (splitPort false rest).1 with
    | none => rfl
    | some host => cases port? (splitPort false rest).2 <;> rfl

/-- Without an at-sign there is no user. -/
theorem user_of_notMem {host? : List Char → Option Host} {text : List Char} (h : '@' ∉ text)
    {authority : Authority} (hparse : parse? host? text = some authority) :
    authority.user = [] := by
  simp only [parse?, splitUser_of_notMem h] at hparse
  split at hparse
  · cases hparse
  · obtain ⟨host, -, hparse⟩ := Option.bind_eq_some_iff.1 hparse
    obtain ⟨port, -, hparse⟩ := Option.bind_eq_some_iff.1 hparse
    cases hparse
    rfl

end Url.Authority

namespace Endpoint

open Url (Host Authority)

/-! ## Reading behind a user information -/

/-- What a location counts of a text: no controls and spaces at the end, and no tabs and line
breaks inside. -/
def counted (text : List Char) : List Char :=
  (Text.dropEndWhile isControlOrSpace text).filter (!isIgnored ·)

/-- The user information names a user: a character that counts stands before its first
colon. -/
def NamesUser (info : List Char) : Prop :=
  ∃ c ∈ info.takeWhile (· != ':'), isIgnored c = false

instance (info : List Char) : Decidable (NamesUser info) :=
  decidable_of_iff ((info.takeWhile (· != ':')).any (!isIgnored ·) = true) (by simp [NamesUser])

/-- What does not count neither ends an authority nor ends a name. -/
theorem unread_of_isIgnored {c : Char} (h : isIgnored c = true) :
    (!endsAuthority c) = true ∧ (c != ':') = true := by
  have hall : ['\t', '\n', '\r'].all (fun c => !endsAuthority c && c != ':') = true := by decide
  have hmem : c ∈ ['\t', '\n', '\r'] := by simpa [isIgnored, or_assoc] using h
  exact Bool.and_eq_true_iff.1 (List.all_eq_true.1 hall c hmem)

theorem takeWhile_counted {p : Char → Bool} (h : ∀ c, isIgnored c = true → p c = true)
    (text : List Char) :
    (text.filter (!isIgnored ·)).takeWhile p = (text.takeWhile p).filter (!isIgnored ·) := by
  induction text with
  | nil => rfl
  | cons c rest ih =>
      cases hc : isIgnored c with
      | true => simp [hc, h c hc, ih]
      | false => cases hp : p c <;> simp [hc, hp, ih]

theorem namesUser_iff {info : List Char} :
    NamesUser info ↔ (info.filter (!isIgnored ·)).takeWhile (· != ':') ≠ [] := by
  rw [takeWhile_counted fun c hc => (unread_of_isIgnored hc).2]
  simp [NamesUser]

theorem counted_signed (info rest : List Char) :
    counted (info ++ '@' :: rest) = info.filter (!isIgnored ·) ++ '@' :: counted rest := by
  rw [counted, Text.dropEndWhile_append_cons (by decide), List.filter_append, List.filter_cons,
    if_pos (by decide), counted]

/-- What is read behind a user information: nothing if it has a name, and otherwise what is
read without it. -/
theorem readBare?_signed {info rest : List Char} (hinfo : ∀ c ∈ info, endsAuthority c = false)
    (hrest : '@' ∉ (counted rest).takeWhile (!endsAuthority ·)) :
    readBare? (info ++ '@' :: rest) = if NamesUser info then none else readBare? rest := by
  have hinside : ∀ c ∈ info.filter (!isIgnored ·) ++ ['@'], (!endsAuthority c) = true := by
    intro c hc
    rcases List.mem_append.1 hc with hmem | hsign
    · rw [hinfo c (List.mem_of_mem_filter hmem)]; rfl
    · rw [List.mem_singleton.1 hsign]; rfl
  have htake : (counted (info ++ '@' :: rest)).takeWhile (!endsAuthority ·) =
      info.filter (!isIgnored ·) ++ '@' :: (counted rest).takeWhile (!endsAuthority ·) := by
    rw [counted_signed, List.append_cons, List.takeWhile_append_of_pos hinside, ← List.append_cons]
  have hdrop : (counted (info ++ '@' :: rest)).dropWhile (!endsAuthority ·) =
      (counted rest).dropWhile (!endsAuthority ·) := by
    rw [counted_signed, List.append_cons, List.dropWhile_append_of_pos hinside]
  obtain ⟨password, hparse⟩ :=
    Authority.parse?_signed Host.parseOpaque? (info.filter (!isIgnored ·)) hrest
  simp only [counted] at htake hdrop hparse hrest
  simp only [readBare?, htake, hdrop, hparse, namesUser_iff]
  split
  · simp
  · cases hfound : Authority.parse? Host.parseOpaque? _ with
    | none => simp
    | some authority =>
        have huser := Authority.user_of_notMem hrest hfound
        obtain ⟨user, secret, host, port⟩ := authority
        obtain rfl : user = [] := huser
        cases (info.filter (!isIgnored ·)).takeWhile (· != ':') with
        | nil =>
            cases port with
            | none => rfl
            | some number => cases number <;> rfl
        | cons c name => rfl

/-! ## Candidates with an at-sign -/

/-- The authority of a candidate: its location up to the first slash, question mark or number
sign. -/
def authority (raw : List Char) : List Char := (location raw).takeWhile (!endsAuthority ·)

/-- What follows the authority of a candidate. -/
def remainder (raw : List Char) : List Char := (location raw).dropWhile (!endsAuthority ·)

variable {raw info rest : List Char}

theorem stripScheme_suffix (text : List Char) : stripScheme text <:+ text := by
  unfold stripScheme
  cases hfound : knownSchemes.findSome? (dropScheme? · text) with
  | none => exact List.suffix_rfl
  | some rest =>
      obtain ⟨scheme, -, hdrop⟩ := List.exists_of_findSome?_eq_some hfound
      obtain ⟨front, rfl, -⟩ := dropScheme?_eq_some_iff.1 hdrop
      exact List.suffix_append front rest

/-- No scheme stands in front of a comment. -/
theorem stripScheme_comment (text : List Char) : stripScheme ('#' :: text) = '#' :: text := by
  refine stripScheme_of_bare fun scheme hscheme hstarts => ?_
  obtain ⟨rest, hrest⟩ := hstarts
  have hhead := congrArg List.head? hrest
  rw [List.head?_append, head?_known hscheme] at hhead
  exact absurd (Option.some.inj hhead) (by decide)

/-- A candidate with an authority is neither empty nor a comment. -/
theorem normalizeChars?_of_authority (h : authority raw ≠ []) :
    normalizeChars? raw = readBare? (Text.dropEndWhile (· == '/') (location raw)) := by
  cases hline : Text.trim raw with
  | nil => exact absurd (by rw [authority, location, hline]; decide) h
  | cons c text =>
      refine normalizeChars?_of_head? (by rw [hline]; rfl) fun hc => h ?_
      rw [authority, location, hline, hc, stripScheme_comment]
      rfl

/-- A candidate does not end in a blank. -/
theorem getLast?_location (hend : rest <:+ location raw) :
    ∀ c ∈ rest.getLast?, Text.isBlank c = false := by
  obtain ⟨front, hfront⟩ := hend.trans (stripScheme_suffix (Text.trim raw))
  intro c hc
  refine Text.getLast?_trim raw c ?_
  rw [← hfront, List.getLast?_append, Option.mem_def.1 hc]
  rfl

theorem endsAuthority_of_mem {c : Char} (h : c ∈ authority raw) : endsAuthority c = false := by
  have hpassed := List.all_eq_true.1 List.all_takeWhile c h
  simpa using hpassed

/-- The reader cuts a text at its end only, so no other at-sign comes into the authority. -/
theorem notMem_takeWhile_counted {text : List Char}
    (h : '@' ∉ text.takeWhile (!endsAuthority ·)) :
    '@' ∉ (counted (Text.dropEndWhile (· == '/') text)).takeWhile (!endsAuthority ·) := by
  intro hmem
  rw [counted, takeWhile_counted fun c hc => (unread_of_isIgnored hc).1] at hmem
  have hcut : Text.dropEndWhile isControlOrSpace (Text.dropEndWhile (· == '/') text) <+: text :=
    (Text.dropEndWhile_prefix _ _).trans (Text.dropEndWhile_prefix _ _)
  exact h (Text.takeWhile_subset hcut (List.mem_of_mem_filter hmem))

/-- A candidate with an at-sign in its authority is refused exactly if its user information
has a name, or it would be refused without its user information. If there is no name, the
user information is dropped. -/
theorem credentials_refused_iff {raw : String} (h : '@' ∈ authority raw.toList) :
    ∃ info rest, authority raw.toList = info ++ '@' :: rest ∧ '@' ∉ rest ∧
      let plain := "socks5://" ++ String.ofList (rest ++ remainder raw.toList)
      (normalize? raw = none ↔ NamesUser info ∨ normalize? plain = none) ∧
      (¬ NamesUser info → normalize? raw = normalize? plain) := by
  obtain ⟨info, rest, hsplit, hlast⟩ := Text.exists_last_of_mem h
  refine ⟨info, rest, hsplit, hlast, ?_⟩
  generalize htext : rest ++ remainder raw.toList = text
  have hlocation : location raw.toList = info ++ '@' :: text := by
    rw [← htext, ← List.cons_append, ← List.append_assoc, ← hsplit]
    exact List.takeWhile_append_dropWhile.symm
  have hinside : ∀ c ∈ info ++ ['@'], (!endsAuthority c) = true := by
    intro c hc
    have hmem : c ∈ authority raw.toList := by
      rw [hsplit, List.append_cons]
      exact List.mem_append_left rest hc
    rw [endsAuthority_of_mem hmem]
    rfl
  have hrest : text.takeWhile (!endsAuthority ·) = rest := by
    rw [authority, hlocation, List.append_cons, List.takeWhile_append_of_pos hinside,
      List.append_cons info '@' rest] at hsplit
    exact List.append_cancel_left hsplit
  have hplain : normalizeChars? ("socks5://".toList ++ text) =
      readBare? (Text.dropEndWhile (· == '/') text) := by
    have hend : text <:+ location raw.toList := by
      rw [hlocation, List.append_cons]
      exact List.suffix_append _ text
    exact normalizeChars?_scheme (by decide) (getLast?_location hend)
  have hread : normalizeChars? raw.toList =
      if NamesUser info then none else normalizeChars? ("socks5://".toList ++ text) := by
    rw [normalizeChars?_of_authority (List.ne_nil_of_mem h), hlocation,
      Text.dropEndWhile_append_cons (by decide), hplain]
    refine readBare?_signed (fun c hc => ?_) (notMem_takeWhile_counted (by rwa [hrest]))
    simpa using hinside c (List.mem_append_left ['@'] hc)
  simp only [normalize?, String.toList_append, String.toList_ofList, hread]
  by_cases hname : NamesUser info
  · simp [hname]
  · simp [hname]

/-- A name that is written with an escape is a name, and the last at-sign ends it. -/
theorem credentials_refused_escaped :
    '@' ∈ authority " socks4://%40@:x@[::1]:1080/#y@z".toList ∧
      normalize? " socks4://%40@:x@[::1]:1080/#y@z" = none := by
  have hsign : '@' ∈ authority " socks4://%40@:x@[::1]:1080/#y@z".toList := by decide +kernel
  have hcut : Text.cutLast '@' (authority " socks4://%40@:x@[::1]:1080/#y@z".toList) =
      some ("%40@:x".toList, "[::1]:1080".toList) := by decide +kernel
  obtain ⟨info, rest, hsplit, hlast, hrefused, -⟩ := credentials_refused_iff hsign
  rw [hsplit, Text.cutLast_append hlast] at hcut
  obtain ⟨rfl, rfl⟩ := Prod.mk.inj (Option.some.inj hcut)
  exact ⟨hsign, hrefused.2 (.inl (by decide))⟩

/-- A candidate with a password and without a user name is not refused: the password is
dropped. -/
theorem password_dropped :
    '@' ∈ authority ":pass@1.2.3.4:80".toList ∧
      normalize? ":pass@1.2.3.4:80" = some "1.2.3.4:80" := by
  decide +kernel

end Endpoint

end SocksPool
