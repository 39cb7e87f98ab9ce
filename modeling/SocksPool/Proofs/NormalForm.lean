import Mathlib.Data.List.TakeWhile
import SocksPool.Proofs.Decoration
import SocksPool.Proofs.Spelling

/-!
# The normal form of an endpoint

A pool knows a proxy by its endpoint, so two readings of one proxy must come to one text,
and a text that was read once is read again when a list is loaded into the pool. So the
reader must not change what it has written. It strips blanks, a scheme, slashes and
controls, cuts at marks of a location, escapes the host and writes the port anew. All of
this leaves a text alone that holds none of the characters it looks for: an escaped name is
ASCII and is not escaped again, an address reads as itself, and so does the port.

## Main definitions

* `Endpoint.isClean` — the characters of a normal form.
* `Endpoint.Normal` — a clean text that divides into a host and a port.
* `Url.Host.Settled` — the hosts that are read from an authority without special rules.

## Main results

* `Url.Host.parseOpaque?_print` — a settled host is read back from its text.
* `Endpoint.normalizeChars?_write` — a settled host and a port are their own normal form.
* `Endpoint.normalize?_normal` — what the reader returns is normal, and the reader leaves
  it as it is.
-/

namespace SocksPool

/-! ## Escaped texts -/

namespace Text.Percent

/-- A character that stands for itself in a text where only the necessary is escaped. -/
def isPlain (c : Char) : Bool := decide (c.toNat < 0x80) && !isControl c

theorem encodeChar_of_isPlain {c : Char} (h : isPlain c = true) :
    encodeChar (fun _ => false) c = [c] := by
  unfold isPlain at h
  simp [encodeChar, h]

theorem encode_of_isPlain {text : List Char} (h : ∀ c ∈ text, isPlain c = true) :
    encode (fun _ => false) text = text := by
  induction text with
  | nil => rfl
  | cons c rest ih =>
      have hrest : encode (fun _ => false) rest = rest :=
        ih fun d hd => h d (List.mem_cons_of_mem c hd)
      unfold encode at hrest ⊢
      rw [List.flatMap_cons, encodeChar_of_isPlain (h c List.mem_cons_self), hrest]
      rfl

/-- An escaped text holds the plain characters of the text and the signs of escapes. -/
theorem mem_encode {escape : Char → Bool} {text : List Char} {c : Char}
    (h : c ∈ encode escape text) :
    (c ∈ text ∧ isPlain c = true) ∨ c = '%' ∨ ∃ n < 16, c = upperDigit n := by
  obtain ⟨d, hd, hc⟩ := List.mem_flatMap.1 h
  unfold encodeChar at hc
  split at hc
  · next hplain =>
    obtain rfl := List.mem_singleton.1 hc
    simp only [Bool.and_eq_true, decide_eq_true_eq] at hplain
    exact .inl ⟨hd, by simp [isPlain, hplain.1]⟩
  · obtain ⟨byte, -, hbyte⟩ := List.mem_flatMap.1 hc
    have hbound : byte.toNat < 256 := byte.toNat_lt
    simp only [encodeByte, List.mem_cons, List.not_mem_nil, or_false] at hbyte
    rcases hbyte with hsign | hhigh | hlow
    · exact .inr (.inl hsign)
    · exact .inr (.inr ⟨byte.toNat / 16, by omega, hhigh⟩)
    · exact .inr (.inr ⟨byte.toNat % 16, by omega, hlow⟩)

end Text.Percent

/-! ## Cutting at a character that is not there -/

namespace Text

theorem cutLast_of_notMem {sep : Char} {text : List Char} (h : sep ∉ text) :
    cutLast sep text = none := by
  induction text with
  | nil => rfl
  | cons c rest ih =>
      have hc : sep ≠ c := List.ne_of_not_mem_cons h
      rw [cutLast, ih (List.not_mem_of_not_mem_cons h)]
      simp [Ne.symm hc]

theorem cutLast_append {sep : Char} {after : List Char} (h : sep ∉ after) (before : List Char) :
    cutLast sep (before ++ sep :: after) = some (before, after) := by
  induction before with
  | nil =>
      rw [List.nil_append, cutLast, cutLast_of_notMem h]
      simp
  | cons c rest ih => rw [List.cons_append, cutLast, ih]

end Text

/-! ## Hosts -/

namespace Url.Host

open Text.Percent (isPlain encode)

/-- A host that was read without special rules: an escaped name, or an IPv6 address. -/
inductive Settled : Host → Prop
  | name {text : List Char} (hplain : ∀ c ∈ text, isPlain c = true)
      (hallowed : ∀ c ∈ text, isForbidden c = false) : Settled (.name text)
  | v6 (address : Ipv6) : Settled (.v6 address)

theorem settled_of_parseOpaque? {text : List Char} {host : Host}
    (h : parseOpaque? text = some host) : host.Settled := by
  unfold parseOpaque? at h
  split at h
  · unfold parseBracketed? at h
    split at h
    · obtain ⟨address, -, rfl⟩ := Option.map_eq_some_iff.1 h
      exact .v6 address
    · cases h
  · split at h
    · cases h
    · next hallowed =>
      cases h
      have hdigits : ∀ n < 16, isPlain (Text.Percent.upperDigit n) = true ∧
          isForbidden (Text.Percent.upperDigit n) = false := by decide
      refine .name (fun c hc => ?_) (fun c hc => ?_)
      all_goals rcases Text.Percent.mem_encode hc with ⟨hmem, hplain⟩ | rfl | ⟨n, hn, rfl⟩
      · exact hplain
      · decide
      · exact (hdigits n hn).1
      · simp only [List.any_eq_true, not_exists, not_and, Bool.not_eq_true] at hallowed
        exact hallowed c hmem
      · decide
      · exact (hdigits n hn).2

/-- A settled host is read back from its text. -/
theorem parseOpaque?_print {host : Host} (h : host.Settled) :
    parseOpaque? host.print = some host := by
  cases h with
  | @name text hplain hallowed =>
      have hany : text.any isForbidden = false := by simpa using hallowed
      show parseOpaque? text = some (.name text)
      unfold parseOpaque?
      split
      · next rest => exact absurd (hallowed '[' List.mem_cons_self) (by decide)
      · rw [hany, Text.Percent.encode_of_isPlain hplain]
        rfl
  | v6 address =>
      show parseBracketed? (address.compressed ++ [']']) = some (.v6 address)
      have hreverse :
          (address.compressed ++ [']']).reverse = ']' :: address.compressed.reverse := by
        simp
      rw [parseBracketed?, hreverse]
      simp [Ipv6.parse?_compressed]

theorem digitChar_notBracket {d : Nat} (hd : d < 16) : Nat.digitChar d ∉ ['[', ']'] := by
  have hall : ∀ d < 16, Nat.digitChar d ∉ ['[', ']'] := by decide
  exact hall d hd

theorem notBracket_of_mem_compressed {address : Ipv6} {c : Char} (h : c ∈ address.compressed) :
    c ∉ ['[', ']'] := by
  rcases Ipv6.mem_compressed h with rfl | ⟨d, hd, rfl⟩
  · decide
  · exact digitChar_notBracket hd

/-- No bracket or colon stands in a settled name. -/
theorem notMem_of_allowed {text : List Char} (h : ∀ c ∈ text, isForbidden c = false) {c : Char}
    (hc : c ∈ text) : c ∉ [':', '[', ']'] := by
  have hmarks : [':', '[', ']'].all isForbidden = true := by decide
  intro hmark
  have hforbidden := List.all_eq_true.1 hmarks c hmark
  rw [h c hc] at hforbidden
  cases hforbidden

end Url.Host

namespace Url.Authority

theorem splitPort_append {inBrackets : Bool} {text : List Char}
    (h : ∀ c ∈ text, c ∉ ['[', ']'] ∧ (c = ':' → inBrackets = true)) (rest : List Char) :
    splitPort inBrackets (text ++ rest) =
      (text ++ (splitPort inBrackets rest).1, (splitPort inBrackets rest).2) := by
  induction text with
  | nil => rfl
  | cons c more ih =>
      obtain ⟨hbracket, hcolon⟩ := h c List.mem_cons_self
      simp only [List.mem_cons, List.not_mem_nil, or_false, not_or] at hbracket
      have hstop : ¬(c = ':' ∧ inBrackets = false) := by
        rintro ⟨hc, hfalse⟩
        rw [hcolon hc] at hfalse
        cases hfalse
      have hrest := ih fun d hd => h d (List.mem_cons_of_mem c hd)
      rw [List.cons_append, splitPort, if_neg hstop, if_neg hbracket.1, if_neg hbracket.2]
      simp only [hrest, List.cons_append]

/-- The first colon outside brackets is the one behind a settled host. -/
theorem splitPort_print {host : Host} (h : host.Settled) (rest : List Char) :
    splitPort false (host.print ++ ':' :: rest) = (host.print, some rest) := by
  cases h with
  | @name text hplain hallowed =>
      have hnone : ∀ c ∈ text, c ∉ ['[', ']'] ∧ (c = ':' → false = true) := by
        intro c hc
        have := Host.notMem_of_allowed hallowed hc
        simp_all
      show splitPort false (text ++ ':' :: rest) = (text, some rest)
      rw [splitPort_append hnone]
      simp [splitPort]
  | v6 address =>
      have hinside : ∀ c ∈ address.compressed, c ∉ ['[', ']'] ∧ (c = ':' → true = true) :=
        fun c hc => ⟨Host.notBracket_of_mem_compressed hc, fun _ => rfl⟩
      show splitPort false ('[' :: (address.compressed ++ [']']) ++ ':' :: rest) =
        ('[' :: (address.compressed ++ [']']), some rest)
      rw [List.cons_append, List.append_assoc, splitPort]
      simp [splitPort_append hinside, splitPort]

end Url.Authority

/-! ## Endpoints -/

namespace Endpoint

open Url (Host Authority)

/-- Characters of a normal form: ASCII, neither white space nor control characters, and none
of the marks that end an authority or a user name. -/
def isClean (c : Char) : Bool :=
  decide (c.toNat < 128) && !Text.isBlank c && !Text.Percent.isControl c &&
    decide (c ∉ ['/', '?', '#', '@'])

/-- The text of a host: an IPv6 address in brackets, or a name without colons and brackets. -/
def IsHost (text : List Char) : Prop :=
  (∃ inner address, text = '[' :: inner ++ [']'] ∧ Ipv6.parse? inner = some address) ∨
    (text ≠ [] ∧ ∀ c ∈ text, c ∉ [':', '[', ']'])

/-- The text of a port: a decimal number from 1 to 65535 without leading zeros. -/
def IsPort (text : List Char) : Prop :=
  (∀ c ∈ text, c.isDigit = true) ∧ text.head? ≠ some '0' ∧
    ∃ port, Text.number? 10 text = some port ∧ 1 ≤ port ∧ port ≤ 65535

/-- An endpoint as the pool knows it: a clean text that divides at its last colon into a host
and a port. -/
structure Normal (endpoint : String) : Prop where
  clean : ∀ c ∈ endpoint.toList, isClean c = true
  parts : ∃ host port, Text.cutLast ':' endpoint.toList = some (host, port) ∧
    IsHost host ∧ IsPort port

theorem isBlank_of_isClean {c : Char} (h : isClean c = true) : Text.isBlank c = false := by
  simp only [isClean, Bool.and_eq_true, Bool.not_eq_true'] at h
  exact h.1.1.2

theorem isClean_digitChar {d : Nat} (hd : d < 16) : isClean (Nat.digitChar d) = true := by
  have hall : ∀ d < 16, isClean (Nat.digitChar d) = true := by decide
  exact hall d hd

theorem isClean_of_isPlain {c : Char} (hplain : Text.Percent.isPlain c = true)
    (hallowed : Host.isForbidden c = false) : isClean c = true := by
  simp only [Host.isForbidden, decide_eq_false_iff_not, List.mem_cons, List.not_mem_nil,
    or_false, not_or] at hallowed
  have hspace : c.toNat ≠ 0x20 := fun hc => hallowed.2.2.2.2.1 (Char.toNat_inj.1 hc)
  simp only [Text.Percent.isPlain, Bool.and_eq_true, decide_eq_true_eq] at hplain
  have hcontrol := hplain.2
  have hblank : Text.isBlank c = false := by
    simp only [Text.Percent.isControl] at hcontrol
    simp only [Text.isBlank]
    grind
  simp [isClean, hplain.1, hblank, hcontrol, hallowed]

/-- The text of a settled host and a port is clean. -/
theorem isClean_of_mem_write {host : Host} (h : host.Settled) {port : Nat} {c : Char}
    (hc : c ∈ write host port) : isClean c = true := by
  rw [write, List.mem_append, List.mem_cons] at hc
  rcases hc with hprint | rfl | hdigit
  · cases h with
    | name hplain hallowed => exact isClean_of_isPlain (hplain c hprint) (hallowed c hprint)
    | v6 address =>
        simp only [Host.print, List.cons_append, List.mem_cons, List.mem_append,
          List.not_mem_nil, or_false] at hprint
        rcases hprint with rfl | hinner | rfl
        · decide
        · rcases Ipv6.mem_compressed hinner with rfl | ⟨d, hd, rfl⟩
          · decide
          · exact isClean_digitChar hd
        · decide
  · decide
  · obtain ⟨d, hd, rfl⟩ := Text.exists_of_mem_toDigits (by decide) hdigit
    exact isClean_digitChar (by omega)

theorem port_le_of_port? {text : Option (List Char)} {port : Nat}
    (h : Authority.port? text = some (some port)) : port ≤ 65535 := by
  unfold Authority.port? at h
  split at h
  · cases h
  · cases h
  · obtain ⟨n, hn, hport⟩ := Option.map_eq_some_iff.1 h
    cases hport
    unfold Text.decimal? at hn
    simpa using (Option.filter_eq_some_iff.1 hn).2

theorem parse?_eq_some {text user password : List Char} {host : Host} {port : Nat}
    (h : Authority.parse? Host.parseOpaque? text = some ⟨user, password, host, some port⟩) :
    host.Settled ∧ port ≤ 65535 := by
  simp only [Authority.parse?] at h
  split at h
  · cases h
  · obtain ⟨found, hhost, h⟩ := Option.bind_eq_some_iff.1 h
    obtain ⟨number, hport, h⟩ := Option.bind_eq_some_iff.1 h
    cases h
    exact ⟨Host.settled_of_parseOpaque? hhost, port_le_of_port? hport⟩

/-- What is read is written from a settled host and a port. -/
theorem readBare?_eq_some {bare text : List Char} (h : readBare? bare = some text) :
    ∃ host port, host.Settled ∧ host.print ≠ [] ∧ 1 ≤ port ∧ port ≤ 65535 ∧
      text = write host port := by
  simp only [readBare?] at h
  split at h
  · cases h
  · split at h
    · next host port hparse =>
      obtain ⟨hsettled, hport⟩ := parse?_eq_some hparse
      split at h
      · cases h
      · next hnonempty =>
        cases h
        exact ⟨host, port + 1, hsettled, by simpa using hnonempty, by omega, hport, rfl⟩
    · cases h

/-- The authority of a written endpoint has its host and its port and no user name. -/
theorem parse?_write {host : Host} (h : host.Settled) (hnonempty : host.print ≠ []) {port : Nat}
    (hport : port ≤ 65535) :
    Authority.parse? Host.parseOpaque? (write host port) = some ⟨[], [], host, some port⟩ := by
  have huser : '@' ∉ write host port := fun hat =>
    absurd (isClean_of_mem_write h hat) (by decide)
  have hdigits : Authority.port? (some (Text.decimal port)) = some (some port) := by
    obtain ⟨c, rest, htext⟩ :=
      List.exists_cons_of_ne_nil (Nat.toDigits_ne_nil (n := port) (b := 10))
    have hread := Text.decimal?_decimal hport
    unfold Text.decimal at hread ⊢
    rw [htext] at hread ⊢
    rw [Authority.port?, hread]
    · rfl
    · simp
  have hsplit := Authority.splitPort_print h (Text.decimal port)
  rw [← write] at hsplit
  simp [Authority.parse?, Authority.splitUser, Text.cutLast_of_notMem huser, hsplit, hnonempty,
    Host.parseOpaque?_print h, hdigits]

/-! ## Reading a clean text -/

/-- The reader looks for no character that is clean. -/
theorem unread_of_isClean {c : Char} (h : isClean c = true) :
    isControlOrSpace c = false ∧ isIgnored c = false ∧ endsAuthority c = false := by
  simp only [isClean, Bool.and_eq_true, decide_eq_true_eq, Bool.not_eq_true', List.mem_cons,
    List.not_mem_nil, or_false, not_or] at h
  obtain ⟨⟨⟨-, hblank⟩, hcontrol⟩, hslash, hquestion, hhash, -⟩ := h
  have hlow : 0x20 < c.toNat := by
    simp only [Text.isBlank] at hblank
    simp only [Text.Percent.isControl] at hcontrol
    grind
  have hignored : ['\t', '\n', '\r'].all (·.toNat ≤ 0x20) = true := by decide
  refine ⟨by simpa [isControlOrSpace] using hlow, ?_, by simp [endsAuthority, *]⟩
  cases hread : isIgnored c with
  | false => rfl
  | true =>
      have hmem : c ∈ ['\t', '\n', '\r'] := by simpa [isIgnored, or_assoc] using hread
      have hbound := of_decide_eq_true (List.all_eq_true.1 hignored c hmem)
      omega

theorem ne_slash_of_isClean {c : Char} (h : isClean c = true) : c ≠ '/' := by
  rintro rfl
  exact absurd h (by decide)

/-- A scheme ends in slashes, so a clean text begins with none. -/
theorem stripScheme_of_isClean {text : List Char} (h : ∀ c ∈ text, isClean c = true) :
    stripScheme text = text := by
  have hslash : ∀ scheme ∈ knownSchemes, '/' ∈ scheme := by decide
  refine stripScheme_of_bare fun scheme hscheme hstarts => ?_
  obtain ⟨c, hc, hlower⟩ := List.mem_map.1 (hstarts.subset (hslash scheme hscheme))
  exact ne_slash_of_isClean (h c hc) (eq_slash_of_toLower hlower)

/-- Of a clean text the reader takes the whole as the authority. -/
theorem readBare?_of_isClean {text : List Char} (h : ∀ c ∈ text, isClean c = true) {host : Host}
    {port : Nat} (hnonempty : host.print ≠ [])
    (hparse : Authority.parse? Host.parseOpaque? text = some ⟨[], [], host, some (port + 1)⟩) :
    readBare? text = some (write host (port + 1)) := by
  have hend : Text.dropEndWhile isControlOrSpace text = text :=
    Text.dropEndWhile_of_forall fun c hc => (unread_of_isClean (h c hc)).1
  have hfilter : text.filter (!isIgnored ·) = text :=
    List.filter_eq_self.2 fun c hc => by rw [(unread_of_isClean (h c hc)).2.1]; rfl
  have hwhole : ∀ c ∈ text, (!endsAuthority c) = true := fun c hc => by
    rw [(unread_of_isClean (h c hc)).2.2]; rfl
  have htake : text.takeWhile (!endsAuthority ·) = text := List.takeWhile_eq_self_iff.2 hwhole
  have hdrop : text.dropWhile (!endsAuthority ·) = [] := List.dropWhile_eq_nil_iff.2 hwhole
  simp [readBare?, hend, hfilter, htake, hdrop, hparse, hnonempty]

/-- A settled host and a port are read as they were written. -/
theorem readBare?_write {host : Host} (h : host.Settled) (hnonempty : host.print ≠ [])
    {port : Nat} (hpos : 1 ≤ port) (hport : port ≤ 65535) :
    readBare? (Text.dropEndWhile (· == '/') (write host port)) = some (write host port) := by
  have hclean : ∀ c ∈ write host port, isClean c = true := fun c hc => isClean_of_mem_write h hc
  have hslashes : Text.dropEndWhile (· == '/') (write host port) = write host port :=
    Text.dropEndWhile_of_forall fun c hc => by simpa using ne_slash_of_isClean (hclean c hc)
  obtain ⟨before, rfl⟩ : ∃ before, port = before + 1 := ⟨port - 1, by omega⟩
  rw [hslashes]
  exact readBare?_of_isClean hclean hnonempty (parse?_write h hnonempty hport)

/-- A settled host and a port are their own normal form. -/
theorem normalizeChars?_write {host : Host} (h : host.Settled) (hnonempty : host.print ≠ [])
    {port : Nat} (hpos : 1 ≤ port) (hport : port ≤ 65535) :
    normalizeChars? (write host port) = some (write host port) := by
  have hclean : ∀ c ∈ write host port, isClean c = true := fun c hc => isClean_of_mem_write h hc
  have htrim : Text.trim (write host port) = write host port :=
    Text.trim_of_forall fun c hc => isBlank_of_isClean (hclean c hc)
  have hhash : (write host port).head? ≠ some '#' := fun hhead =>
    absurd (hclean '#' (List.mem_of_head? hhead)) (by decide)
  have hsome : write host port ≠ [] := by simp [write]
  have hread := readBare?_write h hnonempty hpos hport
  simp [normalizeChars?, htrim, hsome, hhash, stripScheme_of_isClean hclean, hread]

/-! ## The normal form -/

theorem isHost_print {host : Host} (h : host.Settled) (hnonempty : host.print ≠ []) :
    IsHost host.print := by
  cases h with
  | name hplain hallowed => exact .inr ⟨hnonempty, fun c hc => Host.notMem_of_allowed hallowed hc⟩
  | v6 address => exact .inl ⟨address.compressed, address, rfl, Ipv6.parse?_compressed address⟩

theorem isPort_decimal {port : Nat} (hpos : 1 ≤ port) (hport : port ≤ 65535) :
    IsPort (Text.decimal port) :=
  ⟨fun _ hc => Text.isDigit_of_mem_decimal hc, Text.head?_toDigits_ne (by decide) hpos, port,
    Text.number?_toDigits (by decide) (by decide) port, hpos, hport⟩

/-- Every normal form is written from a settled host and a port. -/
theorem normalizeChars?_eq_some {raw text : List Char} (h : normalizeChars? raw = some text) :
    ∃ host port, host.Settled ∧ host.print ≠ [] ∧ 1 ≤ port ∧ port ≤ 65535 ∧
      text = write host port := by
  simp only [normalizeChars?] at h
  split at h
  · cases h
  · exact readBare?_eq_some h

/-- What the reader returns, it reads again as it is. -/
theorem normalize?_fixed {raw endpoint : String} (h : normalize? raw = some endpoint) :
    normalize? endpoint = some endpoint := by
  obtain ⟨text, htext, rfl⟩ := Option.map_eq_some_iff.1 h
  obtain ⟨host, port, hsettled, hnonempty, hpos, hport, rfl⟩ := normalizeChars?_eq_some htext
  rw [normalize?, String.toList_ofList, normalizeChars?_write hsettled hnonempty hpos hport]
  rfl

/-- What the reader returns is normal, and the reader leaves it as it is. -/
theorem normalize?_normal {raw endpoint : String} (h : normalize? raw = some endpoint) :
    normalize? endpoint = some endpoint ∧ Normal endpoint := by
  refine ⟨normalize?_fixed h, ?_⟩
  obtain ⟨text, htext, rfl⟩ := Option.map_eq_some_iff.1 h
  obtain ⟨host, port, hsettled, hnonempty, hpos, hport, rfl⟩ := normalizeChars?_eq_some htext
  have hcolon : ':' ∉ Text.decimal port := fun hmem =>
    absurd (Text.isDigit_of_mem_decimal hmem) (by decide)
  refine ⟨?_, host.print, Text.decimal port, ?_, isHost_print hsettled hnonempty,
    isPort_decimal hpos hport⟩
  · intro c hc
    rw [String.toList_ofList] at hc
    exact isClean_of_mem_write hsettled hc
  · rw [String.toList_ofList, write, Text.cutLast_append hcolon]

theorem normalize?_normal_bracketed :
    normalize? " SOCKS5://[2001:DB8:0:0:0:0:0:1]:01080/ " = some "[2001:db8::1]:1080" ∧
      normalize? "[2001:db8::1]:1080" = some "[2001:db8::1]:1080" ∧
      Normal "[2001:db8::1]:1080" := by
  have hread : normalize? " SOCKS5://[2001:DB8:0:0:0:0:0:1]:01080/ " =
      some "[2001:db8::1]:1080" := by decide +kernel
  exact ⟨hread, normalize?_normal hread⟩

end Endpoint

end SocksPool
