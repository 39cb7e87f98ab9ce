import SocksPool.Network.Probe
import SocksPool.Proofs.Literals
import SocksPool.Proofs.Talks

/-!
# What an echo page may say

A proxy is as good as the page behind it. What the page is read as becomes the exit address of
the proxy, so a page that is taken for an address by mistake would pass a proxy that leads
nowhere. A page counts if all of it, but for blanks at its ends, is one literal of an address.
Every address can be said in the form in which it is printed, no other page is accepted, and
what is refused is quoted from its start.

## Main results

* `Echo.pages_decoded` — which pages are read, as what, and what becomes of the others.
* `Probe.literal_of_check` — an attempt succeeds with an address that a whole page spells.
-/

namespace SocksPool

namespace Echo

open Text (trim isBlank)

variable {body : String} {ip : Address}

theorem read_eq_ok_iff : read body = .ok ip ↔ Address.Literal (trim body.toList) ip := by
  rw [← Address.parse?_eq_some_iff]
  unfold read readChars
  cases Address.parse? (trim body.toList) <;> simp

/-- A page without an address is refused, and its first characters are quoted. -/
theorem read_eq_error (h : ∀ ip, ¬ Address.Literal (trim body.toList) ip) :
    read body = .error (.invalidEcho (String.ofList ((trim body.toList).take 64))) := by
  have hnone : Address.parse? (trim body.toList) = none :=
    Option.eq_none_iff_forall_ne_some.2 fun ip hip => h ip (Address.parse?_eq_some_iff.1 hip)
  rw [read, readChars, hnone]
  rfl

/-- The printed form of an address is read, whatever blanks stand around it. -/
theorem read_toText (ip : Address) {before after : String}
    (hbefore : ∀ c ∈ before.toList, isBlank c = true)
    (hafter : ∀ c ∈ after.toList, isBlank c = true) :
    read (before ++ ip.toText ++ after) = .ok ip := by
  have htext : ip.toText.toList = ip.print := String.toList_ofList
  have hprinted := ip.literal_print
  rw [read_eq_ok_iff, String.toList_append, String.toList_append, htext,
    Text.trim_append hbefore hafter, Text.trim_of_forall hprinted.isBlank_eq_false]
  exact hprinted

/-- The printed form of every address is read as that address, between any blanks. A page is
read as an address exactly if it is one literal of it but for blanks at its ends, and what is
printed for that address is read as the same one. Every other page is refused with its first
characters. -/
theorem pages_decoded :
    (∀ (ip : Address) (before after : String), (∀ c ∈ before.toList, isBlank c = true) →
      (∀ c ∈ after.toList, isBlank c = true) → read (before ++ ip.toText ++ after) = .ok ip) ∧
    ∀ body : String,
      (∀ ip, read body = .ok ip ↔ Address.Literal (trim body.toList) ip) ∧
      (∀ ip, read body = .ok ip → Address.parse? ip.print = some ip) ∧
      ((∀ ip, ¬ Address.Literal (trim body.toList) ip) ↔
        read body = .error (.invalidEcho (String.ofList ((trim body.toList).take 64)))) := by
  refine ⟨fun ip before after => read_toText ip, fun body => ⟨fun ip => read_eq_ok_iff, ?_, ?_⟩⟩
  · exact fun ip _ => ip.parse?_print
  · refine ⟨read_eq_error, fun hrefused ip hliteral => ?_⟩
    rw [read_eq_ok_iff.2 hliteral] at hrefused
    cases hrefused

/-- A mapped address is printed with dots, and is read between an ideographic blank and a line
feed. -/
theorem pages_decoded_mapped :
    ∃ ip : Address, ip.toText = "::ffff:203.0.113.7" ∧
      (∀ c ∈ "\u3000 ".toList, isBlank c = true) ∧ (∀ c ∈ "\r\n".toList, isBlank c = true) ∧
      read ("\u3000 " ++ ip.toText ++ "\r\n") = .ok ip ∧ Address.parse? ip.print = some ip := by
  have hbefore : ∀ c ∈ "\u3000 ".toList, isBlank c = true := List.all_eq_true.1 (by decide)
  have hafter : ∀ c ∈ "\r\n".toList, isBlank c = true := List.all_eq_true.1 (by decide)
  let ip : Address := .v6 ⟨[0, 0, 0, 0, 0, 0xffff, 0xcb00, 0x7107], rfl⟩
  have hread : read ("\u3000 " ++ ip.toText ++ "\r\n") = .ok ip :=
    pages_decoded.1 ip _ _ hbefore hafter
  exact ⟨ip, by decide +kernel, hbefore, hafter, hread, (pages_decoded.2 _).2.1 ip hread⟩

end Echo

namespace Probe

/-- An attempt that succeeds has asked for a page and got one, and all of the page but blanks
at its ends is a literal of the address with which it succeeds. -/
theorem literal_of_check {p : Probe} {n : Network} {protocol : Protocol} {endpoint : String}
    {ip : Address} {c d : Course}
    (h : Talk.run (p.check n protocol endpoint) c = (some (.ok ip), d)) :
    ∃ page body, p.echoEndpoints.head? = some page ∧
      Talk.run (Web.read n ⟨route protocol endpoint, p.userAgents.head?⟩ page) c =
        (some (.ok body), d) ∧
      Address.Literal (Text.trim body.toList) ip := by
  unfold check at h
  split at h
  · exact absurd h Talk.run_throw_ne_ok
  · exact absurd h Talk.run_throw_ne_ok
  · next scheme page hscheme hpage =>
      dsimp only at h
      split at h
      · obtain ⟨_, _, hthrow, -⟩ := Talk.run_bind_eq_ok.1 h
        exact absurd hthrow Talk.run_throw_ne_ok
      · obtain ⟨body, mid, hread, hshown⟩ := Talk.run_bind_eq_ok.1 h
        obtain ⟨hecho, rfl⟩ := Talk.run_result_eq_ok.1 hshown
        exact ⟨page, body, hpage, Talk.run_adapt_eq_ok.1 hread, Echo.read_eq_ok_iff.1 hecho⟩

end Probe

end SocksPool
