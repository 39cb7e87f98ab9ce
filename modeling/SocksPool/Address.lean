import SocksPool.Text.Number
import SocksPool.Text.Pieces

/-!
# Internet addresses

The exit address of a proxy is what its echo page says, so the text of an
address is read strictly. An IPv4 address is four decimal octets without
leading zeros. An IPv6 address is eight groups of one to four hexadecimal
digits, where one `::` may stand for one or more zero groups and the last
two groups may be written as an IPv4 address.

An address is printed in its shortest standard form: groups in lower case
without leading zeros, the first of the longest runs of at least two zero
groups as `::`, and an address of the IPv4-mapped block in dotted form.
`Ipv6.compressed` is the same text without the dotted form, as the host
part of a location wants it.
-/

namespace SocksPool

/-- An IPv4 address. -/
structure Ipv4 where
  first : UInt8
  second : UInt8
  third : UInt8
  fourth : UInt8
deriving DecidableEq, Repr

/-- An IPv6 address, as eight groups of sixteen bits. -/
structure Ipv6 where
  groups : List UInt16
  length_groups : groups.length = 8
deriving DecidableEq, Repr

/-- An address of either kind. -/
inductive Address where
  | v4 (address : Ipv4)
  | v6 (address : Ipv6)
deriving DecidableEq, Repr

namespace Ipv4

/-- Reads one octet: one to three digits, at most 255, no leading zero. -/
def octet? (text : List Char) : Option UInt8 :=
  if text.length ≤ 3 ∧ (text.head? ≠ some '0' ∨ text.length = 1) then
    (Text.decimal? 255 text).map UInt8.ofNat
  else none

/-- Reads four octets between three dots. -/
def parse? (text : List Char) : Option Ipv4 :=
  match Text.pieces '.' text with
  | [a, b, c, d] => do
    return ⟨← octet? a, ← octet? b, ← octet? c, ← octet? d⟩
  | _ => none

/-- The dotted text of an address. -/
def print (ip : Ipv4) : List Char :=
  Text.decimal ip.first.toNat ++ '.' :: Text.decimal ip.second.toNat ++
    '.' :: Text.decimal ip.third.toNat ++ '.' :: Text.decimal ip.fourth.toNat

/-- The address as one number of 32 bits, first octet highest. -/
def toNat (ip : Ipv4) : Nat :=
  ((ip.first.toNat * 256 + ip.second.toNat) * 256 + ip.third.toNat) * 256 + ip.fourth.toNat

/-- The address whose bits are the low 32 bits of a number. -/
def ofNat (n : Nat) : Ipv4 :=
  ⟨UInt8.ofNat (n / 16777216), UInt8.ofNat (n / 65536), UInt8.ofNat (n / 256), UInt8.ofNat n⟩

/-- The two groups that an IPv4 address fills inside an IPv6 address. -/
def groups (ip : Ipv4) : List UInt16 :=
  [UInt16.ofNat (ip.first.toNat * 256 + ip.second.toNat),
    UInt16.ofNat (ip.third.toNat * 256 + ip.fourth.toNat)]

end Ipv4

namespace Ipv6

/-- Reads one group: one to four hexadecimal digits. -/
def group? (text : List Char) : Option UInt16 :=
  if text.length ≤ 4 then (Text.number? 16 text).map UInt16.ofNat else none

/-- Reads a sequence of groups between colons. The last part may be an
IPv4 address if `tail` allows it, and then fills two groups. -/
def sequence? (tail : Bool) : List (List Char) → Option (List UInt16)
  | [] => some []
  | [part] =>
    match group? part with
    | some group => some [group]
    | none => if tail then (Ipv4.parse? part).map Ipv4.groups else none
  | part :: more => do
    return (← group? part) :: (← sequence? tail more)

/-- Reads the groups on one side of a `::`, of which there may be none. -/
def side? (tail : Bool) : List Char → Option (List UInt16)
  | [] => some []
  | text => sequence? tail (Text.pieces ':' text)

/-- What stands before and after the first `::`. -/
def cutGap : List Char → Option (List Char × List Char)
  | ':' :: ':' :: rest => some ([], rest)
  | c :: rest => (cutGap rest).map fun parts => (c :: parts.1, parts.2)
  | [] => none

/-- The address with the given groups around a gap of zero groups, which
has to stand for at least one. -/
def fill? (before after : List UInt16) : Option Ipv6 :=
  if h : before.length + after.length ≤ 7 then
    some ⟨before ++ List.replicate (8 - before.length - after.length) 0 ++ after, by
      simp only [List.length_append, List.length_replicate]; omega⟩
  else none

/-- Reads an address with or without a gap. -/
def parse? (text : List Char) : Option Ipv6 :=
  match cutGap text with
  | some (before, after) => do fill? (← side? false before) (← side? true after)
  | none =>
    match sequence? true (Text.pieces ':' text) with
    | some groups => if h : groups.length = 8 then some ⟨groups, h⟩ else none
    | none => none

/-! ## Printing -/

/-- Length of the run of zero groups at the start. -/
def zeroRun (groups : List UInt16) : Nat := (groups.takeWhile (· == 0)).length

/-- Start and length of the first of the longest runs of zero groups;
`start` is the position of the first group of the list. -/
def longestRun (start : Nat) : List UInt16 → Nat × Nat
  | [] => (start, 0)
  | g :: rest =>
    let here := zeroRun (g :: rest)
    let later := longestRun (start + 1) rest
    if here < later.2 then later else (start, here)

/-- Groups between colons. -/
def joinGroups (groups : List UInt16) : List Char :=
  [':'].intercalate (groups.map fun g => Text.hexadecimal g.toNat)

/-- The text of an address with its longest run of zero groups left out. -/
def compressed (ip : Ipv6) : List Char :=
  let run := longestRun 0 ip.groups
  if run.2 < 2 then joinGroups ip.groups
  else joinGroups (ip.groups.take run.1) ++ [':', ':'] ++
    joinGroups (ip.groups.drop (run.1 + run.2))

/-- The IPv4 address that an address of the IPv4-mapped block stands for. -/
def mapped? (ip : Ipv6) : Option Ipv4 :=
  match ip.groups with
  | [0, 0, 0, 0, 0, 0xffff, high, low] => some (Ipv4.ofNat (high.toNat * 65536 + low.toNat))
  | _ => none

/-- The standard text of an address. -/
def print (ip : Ipv6) : List Char :=
  match mapped? ip with
  | some inner => "::ffff:".toList ++ inner.print
  | none => compressed ip

/-- The loopback address. -/
def loopback : Ipv6 := ⟨[0, 0, 0, 0, 0, 0, 0, 1], rfl⟩

end Ipv6

namespace Address

/-- Reads an address of either kind. -/
def parse? (text : List Char) : Option Address :=
  match Ipv4.parse? text with
  | some ip => some (.v4 ip)
  | none => (Ipv6.parse? text).map .v6

/-- The standard text of an address. -/
def print : Address → List Char
  | .v4 ip => ip.print
  | .v6 ip => ip.print

/-- The standard text of an address. -/
def toText (ip : Address) : String := String.ofList ip.print

end Address

end SocksPool
