/-!
# Reading numbers

Ports, octets and address groups are written in plain digits: no sign, no
space, no digit separator. `digit?` gives the value of one digit in a base
up to sixteen, `number?` reads a whole text.
-/

namespace SocksPool.Text

/-- The value of a hexadecimal digit of either case. -/
def hexValue? (c : Char) : Option Nat :=
  if '0' ≤ c ∧ c ≤ '9' then some (c.toNat - '0'.toNat)
  else if 'a' ≤ c ∧ c ≤ 'f' then some (c.toNat - 'a'.toNat + 10)
  else if 'A' ≤ c ∧ c ≤ 'F' then some (c.toNat - 'A'.toNat + 10)
  else none

/-- The value of a digit in the given base, which is at most sixteen. -/
def digit? (base : Nat) (c : Char) : Option Nat :=
  (hexValue? c).filter (· < base)

/-- The number written by the digits, read onto `acc`. -/
def foldDigits? (base : Nat) : List Char → Nat → Option Nat
  | [], acc => some acc
  | c :: rest, acc => do foldDigits? base rest (acc * base + (← digit? base c))

/-- The number written by a text of one or more digits. -/
def number? (base : Nat) : List Char → Option Nat
  | [] => none
  | digits => foldDigits? base digits 0

/-- The number written by a text of one or more decimal digits, if it is at
most `limit`. -/
def decimal? (limit : Nat) (digits : List Char) : Option Nat :=
  (number? 10 digits).filter (· ≤ limit)

/-- The decimal text of a number. -/
def decimal (n : Nat) : List Char := Nat.toDigits 10 n

/-- The lower-case hexadecimal text of a number. -/
def hexadecimal (n : Nat) : List Char := Nat.toDigits 16 n

end SocksPool.Text
