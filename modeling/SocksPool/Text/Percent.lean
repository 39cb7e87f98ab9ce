import SocksPool.Text.Number

/-!
# Percent-encoding

A location holds only ASCII. Every other character, and every ASCII
character of a given set, is written as its UTF-8 bytes, each as a percent
sign and two upper-case hexadecimal digits. A percent sign that is already
there is kept.
-/

namespace SocksPool.Text.Percent

/-- The digit of a value below sixteen. -/
def upperDigit (n : Nat) : Char :=
  if n < 10 then Char.ofNat ('0'.toNat + n) else Char.ofNat ('A'.toNat + (n - 10))

/-- The written form of one byte. -/
def encodeByte (b : UInt8) : List Char :=
  ['%', upperDigit (b.toNat / 16), upperDigit (b.toNat % 16)]

/-- Whether a character is an ASCII control character. -/
def isControl (c : Char) : Bool := c.toNat < 0x20 || c.toNat == 0x7F

/-- The written form of one character: itself, if it is ASCII, no control
character and not in `escape`. -/
def encodeChar (escape : Char → Bool) (c : Char) : List Char :=
  if c.toNat < 0x80 && !isControl c && !escape c then [c]
  else (String.utf8EncodeChar c).flatMap encodeByte

/-- The written form of a text. Control characters and characters outside
ASCII are always escaped. -/
def encode (escape : Char → Bool) (text : List Char) : List Char :=
  text.flatMap (encodeChar escape)

/-- The bytes of a text in which each escape stands for the byte it names. -/
def decodeBytes : List Char → List UInt8
  | '%' :: a :: b :: rest =>
    match hexValue? a, hexValue? b with
    | some high, some low => UInt8.ofNat (high * 16 + low) :: decodeBytes rest
    | _, _ => '%'.toUInt8 :: decodeBytes (a :: b :: rest)
  | c :: rest => String.utf8EncodeChar c ++ decodeBytes rest
  | [] => []
termination_by text => text.length

/-- The text that an escaped text stands for, if its bytes are UTF-8. -/
def decode? (text : List Char) : Option (List Char) :=
  (String.fromUTF8? ⟨(decodeBytes text).toArray⟩).map String.toList

end SocksPool.Text.Percent
