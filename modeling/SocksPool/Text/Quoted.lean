import SocksPool.Text.Printable

/-!
# Quoted text

Text from the network is quoted before it enters an error message. The
quotation is unambiguous: a double quote and a backslash are escaped, line
breaks and the other usual controls have a letter of their own, and every
character that is not printable is written as its code point.
-/

namespace SocksPool.Text.Quoted

/-- The lower-case hexadecimal digits of a code point. -/
def hexDigits (n : Nat) : List Char := Nat.toDigits 16 n

/-- The written form of one character. -/
def encodeChar (c : Char) : List Char :=
  match c with
  | '\x22' => ['\\', '\x22']
  | '\\' => ['\\', '\\']
  | '\n' => ['\\', 'n']
  | '\r' => ['\\', 'r']
  | '\t' => ['\\', 't']
  | '\x00' => ['\\', '0']
  | c =>
    if isPrintable c then [c]
    else ['\\', 'u', '\x7b'] ++ hexDigits c.toNat ++ ['\x7d']

/-- The text between double quotes. -/
def encode (text : List Char) : List Char :=
  '\x22' :: text.flatMap encodeChar ++ ['\x22']

/-- The text between double quotes. -/
def quote (text : String) : String := String.ofList (encode text.toList)

end SocksPool.Text.Quoted
