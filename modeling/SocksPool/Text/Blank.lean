/-!
# White space and lines

Seed lists and echo pages come from strangers, so both ends of every line
are cleaned before it is read. *Blank* is the Unicode property
`White_Space`, a fixed set of twenty-five code points; it is wider than the
ASCII class of `Char.isWhitespace`.

Texts are handled as lists of characters here and in the readers that use
this module. `String` appears only at the public entry points.
-/

namespace SocksPool.Text

/-- The code points with the Unicode property `White_Space`. -/
def isBlank (c : Char) : Bool :=
  let n := c.toNat
  (0x09 ≤ n && n ≤ 0x0D) || n == 0x20 || n == 0x85 || n == 0xA0 || n == 0x1680 ||
    (0x2000 ≤ n && n ≤ 0x200A) || n == 0x2028 || n == 0x2029 || n == 0x202F ||
    n == 0x205F || n == 0x3000

/-- The text without the longest run of characters in `p` at its end. -/
def dropEndWhile (p : Char → Bool) (text : List Char) : List Char :=
  (text.reverse.dropWhile p).reverse

/-- The text without blanks at its start and its end. -/
def trim (text : List Char) : List Char :=
  dropEndWhile isBlank (text.dropWhile isBlank)

/-- The text without blanks at its start and its end. -/
def trimString (text : String) : String :=
  String.ofList (trim text.toList)

/-- The lines of a text, each ended by a line feed or by a carriage return
and a line feed. A break at the very end of the text opens no further line. -/
def lines : List Char → List (List Char)
  | [] => []
  | '\n' :: rest => [] :: lines rest
  | '\r' :: '\n' :: rest => [] :: lines rest
  | c :: rest =>
    match lines rest with
    | [] => [[c]]
    | line :: more => (c :: line) :: more

end SocksPool.Text
