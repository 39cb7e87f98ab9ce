import SocksPool.Address
import SocksPool.Error
import SocksPool.Text.Blank

/-!
# Echo pages

An echo page answers with the address that it sees, which is the exit
address of the proxy in between. Its body is one address and blanks around
it; anything else is refused, and the refusal quotes the start of the body.

## Main definitions

* `Echo.read` — the address on a page.
-/

namespace SocksPool.Echo

/-- How many characters of a refused body are quoted. -/
def quotedLength : Nat := 64

/-- The address on a page of characters. -/
def readChars (body : List Char) : Except PoolError Address :=
  match Address.parse? (Text.trim body) with
  | some address => .ok address
  | none => .error (.invalidEcho (String.ofList ((Text.trim body).take quotedLength)))

/-- The address on a page. -/
def read (body : String) : Except PoolError Address := readChars body.toList

end SocksPool.Echo
