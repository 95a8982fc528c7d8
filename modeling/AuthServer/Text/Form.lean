import AuthServer.Text.Blank
import AuthServer.Text.Percent

/-!
# Form decoding

Reading of `application/x-www-form-urlencoded` bytes: pairs between `&`,
empty ones skipped, name and value at the first `=`, `+` for a space,
percent escapes, and U+FFFD for what is not UTF-8.
-/

namespace AuthServer.Text.Form

/-- One name or value. -/
def decodeText (bs : List UInt8) : String :=
  String.ofList (Utf8.decodeLossy (Percent.decode (bs.map fun b => if b = 0x2B then 0x20 else b)))

def decodePair (bs : List UInt8) : String × String :=
  (decodeText (bs.takeWhile (· ≠ 0x3D)), decodeText ((bs.dropWhile (· ≠ 0x3D)).drop 1))

def decode (bs : List UInt8) : List (String × String) :=
  (runs (· = 0x26) bs).map decodePair

end AuthServer.Text.Form
