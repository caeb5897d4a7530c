import ReleaseDraft.Text.Utf8

/-!
# Percent encoding

Each component of a URL has a set of characters that are written as the percent-encoded bytes of
their UTF-8 form; every other character stands for itself.  A set is a predicate on characters, and
the sets grow from `control` by adding characters.
-/

namespace ReleaseDraft

namespace Percent

open Text

/-! ### Sets -/

/-- Controls and everything outside ASCII. -/
def control (c : Char) : Bool := c.toNat < 0x20 || 0x7E < c.toNat

/-- The set of fragments. -/
def fragment (c : Char) : Bool := control c || " \"<>`".toList.contains c

/-- The set of queries. -/
def query (c : Char) : Bool := control c || " \"#<>".toList.contains c

/-- The set of queries of the special schemes. -/
def specialQuery (c : Char) : Bool := query c || c.toNat == 0x27

/-- The set of path segments. -/
def path (c : Char) : Bool := fragment c || "#?\x7b\x7d".toList.contains c

/-- The set of user names and passwords. -/
def userInfo (c : Char) : Bool := path c || "/:;=@[\\]^|".toList.contains c

/-- The characters that form encoding keeps. -/
def keptInForm (c : Char) : Bool := c.isAlphanum || "*-._".toList.contains c

/-! ### Encoding -/

/-- An upper-case hexadecimal digit. -/
def hexDigit (n : Nat) : Char := if n < 10 then Char.ofNat (0x30 + n) else Char.ofNat (0x37 + n)

/-- A byte as a percent sign and two digits. -/
def encodeByte (b : UInt8) : List Char := ['%', hexDigit (b.toNat / 16), hexDigit (b.toNat % 16)]

/-- A character as percent-encoded bytes. -/
def encodeChar (c : Char) : List Char := (Utf8.encodeChar c).flatMap encodeByte

/-- The text with the characters of a set encoded. -/
def encode (set : Char → Bool) (text : List Char) : List Char :=
  text.flatMap fun c => if set c then encodeChar c else [c]

/-- The form encoding of a key or value: a space becomes a plus sign. -/
def encodeForm (text : List Char) : List Char :=
  text.flatMap fun c =>
    if c == ' ' then ['+'] else if keptInForm c then [c] else encodeChar c

/-! ### Decoding -/

/-- The value of a hexadecimal digit of either case. -/
def hexValue? (c : Char) : Option Nat :=
  let n := c.toNat
  if 0x30 ≤ n && n ≤ 0x39 then some (n - 0x30)
  else if 0x41 ≤ n && n ≤ 0x46 then some (n - 0x37)
  else if 0x61 ≤ n && n ≤ 0x66 then some (n - 0x57)
  else none

/-- The bytes of a text, with each percent sign and two digits read as one byte. -/
def decodeBytes : List Char → List UInt8
  | [] => []
  | '%' :: a :: b :: rest =>
    match hexValue? a, hexValue? b with
    | some high, some low => (high * 16 + low).toUInt8 :: decodeBytes rest
    | _, _ => 0x25 :: decodeBytes (a :: b :: rest)
  | c :: rest => Utf8.encodeChar c ++ decodeBytes rest
termination_by text => text.length

/-- The text with its percent-encoded bytes read back. -/
def decode (text : List Char) : List Char := Utf8.decodeLenient (decodeBytes text)

end Percent

end ReleaseDraft
