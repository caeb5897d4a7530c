import ReleaseDraft.Text.Blank
import ReleaseDraft.Text.Utf8

/-!
# Charsets

The text of a message body.  A byte order mark decides the encoding and is dropped; without one the
declared charset decides, and UTF-8 stands in for a charset that is missing or unknown.  Malformed
bytes become U+FFFD.
-/

namespace ReleaseDraft

namespace Text

/-- The encodings a body may be declared in. -/
inductive Charset where
  | utf8
  | utf16 (bigEndian : Bool)
  | windows1252
  deriving DecidableEq, Repr

namespace Charset

/-- The code points of bytes 0x80 to 0x9F in windows-1252. -/
def windows1252Upper : List Nat :=
  [0x20AC, 0x81, 0x201A, 0x0192, 0x201E, 0x2026, 0x2020, 0x2021, 0x02C6, 0x2030, 0x0160, 0x2039,
   0x0152, 0x8D, 0x017D, 0x8F, 0x90, 0x2018, 0x2019, 0x201C, 0x201D, 0x2022, 0x2013, 0x2014,
   0x02DC, 0x2122, 0x0161, 0x203A, 0x0153, 0x9D, 0x017E, 0x0178]

/-- The character of a byte in windows-1252. -/
def windows1252Char (b : UInt8) : Char :=
  if 0x80 ≤ b && b ≤ 0x9F then Char.ofNat (windows1252Upper.getD (b.toNat - 0x80) 0xFFFD)
  else Char.ofNat b.toNat

/-- The 16-bit units of bytes, and whether a single byte is left over. -/
def units (bigEndian : Bool) : List UInt8 → List Nat × Bool
  | [] => ([], false)
  | [_] => ([], true)
  | a :: b :: rest =>
    let unit := if bigEndian then a.toNat * 256 + b.toNat else b.toNat * 256 + a.toNat
    let tail := units bigEndian rest
    (unit :: tail.1, tail.2)

/-- The characters of 16-bit units; a surrogate without its partner becomes U+FFFD. -/
def ofUnits : List Nat → List Char
  | [] => []
  | [u] => [if 0xD800 ≤ u && u ≤ 0xDFFF then Char.ofNat 0xFFFD else Char.ofNat u]
  | u :: v :: rest =>
    if 0xD800 ≤ u && u ≤ 0xDBFF && 0xDC00 ≤ v && v ≤ 0xDFFF then
      Char.ofNat (0x10000 + (u - 0xD800) * 1024 + (v - 0xDC00)) :: ofUnits rest
    else if 0xD800 ≤ u && u ≤ 0xDFFF then Char.ofNat 0xFFFD :: ofUnits (v :: rest)
    else Char.ofNat u :: ofUnits (v :: rest)

/-- The text of bytes in an encoding. -/
def decode : Charset → List UInt8 → List Char
  | .utf8, bytes => Utf8.decodeLenient bytes
  | .utf16 bigEndian, bytes =>
    let split := units bigEndian bytes
    ofUnits split.1 ++ (if split.2 then [Char.ofNat 0xFFFD] else [])
  | .windows1252, bytes => bytes.map windows1252Char

/-- The encoding that a label names. -/
def ofLabel? (label : List Char) : Option Charset :=
  let name := String.ofList ((trim label).map Char.toLower)
  if ["utf-8", "utf8", "unicode-1-1-utf-8", "x-unicode20utf8"].contains name then some .utf8
  else if ["utf-16", "utf-16le", "ucs-2", "unicode", "iso-10646-ucs-2"].contains name then
    some (.utf16 false)
  else if name == "utf-16be" then some (.utf16 true)
  else if ["windows-1252", "cp1252", "x-cp1252", "iso-8859-1", "iso8859-1", "iso88591",
      "iso_8859-1", "latin1", "l1", "us-ascii", "ascii", "cp819", "ibm819"].contains name then some .windows1252
  else none

/-- The charset parameter of a media type. -/
def parameter? (contentType : List Char) : Option (List Char) :=
  ((contentType.splitOnP (· == ';')).drop 1).findSome? fun part =>
    let name := part.takeWhile (· != '=')
    if (trim name).map Char.toLower = "charset".toList then
      some ((trim (part.drop (name.length + 1))).filter (· != '"'))
    else none

/-- The text of a body whose media type is `contentType`. -/
def bodyText (contentType : Option String) (body : List UInt8) : List Char :=
  match body with
  | 0xEF :: 0xBB :: 0xBF :: rest => utf8.decode rest
  | 0xFF :: 0xFE :: rest => (utf16 false).decode rest
  | 0xFE :: 0xFF :: rest => (utf16 true).decode rest
  | _ =>
    let declared := (contentType.bind fun t => parameter? t.toList).bind ofLabel?
    (declared.getD .utf8).decode body

end Charset

end Text

end ReleaseDraft
