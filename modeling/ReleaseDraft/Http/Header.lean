import ReleaseDraft.Text.Utf8

/-!
# Header values

A header value is a sequence of bytes without controls other than the tab.  Only values of visible
ASCII characters, spaces and tabs are read as text.
-/

namespace ReleaseDraft

namespace Http

namespace Header

/-- A byte that may stand in a header value. -/
def isLegalByte (b : UInt8) : Bool := b == 9 || (0x20 ≤ b && b != 0x7F)

/-- May stand in a header. -/
def isLegal (value : List UInt8) : Bool := value.all isLegalByte

/-- A visible ASCII character, a space or a tab. -/
def isPlainByte (b : UInt8) : Bool := b == 9 || (0x20 ≤ b && b < 0x7F)

/-- The text of a header value, if all of it is plain. -/
def text? (value : List UInt8) : Option (List Char) :=
  if value.all isPlainByte then some (value.map fun b => Char.ofNat b.toNat) else none

end Header

end Http

end ReleaseDraft
