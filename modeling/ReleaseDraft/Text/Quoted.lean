import ReleaseDraft.Text.Hidden

/-!
# Quoted text

A text in a message stands between double quotes.  The quote and the backslash are escaped, the
common controls have their short names, and every other hidden character is written by its code
point in hexadecimal between braces.
-/

namespace ReleaseDraft

namespace Text

/-- A character as it stands in a quoted text. -/
def quotedChar (c : Char) : List Char :=
  if c = '\x00' then ['\\', '0']
  else if c = '\t' then ['\\', 't']
  else if c = '\n' then ['\\', 'n']
  else if c = '\r' then ['\\', 'r']
  else if c = '"' || c = '\\' then ['\\', c]
  else if isHidden c then ['\\', 'u', '{'] ++ Nat.toDigits 16 c.toNat ++ ['}']
  else [c]

/-- A text between double quotes. -/
def quoted (cs : List Char) : List Char := '"' :: cs.flatMap quotedChar ++ ['"']

end Text

end ReleaseDraft
