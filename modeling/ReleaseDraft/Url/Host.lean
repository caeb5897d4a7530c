import ReleaseDraft.Url.Error
import ReleaseDraft.Url.Percent
import ReleaseDraft.Url.Punycode

/-!
# Hosts

The host of a URL is a name, an IPv4 address or an IPv6 address.  The special schemes read domain
names, in lower case and in ASCII form, and see an IPv4 address in every name that ends in a number;
the other schemes keep a name as it is.  An IPv6 address stands in square brackets.
-/

namespace ReleaseDraft

/-- A host. -/
inductive Host where
  | name (text : List Char)
  | ipv4 (value : Nat)
  | ipv6 (pieces : List Nat)
  deriving DecidableEq, Repr

namespace Host

/-! ### Printing -/

/-- The start and length of the first longest run of zeros. -/
def longestZeros (pieces : List Nat) : Nat × Nat :=
  (List.range pieces.length).foldl
    (fun best start =>
      let length := ((pieces.drop start).takeWhile (· == 0)).length
      if best.2 < length then (start, length) else best)
    (0, 0)

/-- Pieces in hexadecimal digits, with colons between them. -/
def piecesText (pieces : List Nat) : List Char := [':'].intercalate (pieces.map (Nat.toDigits 16))

/-- An IPv6 address, with the first longest run of two or more zeros left out. -/
def ipv6Text (pieces : List Nat) : List Char :=
  let (start, length) := longestZeros pieces
  if length < 2 then piecesText pieces
  else piecesText (pieces.take start) ++ [':', ':'] ++ piecesText (pieces.drop (start + length))

/-- The text of a host. -/
def text : Host → List Char
  | name text => text
  | ipv4 value =>
    ['.'].intercalate ([16777216, 65536, 256, 1].map fun unit =>
      Nat.toDigits 10 (value / unit % 256))
  | ipv6 pieces => '[' :: ipv6Text pieces ++ [']']

/-! ### IPv4 addresses -/

/-- The value of digits in a base, most significant first. -/
def ofDigits? (base : Nat) (digits : List Char) : Option Nat :=
  digits.foldlM
    (fun value c => do
      let d ← Percent.hexValue? c
      if d < base then some (value * base + d) else none)
    0

/-- A part of an IPv4 address: decimal, octal after a zero, or hexadecimal after `0x`. -/
def ipv4Part? (text : List Char) : Option Nat :=
  match text with
  | [] => none
  | '0' :: 'x' :: digits => ofDigits? 16 digits
  | '0' :: 'X' :: digits => ofDigits? 16 digits
  | '0' :: d :: digits => ofDigits? 8 (d :: digits)
  | digits => ofDigits? 10 digits

/-- The labels of a name, without an empty last one. -/
def labels (name : List Char) : List (List Char) :=
  let parts := name.splitOn '.'
  if 1 < parts.length && parts.getLast? == some [] then parts.dropLast else parts

/-- The last label is a number, so that the name has to be an IPv4 address. -/
def endsInNumber (name : List Char) : Bool :=
  match (labels name).getLast? with
  | none => false
  | some [] => false
  | some last => last.all Char.isDigit || (ipv4Part? last).isSome

/-- The address of a name that ends in a number: up to four parts, of which the last fills the
bytes that are left. -/
def ipv4? (name : List Char) : Option Host := do
  let parts ← (labels name).mapM ipv4Part?
  let last ← parts.getLast?
  let front := parts.dropLast
  if 3 < front.length || front.any (255 < ·) || Nat.pow 256 (4 - front.length) ≤ last then none
  else
    let high := front.foldl (fun value part => value * 256 + part) 0
    some (.ipv4 (high * Nat.pow 256 (4 - front.length) + last))

/-! ### IPv6 addresses -/

/-- A piece of an IPv6 address: one to four hexadecimal digits. -/
def ipv6Piece? (text : List Char) : Option Nat :=
  if text.isEmpty || 4 < text.length then none else ofDigits? 16 text

/-- A number of a dotted address: 0 to 255, without leading zeros. -/
def dottedNumber? (text : List Char) : Option Nat :=
  if text.isEmpty || (1 < text.length && text.head? == some '0') then none
  else (ofDigits? 10 text).filter (· ≤ 255)

/-- The two pieces of a dotted address. -/
def dotted? (text : List Char) : Option (List Nat) :=
  match (text.splitOn '.').mapM dottedNumber? with
  | some [a, b, c, d] => some [a * 256 + b, c * 256 + d]
  | _ => none

/-- The pieces of groups between colons; the last group may be a dotted address if `final`. -/
def groups? (final : Bool) : List (List Char) → Option (List Nat)
  | [] => some []
  | [last] =>
    if final && last.contains '.' then dotted? last else (ipv6Piece? last).map fun n => [n]
  | group :: rest => do
    let n ← ipv6Piece? group
    let rest ← groups? final rest
    some (n :: rest)

/-- The pieces of a text without a double colon. -/
def pieces? (final : Bool) (text : List Char) : Option (List Nat) :=
  if text.isEmpty then some [] else groups? final (text.splitOn ':')

/-- The text before and after the first double colon. -/
def atDoubleColon : List Char → Option (List Char × List Char)
  | [] => none
  | ':' :: ':' :: rest => some ([], rest)
  | c :: rest => (atDoubleColon rest).map fun (before, after) => (c :: before, after)

/-- The address in a text: eight pieces, or fewer around a double colon. -/
def ipv6? (text : List Char) : Option Host :=
  match atDoubleColon text with
  | none => do
    let pieces ← pieces? true text
    if pieces.length == 8 then some (.ipv6 pieces) else none
  | some (before, after) => do
    let left ← pieces? false before
    let right ← pieces? true after
    if 7 < left.length + right.length then none
    else some (.ipv6 (left ++ List.replicate (8 - left.length - right.length) 0 ++ right))

/-- The address between square brackets, for a host that starts with one. -/
def bracketed (inner : List Char) : Except UrlError Host :=
  if inner.getLast? == some ']' then
    match ipv6? inner.dropLast with
    | some host => .ok host
    | none => .error .invalidIpv6
  else .error .invalidIpv6

/-! ### Names -/

/-- The lower-case form of a character of a domain name in Latin, Greek or Cyrillic letters; wide
forms of ASCII become ASCII, and the other full stops a full stop. -/
def fold (c : Char) : Char :=
  let n := c.toNat
  if 0x41 ≤ n && n ≤ 0x5A then Char.ofNat (n + 32)
  else if n == 0x3002 || n == 0xFF0E || n == 0xFF61 then '.'
  else if 0xFF21 ≤ n && n ≤ 0xFF3A then Char.ofNat (n - 0xFEE0 + 32)
  else if 0xFF01 ≤ n && n ≤ 0xFF5E then Char.ofNat (n - 0xFEE0)
  else if 0xC0 ≤ n && n ≤ 0xDE && n != 0xD7 then Char.ofNat (n + 32)
  else if 0x391 ≤ n && n ≤ 0x3A9 && n != 0x3A2 then Char.ofNat (n + 32)
  else if 0x410 ≤ n && n ≤ 0x42F then Char.ofNat (n + 32)
  else if 0x400 ≤ n && n ≤ 0x40F then Char.ofNat (n + 80)
  else c

/-- A character that no domain name has. -/
def isForbidden (c : Char) : Bool :=
  c.toNat ≤ 0x20 || c.toNat == 0x7F || c.toNat == 0xFFFD || "%#/:<>?@[\\]^|".toList.contains c

/-- The ASCII form of a label. -/
def asciiLabel (label : List Char) : List Char :=
  if label.all (·.toNat < 0x80) then label else "xn--".toList ++ Punycode.encode label

/-- The ASCII form of a domain name. -/
def domain (text : List Char) : Except UrlError (List Char) :=
  let folded := ((Percent.decode text).filter fun c => c.toNat != 0xAD).map fold
  if folded.any isForbidden then .error .invalidDomain
  else .ok (['.'].intercalate ((folded.splitOn '.').map asciiLabel))

/-- The host of a URL with a special scheme. -/
def ofDomain : List Char → Except UrlError Host
  | '[' :: inner => bracketed inner
  | text => do
    let name ← domain text
    if name.isEmpty then .error .emptyHost
    else if endsInNumber name then
      match ipv4? name with
      | some host => .ok host
      | none => .error .invalidIpv4
    else .ok (.name name)

/-- A character that no host has. -/
def isReserved (c : Char) : Bool :=
  c.toNat == 0 || c.toNat == 9 || c.toNat == 10 || c.toNat == 13 ||
    " #/:<>?@[\\]^|".toList.contains c

/-- The host of a URL with another scheme. -/
def ofName : List Char → Except UrlError Host
  | '[' :: inner => bracketed inner
  | text =>
    if text.any isReserved then .error .invalidHostCharacter
    else .ok (.name (Percent.encode Percent.control text))

end Host

end ReleaseDraft
