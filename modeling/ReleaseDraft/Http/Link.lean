import ReleaseDraft.Http.Header
import ReleaseDraft.Text.Blank
import ReleaseDraft.Url.Reader

/-!
# Link headers

A link header lists links `<target>parameters`.  The parameters of a link reach to the next `<`; the
relations of a link are the words in the value of its first `rel` parameter.  `Link.next` is the
target of the first link whose relations include `next`, resolved against the page that sent it.
-/

namespace ReleaseDraft

namespace Http

/-- A link: where it leads and the text that describes it. -/
structure Link where
  target : List Char
  parameters : List Char
  deriving DecidableEq, Repr

namespace Link

/-! ### Links of a header -/

/-- The links of a header in order. -/
def scan (text : List Char) : List Link :=
  match _outer : text.dropWhile (· != '<') with
  | [] => []
  | _ :: rest =>
    match _inner : rest.dropWhile (· != '>') with
    | [] => []
    | _ :: after =>
      ⟨rest.takeWhile (· != '>'), after.takeWhile (· != '<')⟩ :: scan after
termination_by text.length
decreasing_by
  have outer := (List.dropWhile_suffix (l := text) (· != '<')).length_le
  have inner := (List.dropWhile_suffix (l := rest) (· != '>')).length_le
  simp only [_outer, _inner, List.length_cons] at outer inner
  omega

/-! ### Relations of a link -/

/-- A character of a word: a letter, a digit or an underscore. -/
def inWord (c : Char) : Bool := c.isAlphanum || c == '_'

/-- A character of a parameter's value. -/
def inValue (c : Char) : Bool := c != '"' && c != ';' && c != ','

/-- The value after an equals sign: what stands after blanks and one quotation mark.  Blanks alone
are a value without words; nothing at all is no value. -/
def value? (text : List Char) : Option (List Char) :=
  let rest := text.dropWhile Text.isBlank
  let value := (if rest.head? == some '"' then rest.drop 1 else rest).takeWhile inValue
  if !value.isEmpty then some value
  else if (text.takeWhile Text.isBlank).isEmpty then none
  else some []

/-- The value of a `rel` parameter that starts the text. -/
def relAt? : List Char → Option (List Char)
  | r :: e :: l :: rest =>
    if [r, e, l].map Char.toLower == ['r', 'e', 'l'] then
      match rest.dropWhile Text.isBlank with
      | '=' :: after => value? after
      | _ => none
    else none
  | _ => none

/-- The value of the first `rel` parameter; `inside` says that the text goes on inside a word. -/
def rel? (inside : Bool) : List Char → Option (List Char)
  | [] => none
  | c :: rest =>
    (if inside then none else relAt? (c :: rest)) <|> rel? (inWord c) rest

/-- The link has the relation `next`. -/
def isNext (link : Link) : Bool :=
  match rel? false link.parameters with
  | some value => (Text.words value).any fun word => word.map Char.toLower == "next".toList
  | none => false

/-! ### The next page -/

/-- The target of the first link to a next page in some header values; values that are not plain
text are passed over. -/
def nextTarget? (headers : List (List UInt8)) : Option (List Char) :=
  ((headers.filterMap Header.text?).flatMap scan).find? isNext |>.map Link.target

/-- The next page after the page `current` with the given header values. -/
def next (current : Url) (headers : List (List UInt8)) : Except UrlError (Option Url) :=
  match nextTarget? headers with
  | some target => (current.resolve target).map some
  | none => .ok none

end Link

end Http

end ReleaseDraft
