import LogTemplate.Address

/-!
# Words

Words, numbers, IPv4 addresses and URIs, told apart by the classes of their characters, and the
quotation marks that keep several words together.

* `Quotation` is an open quotation; inside it, only its closing mark ends a word;
* `WordState.step` advances over one character and says whether the word goes on;
* `Lexeme.ofWord` is the word at the beginning of a text. It always holds the first character, so
  `Lexeme.more` counts the others.
-/

namespace LogTemplate

/-- A character that may stand in a URL. -/
def isUrlChar (c : Char) : Bool :=
  c ∈ ['-', '.', '_', '~', ':', '/', '?', '#', '[', ']', '@', '!', '$', '&', '\'', '(', ')', '*',
    '+', ',', ';', '=', '%', '|'] || c.isAlphanum

/-- A quotation that is open. -/
inductive Quotation where
  | double
  | single
  | angle
  deriving DecidableEq, Repr

namespace Quotation

/-- The mark that closes a quotation. -/
def closing : Quotation → Char
  | double => '"'
  | single => '\''
  | angle => '>'

/-- Some quotation is open and `c` does not close it. -/
def keeps (q : Option Quotation) (c : Char) : Bool :=
  match q with
  | some q => c != q.closing
  | none => false

/-- The quotation after a mark that opens and closes alike. -/
def toggle (q : Option Quotation) (mark : Quotation) : Option Quotation :=
  match q with
  | none => some mark
  | some current => if current = mark then none else some current

end Quotation

/-- What is known of a word that is being read. -/
structure WordState where
  kind : Kind
  /-- Dots of a number. -/
  dots : Nat := 0
  /-- The last character was a backslash. -/
  escaped : Bool := false
  deriving DecidableEq, Repr

namespace WordState

/-- The word goes on as a literal over a word character or a quoted one; else it ends. -/
def asLiteral (s : WordState) (q : Option Quotation) (c : Char) : WordState × Bool :=
  if isWordChar c || Quotation.keeps q c then ({ s with kind := .literal }, true) else (s, false)

/-- The `i`-th character fits the scheme of a URI, `http://` or `https://`. -/
def fitsScheme (i : Nat) (c : Char) : Bool :=
  ((i == 1 || i == 2) && (c == 't' || c == 'T')) ||
  (i == 3 && (c == 'p' || c == 'P')) ||
  (i == 4 && (c == 's' || c == 'S')) ||
  ((i == 4 || i == 5) && c == ':') ||
  ((5 ≤ i && i ≤ 7) && c == '/')

/-- Advance a URI over its `i`-th character. What does not become a URI is a literal. -/
def uriStep (s : WordState) (q : Option Quotation) (i : Nat) (c : Char) : WordState × Bool :=
  if fitsScheme i c || (6 ≤ i && isUrlChar c) then (s, true)
  else if (i == 4 && c == '/') || isWordChar c || Quotation.keeps q c then
    ({ s with kind := .literal }, true)
  else (if i < 6 then { s with kind := .literal } else s, false)

/-- Advance a number. A dot turns an integer into a float and a float into an address. -/
def numberStep (s : WordState) (q : Option Quotation) (c : Char) : WordState × Bool :=
  if c.isDigit then (s, true)
  else if c = '.' then
    ({ s with dots := s.dots + 1, kind := if s.kind = .integer then .float else .ipv4 }, true)
  else if s.kind = .ipv4 && c == '/' then (s, false)
  else s.asLiteral q c

/-- Advance over the `i`-th character of a word; `false` ends the word before it. -/
def step (s : WordState) (q : Option Quotation) (i : Nat) (c : Char) : WordState × Bool :=
  let (next, goesOn) := match s.kind with
    | .uri => s.uriStep q i c
    | .integer | .float | .ipv4 => s.numberStep q c
    | _ => (s, isWordChar c || s.escaped || Quotation.keeps q c || (q.isNone && c == '\''))
  ({ next with escaped := c == '\\' }, goesOn)

/-- Read a word on from its `i`-th character: how many characters it takes, what it is then, and
whether a character ended it. -/
def read (q : Option Quotation) : Nat → WordState → Text → Nat × WordState × Bool
  | _, s, [] => (0, s, false)
  | i, s, c :: rest =>
    match s.step q i c with
    | (next, false) => (0, next, true)
    | (next, true) =>
      let (n, last, stopped) := read q (i + 1) next rest
      (n + 1, last, stopped)

end WordState

/-- A token at the beginning of a text: how many characters it takes besides the first one, and its
kind. -/
structure Lexeme where
  more : Nat
  kind : Kind
  deriving DecidableEq, Repr

namespace Lexeme

/-- A character on its own. -/
def single : Lexeme := ⟨0, .literal⟩

/-- The kind with which a word begins; `none` for a character that stands on its own. -/
def firstKind? (q : Option Quotation) (afterIpv4 : Bool) (c : Char) (rest : Text) : Option Kind :=
  if c = '?' || c = '&' then none
  else if c = '/' && afterIpv4 then none
  else if c.isDigit then some .integer
  else if (c = 'h' || c = 'H') && (rest.head?.any fun d => d = 't' || d = 'T') then some .uri
  else if c = '\\' || c = '<' || isWordChar c || Quotation.keeps q c then some .literal
  else none

/-- A word that was read to the end of the text gives up a final dot, and a dotted number is an
address only with three dots. -/
def finish (s : WordState) (more : Nat) (finalDot : Bool) : Lexeme :=
  match s.kind with
  | .float => if finalDot then ⟨more - 1, .integer⟩ else ⟨more, .float⟩
  | .ipv4 => ⟨more, if s.dots = 3 then .ipv4 else .literal⟩
  | .literal => ⟨if finalDot then more - 1 else more, .literal⟩
  | kind => ⟨more, kind⟩

/-- The word that begins with `c` and goes on in `rest`, and the quotation that is open behind it.
`atEnd` says that the text ends with `rest`, `afterIpv4` that the token before was an IPv4
address. -/
def ofWord (q : Option Quotation) (atEnd afterIpv4 : Bool) (c : Char) (rest : Text) :
    Lexeme × Option Quotation :=
  -- Quotes and closing angles stand on their own everywhere, opening angles outside of quotations.
  if c = '"' then (single, Quotation.toggle q .double)
  else if c = '\'' then (single, Quotation.toggle q .single)
  else if c = '<' && q.isNone then (single, some .angle)
  else if c = '>' then (single, if q = some .angle then none else q)
  else
    match firstKind? q afterIpv4 c rest with
    | none => (single, q)
    | some kind =>
      let (more, s, stopped) := WordState.read q 1 { kind, escaped := c == '\\' } rest
      (finish s more (!stopped && atEnd && rest.getLast? == some '.'), q)

end Lexeme

end LogTemplate
