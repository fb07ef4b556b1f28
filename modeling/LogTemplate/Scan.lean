import LogTemplate.Line
import LogTemplate.Word

/-!
# Scanning

Scanning turns text into tokens. At each token a timestamp is tried first, then an address, then a
word. In pattern text, `%…%` runs with a valid body become placeholders.

* `Scan.Mode` says how placeholders are looked for; `Scan.anchors` checks the announced ones;
* `Scan.tokens` is the loop over the text;
* `Scan.message` scans a message, `Scan.pattern` scans pattern text. Only the second can fail, on
  an announced placeholder whose body is not valid.
-/

namespace LogTemplate

/-- Why text cannot be scanned. -/
inductive ScanError where
  /-- An announced placeholder is not valid. -/
  | badPlaceholder (body : Text) (offset : Nat)
  /-- The text is not JSON. -/
  | malformedJson
  /-- The text is JSON, but not an object. -/
  | notAnObject
  deriving DecidableEq, Repr

/-- The wording of an error. That of malformed JSON is left to its reader. -/
def ScanError.message? : ScanError → Option Text
  | badPlaceholder body offset =>
    some ("Malformed pattern text: invalid placeholder '%".toList ++ body ++
      "%' at offset ".toList ++ Text.ofNat offset)
  | malformedJson => none
  | notAnObject => some "Invalid JSON message: message root is not an object".toList

namespace Scan

/-- How placeholders are looked for. -/
inductive Mode where
  /-- The text is a message and has none. -/
  | message
  /-- Every run with a valid body is one. -/
  | anywhere (anchors : List Nat)
  /-- Only the announced runs are. -/
  | listed (anchors : List Nat)
  deriving DecidableEq, Repr

namespace Mode

/-- The byte positions that force a token to begin, in ascending order. -/
def anchors : Mode → List Nat
  | message => []
  | anywhere anchors => anchors
  | listed anchors => anchors

/-- A run at a byte position may be a placeholder. -/
def allows : Mode → Nat → Bool
  | message, _ => false
  | anywhere _, _ => true
  | listed anchors, place => place ∈ anchors

end Mode

/-- Insert a number into an ascending list, once. -/
def insertSorted (n : Nat) : List Nat → List Nat
  | [] => [n]
  | m :: rest =>
    if n < m then n :: m :: rest
    else if n = m then m :: rest
    else m :: insertSorted n rest

/-- The announced positions that begin a run, in ascending order, and whether all of them do. -/
def anchors (v : Vocabulary) (text : Text) : List Nat → Except ScanError (List Nat × Bool)
  | [] => .ok ([], true)
  | offset :: rest =>
    match Placeholder.bodyAt? text offset with
    | none => (anchors v text rest).map fun (found, _) => (found, false)
    | some body =>
      match Placeholder.parse? v body with
      | none => .error (.badPlaceholder body offset)
      | some _ => (anchors v text rest).map fun (found, fresh) => (insertSorted offset found, fresh)

/-- How placeholders are looked for in pattern text with announced positions. They bind the scan
only when there are some and all of them begin a run. -/
def patternMode (v : Vocabulary) (text : Text) (offsets : List Nat) : Except ScanError Mode :=
  (anchors v text offsets).map fun (found, fresh) =>
    if !found.isEmpty && fresh then .listed found else .anywhere found

/-- The state of a scan between two tokens. -/
structure Cursor where
  /-- The byte position. -/
  place : Nat := 0
  /-- The quotation that is open. -/
  quotation : Option Quotation := none
  /-- The kind of the last token. -/
  last : Kind := .unknown
  /-- Some token was found. -/
  started : Bool := false
  deriving DecidableEq, Repr

/-- The text behind the cursor, after the white space `gap`, is one token over several lines: it
begins on a new line, outside of quotations, and is not the first. -/
def Cursor.isCut (cursor : Cursor) (gap : Text) : Bool :=
  gap.contains '\n' && cursor.quotation.isNone && cursor.started

/-- The text over several lines at the end of a message. -/
def multiline (v : Vocabulary) (text : Text) : Line :=
  (if v.markSpaces then [.literal [' ']] else []) ++
    [{ value := text.trimEnd, kind := .multiline, spaceBefore := true }]

/-- White space as a token of its own, where it is kept. -/
def spaces (v : Vocabulary) (gap : Text) : Line :=
  if v.markSpaces && !gap.isEmpty then [.literal gap] else []

/-- A token that was found. -/
structure Found where
  token : Token
  /-- The characters that it takes besides the first one. -/
  more : Nat
  /-- The quotation that is open behind it. -/
  quotation : Option Quotation
  deriving DecidableEq, Repr

/-- The timestamp, the address or the word at the beginning of a text. `quotation` is open before
it, `last` is the kind of the token before it, and `atEnd` says that the text does not go on. The
value of the token is left open. -/
def next (v : Vocabulary) (quotation : Option Quotation) (last : Kind) (atEnd : Bool) (c : Char)
    (rest : Text) : Found :=
  match v.time.match? (c :: rest) with
  | some m =>
    let t : Token := { value := [], kind := .time }
    let t :=
      if m.verified then { t with tag := v.regextime, group := some (Text.ofNat m.group) } else t
    ⟨t, m.length - 1, quotation⟩
  | none =>
    match address? (c :: rest) with
    | some (length, kind) => ⟨{ value := [], kind }, length - 1, quotation⟩
    | none =>
      let (lexeme, quotation) := Lexeme.ofWord quotation atEnd (last = .ipv4) c rest
      ⟨{ value := [], kind := lexeme.kind }, lexeme.more, quotation⟩

/-- The part of a text from byte position `place` on that a token may take: up to the next announced
placeholder, if there is one. The text begins with `c`. -/
def window (mode : Mode) (place : Nat) (c : Char) (rest : Text) : Text × Bool :=
  match mode.anchors.find? (place < ·) with
  | some anchor => (Text.takeBytes rest (anchor - place - c.utf8Size), false)
  | none => (rest, true)

/-- The token at byte position `place` that is no placeholder. Its value is the text that it takes,
without white space at its end unless this is kept. -/
def plain (v : Vocabulary) (mode : Mode) (cursor : Cursor) (place : Nat) (c : Char) (rest : Text) :
    Found :=
  let (data, atEnd) := window mode place c rest
  let found := next v cursor.quotation cursor.last atEnd c data
  let value := c :: rest.take found.more
  -- Inside of a quotation white space belongs to a word, so that a word may end with it.
  { found with
    token := { found.token with value := if v.markSpaces then value else Text.trimEnd value } }

/-- The placeholder at byte position `place`. -/
def placeholder? (v : Vocabulary) (mode : Mode) (cursor : Cursor) (place : Nat) (text : Text) :
    Option Found :=
  if mode.allows place then do
    let (body, _) ← Placeholder.run? text
    let token ← Placeholder.parse? v body
    return ⟨token, body.length + 1, cursor.quotation⟩
  else none

/-- The token at byte position `place`. -/
def found (v : Vocabulary) (mode : Mode) (cursor : Cursor) (place : Nat) (c : Char) (rest : Text) :
    Found :=
  (placeholder? v mode cursor place (c :: rest)).getD (plain v mode cursor place c rest)

/-- The tokens of a text from a cursor on. -/
def tokens (v : Vocabulary) (mode : Mode) (cursor : Cursor) (text : Text) : Line :=
  let gap := text.takeWhile Text.isSpace
  match h : text.dropWhile Text.isSpace with
  | [] => if cursor.isCut gap then [] else spaces v gap
  | c :: rest =>
    have shrinks : rest.length < text.length := by
      have := (List.dropWhile_sublist Text.isSpace (l := text)).length_le
      rw [h] at this
      simp only [List.length_cons] at this
      omega
    -- A line end outside of quotations is the end of the tokens: what follows is a single one.
    if cursor.isCut gap then multiline v (c :: rest)
    else
      let place := cursor.place + Text.bytes gap
      let f := found v mode cursor place c rest
      let behind : Cursor :=
        { place := place + Text.bytes (c :: rest.take f.more), quotation := f.quotation
          last := f.token.kind, started := true }
      spaces v gap ++ { f.token with spaceBefore := !gap.isEmpty } ::
        tokens v mode behind (rest.drop f.more)
termination_by text.length
decreasing_by
  simp only [List.length_drop]; omega

/-- The tokens of a message. -/
def message (v : Vocabulary) (text : Text) : Line := tokens v .message {} text

/-- The tokens of pattern text with the announced positions of its placeholders. -/
def pattern (v : Vocabulary) (text : Text) (offsets : List Nat) : Except ScanError Line :=
  (patternMode v text offsets).map fun mode => tokens v mode {} text

end Scan

end LogTemplate
