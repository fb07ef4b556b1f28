import LogTemplate.Placeholder

/-!
# Lines

A line is the sequence of tokens of a message or of a template.

* `Line.print` writes a line as pattern text, with the byte positions of its placeholders;
* `Line.signature` is the coarse shape that lines of one template share;
* `Line.complexity` is the part of a line that is placeholders;
* `Line.dump` lists the tokens for reading.
-/

namespace LogTemplate

/-- The tokens of a message or of a template, in order. -/
abbrev Line := List Token

/-- Counts are divided as doubles. -/
instance coeNatFloat : Coe Nat Float := ⟨fun n => n.toUInt64.toFloat⟩

/-- A part of a whole. Each double is one of itself, `⟨x, 1⟩`. -/
structure Share where
  part : Float
  whole : Float
  deriving Repr, Inhabited

/-- The quotient; nothing is no part of nothing. -/
def Share.toFloat (s : Share) : Float := if s.whole == 0 then 0 else s.part / s.whole

namespace Line

/-- Pattern text with the byte positions of its placeholders. -/
structure Printed where
  text : Text
  offsets : List Nat
  deriving DecidableEq, Repr, Inhabited

/-- What separates a token from the one before it. Where white space is kept as tokens, a blank is
needed only for a token with space before it that follows no such token. -/
def separator (v : Vocabulary) (previous? : Option Token) (t : Token) : Text :=
  match previous? with
  | none => []
  | some previous =>
    if !v.markSpaces || (t.spaceBefore && !previous.isSpace) then [' '] else []

/-- A token in pattern text. -/
def printToken (v : Vocabulary) (t : Token) : Text :=
  if t.isPlaceholder then Placeholder.print v t else t.value

/-- Write the tokens behind `previous?` from byte position `start` on. -/
def printFrom (v : Vocabulary) (previous? : Option Token) (start : Nat) : Line → Printed
  | [] => ⟨[], []⟩
  | t :: rest =>
    let gap := separator v previous? t
    let shown := printToken v t
    let place := start + gap.bytes
    let behind := printFrom v (some t) (place + shown.bytes) rest
    ⟨gap ++ shown ++ behind.text,
      if t.isPlaceholder then place :: behind.offsets else behind.offsets⟩

/-- The line as pattern text. -/
def print (v : Vocabulary) (line : Line) : Printed := printFrom v none 0 line

/-- The part of a token in the signature: the kind of a typed one, a literal of one character. -/
def mark (t : Token) : Text :=
  match t.kind with
  | .unknown | .literal | .string =>
    match t.value with
    | [c] => [c]
    | _ => []
  | kind => '%' :: kind.name ++ ['%']

/-- The coarse shape of a line. -/
def signature (line : Line) : Text := line.flatMap mark

/-- The part of a line that is placeholders. -/
def complexity (line : Line) : Share := ⟨line.countP (·.isPlaceholder), line.length⟩

/-! ### Listing -/

/-- Characters of a text over several lines that a listing shows. -/
def shownLength : Nat := 15

/-- The value of a token in a listing. -/
def shownValue (t : Token) : Text :=
  if t.kind = .multiline && shownLength < t.value.length then
    t.value.take shownLength ++ "...".toList
  else t.value

/-- One field of a listing. -/
def field (name : String) (value : Text) : Text :=
  name.toList ++ "=\"".toList ++ value ++ "\"".toList

/-- The `i`-th token in a listing. -/
def dumpToken (v : Vocabulary) (i : Nat) (t : Token) : Text :=
  let number := Text.ofNat i
  let fields :=
    [field "Tag" ((v.name? t.tag).getD Vocabulary.unknownName), field "Type" t.kind.name,
      field "Value" (shownValue t)] ++
    (t.modifier.sign?.map (field "Modifier")).toList ++ (t.group.map (field "Special")).toList
  "# ".toList ++ List.replicate (3 - number.length) ' ' ++ number ++ ": \x7b ".toList ++
    Text.joinWith ", ".toList fields ++ " \x7d\n".toList

/-- The tokens of a line, one below the other. -/
def dump (v : Vocabulary) (line : Line) : Text :=
  (line.zipIdx.map fun (t, i) => dumpToken v i t).flatten

end Line

end LogTemplate
