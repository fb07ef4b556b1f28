import LogTemplate.Toml.Scalar
import LogTemplate.Toml.Symbol

/-!
# Documents of TOML

A document is a sequence of lines: a key with a value, or a header for the lines that follow.

* `path?` reads a dotted key;
* `Value.build?` reads the symbols of a value with a stack of open arrays and tables, one symbol at
  a time;
* `Statement.parse?` reads a line, `Entries.parse?` a document.
-/

namespace LogTemplate.Toml

/-! ### Keys -/

/-- A character of a key without quotes. -/
def isKeyChar (c : Char) : Bool := c.isAlphanum || c == '_' || c == '-'

/-- A simple key. -/
def key? : Symbol → Option Text
  | .atom text => if text.all isKeyChar then some text else none
  | .string value => some value
  | _ => none

/-- White space inside a line, or a comment. -/
def Symbol.isBlank : Symbol → Bool
  | .blank _ => true
  | _ => false

/-- Simple keys with dots between them. -/
def dotted? : List Symbol → Option (List Text)
  | [] => none
  | [symbol] => (key? symbol).map ([·])
  | symbol :: .dot :: rest => do return (← key? symbol) :: (← dotted? rest)
  | _ => none

/-- A dotted key, which may hold blanks. -/
def path? (symbols : List Symbol) : Option (List Text) :=
  dotted? (symbols.filter (!·.isBlank))

/-! ### Values -/

/-- An array or a table in braces that is being read. -/
inductive Frame where
  /-- The items so far, the latest first. -/
  | array (items : List Value)
  /-- The entries so far, and the key whose value is being read. -/
  | table (entries : Entries) (path : List Text)

/-- What may come next. -/
inductive Place where
  /-- A value. -/
  | value
  /-- An item of an array, or its end. -/
  | item
  /-- The key of a table in braces, of which some symbols were read, the latest first; or the end
  of the table. -/
  | key (read : List Symbol)
  /-- More of a scalar. -/
  | scalar (text : Text)
  /-- The time behind a date and a blank. -/
  | time (date : Text)
  /-- What follows a finished value. -/
  | after (v : Value)

/-- Arrays and tables in braces may be nested to this depth. -/
def depthLimit : Nat := 80

/-- Open an array or a table. -/
def openFrame? (frame : Frame) (place : Place) (frames : List Frame) :
    Option (Place × List Frame) :=
  if frames.length < depthLimit then some (place, frame :: frames) else none

/-- A symbol that begins a value. -/
def begin? (frames : List Frame) : Symbol → Option (Place × List Frame)
  | .string value | .paragraph value => some (.after (.string value), frames)
  | .atom text => some (.scalar text, frames)
  | .openBracket => openFrame? (.array []) .item frames
  | .openBrace => openFrame? (.table [] []) (.key []) frames
  | _ => none

/-- A symbol behind a value. -/
def close? (v : Value) (frames : List Frame) (symbol : Symbol) : Option (Place × List Frame) :=
  match symbol, frames with
  | .blank _, _ => some (.after v, frames)
  | .newline, _ :: _ => some (.after v, frames)
  | .comma, .array items :: outer => some (.item, .array (v :: items) :: outer)
  | .closeBracket, .array items :: outer => some (.after (.array (v :: items).reverse), outer)
  | .comma, .table entries path :: outer =>
    (assign? v path entries).map fun entries => (.key [], .table entries [] :: outer)
  | .closeBrace, .table entries path :: outer =>
    (assign? v path entries).map fun entries => (.after (.table .inline entries), outer)
  | _, _ => none

/-- A symbol behind a scalar. -/
def closeScalar? (text : Text) (frames : List Frame) (symbol : Symbol) :
    Option (Place × List Frame) :=
  (Value.ofScalar? text).bind fun v => close? v frames symbol

/-- One symbol: the next place and the open arrays and tables. -/
def step? (place : Place) (frames : List Frame) (symbol : Symbol) : Option (Place × List Frame) :=
  match place with
  | .value => if symbol.isBlank then some (.value, frames) else begin? frames symbol
  | .item =>
    match symbol, frames with
    | .blank _, _ | .newline, _ => some (.item, frames)
    | .closeBracket, .array items :: outer => some (.after (.array items.reverse), outer)
    | _, _ => begin? frames symbol
  | .key [] =>
    match symbol, frames with
    | .blank _, _ | .newline, _ => some (.key [], frames)
    | .closeBrace, .table entries _ :: outer => some (.after (.table .inline entries), outer)
    | _, _ => some (.key [symbol], frames)
  | .key read =>
    match symbol, frames with
    | .equals, .table entries _ :: outer =>
      (path? read.reverse).map fun path => (.value, .table entries path :: outer)
    | _, _ => some (.key (symbol :: read), frames)
  | .scalar text =>
    match symbol with
    | .atom more => some (.scalar (text ++ more), frames)
    | .dot => some (.scalar (text ++ ['.']), frames)
    | .blank [' '] =>
      if isDate text then some (.time text, frames) else closeScalar? text frames symbol
    | _ => closeScalar? text frames symbol
  | .time date =>
    match symbol with
    | .atom more => some (.scalar (date ++ ' ' :: more), frames)
    | _ => closeScalar? date frames symbol
  | .after v => close? v frames symbol

/-- Read the symbols of a value from a place on. -/
def Value.build? (place : Place) (frames : List Frame) : List Symbol → Option Value
  | [] =>
    match place, frames with
    | .after v, [] => some v
    | .scalar text, [] | .time text, [] => Value.ofScalar? text
    | _, _ => none
  | symbol :: rest =>
    match step? place frames symbol with
    | some (place, frames) => build? place frames rest
    | none => none

/-! ### Lines -/

/-- A line that is not empty. -/
inductive Statement where
  | assign (path : List Text) (value : Value)
  | header (h : Header)

/-- The symbols without the last one, if it is this one. -/
def dropLast? (last : Symbol) (symbols : List Symbol) : Option (List Symbol) :=
  if symbols.getLast? = some last then some symbols.dropLast else none

/-- The symbols of a line without blanks around them. -/
def trimBlanks (symbols : List Symbol) : List Symbol :=
  ((symbols.dropWhile (·.isBlank)).reverse.dropWhile (·.isBlank)).reverse

/-- A line that is not empty. -/
def Statement.parse? (symbols : List Symbol) : Option Statement :=
  match symbols with
  | .openBracket :: .openBracket :: rest => do
    let body ← dropLast? .closeBracket (← dropLast? .closeBracket rest)
    return .header ⟨true, ← path? body⟩
  | .openBracket :: rest => do
    return .header ⟨false, ← path? (← dropLast? .closeBracket rest)⟩
  | _ =>
    match symbols.dropWhile (· ≠ .equals) with
    | [] => none
    | _ :: value => do
      return .assign (← path? (symbols.takeWhile (· ≠ .equals))) (← Value.build? .value [] value)

/-- How many brackets and braces are open behind a symbol. -/
def depthAfter (depth : Nat) : Symbol → Nat
  | .openBracket | .openBrace => depth + 1
  | .closeBracket | .closeBrace => depth - 1
  | _ => depth

/-- The symbols of the lines, where `depth` brackets and braces are open. Only outside of these a
line ends. -/
def splitLines (depth : Nat) : List Symbol → List (List Symbol)
  | [] => [[]]
  | symbol :: rest =>
    if symbol = .newline && depth = 0 then [] :: splitLines 0 rest
    else
      match splitLines (depthAfter depth symbol) rest with
      | line :: lines => (symbol :: line) :: lines
      | [] => [[symbol]]

/-- The lines that are not empty. -/
def statements? : List (List Symbol) → Option (List Statement)
  | [] => some []
  | line :: lines =>
    match trimBlanks line with
    | [] => statements? lines
    | symbols => do return (← Statement.parse? symbols) :: (← statements? lines)

/-! ### Documents -/

/-- A header with the keys and values up to the next one. -/
structure Section where
  header : Header
  body : List (List Text × Value)

/-- The keys and values before the first header, and the sections. -/
def sections : List Statement → List (List Text × Value) × List Section
  | [] => ([], [])
  | .assign path value :: rest =>
    let (body, more) := sections rest
    ((path, value) :: body, more)
  | .header h :: rest =>
    let (body, more) := sections rest
    ([], ⟨h, body⟩ :: more)

/-- Give keys their values. -/
def assignAll? (body : List (List Text × Value)) (entries : Entries) : Option Entries :=
  body.foldlM (fun entries (path, value) => assign? value path entries) entries

/-- Add the entries of a section. -/
def addSection? (entries : Entries) (s : Section) : Option Entries :=
  enter? s.header.addsRow (assignAll? s.body) s.header.path entries

/-- A mark that may stand in front of a document. -/
def byteOrderMark : Char := '\ufeff'

/-- The text without the mark in front. -/
def dropMark (text : Text) : Text :=
  match text with
  | c :: rest => if c = byteOrderMark then rest else c :: rest
  | [] => []

/-- The entries of a document. -/
def Entries.parse? (text : Text) : Option Entries := do
  let symbols ← symbols? (unifyLines (dropMark text))
  let (body, more) := sections (← statements? (splitLines 0 symbols))
  more.foldlM addSection? (← assignAll? body [])

end LogTemplate.Toml
