import LogTemplate.Json.Symbol

/-!
# JSON trees

JSON text as a tree, with strings and numbers left as they are written.

* `Tree.build?` reads the symbols with a stack of open arrays and objects, one symbol at a time;
* `Tree.parse?` reads a text: any well-formed text has a tree, however deep it is and whatever its
  numbers and escapes stand for.
-/

namespace LogTemplate.Json

/-- Well-formed JSON. -/
inductive Tree where
  | null
  | bool (b : Bool)
  | number (n : Numeral)
  | string (units : List StringUnit)
  | array (items : List Tree)
  | object (members : List (List StringUnit × Tree))

namespace Tree

/-- An array or an object that is being read, with the latest part first. -/
inductive Frame where
  | array (items : List Tree)
  | object (members : List (List StringUnit × Tree)) (key : List StringUnit)

/-- What may come next. -/
inductive Place where
  /-- A value. -/
  | value
  /-- The first item of an array, or its end. -/
  | firstItem
  /-- The first key of an object, or its end. -/
  | firstKey
  /-- A further key of an object. -/
  | key (members : List (List StringUnit × Tree))
  /-- The colon behind a key. -/
  | colon (members : List (List StringUnit × Tree)) (key : List StringUnit)
  /-- What follows a finished value. -/
  | after (t : Tree)

/-- The place behind a symbol that may begin a value. -/
def begin? : Symbol → Option Place
  | .null => some (.after .null)
  | .bool b => some (.after (.bool b))
  | .number n => some (.after (.number n))
  | .string units => some (.after (.string units))
  | .beginArray => some .firstItem
  | .beginObject => some .firstKey
  | _ => none

/-- One symbol: the next place and the open arrays and objects. -/
def step? (place : Place) (frames : List Frame) (symbol : Symbol) : Option (Place × List Frame) :=
  match place with
  | .value => (begin? symbol).map (·, frames)
  | .firstItem =>
    match symbol with
    | .endArray => some (.after (.array []), frames)
    | _ => (begin? symbol).map (·, .array [] :: frames)
  | .firstKey =>
    match symbol with
    | .endObject => some (.after (.object []), frames)
    | .string units => some (.colon [] units, frames)
    | _ => none
  | .key members =>
    match symbol with
    | .string units => some (.colon members units, frames)
    | _ => none
  | .colon members key =>
    match symbol with
    | .colon => some (.value, .object members key :: frames)
    | _ => none
  | .after t =>
    match frames, symbol with
    | .array items :: outer, .comma => some (.value, .array (t :: items) :: outer)
    | .array items :: outer, .endArray => some (.after (.array (t :: items).reverse), outer)
    | .object members key :: outer, .comma => some (.key ((key, t) :: members), outer)
    | .object members key :: outer, .endObject =>
      some (.after (.object ((key, t) :: members).reverse), outer)
    | _, _ => none

/-- Read the symbols from a place on. -/
def build? (place : Place) (frames : List Frame) : List Symbol → Option Tree
  | [] =>
    match place, frames with
    | .after t, [] => some t
    | _, _ => none
  | symbol :: rest =>
    match step? place frames symbol with
    | some (place, frames) => build? place frames rest
    | none => none

/-- The tree of a text. -/
def parse? (text : Text) : Option Tree := (symbols? text).bind (build? .value [])

end Tree

/-- The text, apart from white space around it, begins and ends like an object and is well
formed. -/
def looksLikeObject (text : Text) : Bool :=
  let body := text.trim
  body.head? == some '\x7b' && body.getLast? == some '\x7d' && (Tree.parse? body).isSome

end LogTemplate.Json
