import LogTemplate.Json.Value

/-!
# Records

A record is a message of a service. There is at most one record on a line of input.

* `InputFormat` says how lines hold records: as a service name and a message, or as JSON;
* `Record.parse` reads a line. Blank lines and comments hold no record, nor do lines without a
  message; only a line that is not JSON, where it should be, is malformed.
-/

namespace LogTemplate

/-- How lines hold records. -/
inductive InputFormat where
  | text
  | json
  deriving DecidableEq, Repr, Inhabited

namespace InputFormat

/-- The name of a format. -/
def name : InputFormat → Text
  | text => "text".toList
  | json => "json".toList

/-- The form in which names are compared. -/
def canonical (name : Text) : Text := name.trim.map Char.toLower

/-- The format of a name, in any case and with white space around it. -/
def ofName? (name : Text) : Option InputFormat :=
  if canonical name = InputFormat.text.name then some .text
  else if canonical name = InputFormat.json.name then some .json
  else none

/-- The complaint about a name. -/
def unknownMessage (name : Text) : Text :=
  "unknown input format '".toList ++ canonical name ++ "'".toList

end InputFormat

/-- A message of a service. -/
structure Record where
  service : Text
  message : Text
  deriving DecidableEq, Repr, Inhabited

/-- A line that holds no JSON record. -/
inductive RecordError where
  | malformed
  deriving DecidableEq, Repr

namespace Record

open Json

/-- The service of records that name none. -/
def defaultService : Text := "none".toList

/-- The fields of a record that were read so far. -/
structure Fields where
  service : Option Text := none
  message : Option Text := none
  deriving DecidableEq, Repr

/-- The text of a string. -/
def text? : Tree → Option Text
  | .string units => decodeString? units
  | _ => none

/-- Take a member of an object. A field must be a string and must come once; other members are
passed over. -/
def Fields.member? (f : Fields) (key : List StringUnit) (t : Tree) : Option Fields := do
  let key ← decodeString? key
  if key = "service".toList then
    if f.service.isSome then none else return { f with service := ← text? t }
  else if key = "message".toList then
    if f.message.isSome then none else return { f with message := ← text? t }
  else return f

/-- Take the members of an object. -/
def Fields.members? (f : Fields) : List (List StringUnit × Tree) → Option Fields
  | [] => some f
  | (key, t) :: rest => (f.member? key t).bind (members? · rest)

/-- The record of a tree: an object with the two fields, or an array of them in order. A field that
is missing is empty. -/
def ofTree? : Tree → Option Record
  | .object members => (Fields.members? {} members).map fun f =>
    ⟨f.service.getD [], f.message.getD []⟩
  | .array [] => some ⟨[], []⟩
  | .array [service] => (text? service).map (⟨·, []⟩)
  | .array [service, message] => do return ⟨← text? service, ← text? message⟩
  | _ => none

/-- The record of a line of text: a service, white space and a message. -/
def ofText? (line : Text) : Option Record :=
  match line.dropWhile (!Text.isSpace ·) with
  | [] => none
  | _ :: rest => some ⟨line.takeWhile (!Text.isSpace ·), Text.trim rest⟩

/-- A record without a message is none. -/
def keep (r : Record) : Option Record := if r.message.isBlank then none else some r

/-- The record of a line, if it holds one. -/
def parse (format : InputFormat) (line : Text) : Except RecordError (Option Record) :=
  let line := line.trim
  if line.isEmpty || line.head? == some '#' then .ok none
  else
    match format with
    | .text => .ok ((ofText? line).bind keep)
    | .json =>
      match (Tree.parse? line).bind ofTree? with
      | none => .error .malformed
      | some r => .ok (keep (if r.service.isBlank then { r with service := defaultService } else r))

end Record

end LogTemplate
