import LogTemplate.Json.Value
import LogTemplate.Scan

/-!
# Messages in JSON

A message that is a JSON object is flattened: for each leaf, its path as a literal, the literal
`=`, and a token for its value.

* a path is made of the keys in lower case and of the positions in arrays, joined by dots;
* `Flatten.valueToken?` is the token of a scalar: the one its text scans to, or a string token
  when there are several. Nulls, empty strings and empty containers have none;
* `Scan.json` scans a JSON object, `Scan.auto` any message.
-/

namespace LogTemplate

open Json

namespace Flatten

/-- The path of a part. -/
def join (path? : Option Text) (key : Text) : Text :=
  match path? with
  | some path => path ++ '.' :: key
  | none => key

/-- The token of a text. -/
def textToken? (v : Vocabulary) (text : Text) : Option Token :=
  match Scan.message v text with
  | [] => none
  | [t] => some { t with spaceBefore := true }
  | _ => some { value := text, kind := .string, spaceBefore := true }

/-- The token of a leaf. -/
def valueToken? (v : Vocabulary) : Value → Option Token
  | .string s => if s.isEmpty then none else textToken? v s
  | .number n => textToken? v n.print
  | .bool b => some (.literal (if b then "true".toList else "false".toList))
  | _ => none

/-- The tokens of a leaf. The root has no path and, without parts, no tokens. -/
def leaf (v : Vocabulary) (path? : Option Text) (value : Value) : Line :=
  match path? with
  | none => []
  | some path => .literal path :: .literal ['='] :: (valueToken? v value).toList

mutual

/-- The tokens of a value. -/
def tokens (v : Vocabulary) (path? : Option Text) : Value → Line
  | .object (m :: rest) => memberTokens v path? (m :: rest)
  | .array (item :: rest) => itemTokens v path? 0 (item :: rest)
  | value => leaf v path? value
termination_by structural value => value

/-- The tokens of the members of an object. -/
def memberTokens (v : Vocabulary) (path? : Option Text) : List (Text × Value) → Line
  | [] => []
  | (key, value) :: rest =>
    tokens v (some (join path? key.toLower)) value ++ memberTokens v path? rest
termination_by structural members => members

/-- The tokens of the items of an array from position `i` on. -/
def itemTokens (v : Vocabulary) (path? : Option Text) (i : Nat) : List Value → Line
  | [] => []
  | value :: rest =>
    tokens v (some (join path? (Text.ofNat i))) value ++ itemTokens v path? (i + 1) rest
termination_by structural items => items

end

end Flatten

namespace Scan

/-- The tokens of a JSON object. -/
def json (v : Vocabulary) (text : Text) : Except ScanError Line :=
  match Value.parse? text.trim with
  | none => .error .malformedJson
  | some (.object members) => .ok (Flatten.tokens v none (.object members))
  | some _ => .error .notAnObject

/-- The tokens of a message, which is flattened when it looks like a JSON object. -/
def auto (v : Vocabulary) (text : Text) : Except ScanError Line :=
  if looksLikeObject text then json v text else .ok (message v text)

end Scan

end LogTemplate
