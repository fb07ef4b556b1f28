import LogTemplate.Vocabulary

/-!
# Placeholders

The notation `%name[:kind][:modifier]%` of a placeholder in pattern text.

`name` is a tag or a kind, and a tag may override its kind. `%name:-:word%` is a run that stops
before the value `word`, and `%regextime:N%` is a timestamp of group `N`. An empty suffix with
nothing behind it is refused.

* `Placeholder.run?` finds a `%…%` run at the beginning of a text;
* `Placeholder.parse?` reads the body of a run, `Placeholder.print` writes a placeholder.
-/

namespace LogTemplate.Placeholder

open Vocabulary

/-- The body of a run up to its closing mark, and what follows the mark. -/
def body? : Text → Option (Text × Text)
  | [] => none
  | c :: rest =>
    if c = '%' then some ([], rest)
    else if Text.isSpace c then none
    else (body? rest).map fun (body, after) => (c :: body, after)

/-- The body of the run at the beginning of a text, which is not empty, and what follows the run. -/
def run? : Text → Option (Text × Text)
  | '%' :: rest =>
    match body? rest with
    | some ([], _) => none
    | found => found
  | _ => none

/-- The body of the run that begins at a byte position. -/
def bodyAt? (text : Text) (offset : Nat) : Option Text :=
  ((text.dropBytes? offset).bind run?).map (·.1)

/-- The kind that overrides that of a tag. -/
def override? (name : Text) (tag : Tag) : Option Kind :=
  if tag = .unknown then none else (Kind.ofName? name).filter Kind.isPlaceholder

/-- A group number in digits. -/
def isGroup (t : Text) : Bool := !t.isEmpty && t.all Char.isDigit

/-- The tag and the kind of a name. -/
def subject? (v : Vocabulary) (name : Text) : Option (Tag × Kind) :=
  match v.tag? name with
  | some tag => some (tag, v.kindOf tag)
  | none => ((Kind.ofName? name).filter Kind.isPlaceholder).map (.unknown, ·)

/-- Complete a placeholder by one suffix: a timestamp group, a modifier or a kind. -/
def withSuffix? (v : Vocabulary) (t : Token) (suffix : Text) : Option Token :=
  if t.tag = v.regextime && isGroup suffix then some { t with group := some suffix }
  else
    match Modifier.ofSign? suffix with
    | some modifier => some { t with modifier }
    | none =>
      if suffix.isEmpty then none
      else (override? suffix t.tag).map fun kind => { t with kind }

/-- Complete a placeholder by two suffixes: a stop word behind a minus, or a kind and a modifier. -/
def withSuffixes? (t : Token) (first second : Text) : Option Token :=
  if first = ['-'] then
    if second.isEmpty then none else some { t with modifier := .minus, stop := some second }
  else
    match if first.isEmpty then some t.kind else override? first t.tag with
    | none => none
    | some kind => (Modifier.ofSign? second).map fun modifier => { t with kind, modifier }

/-- The placeholder of a body. -/
def parse? (v : Vocabulary) (body : Text) : Option Token :=
  let (name, suffixes) := match Text.cut? ':' body with
    | none => (body, none)
    | some (name, rest) => (name, some rest)
  match subject? v name with
  | none => none
  | some (tag, kind) =>
    let t : Token := { value := '%' :: body ++ ['%'], kind, tag }
    match suffixes with
    | none => some t
    | some rest =>
      match Text.cut? ':' rest with
      | none => withSuffix? v t rest
      | some (first, second) => withSuffixes? t first second

/-- The suffix of a run. `bare` says that no kind stands before it. -/
def runSuffix (t : Token) (bare : Bool) : Text :=
  match t.stop with
  | some word => ":-:".toList ++ word
  | none =>
    match t.modifier.sign? with
    | some sign => (if bare then "::".toList else ":".toList) ++ sign
    | none => []

/-- The body of a placeholder. -/
def body (v : Vocabulary) (t : Token) : Text :=
  if t.tag = .unknown then t.kind.name ++ runSuffix t false
  else
    let name := (v.name? t.tag).getD unknownName
    match t.group with
    | some group =>
      if t.tag = v.regextime then name ++ ':' :: group else name ++ suffixes
    | none => name ++ suffixes
where
  /-- The suffixes of a tagged placeholder. -/
  suffixes : Text :=
    let overridden := t.kind != v.kindOf t.tag
    (if overridden && t.stop.isNone then ':' :: t.kind.name else []) ++ runSuffix t !overridden

/-- A placeholder in pattern text. -/
def print (v : Vocabulary) (t : Token) : Text := '%' :: body v t ++ ['%']

end LogTemplate.Placeholder
