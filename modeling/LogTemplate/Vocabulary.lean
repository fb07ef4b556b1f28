import LogTemplate.Regex.Parse
import LogTemplate.Settings
import LogTemplate.Stem
import LogTemplate.Timestamp

/-!
# Vocabulary

What all stages know: the tags with their numbers and kinds, the words that hint at tags, and the
timestamps.

* `Vocabulary.build` builds a vocabulary or gives the first error of its settings. What compiles
  regular expressions is a parameter, and `Vocabulary.ofSettings` builds with `Regex.compile`;
* `tag?`, `name?` and `kindOf` look tags up; number zero is the unknown tag;
* `keyword?` and `prekey` give the tags that a word in front of a value hints at.
-/

namespace LogTemplate

/-- Tags, hints and timestamps. -/
structure Vocabulary where
  /-- Names and kinds of the tags from number one on. -/
  tags : List (Text × Kind) := []
  /-- The tag of verified timestamps. -/
  regextime : Tag := .unknown
  /-- The tag of text that spans several lines. -/
  multiline : Tag := .unknown
  markSpaces : Bool := false
  /-- Tags by the stem of a word. -/
  keywords : Table Tag := []
  /-- Candidate tags by a word in lower case. -/
  prekeys : Table (List Tag) := []
  time : TimeMatcher := {}

namespace Vocabulary

/-- The name that the unknown tag is shown with. -/
def unknownName : Text := "funknown".toList

/-- The name of the tag of verified timestamps. -/
def regextimeName : Text := "regextime".toList

/-- The name of the tag of text that spans several lines. -/
def multilineName : Text := "multiline".toList

/-! ### Tags -/

/-- The tag of a name. -/
def tag? (v : Vocabulary) (name : Text) : Option Tag :=
  (v.tags.findIdx? (·.1 = name)).map fun i => ⟨i + 1⟩

/-- The name of a tag. -/
def name? (v : Vocabulary) (tag : Tag) : Option Text :=
  match tag.id with
  | 0 => some unknownName
  | i + 1 => v.tags[i]?.map (·.1)

/-- The default kind of a tag. -/
def kindOf (v : Vocabulary) (tag : Tag) : Kind :=
  match tag.id with
  | 0 => .unknown
  | i + 1 => (v.tags[i]?.map (·.2)).getD .unknown

/-- The number of tags, without the unknown one. -/
def size (v : Vocabulary) : Nat := v.tags.length

/-! ### Hints -/

/-- The tag that a word identifies by its stem. -/
def keyword? (v : Vocabulary) (word : Text) : Option Tag := v.keywords.get? (Stem.ofWord word)

/-- The tags that a value behind the word may have, best first. -/
def prekey (v : Vocabulary) (word : Text) : List Tag := (v.prekeys.get? word.toLower).getD []

/-! ### Building -/

/-- A tag definition `name:kind`. -/
def entry? (entry : Text) : Except SettingsError (Text × Kind) :=
  match Text.cut? ':' entry with
  | none => .error (.noKind entry)
  | some (name, kindName) =>
    if name.isEmpty || !name.all (fun c => c.isAlphanum || c = '_') then .error (.badTagName entry)
    else
      match Kind.ofName? kindName with
      | none | some .unknown => .error (.unknownKind entry)
      | some kind => .ok (name, kind)

/-- Add a tag, whose name must be new. -/
def addTag (v : Vocabulary) (name : Text) (kind : Kind) : Except SettingsError Vocabulary :=
  if (v.tag? name).isSome then .error (.duplicateTag name)
  else .ok { v with tags := v.tags ++ [(name, kind)] }

/-- Add the tags of the definitions in their order. -/
def addTags (v : Vocabulary) : List Text → Except SettingsError Vocabulary
  | [] => .ok v
  | definition :: rest =>
    match entry? definition with
    | .error e => .error e
    | .ok (name, kind) =>
      match v.addTag name kind with
      | .error e => .error e
      | .ok v => v.addTags rest

/-- Make sure that there is a tag of this name and kind. -/
def ensureTag (v : Vocabulary) (name : Text) (kind : Kind) :
    Except SettingsError (Vocabulary × Tag) :=
  match v.tag? name with
  | some tag => if v.kindOf tag = kind then .ok (v, tag) else .error (.wrongKind name kind)
  | none => .ok ({ v with tags := v.tags ++ [(name, kind)] }, ⟨v.tags.length + 1⟩)

/-- The keywords of all known tags by their stems. Of two tags with a keyword of one stem, the
first keeps it. -/
def keywordTable (v : Vocabulary) (keywords : Table (List Text)) : Table Tag :=
  keywords.foldl
    (fun table (name, words) =>
      match v.tag? name with
      | none => table
      | some tag =>
        words.foldl
          (fun table word =>
            let stem := Stem.ofWord word
            if (table.get? stem).isSome then table else table.insert stem tag)
          table)
    []

/-- The known candidate tags by the words before them. Of two words that are alike in lower case,
the last counts. -/
def prekeyTable (v : Vocabulary) (prekeys : Table (List Text)) : Table (List Tag) :=
  prekeys.foldl
    (fun table (word, names) =>
      match names.filterMap v.tag? with
      | [] => table
      | tags => table.insert word.toLower tags)
    []

/-- What compiles regular expressions: `none` for one that it refuses, else which texts it finds a
match in. -/
abbrev Compiler := Text → Option (Text → Bool)

/-- A regular expression with anchors around it, so that a match is of the whole text. -/
def anchored (pattern : Text) : Text := "^(?:".toList ++ pattern ++ ")$".toList

/-- The timestamp groups, or the first group whose number or regular expression is malformed. -/
def timeGroups (compile : Compiler) (regexes : Table Text) :
    Table (List Text) → Except SettingsError (List TimeGroup)
  | [] => .ok []
  | (group, layouts) :: rest =>
    match Text.toNatBelow? Settings.groupLimit group with
    | none => .error (.groupNotNumeric group)
    | some id =>
      let check? : Except SettingsError (Option (Text → Bool)) :=
        match regexes.get? group with
        | none => .ok none
        | some pattern =>
          match compile (anchored pattern) with
          | none => .error (.badRegex group)
          | some isMatch => .ok (some isMatch)
      match check? with
      | .error e => .error e
      | .ok check =>
        match timeGroups compile regexes rest with
        | .error e => .error e
        | .ok groups => .ok ({ id, layouts, check } :: groups)

/-- The vocabulary of the settings. -/
def build (compile : Compiler) (s : Settings) : Except SettingsError Vocabulary := do
  if let some fault := s.fault? then throw fault
  let v ← addTags { markSpaces := s.markSpaces } s.tags
  let (v, regextime) ← v.ensureTag regextimeName .time
  let (v, multiline) ← v.ensureTag multilineName .multiline
  let groups ← timeGroups compile s.regexes s.formats
  return { v with
    regextime, multiline
    keywords := v.keywordTable s.keywords
    prekeys := v.prekeyTable s.prekeys
    time := .ofGroups groups }

/-- The vocabulary of the settings, whose regular expressions are in the notation of
`Regex.parse?`. -/
def ofSettings (s : Settings) : Except SettingsError Vocabulary := build Regex.compile s

end Vocabulary

end LogTemplate
