import LogTemplate.Text.Table
import LogTemplate.Token

/-!
# Settings

The settings of the vocabulary: tags with their kinds, timestamp layouts by group, and the words
that hint at tags.

* `Settings` holds the settings as they are written;
* `SettingsError` lists what can be wrong with them, `SettingsError.message` words it;
* `Settings.fault?` is the first fault that shows without building the vocabulary.
-/

namespace LogTemplate

/-- Settings of the vocabulary. -/
structure Settings where
  version : Text := "0.1".toList
  /-- White space is kept as tokens of its own. -/
  markSpaces : Bool := false
  /-- Tag definitions `name:kind`, in the order of the tags' numbers. -/
  tags : List Text := []
  /-- Timestamp layouts by group. -/
  formats : Table (List Text) := []
  /-- Regular expressions that verify the timestamps of a group. -/
  regexes : Table Text := []
  /-- For a tag, the words that identify it in front of a value. -/
  keywords : Table (List Text) := []
  /-- For a word in front of a value, the candidate tags, best first. -/
  prekeys : Table (List Text) := []
  deriving DecidableEq, Repr, Inhabited

/-- What can be wrong with settings. -/
inductive SettingsError where
  | emptyVersion
  | groupNotNumeric (group : Text)
  | groupWithoutFormats (group : Text)
  | noKind (entry : Text)
  | badTagName (entry : Text)
  | unknownKind (entry : Text)
  | duplicateTag (name : Text)
  | wrongKind (name : Text) (kind : Kind)
  | badRegex (group : Text)
  | unreadable
  | malformed
  deriving DecidableEq, Repr

namespace SettingsError

/-- Text between quotation marks. -/
def quoted (t : Text) : Text := "'".toList ++ t ++ "'".toList

/-- What is wrong with a tag definition. -/
def tagDetail? : SettingsError → Option Text
  | noKind entry => some (quoted entry ++ " is not name:type".toList)
  | badTagName entry => some ("invalid tag name in ".toList ++ quoted entry)
  | unknownKind entry => some ("unknown type in ".toList ++ quoted entry)
  | duplicateTag name => some ("duplicate tag ".toList ++ quoted name)
  | wrongKind name kind =>
    some ("tag ".toList ++ quoted name ++ " must have type ".toList ++ kind.name)
  | _ => none

/-- What is wrong with the other settings. -/
def detail? : SettingsError → Option Text
  | emptyVersion => some "version must not be empty".toList
  | groupNotNumeric group =>
    some ("timesettings.formats group ".toList ++ quoted group ++ " is not numeric".toList)
  | groupWithoutFormats group =>
    some ("timesettings.regex group ".toList ++ quoted group ++ " has no formats".toList)
  | _ => none

/-- The wording of an error of the settings' content. -/
def message? (e : SettingsError) : Option Text :=
  match e.tagDetail? with
  | some detail => some ("Invalid tag definition: ".toList ++ detail)
  | none => e.detail?.map ("Invalid configuration: ".toList ++ ·)

end SettingsError

namespace Settings

/-- Timestamp groups have numbers below this one. -/
def groupLimit : Nat := Nat.pow 2 32

/-- The first fault of the version and the timestamp groups. -/
def fault? (s : Settings) : Option SettingsError :=
  if s.version.isEmpty then some .emptyVersion
  else
    match s.formats.find? fun (group, _) => (Text.toNatBelow? groupLimit group).isNone with
    | some (group, _) => some (.groupNotNumeric group)
    | none =>
      match s.regexes.find? fun (group, _) => (s.formats.get? group).isNone with
      | some (group, _) => some (.groupWithoutFormats group)
      | none => none

end Settings

end LogTemplate
