import LogTemplate.Settings
import LogTemplate.Toml.Field

/-!
# Settings in TOML

Settings are written as a TOML document. Every field may be missing, and fields that are not known
are passed over.

* `Settings.ofEntries?` reads the fields;
* `Settings.parse` reads a document and looks for faults that show in it.
-/

namespace LogTemplate

open Toml

namespace Settings

/-- The settings of the entries of a document. -/
def ofEntries? (entries : Entries) : Option Settings := do
  let start : Settings := {}
  let time ← entries.field? "timesettings" (·.fields? ["formats", "regex"]) []
  let analyzer ← entries.field? "analyzer" (·.fields? ["keywords", "prekeys"]) []
  return {
    version := ← entries.field? "version" (·.text?) start.version
    markSpaces := ← entries.field? "mark_spaces" (·.truth?) start.markSpaces
    tags := ← entries.field? "tags" (·.texts?) []
    formats := ← time.field? "formats" (·.tableOf? (·.texts?)) []
    regexes := ← time.field? "regex" (·.tableOf? (·.text?)) []
    keywords := ← analyzer.field? "keywords" (·.tableOf? (·.texts?)) []
    prekeys := ← analyzer.field? "prekeys" (·.tableOf? (·.texts?)) [] }

/-- The settings of a document. -/
def parse (text : Text) : Except SettingsError Settings :=
  match (Entries.parse? text).bind ofEntries? with
  | none => .error .malformed
  | some settings =>
    match settings.fault? with
    | some fault => .error fault
    | none => .ok settings

end Settings

end LogTemplate
