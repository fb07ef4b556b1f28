import LogTemplate.Toml.Document

/-!
# Fields of TOML tables

What the entries of a document mean when a field is expected to be of a certain form.

* `Entries.field?` reads an entry, or gives the default of a field that is missing;
* `Value.text?`, `Value.texts?`, … read a value of one form;
* `Value.fields?` are the entries of a group of fields.
-/

namespace LogTemplate.Toml

/-- A field, read by `read?`; a missing one has its default. -/
def Entries.field? {α : Type} (entries : Entries) (name : String) (read? : Value → Option α)
    (default : α) : Option α :=
  match entries.get? name.toList with
  | some value => read? value
  | none => some default

namespace Value

/-- A text. -/
def text? : Value → Option Text
  | string s => some s
  | _ => none

/-- A truth value. -/
def truth? : Value → Option Bool
  | boolean b => some b
  | _ => none

/-- A number from zero to below `limit`. -/
def number? (limit : Nat) : Value → Option Nat
  | integer n => if 0 ≤ n && n < limit then some n.toNat else none
  | _ => none

/-- A list of texts. -/
def texts? : Value → Option (List Text)
  | array items => items.mapM text?
  | _ => none

/-- A table whose values are read by `read?`. -/
def tableOf? {α : Type} (read? : Value → Option α) : Value → Option (Table α)
  | table _ entries => entries.mapM fun (key, value) => (read? value).map (key, ·)
  | _ => none

/-- A group of fields: a table, or a list of values for the names in their order. A time stands for
none of them. -/
def fields? (names : List String) : Value → Option Entries
  | table _ entries => some entries
  | array items => some (Table.ofEntries ((names.map String.toList).zip items))
  | tables rows =>
    some (Table.ofEntries ((names.map String.toList).zip (rows.map (table .header))))
  | time _ => some []
  | _ => none

end Value

end LogTemplate.Toml
