import LogTemplate.Text.Table

/-!
# Values of TOML

What a document holds, and how its lines build it up.

Tables remember how they came about, for each way allows other additions: a table that was written
between braces is closed, one that a header named is not named again, and a dotted key only adds to
tables that dotted keys made.

* `Value` is a value; numbers that are no integers and times are kept as they are written;
* `assign?` gives a dotted key a value;
* `enter?` fills the table that a header names.
-/

namespace LogTemplate.Toml

/-- How a table came about. -/
inductive Origin where
  /-- A header named it. -/
  | header
  /-- It stands on the way to a table that a header named. -/
  | implied
  /-- A dotted key went through it. -/
  | dotted
  /-- It was written between braces. -/
  | inline
  deriving DecidableEq, Repr

/-- A value. -/
inductive Value where
  | string (s : Text)
  | boolean (b : Bool)
  | integer (n : Int)
  | float (numeral : Text)
  | time (text : Text)
  | array (items : List Value)
  | table (origin : Origin) (entries : List (Text × Value))
  /-- Tables that headers of one name added one by one. -/
  | tables (rows : List (List (Text × Value)))

/-- The entries of a table. -/
abbrev Entries := Table Value

/-- Give a dotted key, which must be new, a value. -/
def assign? (value : Value) : List Text → Entries → Option Entries
  | [], _ => none
  | [key], entries =>
    match entries.get? key with
    | none => some (entries.insert key value)
    | some _ => none
  | key :: path, entries =>
    match entries.get? key with
    | none => (assign? value path []).map fun inner => entries.insert key (.table .dotted inner)
    | some (.table .dotted inner) =>
      (assign? value path inner).map fun inner => entries.insert key (.table .dotted inner)
    | some (.table .implied inner) =>
      if path.length = 1 then none
      else (assign? value path inner).map fun inner => entries.insert key (.table .implied inner)
    | some (.tables rows) =>
      if path.length = 1 then none
      else
        match rows.getLast? with
        | none => none
        | some row => (assign? value path row).map fun row =>
          entries.insert key (.tables (rows.dropLast ++ [row]))
    | some _ => none

/-- A header: the path of a table, or of a list of tables to which it adds one. -/
structure Header where
  addsRow : Bool
  path : List Text
  deriving DecidableEq, Repr

/-- Fill the table at the end of a header. -/
def fillHere? (addsRow : Bool) (fill : Entries → Option Entries) (known : Option Value) :
    Option Value :=
  match addsRow, known with
  | true, none => (fill []).map fun row => .tables [row]
  | true, some (.tables rows) => (fill []).map fun row => .tables (rows ++ [row])
  | false, none => (fill []).map (.table .header)
  | false, some (.table .implied inner) => (fill inner).map (.table .header)
  | _, _ => none

/-- Fill the table that a header names. On the way to it, tables are added where they are missing,
and of a list of tables the last one is meant. -/
def enter? (addsRow : Bool) (fill : Entries → Option Entries) :
    List Text → Entries → Option Entries
  | [], _ => none
  | [key], entries =>
    (fillHere? addsRow fill (entries.get? key)).map fun value => entries.insert key value
  | key :: path, entries =>
    match entries.get? key with
    | none =>
      (enter? addsRow fill path []).map fun inner => entries.insert key (.table .implied inner)
    | some (.table .inline _) => none
    | some (.table origin inner) =>
      (enter? addsRow fill path inner).map fun inner => entries.insert key (.table origin inner)
    | some (.tables rows) =>
      match rows.getLast? with
      | none => none
      | some row => (enter? addsRow fill path row).map fun row =>
        entries.insert key (.tables (rows.dropLast ++ [row]))
    | some _ => none

end LogTemplate.Toml
