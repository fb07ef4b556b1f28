import LogTemplate.Text.Basic

/-!
# Tables

Finite maps with texts as keys, kept in the order of the keys.

* `Table.insert` replaces the value of a key that is present;
* `Table.get?` looks a key up.
-/

namespace LogTemplate

/-- Entries in the order of their keys. -/
abbrev Table (α : Type) := List (Text × α)

namespace Table

variable {α : Type}

/-- Set the value of a key. -/
def insert (key : Text) (value : α) : Table α → Table α
  | [] => [(key, value)]
  | (k, v) :: rest =>
    if k = key then (key, value) :: rest
    else if Text.before key k then (key, value) :: (k, v) :: rest
    else (k, v) :: insert key value rest

/-- The table of a list of entries, of which later ones replace earlier ones. -/
def ofEntries (entries : List (Text × α)) : Table α :=
  entries.foldl (fun table (key, value) => insert key value table) []

/-- The value of a key. -/
def get? (table : Table α) (key : Text) : Option α := table.lookup key

/-- Change the value of a key, which starts from `start` when it is missing. -/
def modify (key : Text) (start : α) (f : α → α) (table : Table α) : Table α :=
  table.insert key (f ((table.get? key).getD start))

theorem get?_insert_self (key : Text) (value : α) (table : Table α) :
    (insert key value table).get? key = some value := by
  induction table with
  | nil => simp [insert, get?]
  | cons entry rest ih =>
    obtain ⟨k, v⟩ := entry
    unfold insert
    by_cases h : k = key
    · simp [h, get?]
    · have h' : (key == k) = false := by simpa using fun e => h e.symm
      by_cases hb : Text.before key k
      · simp [h, hb, get?]
      · simp only [h, if_false, hb, Bool.false_eq_true]
        simpa [get?, List.lookup_cons, h'] using ih

end Table

end LogTemplate
