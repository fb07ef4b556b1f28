import LogTemplate.Report
import LogTemplate.Text.Table

/-!
# Stores

A store keeps the templates that were found for each service, with their counts and some example
messages.

* `Statistics` is what is kept of a template;
* `Store.templates` and `Store.load` show what is kept for a service;
* `Store.save` takes a report in.
-/

namespace LogTemplate

/-- A template as it is kept: its text and the positions of its placeholders. -/
structure StoredTemplate where
  text : Text
  offsets : List Nat
  deriving DecidableEq, Repr, Inhabited

/-- What a store keeps of a template. -/
structure Statistics where
  id : Text
  text : Text
  offsets : List Nat
  /-- Counts the messages it covered, modulo `2 ^ 64`. -/
  counter : UInt64
  /-- The first of these messages. -/
  examples : List Text
  complexity : Share
  deriving Repr, Inhabited

/-- The templates of a service, in the order in which they were found. -/
structure Shelf where
  name : Text
  templates : List Statistics := []
  deriving Repr, Inhabited

/-- Shelves by the identifiers of their services. -/
structure Store where
  /-- The number of examples that are kept of a template. -/
  maxExamples : Nat
  shelves : Table Shelf := []
  deriving Repr, Inhabited

namespace Statistics

/-- A template that has covered no message yet. -/
def ofHit (h : Hit) : Statistics := ⟨h.id, h.text, h.offsets, 0, [], h.complexity⟩

/-- The count as a number. -/
def count (s : Statistics) : Nat := s.counter.toNat

/-- Count a message, and keep it while there is room for examples. -/
def record (maxExamples : Nat) (message : Text) (s : Statistics) : Statistics :=
  { s with
    counter := s.counter + 1
    examples := if s.examples.length < maxExamples then s.examples ++ [message] else s.examples }

end Statistics

/-- Count a message for a template, which is added when it is new. -/
def Shelf.record (maxExamples : Nat) (message : Text) (h : Hit) :
    List Statistics → List Statistics
  | [] => [(Statistics.ofHit h).record maxExamples message]
  | s :: rest =>
    if s.id = h.id then s.record maxExamples message :: rest
    else s :: Shelf.record maxExamples message h rest

namespace Store

/-- The templates of a service, in the order in which they were found. -/
def templates (s : Store) (serviceId : Text) : List Statistics :=
  match s.shelves.get? serviceId with
  | some shelf => shelf.templates
  | none => []

/-- The templates of a service, for use on its messages. -/
def load (s : Store) (serviceId : Text) : List StoredTemplate :=
  (s.templates serviceId).map fun t => ⟨t.text, t.offsets⟩

/-- The number of templates. -/
def size (s : Store) : Nat := (s.shelves.map (·.2.templates.length)).foldr (· + ·) 0

/-- One service stands before another in a listing: by name, then by identifier. -/
def listedBefore (a b : Text × Text) : Bool :=
  Text.before a.2 b.2 || (a.2 == b.2 && !Text.before b.1 a.1)

/-- The identifiers and names of the services, in the order of the names. -/
def services (s : Store) : List (Text × Text) :=
  (s.shelves.map fun (id, shelf) => (id, shelf.name)).mergeSort listedBefore

/-- Take in a report. The service keeps the name of its first report. -/
def save (s : Store) (r : Report) : Store :=
  let shelf := (s.shelves.get? r.serviceId).getD { name := r.service }
  let templates := r.hits.foldl
    (fun templates (message, h) => Shelf.record s.maxExamples message h templates) shelf.templates
  { s with shelves := s.shelves.insert r.serviceId { shelf with templates } }

end Store

end LogTemplate
