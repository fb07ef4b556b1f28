import LogTemplate.Json.Quote
import LogTemplate.Json.Value
import LogTemplate.Line

/-!
# Reports

A report says, for each message of a service in a batch, which template covers it.

* `Hit` is a template that covers a message, `Outcome` a message with its hit;
* `Report.hits` and `Report.misses` are the messages with and without a template;
* `Report.print` writes a report as JSON, one object on a line for each message.
-/

namespace LogTemplate

/-- A template that covers a message. -/
structure Hit where
  id : Text
  text : Text
  offsets : List Nat
  complexity : Share
  /-- It was found in this batch. -/
  isNew : Bool
  deriving Repr, Inhabited

/-- A message with the template that covers it. -/
structure Outcome where
  message : Text
  hit : Option Hit
  deriving Repr, Inhabited

/-- The outcomes of the messages of a service, in their order. -/
structure Report where
  service : Text
  serviceId : Text
  outcomes : List Outcome
  deriving Repr, Inhabited

namespace Report

/-- The messages that have a template. -/
def hits (r : Report) : List (Text × Hit) :=
  r.outcomes.filterMap fun o => o.hit.map (o.message, ·)

/-- The messages that have none. -/
def misses (r : Report) : List Text :=
  r.outcomes.filterMap fun o => if o.hit.isNone then some o.message else none

/-! ### Writing -/

/-- A JSON object with its members in the given order. -/
def object (members : List (String × Text)) : Text :=
  '\x7b' :: Text.joinWith [',']
    (members.map fun (name, value) => Json.quote name.toList ++ ':' :: value) ++ ['\x7d']

/-- A JSON array. -/
def array (items : List Text) : Text := '[' :: Text.joinWith [','] items ++ [']']

/-- A truth value in JSON. -/
def truth (b : Bool) : Text := if b then "true".toList else "false".toList

/-- A hit as a JSON object. -/
def printHit (h : Hit) : Text :=
  object [
    ("id", Json.quote h.id),
    ("pattern", Json.quote h.text),
    ("tag_offsets", array (h.offsets.map Text.ofNat)),
    ("complexity", (Json.Number.double h.complexity.toFloat).print),
    ("discovered", truth h.isNew)]

/-- The outcome of a message as a JSON object. -/
def printOutcome (service : Text) (o : Outcome) : Text :=
  object [
    ("service", Json.quote service),
    ("message", Json.quote o.message),
    ("matched", match o.hit with
      | some h => printHit h
      | none => "null".toList)]

/-- A report as lines of JSON. -/
def print (r : Report) : Text :=
  r.outcomes.flatMap fun o => printOutcome r.service o ++ ['\n']

end Report

end LogTemplate
