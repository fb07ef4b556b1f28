import LogTemplate.Flatten
import LogTemplate.Input
import LogTemplate.Learner
import LogTemplate.Store

/-!
# Mining

Mining finds the templates of a stream of messages, batch by batch.

* `Mining.report` handles the messages of one service: known templates are tried first, and the
  lines that none of them covers are given to a learner;
* `Miner` is the state between batches, `Miner.runBatch` the step: the messages of each service are
  handled by themselves, and the store takes in the reports in the order of the services' names.
-/

namespace LogTemplate

namespace Mining

/-- The catalog of the stored templates. Those that cannot be registered are passed over. -/
def catalog (v : Vocabulary) (stored : List StoredTemplate) : Catalog :=
  stored.foldl
    (fun c t =>
      match c.addText v t.text t.offsets with
      | .ok (c, _) => c
      | .error _ => c)
    {}

/-- The complexity of the template with that identifier. -/
def complexityOf (c : Catalog) (id : Text) : Share :=
  match c.templates.reverse.find? (·.id = id) with
  | some t => Line.complexity t.line
  | none => ⟨0, 0⟩

/-- The hit of a known template. -/
def knownHit (c : Catalog) (service : Text) (m : Match) : Hit where
  id := Id.inService m.text service
  text := m.text
  offsets := m.offsets
  complexity := complexityOf c m.id
  isNew := false

/-- The hit of a template that was found. One without a literal could not be used again, so it does
not count. -/
def newHit? (v : Vocabulary) (service : Text) (template : Line) : Option Hit :=
  if template.any (·.isLiteral) then
    let printed := Line.print v template
    some {
      id := Id.inService printed.text service
      text := printed.text
      offsets := printed.offsets
      complexity := Line.complexity template
      isNew := true }
  else none

/-- What is known after some of the messages of a service. -/
structure Pass where
  /-- An outcome for each message. -/
  outcomes : Array Outcome := #[]
  /-- The lines that no known template covers, with the positions of their outcomes. -/
  misses : Array (Nat × Line) := #[]
  /-- The learner of these lines. -/
  learner : Learner := {}

/-- Set down the outcome of the next message. -/
def Pass.push (p : Pass) (message : Text) (hit : Option Hit) : Pass :=
  { p with outcomes := p.outcomes.push ⟨message, hit⟩ }

/-- Try the known templates on the next message. A line that none of them covers goes to the
learner, unless it has no tokens. -/
def Pass.step (v : Vocabulary) (c : Catalog) (service : Text) (p : Pass) (message : Text) : Pass :=
  match Scan.auto v message with
  | .error _ => p.push message none
  | .ok line =>
    match c.match? v line with
    | some m => p.push message (some (knownHit c service m))
    | none =>
      match p.learner.add line with
      | .error _ => p.push message none
      | .ok learner =>
        { p.push message none with misses := p.misses.push (p.outcomes.size, line), learner }

/-- Set down the template that was found for a missed line. -/
def writeNew (v : Vocabulary) (service : Text) (l : Learner) (outcomes : Array Outcome)
    (miss : Nat × Line) : Array Outcome :=
  match (l.templateOf? v miss.2).bind (newHit? v service) with
  | some h => outcomes.modify miss.1 fun o => { o with hit := some h }
  | none => outcomes

/-- Learn from the missed lines, if there are some, and complete their outcomes. -/
def Pass.finish (v : Vocabulary) (service : Text) (p : Pass) : Array Outcome :=
  if p.misses.isEmpty then p.outcomes
  else
    match p.learner.finish v with
    | .error _ => p.outcomes
    | .ok (l, _) => p.misses.foldl (writeNew v service l) p.outcomes

/-- Handle the messages of a service. -/
def report (v : Vocabulary) (service : Text) (stored : List StoredTemplate)
    (messages : List Text) : Report :=
  let c := catalog v stored
  -- All messages are tried before anything is learned: no message depends on those before it.
  let p := messages.foldl (Pass.step v c service) {}
  { service
    serviceId := Id.ofService service
    outcomes := (p.finish v service).toList }

end Mining

/-- The state between batches. -/
structure Miner where
  vocabulary : Vocabulary
  store : Store
  counters : Counters := {}

namespace Miner

/-- The messages of a batch by service, in the order of the services' names. -/
def group (records : List Record) : Table (List Text) :=
  records.foldl
    (fun groups r => groups.modify r.service [] (· ++ [r.message])) ([] : Table (List Text))

/-- Count the outcome of a message. -/
def countOutcome (c : Counters) (o : Outcome) : Counters :=
  match o.hit with
  | some h => c.hit h.isNew
  | none => c.miss

/-- Take in the report of a service. -/
def save (m : Miner) (r : Report) : Miner :=
  { m with store := m.store.save r, counters := r.outcomes.foldl countOutcome m.counters }

/-- Handle a batch, which took `nanos` nanoseconds: the reports of its services, in the order of
their names, and the state after it. -/
def runBatch (m : Miner) (records : List Record) (nanos : UInt64) : List Report × Miner :=
  let reports := (group records).map fun (service, messages) =>
    Mining.report m.vocabulary service (m.store.load (Id.ofService service)) messages
  let after := reports.foldl save m
  (reports, { after with counters := after.counters.batch nanos })

end Miner

end LogTemplate
