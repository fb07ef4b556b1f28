import LogTemplate.Catalog
import LogTemplate.Consensus

/-!
# Learning templates

A learner collects lines that have no template and then finds templates for them. Lines are
collected in buckets by their number of tokens and their signature; each bucket gives one template.

* `Learner.add` collects a line, `Learner.finish` finds the templates, after which no more lines
  are taken;
* `Learner.templateOf?` is the template of the bucket that a line belongs to, if it covers the line.
-/

namespace LogTemplate

/-- What lines of one bucket have in common. -/
structure BucketKey where
  size : Nat
  signature : Text
  deriving DecidableEq, Repr

namespace BucketKey

/-- The bucket that a line belongs to. -/
def of (line : Line) : BucketKey := ⟨line.length, Line.signature line⟩

/-- The order of buckets. -/
def before (a b : BucketKey) : Bool :=
  a.size < b.size || (a.size == b.size && Text.before a.signature b.signature)

end BucketKey

/-- Why a learner refuses a request. -/
inductive LearnError where
  | noMatch
  | finished
  | noTokens
  | nothing
  deriving DecidableEq, Repr

/-- The wording of an error. -/
def LearnError.message : LearnError → Text
  | noMatch => "No generalized pattern matches the sequence".toList
  | finished => "Analyzer rejected the request: analyzer is already finalized".toList
  | noTokens => "Analyzer rejected the request: sequence has no tokens".toList
  | nothing => "Analyzer rejected the request: nothing to finalize".toList

/-- A template that was found for a bucket, and a catalog that holds nothing else. -/
structure Finding where
  template : Line
  catalog : Catalog

/-- What a learner has found. -/
structure Findings where
  /-- The templates, no two of which have the same text. -/
  templates : List Line := []
  byBucket : List (BucketKey × Finding) := []

/-- Lines by bucket, in the order of the buckets, and what was found for them. -/
structure Learner where
  pending : List (BucketKey × List Line) := []
  findings : Option Findings := none

namespace Learner

/-- The number of lines. -/
def size (l : Learner) : Nat := (l.pending.map (·.2.length)).foldr (· + ·) 0

/-- No line was collected. -/
def isEmpty (l : Learner) : Bool := l.pending.isEmpty

/-- Put a line behind the lines of its bucket. -/
def collect (key : BucketKey) (line : Line) :
    List (BucketKey × List Line) → List (BucketKey × List Line)
  | [] => [(key, [line])]
  | (k, rows) :: rest =>
    if k = key then (k, rows ++ [line]) :: rest
    else if key.before k then (key, [line]) :: (k, rows) :: rest
    else (k, rows) :: collect key line rest

/-- Collect a line. -/
def add (l : Learner) (line : Line) : Except LearnError Learner :=
  if l.findings.isSome then .error .finished
  else if line.isEmpty then .error .noTokens
  else .ok { l with pending := collect (.of line) line l.pending }

/-- The template of a bucket. One that is known by its text stands for all others of that text. -/
def findingOf (v : Vocabulary) (known : List Line) (rows : List Line) : List Line × Finding :=
  let found := Consensus.generalize v rows
  let text := (Line.print v found).text
  -- Buckets with different signatures may give templates that are written alike.
  let (template, known) := match known.find? (fun line => (Line.print v line).text = text) with
    | some line => (line, known)
    | none => (found, known ++ [found])
  (known, ⟨template, (Catalog.register v {} template none).1⟩)

/-- The templates of buckets, when some are known already. -/
def findAll (v : Vocabulary) (found : Findings) : List (BucketKey × List Line) → Findings
  | [] => found
  | (key, rows) :: rest =>
    let (templates, finding) := findingOf v found.templates rows
    findAll v ⟨templates, found.byBucket ++ [(key, finding)]⟩ rest

/-- Find the templates, once. -/
def finish (v : Vocabulary) (l : Learner) : Except LearnError (Learner × List Line) :=
  match l.findings with
  | some found => .ok (l, found.templates)
  | none =>
    if l.pending.isEmpty then .error .nothing
    else
      let found := findAll v {} l.pending
      .ok ({ l with findings := some found }, found.templates)

/-- The templates, once they are found. -/
def templates? (l : Learner) : Option (List Line) := l.findings.map (·.templates)

/-- The template that covers a line. -/
def templateOf? (v : Vocabulary) (l : Learner) (line : Line) : Option Line := do
  let found ← l.findings
  let finding ← found.byBucket.lookup (.of line)
  let _ ← finding.catalog.match? v line
  return finding.template

end Learner

end LogTemplate
