/-!
# Counters

What a run has read and done so far. Counters have 64 bits and wrap around.

* the operations are named for what they count;
* `Counters.averageMillis` is the average time of a batch.
-/

namespace LogTemplate

/-- Counts of lines, of outcomes, and of batches with their time. -/
structure Counters where
  linesRead : UInt64 := 0
  linesSkipped : UInt64 := 0
  matched : UInt64 := 0
  discovered : UInt64 := 0
  unmatched : UInt64 := 0
  batches : UInt64 := 0
  nanos : UInt64 := 0
  deriving DecidableEq, Repr, Inhabited

namespace Counters

/-- A line was read. -/
def line (c : Counters) : Counters := { c with linesRead := c.linesRead + 1 }

/-- A line gave no record. -/
def skip (c : Counters) : Counters := { c with linesSkipped := c.linesSkipped + 1 }

/-- A record has a template that was known before, or one that was found for it. -/
def hit (c : Counters) (isNew : Bool) : Counters :=
  if isNew then { c with discovered := c.discovered + 1 } else { c with matched := c.matched + 1 }

/-- A record has no template. -/
def miss (c : Counters) : Counters := { c with unmatched := c.unmatched + 1 }

/-- A batch took so many nanoseconds. -/
def batch (c : Counters) (nanos : UInt64) : Counters :=
  { c with batches := c.batches + 1, nanos := c.nanos + nanos }

/-- The average time of a batch in milliseconds; zero before the first one. -/
def averageMillis (c : Counters) : Float :=
  if c.batches = 0 then 0 else c.nanos.toFloat / c.batches.toFloat / 1000000

end Counters

end LogTemplate
