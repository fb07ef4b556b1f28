import LogTemplate.Launch

/-!
# Runs

A run reads its input batch by batch and reports on each batch.

* `Transcript` is what a run has done, `Transcript.output` what it has written;
* `Miner.run` is the run. It ends with the input, or with a line that cannot be read; what was
  reported before is kept.
-/

namespace LogTemplate

/-- What a run has done. -/
structure Transcript where
  /-- The reports in the order in which they were written. -/
  reports : List Report
  /-- The miner at the end of the run. -/
  last : Miner
  /-- The whole input was read. -/
  finished : Bool

/-- What a run has written. -/
def Transcript.output (t : Transcript) : Text := t.reports.flatMap (·.print)

/-- Handle all batches of the input. -/
def Miner.run (m : Miner) (s : RunSettings) (source : List SourceLine) : Transcript :=
  let reading := Input.readBatch s.format s.batchSize m.counters source
  let m := { m with counters := reading.counters }
  match h : reading.result with
  | .error .notUtf8 => ⟨[], m, false⟩
  | .ok [] => ⟨[], m, true⟩
  | .ok (r :: more) =>
    have : reading.rest.length < source.length := Input.readBatch_shrinks h
    let (reports, m) := m.runBatch (r :: more) 0
    let rest := run m s reading.rest
    { rest with reports := reports ++ rest.reports }
termination_by source.length

end LogTemplate
