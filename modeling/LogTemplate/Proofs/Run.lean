import LogTemplate.Proofs.Isolation
import LogTemplate.Proofs.Mining
import LogTemplate.Proofs.Report

/-!
# What a run conserves

A run reads lines, drops some of them, and writes one line for each of the others.

* `Miner.Accounts` balances the lines that were read with the counters and the reports; a batch does
  so, `Miner.accounts_runBatch`, batches one after the other do, `Miner.Accounts.append`, and with
  them a run, `Miner.accounts_run`;
* `Miner.perm_of_services` says that records can be compared service by service;
* `Miner.run_conserves` tells what a run has counted and written at its end.
-/

namespace LogTemplate

namespace Counters

/-- The outcomes that were counted. -/
def outcomes (c : Counters) : UInt64 := c.matched + c.discovered + c.unmatched

end Counters

namespace Miner

variable {format : InputFormat} {c c' c'' : Counters} {lines lines' : List Text}
  {reports reports' : List Report} {m : Miner}

/-! ### Counting -/

/-- Counting an outcome leaves the counts of lines alone and makes the outcomes one more. -/
theorem countOutcome_spec (c : Counters) (o : Outcome) :
    (countOutcome c o).linesRead = c.linesRead ∧
      (countOutcome c o).linesSkipped = c.linesSkipped ∧
      (countOutcome c o).outcomes = c.outcomes + 1 := by
  unfold countOutcome Counters.outcomes
  split
  · next h _ =>
    unfold Counters.hit
    split
    · exact ⟨rfl, rfl, by dsimp only; ac_rfl⟩
    · exact ⟨rfl, rfl, by dsimp only; ac_rfl⟩
  · exact ⟨rfl, rfl, by simp only [Counters.miss]; ac_rfl⟩

theorem foldl_countOutcome (outcomes : List Outcome) (c : Counters) :
    (outcomes.foldl countOutcome c).linesRead = c.linesRead ∧
      (outcomes.foldl countOutcome c).linesSkipped = c.linesSkipped ∧
      (outcomes.foldl countOutcome c).outcomes = c.outcomes + UInt64.ofNat outcomes.length := by
  induction outcomes generalizing c with
  | nil => simp
  | cons o outcomes ih =>
    obtain ⟨read, skipped, counted⟩ := ih (countOutcome c o)
    obtain ⟨read', skipped', counted'⟩ := countOutcome_spec c o
    rw [List.foldl_cons, read, skipped, counted, read', skipped', counted',
      Counters.add_ofNat_succ]
    exact ⟨rfl, rfl, rfl⟩

theorem counters_foldl_save (reports : List Report) (m : Miner) :
    (reports.foldl save m).counters =
      (reports.flatMap (·.outcomes)).foldl countOutcome m.counters := by
  induction reports generalizing m with
  | nil => rfl
  | cons r reports ih => rw [List.foldl_cons, ih, List.flatMap_cons, List.foldl_append]; rfl

/-! ### Balance -/

/-- The counters and the reports tell of these lines: how many there are, how many hold no record,
and which records each service has on the others. -/
structure Accounts (format : InputFormat) (c : Counters) (lines : List Text) (reports : List Report)
    (c' : Counters) : Prop where
  linesRead : c'.linesRead = c.linesRead + UInt64.ofNat lines.length
  linesSkipped : c'.linesSkipped = c.linesSkipped + UInt64.ofNat (Input.skipped format lines)
  outcomes : c'.outcomes = c.outcomes + UInt64.ofNat (reports.flatMap (·.records)).length
  records : ∀ service, (reports.flatMap (·.records)).filter (·.service = service) =
    (Input.records format lines).filter (·.service = service)

theorem Accounts.append (first : Accounts format c lines reports c')
    (second : Accounts format c' lines' reports' c'') :
    Accounts format c (lines ++ lines') (reports ++ reports') c'' where
  linesRead := by
    rw [second.linesRead, first.linesRead, List.length_append, UInt64.ofNat_add, UInt64.add_assoc]
  linesSkipped := by
    rw [second.linesSkipped, first.linesSkipped, Input.skipped, Input.skipped, Input.skipped,
      List.countP_append, UInt64.ofNat_add, UInt64.add_assoc]
  outcomes := by
    rw [second.outcomes, first.outcomes, List.flatMap_append, List.length_append, UInt64.ofNat_add,
      UInt64.add_assoc]
  records service := by
    rw [List.flatMap_append, List.filter_append, first.records, second.records, Input.records,
      Input.records, Input.records, List.filterMap_append, List.filter_append]

/-- Lines without records are only counted. -/
theorem accounts_read (c : Counters) (none : Input.records format lines = []) :
    Accounts format c lines [] (c.read lines.length (Input.skipped format lines)) where
  linesRead := rfl
  linesSkipped := rfl
  outcomes := by simp [Counters.outcomes, Counters.read]
  records service := by simp [none]

/-- The report on messages of a service has their records. -/
theorem records_report (v : Vocabulary) (service : Text) (stored : List StoredTemplate)
    (messages : List Text) :
    (Mining.report v service stored messages).records = messages.map (⟨service, ·⟩) := by
  have own : (Mining.report v service stored messages).service = service := rfl
  rw [Report.records, own, Mining.outcomes_report]
  simp [Function.comp_def]

/-- The records of a service are those of the reports on it. -/
theorem filter_records (reports : List Report) (service : Text) :
    (reports.flatMap (·.records)).filter (·.service = service) =
      (reports.filter (·.service = service)).flatMap (·.records) := by
  induction reports with
  | nil => rfl
  | cons r reports ih =>
    rw [List.flatMap_cons, List.filter_append, ih, List.filter_cons]
    by_cases same : r.service = service <;> simp [same, Report.records]

/-- The messages of a service are those of its records. -/
theorem map_messagesOf (service : Text) (records : List Record) :
    (messagesOf service records).map (⟨service, ·⟩) = records.filter (·.service = service) := by
  rw [messagesOf, List.map_map]
  refine (List.map_congr_left fun r hr => ?_).trans (List.map_id _)
  have named : r.service = service := by simpa using (List.mem_filter.1 hr).2
  subst named
  rfl

/-- The reports of a batch have the records of the batch, service by service. -/
theorem records_runBatch (m : Miner) (records : List Record) (nanos : UInt64) (service : Text) :
    ((m.runBatch records nanos).1.flatMap (·.records)).filter (·.service = service) =
      records.filter (·.service = service) := by
  rw [filter_records, reports_of_service, ← map_messagesOf]
  split
  · next none => rw [none]; rfl
  · rw [List.flatMap_singleton, records_report]

/-- A batch of the records on some lines accounts for these lines. -/
theorem accounts_runBatch (format : InputFormat) (m : Miner) (lines : List Text) (nanos : UInt64) :
    let m' := { m with counters := m.counters.read lines.length (Input.skipped format lines) }
    Accounts format m.counters lines (m'.runBatch (Input.records format lines) nanos).1
      (m'.runBatch (Input.records format lines) nanos).2.counters := by
  intro m'
  obtain ⟨read, skipped, counted⟩ := foldl_countOutcome
    ((m'.runBatch (Input.records format lines) nanos).1.flatMap (·.outcomes)) m'.counters
  rw [← counters_foldl_save] at read skipped counted
  have one : ((m'.runBatch (Input.records format lines) nanos).1.flatMap (·.outcomes)).length =
      ((m'.runBatch (Input.records format lines) nanos).1.flatMap (·.records)).length := by
    simp [List.length_flatMap, Report.records]
  rw [one] at counted
  exact ⟨read, skipped, counted, records_runBatch m' _ nanos⟩

/-! ### Runs -/

/-- A run ends with a batch that holds nothing. -/
theorem run_of_nil {s : RunSettings} {source : List SourceLine}
    (h : (Input.readBatch s.format s.batchSize m.counters source).result = .ok []) :
    m.run s source =
      ⟨[], { m with
        counters := (Input.readBatch s.format s.batchSize m.counters source).counters }, true⟩ := by
  rw [run]
  split
  · next error => rw [h] at error; cases error
  · rfl
  · next some => rw [h] at some; cases some

/-- A run goes on behind a batch that holds something. -/
theorem run_of_cons {s : RunSettings} {source : List SourceLine} {r : Record} {more : List Record}
    (h : (Input.readBatch s.format s.batchSize m.counters source).result = .ok (r :: more)) :
    let reading := Input.readBatch s.format s.batchSize m.counters source
    let handled := { m with counters := reading.counters }.runBatch (r :: more) 0
    m.run s source =
      { handled.2.run s reading.rest with
        reports := handled.1 ++ (handled.2.run s reading.rest).reports } := by
  intro reading handled
  rw [run]
  split
  · next error => rw [h] at error; cases error
  · next none => rw [h] at none; cases none
  · next some =>
    rw [h] at some
    cases some
    rfl

/-- A run accounts for all lines. -/
theorem accounts_run (m : Miner) (s : RunSettings) (lines : List Text) :
    (m.run s (lines.map some)).finished = true ∧
      Accounts s.format m.counters lines (m.run s (lines.map some)).reports
        (m.run s (lines.map some)).last.counters := by
  induction length : lines.length using Nat.strongRecOn generalizing m lines with
  | ind n ih =>
    obtain ⟨taken, behind, rfl, reading, stopped⟩ :=
      Input.readBatch_spec s.format s.batchSize m.counters lines
    cases found : Input.records s.format taken with
    | nil =>
      -- An empty batch is not full, so nothing is left behind it.
      obtain rfl : behind = [] := by
        by_cases none : behind = []
        · exact none
        · have full := stopped none
          simp [found] at full
          omega
      rw [run_of_nil (by rw [reading, found]), reading, List.append_nil]
      exact ⟨rfl, accounts_read m.counters found⟩
    | cons r more =>
      have shorter : behind.length < n := by
        have := Input.readBatch_shrinks (by rw [reading, found])
        rwa [reading, List.length_map, List.length_map, length] at this
      obtain ⟨finished, rest⟩ := ih behind.length shorter _ behind rfl
      have first := accounts_runBatch s.format m taken 0
      rw [found] at first
      rw [run_of_cons (by rw [reading, found]), reading]
      exact ⟨finished, first.append rest⟩

/-- Records can be compared service by service. -/
theorem perm_of_services {records records' : List Record}
    (same : ∀ service, records.filter (·.service = service) =
      records'.filter (·.service = service)) : records.Perm records' := by
  refine List.perm_iff_count.2 fun r => ?_
  have own : ∀ l : List Record, (l.filter (·.service = r.service)).count r = l.count r :=
    fun l => List.count_filter (by simp)
  rw [← own records, same, own]

/-- Whatever its settings are, a run whose input is UTF-8 reads all of it. It counts each line once,
as skipped or by the outcome of its record, and writes a line for each outcome; the lines that it
writes on a service carry the messages of the service, in the order of the input. Counters wrap
around. -/
theorem run_conserves (v : Vocabulary) (maxExamples : Nat) (s : RunSettings) {bytes : List UInt8}
    {text : Text} (valid : Input.decode? bytes = some text) :
    let m : Miner := { vocabulary := v, store := { maxExamples } }
    let t := m.run s (Input.lines bytes)
    let c := t.last.counters
    let printed := Input.textLines t.output
    t.finished = true ∧
    c.linesRead = UInt64.ofNat (Input.lines bytes).length ∧
    c.linesRead = c.linesSkipped + c.matched + c.discovered + c.unmatched ∧
    UInt64.ofNat printed.length = c.matched + c.discovered + c.unmatched ∧
    ∃ lines carried, Input.lines bytes = lines.map some ∧
      printed.map Report.carried? = carried.map some ∧
      ∀ service,
        messagesOf service carried = messagesOf service (Input.records s.format lines) := by
  intro m t c printed
  have lines : Input.lines bytes = (Input.textLines text).map some := by
    rw [Input.eq_utf8_of_decode? valid, Input.lines_utf8]
  have account := accounts_run m s (Input.textLines text)
  rw [← lines] at account
  obtain ⟨finished, read, skipped, counted, records⟩ := account
  let carried := t.reports.flatMap (·.records)
  have carries : printed.map Report.carried? = carried.map some := t.carried?_output
  have written : printed.length = carried.length := by
    simpa using congrArg List.length carries
  have kept : carried.length = (Input.records s.format (Input.textLines text)).length :=
    (perm_of_services records).length_eq
  -- All counters of a new miner are zero.
  have read : c.linesRead = UInt64.ofNat (Input.textLines text).length :=
    read.trans (UInt64.zero_add _)
  have skipped : c.linesSkipped = UInt64.ofNat (Input.skipped s.format (Input.textLines text)) :=
    skipped.trans (UInt64.zero_add _)
  have counted : c.matched + c.discovered + c.unmatched = UInt64.ofNat carried.length :=
    counted.trans (UInt64.zero_add _)
  refine ⟨finished, by rw [read, lines, List.length_map], ?_, by rw [written, counted],
    Input.textLines text, carried, lines, carries, fun service => ?_⟩
  · calc c.linesRead
      _ = UInt64.ofNat (carried.length + Input.skipped s.format (Input.textLines text)) := by
        rw [read, kept, Input.length_records_add_skipped]
      _ = c.linesSkipped + (c.matched + c.discovered + c.unmatched) := by
        rw [counted, skipped, UInt64.ofNat_add, UInt64.add_comm]
      _ = c.linesSkipped + c.matched + c.discovered + c.unmatched := by
        simp only [UInt64.add_assoc]
  · exact congrArg (List.map (·.message)) (records service)

/-- Four lines in batches of two records. The third is blank, and those of one service stand around
that of another. -/
theorem run_conserves_up :
    let text : Text := "a up 1\nb up 2\n\na up 3\n".toList
    let s : RunSettings := { batchSize := 2 }
    let m : Miner := { vocabulary := {}, store := { maxExamples := 3 } }
    let t := m.run s (Input.lines text.utf8)
    let c := t.last.counters
    let printed := Input.textLines t.output
    Input.decode? text.utf8 = some text ∧ t.finished = true ∧ c.linesRead = 4 ∧
      c.linesRead = c.linesSkipped + c.matched + c.discovered + c.unmatched ∧
      ∃ carried, printed.map Report.carried? = carried.map some ∧
        messagesOf "a".toList carried = ["up 1".toList, "up 3".toList] := by
  intro text s m t c printed
  have valid : Input.decode? text.utf8 = some text := Input.decode?_utf8 text
  obtain ⟨finished, read, balance, -, lines, carried, source, carries, messages⟩ :=
    run_conserves {} 3 s valid
  have length : (Input.lines text.utf8).length = 4 := by decide
  rw [length] at read
  rw [Input.lines_utf8] at source
  obtain rfl := List.map_inj_right (fun _ _ => Option.some.inj) |>.1 source
  have own : messagesOf "a".toList (Input.records .text (Input.textLines text)) =
      ["up 1".toList, "up 3".toList] := by decide
  exact ⟨valid, finished, read, balance, carried, carries, (messages _).trans own⟩

end Miner

end LogTemplate
