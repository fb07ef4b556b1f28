import LogTemplate.Proofs.Run
import LogTemplate.Proofs.Text

/-!
# Output as input

What is written about records can be read as records again.

* `Record.Solid` says that neither the service nor the message of a record is blank. Reading gives
  no other records, `Record.solid_of_record?`;
* `Report.record?_printOutcome` reads one written line. It begins and ends with a brace, so that it
  is neither trimmed nor taken for a comment;
* `Report.readBatch_print` reads all lines of any reports, `Miner.readBatch_run` those of a run.
-/

namespace LogTemplate

namespace Record

variable {r : Record}

/-- Neither the service nor the message is blank. -/
structure Solid (r : Record) : Prop where
  service : r.service.isBlank = false
  message : r.message.isBlank = false

instance (r : Record) : Decidable r.Solid :=
  decidable_of_iff (r.service.isBlank = false ∧ r.message.isBlank = false)
    ⟨fun h => ⟨h.1, h.2⟩, fun h => ⟨h.service, h.message⟩⟩

/-! ### Records that are read -/

theorem keep_eq_some {kept : Record} (h : keep r = some kept) :
    kept = r ∧ r.message.isBlank = false := by
  unfold keep at h
  split at h
  · cases h
  · next solid =>
    cases h
    exact ⟨rfl, by simpa using solid⟩

/-- A line that does not begin with white space begins with the name of a service. -/
theorem service_of_ofText? {line : Text} {c : Char} {rest : Text} (solid : Text.isSpace c = false)
    (begins : line = c :: rest) (h : ofText? line = some r) : r.service.isBlank = false := by
  subst begins
  unfold ofText? at h
  split at h
  · cases h
  · cases h
    simp [Text.isBlank, solid]

/-- Trimmed text is empty or begins with no white space. -/
theorem head_trim {t rest : Text} {c : Char} (h : t.trim = c :: rest) :
    Text.isSpace c = false := by
  obtain ⟨blank, eq, -⟩ := Text.exists_trimEnd_append t.trimStart
  have start : t.dropWhile Text.isSpace = c :: (rest ++ blank) := by
    have trimmed : Text.trimEnd t.trimStart = c :: rest := h
    rw [trimmed] at eq
    exact eq
  have head := List.head?_dropWhile_not Text.isSpace t
  rw [start] at head
  simpa using head

/-- Records that are read are solid: a missing service is replaced, and without a message there is
no record. -/
theorem solid_of_record? {format : InputFormat} {line : Text}
    (h : Input.record? format line = some r) : r.Solid := by
  unfold Input.record? at h
  cases parsed : parse format line with
  | error e => rw [parsed] at h; cases h
  | ok found =>
    rw [parsed] at h
    dsimp only at h
    subst h
    unfold parse at parsed
    dsimp only at parsed
    split at parsed
    · cases parsed
    · next some =>
      cases format with
      | text =>
        obtain ⟨read, kept, solid⟩ := Option.bind_eq_some_iff.1 (Except.ok.inj parsed)
        obtain ⟨rfl, message⟩ := keep_eq_some solid
        cases begins : line.trim with
        | nil => simp [begins] at some
        | cons c rest => exact ⟨service_of_ofText? (head_trim begins) begins kept, message⟩
      | json =>
        dsimp only at parsed
        split at parsed
        · cases parsed
        · next read _ =>
          obtain ⟨eq, message⟩ := keep_eq_some (Except.ok.inj parsed)
          subst eq
          refine ⟨?_, message⟩
          by_cases blank : read.service.isBlank
          · rw [if_pos blank]
            show defaultService.isBlank = false
            decide
          · rw [if_neg blank]
            simpa using blank

end Record

namespace Report

variable {r : Report}

/-! ### Written lines -/

/-- A written line has no white space around it. -/
theorem trim_object (members : List (String × Text)) :
    (object members).trim = object members := by
  have last : (object members).getLast? = some '\x7d' := by
    rw [object, List.getLast?_append]
    rfl
  have start : (object members).trimStart = object members := rfl
  rw [Text.trim, start]
  refine Text.trimEnd_of_getLast fun c hc => ?_
  rw [last] at hc
  cases hc
  decide

/-- A written line is read as its record. -/
theorem record?_printOutcome {service : Text} {o : Outcome}
    (solid : Record.Solid ⟨service, o.message⟩) :
    Input.record? .json (printOutcome service o) = some ⟨service, o.message⟩ := by
  have carries : (Json.Tree.parse? (printOutcome service o)).bind Record.ofTree? =
      some ⟨service, o.message⟩ := carried?_printOutcome service o
  have trim : (printOutcome service o).trim = printOutcome service o := trim_object _
  have head : (printOutcome service o).head? = some '\x7b' := rfl
  have some : (printOutcome service o).isEmpty = false := rfl
  have service' : Text.isBlank service = false := solid.service
  have message : Text.isBlank o.message = false := solid.message
  simp [Input.record?, Record.parse, trim, some, head, carries, Record.keep, service', message]

theorem records_lines (solid : ∀ record ∈ r.records, record.Solid) :
    Input.records .json r.lines = r.records := by
  have each : ∀ o ∈ r.outcomes, Input.record? .json (printOutcome r.service o) =
      some ⟨r.service, o.message⟩ := by
    intro o ho
    exact record?_printOutcome (solid _ (List.mem_map.2 ⟨o, ho, rfl⟩))
  rw [Input.records, lines, records, List.filterMap_map, ← List.filterMap_eq_map]
  exact List.filterMap_congr each

/-- Reports on records that are not blank can be read again, as JSON and as one batch: this gives
the records that they are about, in their order, one for each line. -/
theorem readBatch_print {reports : List Report}
    (solid : ∀ r ∈ reports, ∀ record ∈ r.records, record.Solid) (c : Counters) :
    let source := Input.lines (Text.utf8 (reports.flatMap (·.print)))
    let records := reports.flatMap (·.records)
    Input.readBatch .json 0 c source = ⟨.ok records, [], c.read records.length 0⟩ ∧
      source.length = records.length := by
  intro source records
  have lines : source = (reports.flatMap (·.lines)).map some := by
    rw [← textLines_print, ← Input.lines_utf8]
  have read : Input.records .json (reports.flatMap (·.lines)) = records := by
    rw [Input.records, List.filterMap_flatMap]
    exact List.flatMap_congr fun r hr => records_lines (solid r hr)
  have count : (reports.flatMap (·.lines)).length = records.length := by
    simp [records, Report.lines, Report.records, List.length_flatMap]
  have none : Input.skipped .json (reports.flatMap (·.lines)) = 0 := by
    have all := Input.length_records_add_skipped .json (reports.flatMap (·.lines))
    rw [read, count] at all
    omega
  refine ⟨?_, by rw [lines, List.length_map, count]⟩
  obtain ⟨taken, behind, split, reading, stopped⟩ :=
    Input.readBatch_spec .json 0 c (reports.flatMap (·.lines))
  -- A batch without a limit leaves nothing behind.
  obtain rfl : behind = [] := by
    by_contra left
    exact absurd (stopped left).1 (Nat.lt_irrefl 0)
  rw [List.append_nil] at split
  rw [lines, reading, ← split, read, none, count]
  rfl

/-- Two reports on messages with line ends, quotes and marks of comments in them. -/
theorem readBatch_print_up :
    let hit : Hit := ⟨"7".toList, "x %string% \"".toList, [2], ⟨1, 3⟩, true⟩
    let reports : List Report := [
      ⟨"a\"\r\n".toList, [], [⟨"x \\n \"".toList, some hit⟩, ⟨"# é\n".toList, none⟩]⟩,
      ⟨"#b".toList, [], [⟨"\t]".toList, none⟩]⟩]
    let source := Input.lines (Text.utf8 (reports.flatMap (·.print)))
    (∀ r ∈ reports, ∀ record ∈ r.records, record.Solid) ∧
      (Input.readBatch .json 0 {} source).result = .ok [
        ⟨"a\"\r\n".toList, "x \\n \"".toList⟩, ⟨"a\"\r\n".toList, "# é\n".toList⟩,
        ⟨"#b".toList, "\t]".toList⟩] := by
  intro hit reports source
  have solid : ∀ r ∈ reports, ∀ record ∈ r.records, record.Solid := by decide
  refine ⟨solid, ?_⟩
  rw [(readBatch_print solid {}).1]
  rfl

end Report

/-- A run reports on solid records only, whatever its settings are. -/
theorem Miner.solid_run (m : Miner) (s : RunSettings) (lines : List Text) :
    ∀ r ∈ (m.run s (lines.map some)).reports, ∀ record ∈ r.records, record.Solid := by
  intro r hr record hrecord
  obtain ⟨-, account⟩ := accounts_run m s lines
  have kept := perm_of_services account.records
  have mem := kept.mem_iff.1 (List.mem_flatMap.2 ⟨r, hr, hrecord⟩)
  obtain ⟨line, -, read⟩ := List.mem_filterMap.1 mem
  exact Record.solid_of_record? read

/-- What a run writes about its input can be read again, as JSON and as one batch: this gives the
records of the input, up to their order. -/
theorem Miner.readBatch_run (m : Miner) (s : RunSettings) (lines : List Text) (c : Counters) :
    let reports := (m.run s (lines.map some)).reports
    ∃ records : List Record, records.Perm (Input.records s.format lines) ∧
      Input.readBatch .json 0 c (Input.lines (Text.utf8 (reports.flatMap (·.print)))) =
        ⟨.ok records, [], c.read records.length 0⟩ := by
  intro reports
  obtain ⟨-, account⟩ := accounts_run m s lines
  exact ⟨_, perm_of_services account.records,
    (Report.readBatch_print (m.solid_run s lines) c).1⟩

end LogTemplate
