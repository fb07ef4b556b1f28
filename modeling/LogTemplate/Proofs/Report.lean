import LogTemplate.Run
import LogTemplate.Proofs.Input
import LogTemplate.Proofs.Json

/-!
# Written reports

A report is written as a line of JSON for each of its outcomes.

* `Report.carried?` is the record that a written line carries, and `Report.records` are those of a
  report: `Report.carried?_printOutcome` says that they are read back;
* `Report.Plain` says that a text has no control characters. A written line has none, so it stays
  one line: `Report.textLines_print` gives the lines of written reports, and
  `Transcript.carried?_output` what the lines of the output carry.
-/

namespace LogTemplate

namespace Report

open Json Tree

variable {t : Text} {n : Numeral}

/-! ### Written lines -/

/-- The record that a written line carries. -/
def carried? (line : Text) : Option Record := (Tree.parse? line).bind Record.ofTree?

/-- The records that the outcomes of a report are about. -/
def records (r : Report) : List Record := r.outcomes.map fun o => ⟨r.service, o.message⟩

theorem writes_offsets (offsets : List Nat) :
    ∃ trees, Writes (array (offsets.map Text.ofNat)) (.array trees) := by
  suffices ∃ trees, List.Forall₂ Writes (offsets.map Text.ofNat) trees from
    this.imp fun _ h => writes_array h
  induction offsets with
  | nil => exact ⟨[], .nil⟩
  | cons k offsets ih =>
    obtain ⟨trees, h⟩ := ih
    obtain ⟨n, proper, eq⟩ := exists_numeral_ofNat k
    exact ⟨.number n :: trees, .cons (eq ▸ writes_numeral proper) h⟩

/-- A double is written as a numeral, or as null. -/
theorem print_double (x : Float) :
    (∃ n : Numeral, n.Proper ∧ (Number.double x).print = n.text) ∨
      (Number.double x).print = "null".toList := by
  rw [Number.print]
  split
  · exact .inl (Decimal.exists_numeral_print Number.style x.toBits.toNat)
  · exact .inr rfl

theorem writes_double (x : Float) : ∃ tree, Writes (Number.double x).print tree := by
  obtain ⟨n, proper, eq⟩ | eq := print_double x
  · exact ⟨.number n, eq ▸ writes_numeral proper⟩
  · exact ⟨.null, eq ▸ writes_null⟩

theorem writes_printHit (h : Hit) : ∃ tree, Writes (printHit h) tree := by
  obtain ⟨offsets, writesOffsets⟩ := writes_offsets h.offsets
  obtain ⟨complexity, writesComplexity⟩ := writes_double h.complexity.toFloat
  exact ⟨_, writes_object <|
    .cons (writesMember "id" (writes_quote h.id)) <|
    .cons (writesMember "pattern" (writes_quote h.text)) <|
    .cons (writesMember "tag_offsets" writesOffsets) <|
    .cons (writesMember "complexity" writesComplexity) <|
    .cons (writesMember "discovered" (writes_truth h.isNew)) .nil⟩

/-- An outcome is written as an object with the service and the message. -/
theorem writes_printOutcome (service : Text) (o : Outcome) :
    ∃ tree, Writes (printOutcome service o) (.object [
      (units "service".toList, .string (units service)),
      (units "message".toList, .string (units o.message)),
      (units "matched".toList, tree)]) := by
  have line : ∀ {text : Text} {tree : Tree}, Writes text tree →
      List.Forall₂ WritesMember
        [("service", quote service), ("message", quote o.message), ("matched", text)]
        [(units "service".toList, .string (units service)),
          (units "message".toList, .string (units o.message)), (units "matched".toList, tree)] :=
    fun h => .cons (writesMember "service" (writes_quote service)) <|
      .cons (writesMember "message" (writes_quote o.message)) <|
      .cons (writesMember "matched" h) .nil
  rw [printOutcome]
  cases o.hit with
  | none => exact ⟨.null, writes_object (line writes_null)⟩
  | some h =>
    obtain ⟨tree, writesHit⟩ := writes_printHit h
    exact ⟨tree, writes_object (line writesHit)⟩

/-- A written line carries the message and its service. -/
theorem carried?_printOutcome (service : Text) (o : Outcome) :
    carried? (printOutcome service o) = some ⟨service, o.message⟩ := by
  obtain ⟨tree, writes⟩ := writes_printOutcome service o
  have message : "message".toList ≠ "service".toList := by decide
  have matched : "matched".toList ≠ "service".toList ∧ "matched".toList ≠ "message".toList := by
    decide
  have read : Record.Fields.members? {} [
      (units "service".toList, .string (units service)),
      (units "message".toList, .string (units o.message)),
      (units "matched".toList, tree)] = some ⟨some service, some o.message⟩ := by
    simp only [Record.Fields.members?, Record.Fields.member?, Record.text?, decodeString?_units,
      Option.bind_eq_bind, Option.bind_some, if_neg message, if_neg matched.1, if_neg matched.2]
    rfl
  rw [carried?, writes.parse?, Option.bind_some, Record.ofTree?, read]
  rfl

/-! ### Control characters -/

/-- The text has no control characters. -/
def Plain (t : Text) : Prop := ∀ c ∈ t, 0x20 ≤ c.toNat

instance (t : Text) : Decidable (Plain t) := List.decidableBAll _ t

theorem Plain.nil : Plain [] := fun _ hc => by cases hc

theorem Plain.cons {c : Char} (h : 0x20 ≤ c.toNat) (plain : Plain t) : Plain (c :: t) :=
  List.forall_mem_cons.2 ⟨h, plain⟩

theorem Plain.append {u : Text} (plain : Plain t) (plain' : Plain u) : Plain (t ++ u) :=
  List.forall_mem_append.2 ⟨plain, plain'⟩

theorem plain_escapeChar (c : Char) : Plain (escapeChar c) := by
  have digits : ∀ n < 0x20, Plain (Text.hex 4 n) := by decide
  unfold escapeChar
  repeat' split
  iterate 7
    · exact .cons (by decide) (.cons (by decide) .nil)
  · next control => exact .cons (by decide) (.cons (by decide) (digits _ control))
  · next large => exact .cons (by omega) .nil

theorem plain_quote (t : Text) : Plain (quote t) := by
  refine .cons (by decide) (.append ?_ (.cons (by decide) .nil))
  intro c hc
  obtain ⟨d, -, hd⟩ := List.mem_flatMap.1 hc
  exact plain_escapeChar d c hd

theorem plain_of_areDigits {ds : Text} (h : AreDigits ds) : Plain ds := by
  intro c hc
  have digit := h c hc
  simp only [Char.isDigit, Bool.and_eq_true, decide_eq_true_eq, UInt32.le_iff_toNat_le] at digit
  have : 48 ≤ c.toNat := digit.1
  omega

theorem plain_numeral (h : n.Proper) : Plain n.text := by
  have fraction : Plain n.fractionText := by
    unfold Numeral.fractionText
    split
    · exact .nil
    · exact .cons (by decide) (plain_of_areDigits h.fraction)
  have exponent : Plain n.exponentText := by
    unfold Numeral.exponentText
    split
    · exact .nil
    · next negative ds eq =>
      have digits := plain_of_areDigits (h.exponent negative ds eq).1
      cases negative <;> exact .cons (by decide) (.cons (by decide) digits)
  have unsigned : Plain n.unsigned := ((plain_of_areDigits h.whole).append fraction).append exponent
  unfold Numeral.text
  split
  · exact .cons (by decide) unsigned
  · exact unsigned

theorem plain_joinWith {parts : List Text} (h : ∀ part ∈ parts, Plain part) :
    Plain (Text.joinWith [','] parts) := by
  cases parts with
  | nil => simp [Text.joinWith, Plain]
  | cons part parts =>
    rw [joinWith_cons]
    refine .append (h part List.mem_cons_self) fun c hc => ?_
    obtain ⟨other, mem, hc⟩ := List.mem_flatMap.1 hc
    exact Plain.cons (by decide) (h other (List.mem_cons_of_mem _ mem)) c hc

theorem plain_array {items : List Text} (h : ∀ item ∈ items, Plain item) : Plain (array items) :=
  .cons (by decide) (.append (plain_joinWith h) (.cons (by decide) .nil))

theorem plain_object {members : List (String × Text)} (h : ∀ m ∈ members, Plain m.2) :
    Plain (object members) := by
  refine .cons (by decide) (.append (plain_joinWith fun part hp => ?_) (.cons (by decide) .nil))
  obtain ⟨m, hm, rfl⟩ := List.mem_map.1 hp
  exact .append (plain_quote _) (.cons (by decide) (h m hm))

theorem plain_printHit (h : Hit) : Plain (printHit h) := by
  have offsets : Plain (array (h.offsets.map Text.ofNat)) := by
    refine plain_array fun item hi => ?_
    obtain ⟨k, -, rfl⟩ := List.mem_map.1 hi
    exact plain_of_areDigits (areDigits_ofNat k)
  have complexity : Plain (Number.double h.complexity.toFloat).print := by
    obtain ⟨n, proper, eq⟩ | eq := print_double h.complexity.toFloat
    · exact eq ▸ plain_numeral proper
    · exact eq ▸ (by decide : Plain "null".toList)
  have isNew : Plain (truth h.isNew) := by
    cases h.isNew <;> decide
  refine plain_object ?_
  simp only [List.forall_mem_cons]
  exact ⟨plain_quote h.id, plain_quote h.text, offsets, complexity, isNew, by simp⟩

theorem plain_printOutcome (service : Text) (o : Outcome) : Plain (printOutcome service o) := by
  refine plain_object ?_
  simp only [List.forall_mem_cons]
  refine ⟨plain_quote service, plain_quote o.message, ?_, by simp⟩
  split
  · exact plain_printHit _
  · exact (by decide : Plain "null".toList)

/-! ### Lines -/

/-- The lines of a report. -/
def lines (r : Report) : List Text := r.outcomes.map (printOutcome r.service)

/-- The lines of a report carry its records. -/
theorem carried?_lines (r : Report) : r.lines.map carried? = r.records.map some := by
  simp [lines, records, carried?_printOutcome, Function.comp_def]

/-- Reports that are written one after the other are cut into their lines again. -/
theorem textLines_print (reports : List Report) :
    Input.textLines (reports.flatMap (·.print)) = reports.flatMap (·.lines) := by
  have eq : reports.flatMap (·.print) = (reports.flatMap (·.lines)).flatMap (· ++ ['\n']) := by
    simp [print, lines, List.flatMap_assoc, List.flatMap_map]
  rw [eq]
  refine Input.textLines_flatMap fun line hl => ?_
  obtain ⟨r, -, hl⟩ := List.mem_flatMap.1 hl
  obtain ⟨o, -, rfl⟩ := List.mem_map.1 hl
  have plain := plain_printOutcome r.service o
  exact ⟨fun mem => absurd (plain _ mem) (by decide), fun mem => absurd (plain _ mem) (by decide)⟩

end Report

/-- The lines of the output are those of the reports. -/
theorem Transcript.textLines_output (t : Transcript) :
    Input.textLines t.output = t.reports.flatMap (·.lines) :=
  Report.textLines_print t.reports

/-- The lines of the output carry the records of the reports. -/
theorem Transcript.carried?_output (t : Transcript) :
    (Input.textLines t.output).map Report.carried? = (t.reports.flatMap (·.records)).map some := by
  rw [textLines_output, List.map_flatMap, List.map_flatMap]
  simp only [Report.carried?_lines]

end LogTemplate
