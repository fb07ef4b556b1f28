import LogTemplate.Proofs.Input

/-!
# Batches

Reading one batch after the other cuts the records of the input into rows of one size.

* `Chunks` says that rows are a list that was cut after every so many elements;
* `Input.readAll_append` reads lines in front of a source: as many full batches as there are, which
  leave fewer records than a batch holds;
* `Input.readAll_chunks` is about input in UTF-8, whose records come in chunks with an empty batch
  behind them;
* `Input.readAll_notUtf8` is about input with a line that is not UTF-8. The batch that was being
  filled in front of this line is lost.
-/

namespace LogTemplate

/-- The rows are the list, cut after every `size` elements: only the last row may be shorter. For
size zero the list is not cut. -/
structure Chunks {α : Type} (size : Nat) (l : List α) (rows : List (List α)) : Prop where
  flatten : rows.flatten = l
  nonempty : ∀ row ∈ rows, row ≠ []
  full : ∀ row ∈ rows.dropLast, row.length = size
  fits : 0 < size → ∀ row ∈ rows, row.length ≤ size
  whole : size = 0 → rows.length ≤ 1

namespace Chunks

variable {α : Type} {size : Nat} {l rest : List α} {rows : List (List α)}

/-- No row of size zero is full. -/
theorem eq_nil_of_zero (full : ∀ row ∈ rows, row ≠ [] ∧ row.length = size) (zero : size = 0) :
    rows = [] := by
  rw [List.eq_nil_iff_forall_not_mem]
  intro row h
  exact (full row h).1 (List.eq_nil_of_length_eq_zero ((full row h).2.trans zero))

/-- Full rows are chunks. -/
theorem of_full (flatten : rows.flatten = l) (full : ∀ row ∈ rows, row ≠ [] ∧ row.length = size) :
    Chunks size l rows where
  flatten := flatten
  nonempty row h := (full row h).1
  full row h := (full row (List.dropLast_subset _ h)).2
  fits _ row h := Nat.le_of_eq (full row h).2
  whole zero := by simp [eq_nil_of_zero full zero]

/-- Behind full rows there may be one that is not. -/
theorem concat (flatten : rows.flatten = l) (full : ∀ row ∈ rows, row ≠ [] ∧ row.length = size)
    (ne : rest ≠ []) (fits : 0 < size → rest.length ≤ size) :
    Chunks size (l ++ rest) (rows ++ [rest]) where
  flatten := by simp [flatten]
  nonempty row h := by
    rcases List.mem_append.1 h with h | h
    · exact (full row h).1
    · rwa [List.mem_singleton.1 h]
  full row h := by
    rw [List.dropLast_concat] at h
    exact (full row h).2
  fits pos row h := by
    rcases List.mem_append.1 h with h | h
    · exact Nat.le_of_eq (full row h).2
    · rw [List.mem_singleton.1 h]
      exact fits pos
  whole zero := by simp [eq_nil_of_zero full zero]

end Chunks

namespace Input

variable {format : InputFormat} {size : Nat} {c : Counters} {source : List SourceLine}
  {front : List Text}

/-! ### One batch -/

/-- A batch is full when there are enough records, and what stands behind its last record is left.
-/
theorem readBatch_of_le (c : Counters) (source : List SourceLine) (pos : 0 < size)
    (enough : size ≤ (records format front).length) :
    ∃ taken behind, front = taken ++ behind ∧ (records format taken).length = size ∧
      readBatch format size c (front.map some ++ source) =
        ⟨.ok (records format taken), behind.map some ++ source,
          c.read taken.length (skipped format taken)⟩ := by
  have room : (if size = 0 then none else some size) = some size := if_neg (by omega)
  obtain ⟨taken, behind, rfl, reading, fits, stopped⟩ :=
    readOn_append format (some size) [] c front source
  have full : (records format taken).length = size := by
    by_cases none : behind = []
    · have := fits size rfl
      rw [none, List.append_nil] at enough
      omega
    · exact (Option.some.inj (stopped none)).symm
  refine ⟨taken, behind, rfl, full, ?_⟩
  rw [readBatch, room, reading, full, Option.map_some, Nat.sub_self, readOn_full]
  simp

/-- A batch that does not get full reads on behind the lines. -/
theorem readBatch_of_lt (c : Counters) (source : List SourceLine)
    (few : 0 < size → (records format front).length < size) :
    ∃ room, room ≠ some 0 ∧ readBatch format size c (front.map some ++ source) =
      readOn format room (records format front).reverse
        (c.read front.length (skipped format front)) source := by
  obtain ⟨taken, behind, rfl, reading, -, stopped⟩ :=
    readOn_append format (if size = 0 then none else some size) [] c front source
  have all : behind = [] := by
    by_contra left
    have full := stopped left
    split at full
    · cases full
    · have less := few (by omega)
      rw [records_append, List.length_append, Option.some.inj full] at less
      omega
  subst all
  rw [List.append_nil] at few
  simp only [List.append_nil, List.map_nil, List.nil_append] at reading ⊢
  refine ⟨_, fun full => ?_, reading⟩
  split at full
  · cases full
  · have less := few (by omega)
    simp only [Option.map_some, Option.some.injEq] at full
    omega

/-! ### Batches one after the other -/

theorem readAll_of_cons {r : Record} {more : List Record}
    (h : (readBatch format size c source).result = .ok (r :: more)) :
    readAll format size c source = readBatch format size c source ::
      readAll format size (readBatch format size c source).counters
        (readBatch format size c source).rest := by
  rw [readAll]
  split
  · next error => rw [h] at error; cases error
  · next none => rw [h] at none; cases none
  · rfl

/-- A batch without records is the last one, be it empty or an error. -/
theorem readAll_of_last
    (h : ∀ r more, (readBatch format size c source).result ≠ .ok (r :: more)) :
    readAll format size c source = [readBatch format size c source] := by
  rw [readAll]
  split
  · rfl
  · rfl
  · next some => exact absurd some (h _ _)

theorem readAll_nil (format : InputFormat) (size : Nat) (c : Counters) :
    readAll format size c [] = [⟨.ok [], [], c⟩] :=
  readAll_of_last fun _ _ => by simp [readBatch, readOn]

/-- In front of a source full batches are read, until fewer records are left than a batch holds. -/
theorem readAll_append (format : InputFormat) (size : Nat) (c : Counters) (front : List Text)
    (source : List SourceLine) :
    ∃ taken behind readings, ∃ batches : List (List Record), front = taken ++ behind ∧
      readAll format size c (front.map some ++ source) = readings ++
        readAll format size (c.read taken.length (skipped format taken))
          (behind.map some ++ source) ∧
      readings.map (·.result) = batches.map .ok ∧ batches.flatten = records format taken ∧
      (∀ batch ∈ batches, batch ≠ [] ∧ batch.length = size) ∧
      (0 < size → (records format behind).length < size) := by
  induction length : front.length using Nat.strongRecOn generalizing c front with
  | ind n ih =>
    by_cases enough : 0 < size ∧ size ≤ (records format front).length
    · obtain ⟨first, rest, rfl, full, reading⟩ := readBatch_of_le c source enough.1 enough.2
      obtain ⟨r, more, found⟩ := List.exists_cons_of_length_pos (full ▸ enough.1)
      have shorter : rest.length < n := by
        have := readBatch_shrinks (by rw [reading, found])
        simp only [reading, List.length_append, List.length_map] at this length
        omega
      obtain ⟨taken, behind, readings, batches, rfl, others, results, flatten, rows, few⟩ :=
        ih rest.length shorter (c.read first.length (skipped format first)) rest rfl
      have goesOn := readAll_of_cons (by rw [reading, found])
      rw [reading, others, Counters.read_read, ← List.length_append, ← skipped_append,
        ← List.cons_append] at goesOn
      exact ⟨first ++ taken, behind, _, records format first :: batches,
        (List.append_assoc ..).symm, goesOn, by rw [List.map_cons, results]; rfl,
        by rw [List.flatten_cons, flatten, records_append],
        List.forall_mem_cons.2 ⟨⟨found ▸ List.cons_ne_nil r more, full⟩, rows⟩, few⟩
    · exact ⟨[], front, [], [], rfl, by simp [skipped], rfl, rfl, by simp, by omega⟩

/-- The records of full batches fill them. -/
theorem dvd_length_flatten {batches : List (List Record)}
    (full : ∀ batch ∈ batches, batch.length = size) : size ∣ batches.flatten.length := by
  induction batches with
  | nil => exact Nat.dvd_zero size
  | cons batch batches ih =>
    obtain ⟨length, full⟩ := List.forall_mem_cons.1 full
    rw [List.flatten_cons, List.length_append, length]
    exact Nat.dvd_add (Nat.dvd_refl size) (ih full)

/-- Behind full batches and records that do not fill another one, the end of the input gives a batch
of these records, if there are some, and an empty one. -/
theorem readAll_of_lt (c : Counters) (few : 0 < size → (records format front).length < size) :
    readAll format size c (front.map some) =
      (if records format front = [] then []
        else [⟨.ok (records format front), [], c.read front.length (skipped format front)⟩]) ++
      [⟨.ok [], [], c.read front.length (skipped format front)⟩] := by
  obtain ⟨room, -, reading⟩ := readBatch_of_lt c [] few
  rw [List.append_nil, readOn, List.reverse_reverse] at reading
  cases found : records format front with
  | nil =>
    rw [found] at reading
    rw [readAll_of_last fun _ _ => by simp [reading], reading]
    rfl
  | cons r more =>
    rw [found] at reading
    rw [readAll_of_cons (by rw [reading]), reading, readAll_nil]
    rfl

/-- Reading input in UTF-8 in batches gives the records on its lines, in their order and cut into
batches of one size, and an empty batch when all lines were read and counted. Size zero stands for
one batch of all records. -/
theorem readAll_chunks (format : InputFormat) (size : Nat) (c : Counters) {bytes : List UInt8}
    {text : Text} (valid : decode? bytes = some text) :
    lines bytes = (textLines text).map some ∧ ∃ readings, ∃ batches : List (List Record),
      readAll format size c (lines bytes) = readings ++
        [⟨.ok [], [], c.read (textLines text).length (skipped format (textLines text))⟩] ∧
      readings.map (·.result) = batches.map .ok ∧
      Chunks size (records format (textLines text)) batches := by
  have source : lines bytes = (textLines text).map some := by
    rw [eq_utf8_of_decode? valid, lines_utf8]
  obtain ⟨taken, behind, readings, batches, all, first, results, flatten, rows, few⟩ :=
    readAll_append format size c (textLines text) []
  rw [List.append_nil, List.append_nil, readAll_of_lt _ few, Counters.read_read] at first
  refine ⟨source, ?_⟩
  rw [source, first, all, List.length_append, skipped_append, records_append, ← List.append_assoc]
  refine ⟨_, batches ++ if records format behind = [] then [] else [records format behind], rfl, ?_⟩
  split
  · next none => exact ⟨by simpa using results, by simpa [none] using Chunks.of_full flatten rows⟩
  · next some =>
    exact ⟨by simp [results], Chunks.concat flatten rows some fun pos => Nat.le_of_lt (few pos)⟩

/-- Three records on five lines, in batches of two. The comment at the end is read for the batch
that is empty. -/
theorem readAll_chunks_up :
    let text : Text := "a 1\n\nb 2\r\nc 3\n# end".toList
    decode? text.utf8 = some text ∧
      ∃ readings batches,
        readAll .text 2 {} (lines text.utf8) =
          readings ++ [⟨.ok [], [], ({} : Counters).read 5 2⟩] ∧
        readings.map (·.result) = batches.map .ok ∧
        Chunks 2 [⟨['a'], ['1']⟩, ⟨['b'], ['2']⟩, ⟨['c'], ['3']⟩] batches := by
  intro text
  have valid := decode?_utf8 text
  refine ⟨valid, ?_⟩
  have on : records .text (textLines text) = [⟨['a'], ['1']⟩, ⟨['b'], ['2']⟩, ⟨['c'], ['3']⟩] := by
    decide
  have none : skipped .text (textLines text) = 2 := by decide
  have length : (textLines text).length = 5 := by decide
  obtain ⟨-, read⟩ := readAll_chunks .text 2 {} valid
  rwa [on, none, length] at read

/-- A line that is not UTF-8 ends the reading. In front of it full batches were read; the records
that did not fill another one are lost, although their lines were counted. So no record is lost if
and only if the records fill their batches. -/
theorem readAll_notUtf8 (format : InputFormat) (size : Nat) (c : Counters) {bytes : List UInt8}
    {before : List Text} {after : List SourceLine}
    (source : lines bytes = before.map some ++ none :: after) :
    ∃ readings, ∃ batches : List (List Record), ∃ lost,
      readAll format size c (lines bytes) = readings ++
        [⟨.error .notUtf8, after, c.read before.length (skipped format before)⟩] ∧
      readings.map (·.result) = batches.map .ok ∧
      (∀ batch ∈ batches, batch.length = size) ∧
      records format before = batches.flatten ++ lost ∧
      lost.length = (records format before).length % size ∧
      (records format before = batches.flatten ↔ size ∣ (records format before).length) := by
  obtain ⟨taken, behind, readings, batches, rfl, first, results, flatten, rows, few⟩ :=
    readAll_append format size c before (none :: after)
  obtain ⟨room, left, reading⟩ :=
    readBatch_of_lt (c.read taken.length (skipped format taken)) (none :: after) few
  rw [readOn, if_neg left, Counters.read_read] at reading
  have last := readAll_of_last fun r more => by
    rw [reading]
    simp
  rw [last, reading] at first
  have lost :
      (records format behind).length = (records format (taken ++ behind)).length % size := by
    obtain ⟨k, full⟩ := dvd_length_flatten fun batch h => (rows batch h).2
    rw [records_append, List.length_append, ← flatten, full, Nat.mul_add_mod]
    rcases Nat.eq_zero_or_pos size with rfl | pos
    · rw [Nat.mod_zero]
    · rw [Nat.mod_eq_of_lt (few pos)]
  refine ⟨readings, batches, records format behind, ?_, results, fun batch h => (rows batch h).2,
    by rw [flatten, records_append], lost, ?_⟩
  · rw [source, first, List.length_append, skipped_append]
  · rw [Nat.dvd_iff_mod_eq_zero, ← lost, flatten, records_append]
    simp

/-- Three records stand in front of a line that is not UTF-8. Two of them make a batch, the third is
lost. -/
theorem readAll_notUtf8_up :
    let bytes := Text.utf8 "a 1\n\nb 2\nc 3\n".toList ++ [0xFF, 10]
    let before : List Text := ["a 1".toList, [], "b 2".toList, "c 3".toList]
    lines bytes = before.map some ++ none :: [] ∧
      ∃ readings, ∃ batches : List (List Record), ∃ lost,
        readAll .text 2 {} (lines bytes) =
          readings ++ [⟨.error .notUtf8, [], ({} : Counters).read 4 1⟩] ∧
        readings.map (·.result) = batches.map .ok ∧
        [⟨['a'], ['1']⟩, ⟨['b'], ['2']⟩, ⟨['c'], ['3']⟩] = batches.flatten ++ lost ∧
        lost.length = 1 := by
  intro bytes before
  have source : lines bytes = before.map some ++ none :: [] := by decide +kernel
  have on : records .text before = [⟨['a'], ['1']⟩, ⟨['b'], ['2']⟩, ⟨['c'], ['3']⟩] := by decide
  obtain ⟨readings, batches, lost, read, results, -, all, length, -⟩ :=
    readAll_notUtf8 .text 2 {} source
  rw [on] at all length
  exact ⟨source, readings, batches, lost, read, results, all, length⟩

/-- A record in front of a line that is not UTF-8 is in no batch. -/
theorem readAll_notUtf8_loses :
    let bytes := Text.utf8 "a one\n".toList ++ [0xFF, 10]
    lines bytes = [some "a one".toList, none] ∧
      records .text ["a one".toList] = [⟨['a'], "one".toList⟩] ∧
      (readAll .text 2 {} (lines bytes)).map (·.result) = [.error .notUtf8] := by
  decide +kernel

end Input

end LogTemplate
