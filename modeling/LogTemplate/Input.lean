import LogTemplate.Counters
import LogTemplate.Record

/-!
# Input

Input is a sequence of lines, read in batches of records.

* `Input.lines` cuts bytes into lines at line feeds, without the carriage return before one; a line
  that is not UTF-8 is kept as unreadable;
* `Input.readBatch` reads lines until a batch is full or the input ends. A line that cannot be read
  is an error, and what the batch held is lost;
* `Input.readAll` reads one batch after the other.
-/

namespace LogTemplate

/-- A line of input; none when it is not UTF-8. -/
abbrev SourceLine := Option Text

namespace Input

/-- The text of bytes in UTF-8. -/
def decode? (bytes : List UInt8) : SourceLine :=
  (String.fromUTF8? ⟨bytes.toArray⟩).map String.toList

/-- A line feed. -/
def lineFeed : UInt8 := 10

/-- A carriage return. -/
def carriageReturn : UInt8 := 13

/-- A line that ended with a line feed, without a carriage return at its end. -/
def dropReturn (line : List UInt8) : List UInt8 :=
  if line.getLast? = some carriageReturn then line.dropLast else line

/-- The lines of the bytes, where `line` holds the bytes of the current line, latest first. What
stands behind the last line feed is a line unless it is empty. -/
def cut (line : List UInt8) : List UInt8 → List (List UInt8)
  | [] => if line.isEmpty then [] else [line.reverse]
  | b :: rest =>
    if b = lineFeed then dropReturn line.reverse :: cut [] rest else cut (b :: line) rest

/-- The lines of the bytes. -/
def lines (bytes : List UInt8) : List SourceLine := (cut [] bytes).map decode?

/-- A line cannot be read. -/
inductive ReadError where
  | notUtf8
  deriving DecidableEq, Repr

/-- A batch, with the lines behind it and the counters after it. -/
structure Reading where
  result : Except ReadError (List Record)
  rest : List SourceLine
  counters : Counters

/-- Room for one record less. -/
def lessRoom (room : Option Nat) : Option Nat := room.map (· - 1)

/-- Read on with `room` for more records, if that is limited, behind the records `got`, which are
given latest first. -/
def readOn (format : InputFormat) (room : Option Nat) (got : List Record) (c : Counters) :
    List SourceLine → Reading
  | [] => ⟨.ok got.reverse, [], c⟩
  | line :: rest =>
    if room = some 0 then ⟨.ok got.reverse, line :: rest, c⟩
    else
      match line with
      | none => ⟨.error .notUtf8, rest, c⟩
      | some text =>
        match Record.parse format text with
        | .ok (some r) => readOn format (lessRoom room) (r :: got) c.line rest
        | .ok none | .error _ => readOn format room got c.line.skip rest

/-- Read a batch of at most `size` records, where zero stands for all. -/
def readBatch (format : InputFormat) (size : Nat) (c : Counters) (source : List SourceLine) :
    Reading :=
  readOn format (if size = 0 then none else some size) [] c source

theorem readOn_rest_length_le (format : InputFormat) (room : Option Nat) (got : List Record)
    (c : Counters) (source : List SourceLine) :
    (readOn format room got c source).rest.length ≤ source.length := by
  induction source generalizing room got c with
  | nil => simp [readOn]
  | cons line rest ih =>
    unfold readOn
    split
    · simp
    · split
      · simp
      · split
        · exact Nat.le_succ_of_le (ih ..)
        all_goals exact Nat.le_succ_of_le (ih ..)

/-- A batch that gains a record takes a line. -/
theorem readOn_shrinks {format : InputFormat} {room : Option Nat} {got : List Record}
    {c : Counters} {source : List SourceLine} {records : List Record}
    (h : (readOn format room got c source).result = .ok records)
    (hlen : got.length < records.length) :
    (readOn format room got c source).rest.length < source.length := by
  cases source with
  | nil =>
    simp only [readOn, Except.ok.injEq] at h
    simp [← h] at hlen
  | cons line rest =>
    unfold readOn at h ⊢
    split at h
    · simp only [Except.ok.injEq] at h
      simp [← h] at hlen
    · split at h
      · simp at h
      · rename_i hroom _ _
        simp only [hroom, if_false]
        split <;> exact Nat.lt_succ_of_le (readOn_rest_length_le ..)

/-- A batch that holds a record takes a line. -/
theorem readBatch_shrinks {format : InputFormat} {size : Nat} {c : Counters}
    {source : List SourceLine} {r : Record} {records : List Record}
    (h : (readBatch format size c source).result = .ok (r :: records)) :
    (readBatch format size c source).rest.length < source.length :=
  readOn_shrinks h (by simp)

/-- Read batches until one is empty or cannot be read, which is the last one. -/
def readAll (format : InputFormat) (size : Nat) (c : Counters) (source : List SourceLine) :
    List Reading :=
  let reading := readBatch format size c source
  match h : reading.result with
  | .error _ | .ok [] => [reading]
  | .ok (_ :: _) =>
    have : reading.rest.length < source.length := readBatch_shrinks h
    reading :: readAll format size reading.counters reading.rest
termination_by source.length

end Input

end LogTemplate
