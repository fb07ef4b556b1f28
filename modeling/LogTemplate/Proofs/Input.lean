import LogTemplate.Input
import Mathlib.Data.List.Basic

/-!
# What input holds

* `Input.lines_utf8` says that the lines of bytes in UTF-8 are those of their text, and
  `Input.textLines_flatMap` that lines without line ends can be set one after the other;
* `Input.records` are the records on lines;
* `Input.readOn_append` tells what reading on takes of lines in front of a source, and
  `Input.readBatch_spec` what a batch takes of lines alone.
-/

namespace LogTemplate

/-! ### Bytes in UTF-8 -/

/-- A byte below 128 is in the bytes of its own character only. -/
theorem toNat_of_mem_utf8EncodeChar {c : Char} {b : UInt8} (h : b ∈ String.utf8EncodeChar c)
    (ascii : b.toNat < 128) : c.toNat = b.toNat := by
  simp only [String.utf8EncodeChar, Char.toNat_val] at h
  split at h
  · rw [List.mem_singleton.1 h, UInt8.toNat_ofNat']
    omega
  · -- All bytes of longer characters are at least 128.
    exfalso
    split at h
    · simp only [List.mem_cons, List.not_mem_nil, or_false] at h
      rcases h with rfl | rfl <;> simp at ascii <;> omega
    · split at h
      · simp only [List.mem_cons, List.not_mem_nil, or_false] at h
        rcases h with rfl | rfl | rfl <;> simp at ascii <;> omega
      · simp only [List.mem_cons, List.not_mem_nil, or_false] at h
        rcases h with rfl | rfl | rfl | rfl <;> simp at ascii <;> omega

namespace Input

theorem decode?_utf8 (t : Text) : decode? t.utf8 = some t := by
  have eq : (⟨t.utf8.toArray⟩ : ByteArray) = (String.ofList t).toByteArray := by
    rw [String.toByteArray_ofList]
    apply ByteArray.ext
    simp [List.utf8Encode, Text.utf8]
  have valid : (⟨t.utf8.toArray⟩ : ByteArray).IsValidUTF8 := eq ▸ (String.ofList t).isValidUTF8
  have read : String.fromUTF8 ⟨t.utf8.toArray⟩ valid = String.ofList t :=
    String.toByteArray_inj.1 eq
  rw [decode?, String.fromUTF8?, dif_pos valid, Option.map_some, read, String.toList_ofList]

/-- Bytes that can be decoded are those of their text. -/
theorem eq_utf8_of_decode? {bytes : List UInt8} {t : Text} (h : decode? bytes = some t) :
    bytes = t.utf8 := by
  obtain ⟨s, read, rfl⟩ := Option.map_eq_some_iff.1 h
  rw [String.fromUTF8?] at read
  split at read
  · have eq : s.toByteArray = ⟨bytes.toArray⟩ := by
      rw [← Option.some.inj read]
      rfl
    rw [← String.utf8Encode_toList] at eq
    have := congrArg (fun b : ByteArray => b.data.toList) eq
    simpa [List.utf8Encode, Text.utf8] using this.symm
  · cases read

/-! ### Lines -/

/-- A line without a carriage return at its end. -/
def trimReturn (line : Text) : Text := if line.getLast? = some '\r' then line.dropLast else line

/-- The lines of a text, where `line` holds the characters of the current line, latest first. -/
def cutText (line : Text) : Text → List Text
  | [] => if line.isEmpty then [] else [line.reverse]
  | c :: rest =>
    if c = '\n' then trimReturn line.reverse :: cutText [] rest else cutText (c :: line) rest

/-- The lines of a text. What stands behind the last line feed is a line unless it is empty. -/
def textLines (text : Text) : List Text := cutText [] text

/-- A line feed ends a line. -/
theorem cutText_append {t : Text} (h : '\n' ∉ t) (line rest : Text) :
    cutText line (t ++ '\n' :: rest) = trimReturn (line.reverse ++ t) :: cutText [] rest := by
  induction t generalizing line with
  | nil => simp [cutText]
  | cons c t ih =>
    rw [List.mem_cons, not_or] at h
    rw [List.cons_append, cutText, if_neg (Ne.symm h.1), ih h.2, List.reverse_cons,
      List.append_assoc, List.singleton_append]

/-- Lines without line ends are cut apart again. -/
theorem textLines_flatMap {lines : List Text} (h : ∀ line ∈ lines, '\n' ∉ line ∧ '\r' ∉ line) :
    textLines (lines.flatMap (· ++ ['\n'])) = lines := by
  induction lines with
  | nil => rfl
  | cons line lines ih =>
    obtain ⟨⟨feed, ret⟩, others⟩ := List.forall_mem_cons.1 h
    have whole : trimReturn line = line :=
      if_neg fun last => ret (List.mem_of_getLast? last)
    rw [textLines, List.flatMap_cons, List.append_assoc, List.singleton_append,
      cutText_append feed, List.reverse_nil, List.nil_append, whole]
    exact congrArg _ (ih others)

theorem utf8_append (s t : Text) : (s ++ t).utf8 = s.utf8 ++ t.utf8 := List.flatMap_append

theorem utf8_singleton (c : Char) : Text.utf8 [c] = String.utf8EncodeChar c := by
  simp [Text.utf8]

theorem utf8EncodeChar_ne_nil (c : Char) : String.utf8EncodeChar c ≠ [] := by
  simp only [String.utf8EncodeChar]
  repeat' split
  all_goals simp

/-- Cutting goes on over bytes that are no line feed. -/
theorem cut_append {bytes : List UInt8} (none : lineFeed ∉ bytes) (line rest : List UInt8) :
    cut line (bytes ++ rest) = cut (bytes.reverse ++ line) rest := by
  induction bytes generalizing line with
  | nil => rfl
  | cons b bytes ih =>
    rw [List.mem_cons, not_or] at none
    rw [List.cons_append, cut, if_neg (Ne.symm none.1), ih none.2, List.reverse_cons,
      List.append_assoc, List.singleton_append]

theorem eq_of_lineFeed_mem {c : Char} (h : lineFeed ∈ String.utf8EncodeChar c) : c = '\n' :=
  Char.toNat_inj.1 (toNat_of_mem_utf8EncodeChar h (by decide))

theorem dropReturn_utf8 (line : Text) : dropReturn line.utf8 = (trimReturn line).utf8 := by
  rcases List.eq_nil_or_concat line with rfl | ⟨before, c, rfl⟩
  · rfl
  · rw [List.concat_eq_append, dropReturn, trimReturn, utf8_append, utf8_singleton,
      List.getLast?_concat]
    by_cases hc : c = '\r'
    · subst hc
      have byte : String.utf8EncodeChar '\r' = [carriageReturn] := by decide
      simp [byte]
    · have last : (Text.utf8 before ++ String.utf8EncodeChar c).getLast? ≠ some carriageReturn := by
        rw [List.getLast?_append_of_ne_nil _ (utf8EncodeChar_ne_nil c)]
        intro last
        exact hc (Char.toNat_inj.1
          (toNat_of_mem_utf8EncodeChar (List.mem_of_getLast? last) (by decide)))
      rw [if_neg last, if_neg (by simpa using hc), utf8_append, utf8_singleton]

theorem cut_utf8 (line text : Text) :
    cut (Text.utf8 line.reverse).reverse text.utf8 = (cutText line text).map Text.utf8 := by
  induction text generalizing line with
  | nil =>
    cases line with
    | nil => rfl
    | cons c line =>
      have ne : (Text.utf8 (c :: line).reverse).reverse.isEmpty = false := by
        simp [Text.utf8]
      have nil : Text.utf8 [] = [] := rfl
      rw [nil, cut, ne]
      simp [cutText]
  | cons c text ih =>
    have head : Text.utf8 (c :: text) = String.utf8EncodeChar c ++ Text.utf8 text :=
      List.flatMap_cons
    rw [head, cutText]
    split
    · next hc =>
      subst hc
      have feed : String.utf8EncodeChar '\n' = [lineFeed] := by decide
      rw [feed, List.singleton_append, cut, if_pos rfl, List.reverse_reverse, dropReturn_utf8,
        List.map_cons, ← ih []]
      rfl
    · next hc =>
      rw [cut_append fun mem => hc (eq_of_lineFeed_mem mem), ← ih, List.reverse_cons, utf8_append,
        List.reverse_append, utf8_singleton]

/-- The lines of bytes in UTF-8 are those of their text. -/
theorem lines_utf8 (text : Text) : lines text.utf8 = (textLines text).map some := by
  have eq : cut [] text.utf8 = (textLines text).map Text.utf8 := cut_utf8 [] text
  rw [lines, eq, List.map_map]
  exact List.map_congr_left fun line _ => decode?_utf8 line

/-! ### Batches -/

/-- The record of a line, if it holds one. -/
def record? (format : InputFormat) (line : Text) : Option Record :=
  match Record.parse format line with
  | .ok r => r
  | .error _ => none

/-- The records on lines. -/
def records (format : InputFormat) (lines : List Text) : List Record :=
  lines.filterMap (record? format)

/-- How many lines hold no record. -/
def skipped (format : InputFormat) (lines : List Text) : Nat :=
  lines.countP fun line => (record? format line).isNone

theorem records_append (format : InputFormat) (lines lines' : List Text) :
    records format (lines ++ lines') = records format lines ++ records format lines' :=
  List.filterMap_append

theorem skipped_append (format : InputFormat) (lines lines' : List Text) :
    skipped format (lines ++ lines') = skipped format lines + skipped format lines' :=
  List.countP_append

theorem length_records_add_skipped (format : InputFormat) (lines : List Text) :
    (records format lines).length + skipped format lines = lines.length := by
  induction lines with
  | nil => rfl
  | cons line lines ih =>
    cases h : record? format line with
    | none => simp [records, skipped, h, ← ih, Nat.add_assoc]
    | some r =>
      simp only [records, skipped, List.filterMap_cons, List.countP_cons, h, List.length_cons, ← ih]
      simp
      omega

end Input

namespace Counters

/-- The counters behind lines of which some held no record. -/
def read (c : Counters) (lines skipped : Nat) : Counters :=
  { c with
    linesRead := c.linesRead + UInt64.ofNat lines
    linesSkipped := c.linesSkipped + UInt64.ofNat skipped }

@[simp] theorem read_zero (c : Counters) : c.read 0 0 = c := by simp [read]

theorem read_read (c : Counters) (lines skipped lines' skipped' : Nat) :
    (c.read lines skipped).read lines' skipped' = c.read (lines + lines') (skipped + skipped') := by
  simp [read, UInt64.ofNat_add, UInt64.add_assoc]

theorem add_ofNat_succ (x : UInt64) (n : Nat) :
    x + 1 + UInt64.ofNat n = x + UInt64.ofNat (n + 1) := by
  rw [Nat.add_comm n 1, UInt64.ofNat_add, UInt64.add_assoc]
  rfl

theorem read_line (c : Counters) (lines skipped : Nat) :
    c.line.read lines skipped = c.read (lines + 1) skipped := by
  simp [line, read, add_ofNat_succ]

theorem read_skip (c : Counters) (lines skipped : Nat) :
    c.line.skip.read lines skipped = c.read (lines + 1) (skipped + 1) := by
  simp [line, skip, read, add_ofNat_succ]

end Counters

namespace Input

variable {format : InputFormat}

/-- A line without a record is counted and passed over. -/
theorem readOn_of_none {room : Option Nat} {line : Text} (left : room ≠ some 0)
    (none : record? format line = none) (got : List Record) (c : Counters)
    (rest : List SourceLine) :
    readOn format room got c (some line :: rest) = readOn format room got c.line.skip rest := by
  unfold record? at none
  rw [readOn, if_neg left]
  cases parsed : Record.parse format line with
  | error e => rfl
  | ok found =>
    rw [parsed] at none
    dsimp only at none
    rw [none]

/-- A record is counted and taken. -/
theorem readOn_of_some {room : Option Nat} {line : Text} {r : Record} (left : room ≠ some 0)
    (some : record? format line = some r) (got : List Record) (c : Counters)
    (rest : List SourceLine) :
    readOn format room got c (Option.some line :: rest) =
      readOn format (lessRoom room) (r :: got) c.line rest := by
  unfold record? at some
  rw [readOn, if_neg left]
  cases parsed : Record.parse format line with
  | error e => simp [parsed] at some
  | ok found =>
    rw [parsed] at some
    dsimp only at some
    rw [some]

/-- Reading on takes some of the lines in front of a source, and the records on them fill the room.
The counters tell how many lines were read and how many of them were skipped. Lines are left only
when there is no more room. -/
theorem readOn_append (format : InputFormat) (room : Option Nat) (got : List Record) (c : Counters)
    (lines : List Text) (source : List SourceLine) :
    ∃ taken behind, lines = taken ++ behind ∧
      readOn format room got c (lines.map some ++ source) =
        readOn format (room.map (· - (records format taken).length))
          ((records format taken).reverse ++ got) (c.read taken.length (skipped format taken))
          (behind.map some ++ source) ∧
      (∀ n ∈ room, (records format taken).length ≤ n) ∧
      (behind ≠ [] → room = some (records format taken).length) := by
  induction lines generalizing room got c with
  | nil => exact ⟨[], [], rfl, by simp [records, skipped], by simp [records], fun h => absurd rfl h⟩
  | cons line lines ih =>
    rw [List.map_cons, List.cons_append]
    by_cases full : room = some 0
    · refine ⟨[], line :: lines, rfl, ?_, by simp [records], fun _ => full⟩
      simp [full, records, skipped]
    · cases here : record? format line with
      | none =>
        obtain ⟨taken, behind, eq, reading, fits, stopped⟩ := ih room got c.line.skip
        have same : records format (line :: taken) = records format taken := by
          simp [records, here]
        refine ⟨line :: taken, behind, by rw [eq]; rfl, ?_, by rwa [same], by rwa [same]⟩
        rw [readOn_of_none full here, reading, same, Counters.read_skip]
        simp [skipped, here]
      | some r =>
        obtain ⟨taken, behind, eq, reading, fits, stopped⟩ := ih (lessRoom room) (r :: got) c.line
        have more : records format (line :: taken) = r :: records format taken := by
          simp [records, here]
        refine ⟨line :: taken, behind, by rw [eq]; rfl, ?_, ?_⟩
        · have less : (lessRoom room).map (· - (records format taken).length) =
              room.map (· - (r :: records format taken).length) := by
            simp only [lessRoom, Option.map_map, List.length_cons]
            congr 1
            funext n
            show n - 1 - _ = _
            omega
          rw [readOn_of_some full here, reading, more, Counters.read_line, less]
          simp [skipped, here]
        · rw [more]
          cases room with
          | none => exact ⟨by simp, fun left => nomatch stopped left⟩
          | some n =>
            have : n ≠ 0 := fun zero => full (by rw [zero])
            simp only [lessRoom, Option.map_some, Option.mem_some_iff, forall_eq',
              Option.some.injEq] at fits stopped
            simp only [List.length_cons, Option.mem_some_iff, forall_eq', Option.some.injEq]
            exact ⟨by omega, fun left => by have := stopped left; omega⟩

/-- Without room nothing is read. -/
theorem readOn_full (got : List Record) (c : Counters) (source : List SourceLine) :
    readOn format (some 0) got c source = ⟨.ok got.reverse, source, c⟩ := by
  cases source <;> simp [readOn]

/-- A reading takes some lines: it gives the records on them and leaves the other lines, and the
counters tell how many lines were read and how many of them were skipped. -/
theorem readOn_spec (format : InputFormat) (room : Option Nat) (got : List Record) (c : Counters)
    (lines : List Text) :
    ∃ taken behind, lines = taken ++ behind ∧
      readOn format room got c (lines.map some) =
        ⟨.ok (got.reverse ++ records format taken), behind.map some,
          c.read taken.length (skipped format taken)⟩ ∧
      (behind ≠ [] → room = some (records format taken).length) := by
  obtain ⟨taken, behind, eq, reading, -, stopped⟩ := readOn_append format room got c lines []
  rw [List.append_nil, List.append_nil] at reading
  refine ⟨taken, behind, eq, ?_, stopped⟩
  rw [reading]
  cases behind with
  | nil => simp [readOn]
  | cons line behind =>
    rw [stopped (List.cons_ne_nil line behind), Option.map_some, Nat.sub_self, readOn_full]
    simp

/-- A batch takes lines from the beginning. It stops at the end of the input, or else when it holds
as many records as it may. -/
theorem readBatch_spec (format : InputFormat) (size : Nat) (c : Counters) (lines : List Text) :
    ∃ taken behind, lines = taken ++ behind ∧
      readBatch format size c (lines.map some) =
        ⟨.ok (records format taken), behind.map some,
          c.read taken.length (skipped format taken)⟩ ∧
      (behind ≠ [] → 0 < size ∧ (records format taken).length = size) := by
  obtain ⟨taken, behind, eq, reading, stopped⟩ :=
    readOn_spec format (if size = 0 then none else some size) [] c lines
  refine ⟨taken, behind, eq, reading, fun h => ?_⟩
  have left := stopped h
  split at left
  · cases left
  · simp only [Option.some.injEq] at left
    omega

end Input

end LogTemplate
