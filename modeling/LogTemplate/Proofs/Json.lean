import LogTemplate.Report
import LogTemplate.Proofs.Numeral
import Mathlib.Data.List.Forall2

/-!
# Written JSON

What is written as JSON is read back.

* `Json.units` are the parts of a quoted text, `Json.string?_quote` and `Json.decodeString?_units`
  read them back;
* `Json.Tree.resume` goes on with reading at a place, and `Json.Tree.Writes` says that a text writes
  a tree, whatever stands around it;
* there is one lemma for each kind of text: `writes_quote`, `writes_numeral`, `writes_truth`,
  `writes_null`, `writes_array` and `writes_object`;
* `Json.Tree.Writes.parse?` is their use: the text has this tree.
-/

namespace LogTemplate.Json

/-! ### Strings -/

/-- How a character of a quoted text is read: only control characters without a letter of their own
are written as code units. -/
def unit (c : Char) : StringUnit :=
  if c.toNat < 0x20 ∧ c ∉ ['\x08', '\x0c', '\n', '\r', '\t'] then .code c.toNat else .char c

/-- How a quoted text is read. -/
def units (t : Text) : List StringUnit := t.map unit

/-- The four hexadecimal digits of a control character. -/
theorem codeUnit?_hex {n : Nat} (h : n < 0x20) :
    ∃ a b c d, Text.hex 4 n = [a, b, c, d] ∧ codeUnit? a b c d = some n := by
  have all : ∀ n < 0x20, codeUnit? '0' '0' (Text.hexDigit (n / 16 % 16)) (Text.hexDigit (n % 16)) =
      some n := by
    decide
  refine ⟨'0', '0', _, _, ?_, all n h⟩
  have high : n / 16 / 16 = 0 := by omega
  simp [Text.hex, high, Text.hexDigit]

/-- A character that is neither a mark nor a control character is read as it stands. -/
theorem string?_plain {c : Char} (quotation : c ≠ '"') (backslash : c ≠ '\\')
    (large : ¬c.toNat < 0x20) (rest : Text) :
    string? (c :: rest) = (string? rest).map fun (found, after) => (.char c :: found, after) := by
  rw [string?]
  · rw [if_neg large]
  all_goals simp [quotation, backslash]

/-- An escaped character is read back. -/
theorem string?_escapeChar (c : Char) (rest : Text) :
    string? (escapeChar c ++ rest) =
      (string? rest).map fun (found, after) => (unit c :: found, after) := by
  by_cases quotation : c = '"'
  · subst c; rfl
  by_cases backslash : c = '\\'
  · subst c; rfl
  by_cases letter : c ∈ ['\x08', '\x0c', '\n', '\r', '\t']
  · simp only [List.mem_cons, List.not_mem_nil, or_false] at letter
    rcases letter with rfl | rfl | rfl | rfl | rfl <;> rfl
  have letters := letter
  simp only [List.mem_cons, List.not_mem_nil, or_false, not_or] at letters
  obtain ⟨backspace, feed, line, ret, tab⟩ := letters
  simp only [escapeChar, quotation, backslash, backspace, feed, line, ret, tab, if_false]
  by_cases control : c.toNat < 0x20
  · obtain ⟨x₁, x₂, x₃, x₄, eq, value⟩ := codeUnit?_hex control
    have coded : unit c = .code c.toNat := if_pos ⟨control, letter⟩
    rw [if_pos control, eq, coded]
    simp only [List.cons_append, List.nil_append, string?, value]
  · have plain : unit c = .char c := if_neg fun h => control h.1
    rw [if_neg control, plain]
    exact string?_plain quotation backslash control rest

theorem string?_quote (t rest : Text) :
    string? (t.flatMap escapeChar ++ '"' :: rest) = some (units t, rest) := by
  induction t with
  | nil => rfl
  | cons c t ih => rw [List.flatMap_cons, List.append_assoc, string?_escapeChar, ih]; rfl

/-- A quoted text stands for itself. -/
theorem decodeString?_units (t : Text) : decodeString? (units t) = some t := by
  induction t with
  | nil => rfl
  | cons c t ih =>
    rw [units, List.map_cons, unit]
    split
    · next control =>
      have low : isLowSurrogate c.toNat = false := by
        simp only [isLowSurrogate, Bool.and_eq_false_iff, decide_eq_false_iff_not]
        omega
      have high : isHighSurrogate c.toNat = false := by
        simp only [isHighSurrogate, Bool.and_eq_false_iff, decide_eq_false_iff_not]
        omega
      rw [decodeString?.eq_def]
      simp only [low, high, Bool.false_eq_true, if_false, Char.ofNat_toNat]
      exact congrArg (Option.map (c :: ·)) ih
    · exact congrArg (Option.map (c :: ·)) ih

/-! ### Places -/

namespace Tree

variable {text rest after : Text} {s : Symbol} {t : Tree} {place : Place} {frames : List Frame}

/-- Go on with reading at a place. -/
def resume (place : Place) (frames : List Frame) (text : Text) : Option Tree :=
  (symbols? text).bind (build? place frames)

/-- A text begins with a symbol, and this is what follows it. -/
def Begins (text : Text) (s : Symbol) (after : Text) : Prop :=
  (∃ c more, text = c :: more ∧ isBlank c = false) ∧ symbol? text = some (s, after)

/-- Reading takes one symbol after the other. -/
theorem resume_of_begins (h : Begins text s after) (place : Place) (frames : List Frame) :
    resume place frames text =
      (step? place frames s).bind fun next => resume next.1 next.2 after := by
  obtain ⟨⟨c, more, rfl, solid⟩, read⟩ := h
  have cons : symbols? (c :: more) = (symbols? after).map (s :: ·) := by
    rw [symbols?, solid]
    simp only [Bool.false_eq_true, if_false]
    split
    · next none => simp [none] at read
    · next found =>
      rw [read] at found
      cases found
      rfl
  rw [resume, cons]
  cases next : step? place frames s with
  | none => cases symbols? after <;> simp [build?, next]
  | some next' =>
    simp only [Option.bind_some]
    rw [resume]
    cases symbols? after <;> simp [build?, next]

/-- A mark is one character. -/
theorem resume_mark {c : Char} {place' : Place} {frames' : List Frame} (solid : isBlank c = false)
    (mark : symbol? (c :: rest) = some (s, rest))
    (step : step? place frames s = some (place', frames')) :
    resume place frames (c :: rest) = resume place' frames' rest := by
  rw [resume_of_begins ⟨⟨c, rest, rfl, solid⟩, mark⟩, step, Option.bind_some]

/-- A text writes a tree: wherever a value may stand, and whatever follows it there, the text is
read as this tree. -/
def Writes (text : Text) (t : Tree) : Prop :=
  ∀ rest, Follows rest → ∃ s place after, Begins (text ++ rest) s after ∧ begin? s = some place ∧
    ∀ frames, resume place frames after = resume (.after t) frames rest

namespace Writes

theorem resume_value (h : Writes text t) (follows : Follows rest) (frames : List Frame) :
    resume .value frames (text ++ rest) = resume (.after t) frames rest := by
  obtain ⟨s, place, after, begins, begin, read⟩ := h rest follows
  rw [resume_of_begins begins, step?, begin]
  exact read frames

theorem resume_firstItem (h : Writes text t) (follows : Follows rest) (frames : List Frame) :
    resume .firstItem frames (text ++ rest) = resume (.after t) (.array [] :: frames) rest := by
  obtain ⟨s, place, after, begins, begin, read⟩ := h rest follows
  have step : step? .firstItem frames s = some (place, .array [] :: frames) := by
    cases s <;> simp_all [step?, begin?]
  rw [resume_of_begins begins, step]
  exact read _

/-- What is written as a tree has this tree. -/
theorem parse? (h : Writes text t) : Tree.parse? text = some t := by
  have nothing : Follows [] := fun _ _ eq => by cases eq
  have read := h.resume_value nothing []
  rw [List.append_nil] at read
  exact read.trans (by simp [resume, symbols?, build?])

end Writes

/-! ### Values of one symbol -/

theorem writes_of_symbol (one : ∀ rest, Follows rest → Begins (text ++ rest) s rest)
    (begin : begin? s = some (.after t)) : Writes text t :=
  fun rest follows => ⟨s, .after t, rest, one rest follows, begin, fun _ => rfl⟩

theorem begins_quote (t rest : Text) : Begins (quote t ++ rest) (.string (units t)) rest := by
  refine ⟨⟨'"', _, rfl, by decide⟩, ?_⟩
  have read := string?_quote t rest
  simp [quote, symbol?, read]

theorem writes_quote (t : Text) : Writes (quote t) (.string (units t)) :=
  writes_of_symbol (fun rest _ => begins_quote t rest) rfl

theorem writes_numeral {n : Numeral} (h : n.Proper) : Writes n.text (.number n) := by
  obtain ⟨c, more, eq, solid⟩ := h.exists_head
  exact writes_of_symbol
    (fun rest follows => ⟨⟨c, more ++ rest, by rw [eq]; rfl, solid⟩, symbol?_numeral h follows⟩) rfl

theorem writes_truth (b : Bool) : Writes (Report.truth b) (.bool b) := by
  cases b <;> exact writes_of_symbol (fun rest _ => ⟨⟨_, _, rfl, by decide⟩, rfl⟩) rfl

theorem writes_null : Writes "null".toList .null :=
  writes_of_symbol (fun rest _ => ⟨⟨_, _, rfl, by decide⟩, rfl⟩) rfl

/-! ### Arrays and objects -/

theorem joinWith_cons (mark x : Text) (xs : List Text) :
    Text.joinWith mark (x :: xs) = x ++ xs.flatMap (mark ++ ·) := by
  induction xs generalizing x with
  | nil => simp [Text.joinWith]
  | cons y ys ih =>
    rw [Text.joinWith, ih, List.flatMap_cons, List.append_assoc, List.append_assoc]
    exact fun h => by cases h

theorem follows_cons {c : Char} (h : c ∈ [',', ':', ']', '\x7d']) (rest : Text) :
    Follows (c :: rest) := by
  intro d after eq
  rw [← (List.cons.inj eq).1]
  simp only [List.mem_cons, List.not_mem_nil, or_false] at h
  rcases h with rfl | rfl | rfl | rfl <;> decide

/-- A further part or the end follows. -/
theorem follows_parts (parts : List Text) {c : Char} (h : c ∈ [',', ':', ']', '\x7d'])
    (rest : Text) : Follows (parts.flatMap ([','] ++ ·) ++ c :: rest) := by
  cases parts with
  | nil => exact follows_cons h rest
  | cons part parts => exact follows_cons (by decide) _

/-- The items behind the first one. -/
theorem resume_items {items : List Text} {trees : List Tree}
    (h : List.Forall₂ Writes items trees) (t : Tree) (done : List Tree) (frames : List Frame)
    (rest : Text) :
    resume (.after t) (.array done :: frames) (items.flatMap ([','] ++ ·) ++ ']' :: rest) =
      resume (.after (.array (done.reverse ++ t :: trees))) frames rest := by
  induction h generalizing t done with
  | nil =>
    refine (resume_mark (by decide) rfl rfl).trans ?_
    simp
  | @cons item tree items trees first others ih =>
    rw [List.flatMap_cons, List.append_assoc, List.append_assoc, List.singleton_append]
    refine (resume_mark (by decide) rfl rfl).trans ?_
    rw [first.resume_value (follows_parts items (by decide) rest), ih]
    simp

theorem writes_array {items : List Text} {trees : List Tree} (h : List.Forall₂ Writes items trees) :
    Writes (Report.array items) (.array trees) := by
  intro rest _
  have begins : Begins (Report.array items ++ rest) .beginArray
      (Text.joinWith [','] items ++ ']' :: rest) :=
    ⟨⟨'[', _, rfl, by decide⟩, by simp [Report.array, symbol?]⟩
  refine ⟨_, .firstItem, _, begins, rfl, fun frames => ?_⟩
  cases h with
  | nil => exact resume_mark (by decide) rfl rfl
  | cons first others =>
    rw [joinWith_cons, List.append_assoc,
      first.resume_firstItem (follows_parts _ (by decide) rest), resume_items others]
    rfl

/-- A member of an object as it is written. -/
def member (m : String × Text) : Text := quote m.1.toList ++ ':' :: m.2

/-- A member is written for a key and a tree. -/
def WritesMember (m : String × Text) (entry : List StringUnit × Tree) : Prop :=
  entry.1 = units m.1.toList ∧ Writes m.2 entry.2

theorem writesMember (name : String) (h : Writes text t) :
    WritesMember (name, text) (units name.toList, t) := ⟨rfl, h⟩

/-- A member is read wherever a key may stand. -/
theorem WritesMember.resume {m : String × Text} {entry : List StringUnit × Tree}
    {done : List (List StringUnit × Tree)} (h : WritesMember m entry) (follows : Follows rest)
    (key : step? place frames (.string entry.1) = some (.colon done entry.1, frames)) :
    Tree.resume place frames (member m ++ rest) =
      Tree.resume (.after entry.2) (.object done entry.1 :: frames) rest := by
  rw [member, List.append_assoc, resume_of_begins (begins_quote _ _), ← h.1, key,
    Option.bind_some, List.cons_append]
  exact (resume_mark (by decide) rfl rfl).trans (h.2.resume_value follows _)

/-- The members behind the first one. -/
theorem resume_members {members : List (String × Text)} {entries : List (List StringUnit × Tree)}
    (h : List.Forall₂ WritesMember members entries) (key : List StringUnit) (t : Tree)
    (done : List (List StringUnit × Tree)) (frames : List Frame) (rest : Text) :
    resume (.after t) (.object done key :: frames)
        ((members.map member).flatMap ([','] ++ ·) ++ '\x7d' :: rest) =
      resume (.after (.object (done.reverse ++ (key, t) :: entries))) frames rest := by
  induction h generalizing key t done with
  | nil =>
    refine (resume_mark (by decide) rfl rfl).trans ?_
    simp
  | @cons m entry members entries first others ih =>
    rw [List.map_cons, List.flatMap_cons, List.append_assoc, List.append_assoc,
      List.singleton_append]
    refine (resume_mark (by decide) rfl rfl).trans ?_
    rw [first.resume (follows_parts _ (by decide) rest) rfl, ih]
    simp

theorem writes_object {members : List (String × Text)}
    {entries : List (List StringUnit × Tree)} (h : List.Forall₂ WritesMember members entries) :
    Writes (Report.object members) (.object entries) := by
  intro rest _
  have eq : Report.object members ++ rest =
      '\x7b' :: (Text.joinWith [','] (members.map member) ++ '\x7d' :: rest) := by
    simp only [Report.object, List.cons_append, List.append_assoc, List.nil_append]
    rfl
  have begins : Begins (Report.object members ++ rest) .beginObject
      (Text.joinWith [','] (members.map member) ++ '\x7d' :: rest) :=
    ⟨⟨'\x7b', _, eq, by decide⟩, by rw [eq]; rfl⟩
  refine ⟨_, .firstKey, _, begins, rfl, fun frames => ?_⟩
  cases h with
  | nil => exact resume_mark (by decide) rfl rfl
  | @cons m entry members entries first others =>
    rw [List.map_cons, joinWith_cons, List.append_assoc,
      first.resume (follows_parts _ (by decide) rest) rfl, resume_members others]
    rfl

end Tree

end LogTemplate.Json
