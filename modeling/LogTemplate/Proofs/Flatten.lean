import LogTemplate.Proofs.Leaves
import LogTemplate.Proofs.Shape

/-!
# The tokens of JSON objects

* A scan finds nothing in a text just when it is blank, `Scan.message_eq_nil_iff`. It never finds a
  string, `Scan.ne_string_of_mem_message`, and it does not begin with text over several lines,
  `Scan.ne_multiline_of_message_eq_cons`;
* `Flatten.StandsFor` is what the value token of a leaf tells of it, if there is one;
  `Flatten.standsFor_valueToken?` follows from what scans find;
* `Scan.json_eq_leaves` says what an object becomes: path, mark and value token of each of its
  leaves.
-/

namespace LogTemplate

open Json

variable {v : Vocabulary} {t : Token} {text : Text}

/-! ### Scans -/

namespace Scan

/-- A scan finds nothing in blank text only. -/
theorem message_eq_nil_iff (off : v.markSpaces = false) :
    message v text = [] ↔ ∀ c ∈ text, Text.isSpace c := by
  refine ⟨blank_of_tokens, fun blank => ?_⟩
  rw [message, tokens_of_blank blank]
  simp [spaces, off]

/-- The first token of a message stands on a single line. -/
theorem ne_multiline_of_message_eq_cons (off : v.markSpaces = false) {others : Line}
    (h : message v text = t :: others) : t.kind ≠ .multiline := by
  rcases blank_or text with blank | ⟨gap, c, rest, rfl, blank, hc⟩
  · rw [(message_eq_nil_iff off).2 blank] at h
    cases h
  · rw [message, tokens_of_cons blank hc (by simp [Cursor.isCut]) (found_message _ _ _ _)] at h
    simp only [spaces, off, Bool.false_and, Bool.false_eq_true, if_false, List.nil_append] at h
    rw [← (List.cons.inj h).1]
    exact kind_next _ _ _ _ _

/-- No token of a message is a string. -/
theorem ne_string_of_mem_message (h : t ∈ message v text) : t.kind ≠ .string := by
  rcases mem_tokens h with ⟨gap, rfl⟩ | ⟨w, rfl⟩ | ⟨cursor, place, c, w, space, rfl⟩
  · exact fun k => by cases k
  · exact fun k => by cases k
  · intro k
    rw [found_message] at k
    have kind : (next v cursor.quotation cursor.last true c w).token.kind = .string := k
    have described := describes_next (v := v) cursor.quotation cursor.last true c w
    simp only [kind] at described
    exact described

end Scan

/-! ### Values -/

/-- What is written for a number is not blank. -/
theorem Json.Number.exists_not_isSpace (n : Number) : ∃ c ∈ n.print, Text.isSpace c = false := by
  cases n with
  | integer n =>
    obtain ⟨c, hc⟩ := List.exists_mem_of_ne_nil _ (Placeholder.ofNat_ne_nil n.natAbs)
    refine ⟨c, ?_, Placeholder.isSpace_of_isDigit (Placeholder.isDigit_ofNat hc)⟩
    rw [Number.print]
    split
    · exact List.mem_cons_of_mem _ hc
    · exact hc
  | double x =>
    rw [Number.print]
    split
    · obtain ⟨numeral, proper, eq⟩ := Decimal.exists_numeral_print style x.toBits.toNat
      obtain ⟨c, more, unsigned, digit⟩ := proper.unsigned_head
      refine ⟨c, ?_, Placeholder.isSpace_of_isDigit digit⟩
      rw [eq, Numeral.text, unsigned]
      exact List.mem_append_right _ List.mem_cons_self
    · exact ⟨'n', by decide, by decide⟩

namespace Json.Value

/-- The text of a leaf, which is scanned for its value token. Other leaves have none. -/
def text? : Value → Option Text
  | .string s => some s
  | .number n => some n.print
  | _ => none

/-- The leaf has a value: it is a boolean, a number, or a string that is not blank. -/
def HasContent : Value → Prop
  | .bool _ | .number _ => True
  | .string s => ∃ c ∈ s, Text.isSpace c = false
  | _ => False

end Json.Value

namespace Flatten

/-- What the value token of a leaf tells of it. -/
structure StandsFor (v : Vocabulary) (token? : Option Token) (leaf : Value) : Prop where
  isSome_iff : token?.isSome ↔ leaf.HasContent
  /-- Booleans are written as they are. -/
  bool : ∀ b, leaf = .bool b →
    token? = some (.literal (if b then "true".toList else "false".toList))
  /-- The only token of a text stands for it. -/
  single : ∀ text ∈ leaf.text?, ∀ t, Scan.message v text = [t] →
    token? = some { t with spaceBefore := true }
  /-- A text with several tokens is a string. -/
  string_iff : ∀ t ∈ token?, t.kind = .string ↔
    ∃ text ∈ leaf.text?, 2 ≤ (Scan.message v text).length
  value : ∀ t ∈ token?, t.kind = .string → leaf.text? = some t.value
  line : ∀ t ∈ token?, t.kind ≠ .multiline

/-- The token of a text, by what a scan finds in it. -/
theorem textToken?_of_message (off : v.markSpaces = false) (text : Text) :
    ((∀ c ∈ text, Text.isSpace c) ∧ Scan.message v text = [] ∧ textToken? v text = none) ∨
    (∃ t, Scan.message v text = [t] ∧ t.kind ≠ .string ∧ t.kind ≠ .multiline ∧
      textToken? v text = some { t with spaceBefore := true }) ∨
    (2 ≤ (Scan.message v text).length ∧
      textToken? v text = some { value := text, kind := .string, spaceBefore := true }) := by
  unfold textToken?
  cases found : Scan.message v text with
  | nil => exact .inl ⟨(Scan.message_eq_nil_iff off).1 found, rfl, rfl⟩
  | cons t others =>
    cases others with
    | nil =>
      have mem : t ∈ Scan.message v text := by simp [found]
      exact .inr (.inl ⟨t, rfl, Scan.ne_string_of_mem_message mem,
        Scan.ne_multiline_of_message_eq_cons off found, rfl⟩)
    | cons u others => exact .inr (.inr ⟨by simp, rfl⟩)

/-- The token of a text stands for the leaf that it is the text of. -/
theorem standsFor_textToken? (off : v.markSpaces = false) {leaf : Value}
    (own : leaf.text? = some text) (other : ∀ b, leaf ≠ .bool b)
    (content : leaf.HasContent ↔ ∃ c ∈ text, Text.isSpace c = false) :
    StandsFor v (textToken? v text) leaf := by
  have solid : leaf.HasContent ↔ Scan.message v text ≠ [] := by
    rw [content, ne_eq, Scan.message_eq_nil_iff off]
    simp
  rcases textToken?_of_message off text with ⟨-, none, token⟩ | ⟨t, one, kind, line, token⟩ |
    ⟨many, token⟩
  · rw [token]
    exact {
      isSome_iff := by simp [solid, none]
      bool := fun b eq => absurd eq (other b)
      single := by simp [own, none]
      string_iff := by simp
      value := by simp
      line := by simp }
  · rw [token]
    exact {
      isSome_iff := by simp [solid, one]
      bool := fun b eq => absurd eq (other b)
      single := by simp [own, one]
      string_iff := by simp [own, one, kind]
      value := by simp [kind]
      line := by simpa using line }
  · have some : Scan.message v text ≠ [] := List.ne_nil_of_length_pos (by omega)
    have notOne (t : Token) : Scan.message v text ≠ [t] := fun one => by simp [one] at many
    rw [token]
    exact {
      isSome_iff := by simp [solid, some]
      bool := fun b eq => absurd eq (other b)
      single := by simp [own, notOne]
      string_iff := by simp [own, many]
      value := by simp [own]
      line := by simp }

theorem standsFor_valueToken? (off : v.markSpaces = false) (leaf : Value) :
    StandsFor v (valueToken? v leaf) leaf := by
  cases leaf with
  | string s =>
    have token : valueToken? v (.string s) = textToken? v s := by
      cases s with
      | nil => rw [textToken?, (Scan.message_eq_nil_iff off).2 (by simp)]; rfl
      | cons c s => rfl
    rw [token]
    exact standsFor_textToken? off rfl (fun b eq => by cases eq) Iff.rfl
  | number n =>
    exact standsFor_textToken? off rfl (fun b eq => by cases eq)
      (iff_of_true trivial n.exists_not_isSpace)
  | bool b =>
    have token : valueToken? v (.bool b) =
      some (.literal (if b then "true".toList else "false".toList)) := rfl
    generalize eq : (if b then "true".toList else "false".toList) = value at token
    rw [token]
    exact {
      isSome_iff := by simp [Value.HasContent]
      bool := by rintro _ ⟨⟩; rw [eq]
      single := by simp [Value.text?]
      string_iff := by simp [Value.text?, Token.literal]
      value := by simp [Token.literal]
      line := by simp [Token.literal] }
  | null | array items | object members =>
    exact {
      isSome_iff := by simp [valueToken?, Value.HasContent]
      bool := by rintro _ ⟨⟩
      single := by simp [Value.text?]
      string_iff := by simp [valueToken?]
      value := by simp [valueToken?]
      line := by simp [valueToken?] }

end Flatten

/-! ### Objects -/

namespace Scan

/-- An object becomes the tokens of its leaves, depth first: the path, the mark `=`, and the value
token, if there is one. -/
theorem json_eq_leaves (off : v.markSpaces = false) {members : Table Value}
    (parsed : Value.parse? text.trim = some (.object members)) :
    ∃ (leaves : List (Path × Value)) (line : Line),
      (∀ path leaf, (path, leaf) ∈ leaves ↔
        path ≠ [] ∧ Value.At (.object members) path leaf ∧ leaf.isLeaf) ∧
      leaves.Pairwise (fun a b => Path.Before a.1 b.1) ∧
      json v text = .ok line ∧
      line = leaves.flatMap (fun (path, leaf) =>
        .literal path.text :: .literal ['='] :: (Flatten.valueToken? v leaf).toList) ∧
      (∀ l ∈ leaves, Flatten.StandsFor v (Flatten.valueToken? v l.2) l.2) ∧
      ∀ t ∈ line, t.kind ≠ .multiline := by
  have ordered := Value.ordered_of_parse? parsed
  refine ⟨(Value.object members).leaves.filter (·.1 ≠ []), _, fun path leaf => ?_,
    (Value.pairwise_leaves ordered).filter _, ?_, rfl,
    fun l _ => Flatten.standsFor_valueToken? off l.2, fun t ht => ?_⟩
  · simp [Value.mem_leaves_iff, and_comm]
  · rw [json, parsed]
    exact congrArg Except.ok (Flatten.tokens_none _)
  · obtain ⟨⟨path, leaf⟩, -, mem⟩ := List.mem_flatMap.1 ht
    simp only [List.mem_cons, Option.mem_toList] at mem
    rcases mem with rfl | rfl | mem
    · exact fun k => by cases k
    · exact fun k => by cases k
    · exact (Flatten.standsFor_valueToken? off leaf).line t mem

/-- What is scanned without an error is an object. -/
theorem exists_object_of_json {line : Line} (h : json v text = .ok line) :
    ∃ members, Value.parse? text.trim = some (.object members) := by
  unfold json at h
  split at h
  · cases h
  · next members parsed => exact ⟨members, parsed⟩
  · cases h

/-- An empty object, and an array of a boolean, a blank string and an object with two words. -/
theorem json_eq_leaves_up : ∃ v, Vocabulary.ofSettings {} = .ok v ∧ v.markSpaces = false ∧
    let text : Text := "\x7b\"b\":[true,\" \",\x7b\"C\":\"x y\"\x7d],\"a\":\x7b\x7d\x7d".toList
    ∃ members, Value.parse? text.trim = some (.object members) ∧
      ∃ (leaves : List (Path × Value)) (line : Line),
        (∀ path leaf, (path, leaf) ∈ leaves ↔
          path ≠ [] ∧ Value.At (.object members) path leaf ∧ leaf.isLeaf) ∧
        (∀ l ∈ leaves, Flatten.StandsFor v (Flatten.valueToken? v l.2) l.2) ∧
        json v text = .ok line ∧ line.map (·.value) =
          ["a", "=", "b.0", "=", "true", "b.1", "=", "b.2.c", "=", "x y"].map String.toList := by
  let v : Vocabulary := {
    tags := [("regextime".toList, .time), ("multiline".toList, .multiline)]
    regextime := ⟨1⟩
    multiline := ⟨2⟩ }
  refine ⟨v, rfl, rfl, ?_⟩
  intro text
  have values : (json v text).toOption.map (·.map (·.value)) =
      some (["a", "=", "b.0", "=", "true", "b.1", "=", "b.2.c", "=", "x y"].map String.toList) := by
    decide +kernel
  cases scanned : json v text with
  | error e => simp [scanned, Except.toOption] at values
  | ok found =>
    obtain ⟨members, object⟩ := exists_object_of_json scanned
    obtain ⟨leaves, line, mem_iff, -, scanned', -, stands, -⟩ := json_eq_leaves (v := v) rfl object
    rw [scanned'] at values scanned
    exact ⟨members, object, leaves, line, mem_iff, stands, scanned.symm, Option.some.inj values⟩

/-- A layout of three letters makes two tokens of `true`, but the value token of the boolean is no
string. -/
theorem json_bool_unscanned :
    ∃ v, Vocabulary.ofSettings { formats := [("1".toList, ["Jan".toList])] } = .ok v ∧
      v.markSpaces = false ∧
      (∃ t, json v "\x7b\"a\":true\x7d".toList =
          .ok [.literal "a".toList, .literal "=".toList, t] ∧ t.kind ≠ .string) ∧
      2 ≤ (message v "true".toList).length := by
  refine ⟨_, rfl, rfl, ⟨.literal "true".toList, ?_, by decide⟩, ?_⟩
  · decide +kernel
  · decide +kernel

end Scan

end LogTemplate
