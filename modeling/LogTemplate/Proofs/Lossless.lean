import LogTemplate.Proofs.Announced
import LogTemplate.Proofs.Literal
import LogTemplate.Proofs.Vocabulary

/-!
# Lines that keep white space

Where white space is kept, a message can be put together again from its tokens, and from the text
that is printed for them.

* `Line.fill` puts texts in the place of the runs at given byte positions;
* `Line.IsTight` says that nothing separates the tokens of a line as it is printed,
  `Line.text_of_isTight` and `Line.fill_printFrom` that the text then consists of what its tokens
  print and that their values fill it;
* `Scan.flatMap_value` gives the message back from the values, `Scan.isTight_tokens` says that its
  line is tight, both by induction over the rounds of the loop;
* `Scan.print_lossless` puts these together.
-/

namespace LogTemplate

open Placeholder

variable {v : Vocabulary} {t : Token} {line : Line} {start : Nat}

/-! ### Filling -/

namespace Line

/-- Put texts in the place of the runs that begin at byte positions of a text; the text itself
begins at byte position `start`. There is no result if no run begins at one of them. -/
def fill (start : Nat) (text : Text) : List (Nat × Text) → Option Text
  | [] => some text
  | (place, value) :: rest =>
    match (text.dropBytes? (place - start)).bind run? with
    | none => none
    | some (body, behind) =>
      (fill (place + (run body).bytes) behind rest).map fun filled =>
        text.takeBytes (place - start) ++ value ++ filled

/-- The values of the placeholders, in their order. -/
def values (line : Line) : List Text := (line.filter (·.isPlaceholder)).map (·.value)

theorem values_placeholder (h : t.isPlaceholder) : values (t :: line) = t.value :: values line := by
  simp [values, h]

theorem values_literal (h : t.isLiteral) : values (t :: line) = values line := by
  have : t.isPlaceholder = false := by simpa [Token.isLiteral] using h
  simp [values, this]

/-- The first of the runs is found behind the text `x`. -/
theorem fill_run (x : Text) {body : Text} (h : IsBody body) (behind value : Text)
    (rest : List (Nat × Text)) :
    fill start (x ++ (run body ++ behind)) ((start + x.bytes, value) :: rest) =
      (fill (start + x.bytes + (run body).bytes) behind rest).map fun filled =>
        x ++ value ++ filled := by
  have begins : run? (run body ++ behind) = some (body, behind) := by
    simpa [run] using run?_append h behind
  rw [fill, Nat.add_sub_cancel_left, Text.dropBytes?_bytes_append, Text.takeBytes_bytes_append,
    Option.bind_some, begins]

example : fill 0 "x %integer% y".toList [(2, "5".toList)] = some "x 5 y".toList := by decide

/-! ### Tight lines -/

/-- Nothing separates the tokens of the line, nor its first token from the one before it. -/
def IsTight (v : Vocabulary) (previous? : Option Token) (line : Line) : Prop :=
  (previous?.toList ++ line).IsChain fun t u => separator v (some t) u = []

theorem isTight_nil (previous? : Option Token) : IsTight v previous? [] := by
  cases previous? <;> simp [IsTight]

theorem isTight_cons {previous? : Option Token} : IsTight v previous? (t :: line) ↔
    separator v previous? t = [] ∧ IsTight v (some t) line := by
  cases previous? with
  | none => simp [IsTight, separator]
  | some previous => simp [IsTight]

variable {previous? : Option Token}

/-- Where white space is kept, nothing separates a token from the one before it that follows it at
once. -/
theorem separator_of_near (on : v.markSpaces) (near : t.spaceBefore = false) :
    separator v previous? t = [] := by
  cases previous? <;> simp [separator, on, near]

/-- The text of a tight line is what its tokens print. -/
theorem text_of_isTight (tight : IsTight v previous? line) (start : Nat) :
    (printFrom v previous? start line).text = line.flatMap (printToken v) := by
  induction line generalizing previous? start with
  | nil => rfl
  | cons t line ih =>
    obtain ⟨near, tight⟩ := isTight_cons.1 tight
    simp [printFrom, near, ih tight]

/-- The values of the placeholders fill the text of a tight line. The literal text `x` has been read
already. -/
theorem fill_printFrom (readable : ∀ t ∈ line, t.isPlaceholder → IsReadable v t)
    (tight : IsTight v previous? line) (start : Nat) (x : Text) :
    let printed := printFrom v previous? (start + x.bytes) line
    fill start (x ++ printed.text) (printed.offsets.zip (values line)) =
      some (x ++ line.flatMap (·.value)) := by
  induction line generalizing previous? start x with
  | nil => simp [printFrom, fill]
  | cons t line ih =>
    obtain ⟨near, tight⟩ := isTight_cons.1 tight
    have later := ih (fun u hu => readable u (List.mem_cons_of_mem _ hu)) tight
    by_cases ht : t.isPlaceholder
    · have can := readable t List.mem_cons_self ht
      have shown : Placeholder.print v t = run (Placeholder.body v t) := rfl
      have filled := later (start + x.bytes + (run (Placeholder.body v t)).bytes) []
      simp only [List.nil_append, Text.bytes_nil, Nat.add_zero] at filled
      simp only [printFrom_placeholder ht, printBehind, printToken_placeholder ht, near, shown,
        values_placeholder ht, List.nil_append, Text.bytes_nil, Nat.add_zero, List.zip_cons_cons]
      rw [fill_run x can.body, filled]
      simp
    · have literal : t.isLiteral := by simpa [Token.isLiteral] using ht
      have filled := later start (x ++ t.value)
      simp only [printFrom_literal literal, printBehind, printToken_literal literal, near,
        values_literal literal, List.nil_append, Text.bytes_nil, Nat.add_zero]
      simpa [Nat.add_assoc] using filled

end Line

/-! ### Messages -/

namespace Scan

open Line

variable {cursor : Cursor} {text gap rest : Text}

/-- On one line nothing is cut off. -/
theorem isCut_of_not_mem (h : '\n' ∉ gap) : cursor.isCut gap = false := by
  simp [Cursor.isCut, h]

/-- Both the white space before a token and the text behind it are on the one line. -/
theorem oneLine_round {c : Char} (oneLine : '\n' ∉ gap ++ c :: rest) (n : Nat) :
    '\n' ∉ gap ∧ '\n' ∉ rest.drop n :=
  ⟨fun h => oneLine (List.mem_append_left _ h),
    fun h => oneLine (List.mem_append_right _ (List.mem_cons_of_mem _ (List.mem_of_mem_drop h)))⟩

/-- The values of the tokens are the text. -/
theorem flatMap_value (on : v.markSpaces) (oneLine : '\n' ∉ text) :
    (tokens v .message cursor text).flatMap (·.value) = text := by
  have ofSpaces (gap : Text) : (spaces v gap).flatMap (·.value) = gap := by
    cases gap with
    | nil => simp [spaces]
    | cons c gap => simp [spaces, on, Token.literal]
  induction cursor, text using induct v .message with
  | blank cursor gap blank =>
    rw [tokens_of_blank blank, isCut_of_not_mem oneLine]
    exact ofSpaces gap
  | cut cursor gap c rest blank hc cut =>
    rw [isCut_of_not_mem (oneLine_round oneLine 0).1] at cut
    cases cut
  | cons cursor gap c rest f blank hc uncut found ih =>
    rw [tokens_of_cons blank hc uncut found, List.flatMap_append, List.flatMap_cons, ofSpaces,
      ih (oneLine_round oneLine f.more).2]
    rw [found_message] at found
    subst found
    simp [kept, on]

/-- White space is a token of its own, and nothing else separates the tokens around it. -/
theorem isTight_spaces (on : v.markSpaces) (blank : ∀ d ∈ gap, Text.isSpace d)
    (previous? : Option Token) (near : t.spaceBefore = !gap.isEmpty)
    (tight : IsTight v (some t) line) : IsTight v previous? (spaces v gap ++ t :: line) := by
  cases gap with
  | nil => simpa [spaces] using isTight_cons.2 ⟨separator_of_near on near, tight⟩
  | cons d gap =>
    have space : Token.isSpace (.literal (d :: gap)) := by
      rw [Token.isSpace, Token.isLiteral_literal]
      simpa [Text.isBlank, Token.literal] using blank
    have behind : separator v (some (.literal (d :: gap))) t = [] := by
      simp [separator, on, space]
    rw [spaces, if_pos (by simp [on]), List.singleton_append]
    exact isTight_cons.2 ⟨separator_of_near on rfl, isTight_cons.2 ⟨behind, tight⟩⟩

/-- The line of a message is tight behind any token. -/
theorem isTight_tokens (on : v.markSpaces) (oneLine : '\n' ∉ text) (previous? : Option Token) :
    IsTight v previous? (tokens v .message cursor text) := by
  induction cursor, text using induct v .message generalizing previous? with
  | blank cursor gap blank =>
    rw [tokens_of_blank blank, isCut_of_not_mem oneLine, if_neg (by decide), spaces]
    split
    · exact isTight_cons.2 ⟨separator_of_near on rfl, isTight_nil _⟩
    · exact isTight_nil previous?
  | cut cursor gap c rest blank hc cut =>
    rw [isCut_of_not_mem (oneLine_round oneLine 0).1] at cut
    cases cut
  | cons cursor gap c rest f blank hc uncut found ih =>
    rw [tokens_of_cons blank hc uncut found]
    exact isTight_spaces on blank previous? rfl (ih (oneLine_round oneLine f.more).2 _)

/-- Where white space is kept, a message on one line is what the values of its tokens are together,
the text that is printed for them is what they print, and their values fill it to give the message
back. -/
theorem fill_print_message (h : v.Regular) (on : v.markSpaces) (oneLine : '\n' ∉ text) :
    let line := message v text
    let printed := print v line
    line.flatMap (·.value) = text ∧ printed.text = line.flatMap (printToken v) ∧
      printed.offsets.length = (values line).length ∧
      fill 0 printed.text (printed.offsets.zip (values line)) = some text := by
  intro line printed
  have whole : line.flatMap (·.value) = text := flatMap_value on oneLine
  have tight : IsTight v none line := isTight_tokens on oneLine none
  have readable : ∀ t ∈ line, t.isPlaceholder → IsReadable v t := by
    intro t ht placeholder
    rcases (isScanned_of_mem_message ht).isLiteral_or with literal | ⟨-, value⟩
    · simp [Token.isLiteral, placeholder] at literal
    · exact isReadable_of_isValue h value
  have filled := fill_printFrom readable tight 0 []
  rw [whole] at filled
  refine ⟨whole, text_of_isTight tight 0, ?_, filled⟩
  rw [show printed = printFrom v none 0 line from rfl, length_bodies, bodies, values,
    List.length_map, List.length_map]

/-- In the vocabulary of any settings that keep white space, the values of the tokens of a message
on one line are the message, and fill what is printed for them to give it back. -/
theorem print_lossless {compile : Vocabulary.Compiler} {s : Settings}
    (h : Vocabulary.build compile s = .ok v) (on : v.markSpaces) (oneLine : '\n' ∉ text) :
    let line := message v text
    let printed := print v line
    line.flatMap (·.value) = text ∧ printed.text = line.flatMap (printToken v) ∧
      printed.offsets.length = (values line).length ∧
      fill 0 printed.text (printed.offsets.zip (values line)) = some text :=
  fill_print_message (Vocabulary.regular_build h) on oneLine

/-- White space before, between, inside of and behind the tokens of a message. -/
theorem print_lossless_up : ∃ s v, Vocabulary.ofSettings s = .ok v ∧
    let text := " port  22\tof \"10.0.0.1 \" ".toList
    let line := message v text
    line.map (fun t => (t.kind, t.value)) = [(.literal, " ".toList), (.literal, "port".toList),
      (.literal, "  ".toList), (.integer, "22".toList), (.literal, "\t".toList),
      (.literal, "of".toList), (.literal, " ".toList), (.literal, "\"".toList),
      (.literal, "10.0.0.1 ".toList), (.literal, "\"".toList), (.literal, " ".toList)] ∧
    fill 0 (print v line).text ((print v line).offsets.zip (values line)) = some text := by
  let s : Settings := { markSpaces := true }
  let v : Vocabulary := {
    markSpaces := true
    tags := [("regextime".toList, .time), ("multiline".toList, .multiline)]
    regextime := ⟨1⟩
    multiline := ⟨2⟩ }
  have h : Vocabulary.ofSettings s = .ok v := rfl
  refine ⟨s, v, h, ?_, (print_lossless h rfl (by decide)).2.2.2⟩
  decide +kernel

end Scan

end LogTemplate
