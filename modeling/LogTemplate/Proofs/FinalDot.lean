import LogTemplate.Proofs.Piece
import LogTemplate.Proofs.Shape
import LogTemplate.Proofs.Uri

/-!
# The dot at the end of a message

A word that goes on to the end of a message gives up the dot there, so that it becomes a token of
its own.

* `Word.of_numbers` reads digits and dots to their end, `Lexeme.ofWord_dot_iff` and
  `Scan.next_dot_iff` say which words keep the dot: dotted numbers that are no addresses;
* `Scan.kind_of_isSpace` says which tokens hold white space, `Scan.keepsDot_kept_iff` when a dot
  comes to the end of a value as white space behind it is trimmed;
* `Scan.last_of_mem_pieces` is the last token of a message, if it reaches the end;
* `Scan.keepsDot_iff` lists all last tokens that end in a dot.
-/

namespace LogTemplate

variable {v : Vocabulary} {x t rest : Text} {c : Char}

/-- A dotted number: it begins with a digit, all else is digits and dots, and there are two dots at
least. -/
structure IsDotted (x : Text) : Prop where
  head : ∃ c ∈ x.head?, c.isDigit
  chars : ∀ c ∈ x, c.isDigit ∨ c = '.'
  dots : 2 ≤ x.count '.'

/-- The token is a float or a literal of more than one character, and ends in a dot. -/
def Token.KeepsDot (t : Token) : Prop :=
  (t.kind = .float ∨ t.kind = .literal ∧ 1 < t.value.length) ∧ t.value.getLast? = some '.'

/-! ### Dotted numbers -/

namespace WordState

variable {q : Option Quotation} {i : Nat} {s r : WordState}

theorem numeric_numberStep (h : Numeric s.kind) (hc : c.isDigit ∨ c = '.') :
    (s.numberStep q c).2 = true ∧ Numeric (s.numberStep q c).1.kind := by
  rcases hc with digit | rfl
  · rw [numberStep_of_isDigit digit]
    exact ⟨rfl, h⟩
  · rw [numberStep_dot]
    refine ⟨rfl, ?_⟩
    dsimp only
    split <;> simp [Numeric]

/-- A number goes on over all digits and dots. -/
theorem Numbers.exists_along? (h : Numbers x s) (chars : ∀ c ∈ t, c.isDigit ∨ c = '.') :
    ∃ r, along? q i s t = some r ∧ Numbers (x ++ t) r := by
  induction t generalizing x i s with
  | nil => exact ⟨s, rfl, by simpa using h⟩
  | cons c t ih =>
    obtain ⟨goesOn, numeric⟩ := numeric_numberStep (q := q) h.numeric (chars c List.mem_cons_self)
    have step : s.step q i c =
        ({ (s.numberStep q c).1 with escaped := c == '\\' }, true) := by
      rw [step_of_numeric h.numeric, goesOn]
    obtain ⟨r, along, behind⟩ :=
      ih (h.step step numeric) (i := i + 1) fun d hd => chars d (List.mem_cons_of_mem _ hd)
    exact ⟨r, along?_cons_eq_some.2 ⟨_, step, along⟩, by simpa using behind⟩

/-- A number with more than one dot has the kind of an address. -/
theorem Numbers.kind_eq_ipv4_iff (h : Numbers x s) : s.kind = .ipv4 ↔ 2 ≤ x.count '.' := by
  rw [h.kind, h.dots]
  split
  · simp; omega
  · split
    · simp; omega
    · simp; omega

end WordState

/-- Digits and dots are one word, if the first of them is a digit. -/
theorem Word.of_numbers (q : Option Quotation) (after : Bool) (digit : c.isDigit)
    (chars : ∀ d ∈ rest, d.isDigit ∨ d = '.') :
    ∃ s, Word q after (c :: rest) s ∧ WordState.Numbers (c :: rest) s := by
  have other (d : Char) (hd : d.isDigit = false) : c ≠ d := by
    rintro rfl
    rw [digit] at hd
    cases hd
  have mark : isMark q c = false := by
    simp [isMark, other '"' (by decide), other '\'' (by decide), other '<' (by decide),
      other '>' (by decide)]
  have first : Lexeme.firstKind? q after c rest = some .integer := by
    simp [Lexeme.firstKind?, other '?' (by decide), other '&' (by decide), other '/' (by decide),
      digit]
  have start : WordState.Numbers [c] { kind := .integer, escaped := c == '\\' } :=
    { head := ⟨c, rfl, digit⟩
      chars := by simpa using .inl digit
      dots := by simp [other '.' (by decide)]
      kind := rfl }
  obtain ⟨s, along, numbers⟩ := start.exists_along? (q := q) (i := 1) chars
  exact ⟨s, ⟨c, rest, _, rfl, mark, first, along⟩, numbers⟩

namespace Lexeme

variable {q : Option Quotation} {after : Bool} {s : WordState}

/-- Of the words that were read to a dot at the end of the text, a dotted number takes all. -/
theorem finish_dot (usual : s.Usual) {n : Nat} (pos : 0 < n)
    (all : (finish s n true).more = n)
    (kind : (finish s n true).kind = .float ∨ (finish s n true).kind = .literal) :
    s.kind = .ipv4 ∧ s.dots ≠ 3 := by
  simp only [WordState.Usual, List.mem_cons, List.not_mem_nil, or_false] at usual
  rcases usual with k | k | k | k | k
  · simp only [finish, k, if_true] at all
    omega
  · simp [finish, k] at kind
  · simp [finish, k] at kind
  · simp [finish, k] at kind
  · exact ⟨k, fun three => by simp [finish, k, three] at kind⟩

/-- A word with a dot at the end of the text is a float or a literal with this dot just when it is a
dotted number that is no address. -/
theorem ofWord_dot_iff (q : Option Quotation) (after : Bool) (c : Char)
    (dot : rest.getLast? = some '.') :
    let lexeme := (ofWord q true after c rest).1
    lexeme.more = rest.length ∧ (lexeme.kind = .float ∨ lexeme.kind = .literal) ↔
      IsDotted (c :: rest) ∧ (c :: rest).count '.' ≠ 3 := by
  have pos : 0 < rest.length := List.length_pos_of_mem (List.mem_of_getLast? dot)
  constructor
  · rintro ⟨all, kind⟩
    by_cases mark : isMark q c
    · rw [ofWord_mark mark] at all
      exact absurd all pos.ne
    rw [Bool.not_eq_true] at mark
    rw [ofWord_of_firstKind? mark] at all kind
    cases first : firstKind? q after c rest with
    | none =>
      rw [first] at all
      exact absurd all pos.ne
    | some k =>
      rcases read : WordState.read q 1 { kind := k, escaped := c == '\\' } rest with ⟨n, s, stopped⟩
      simp only [first, read] at all kind
      obtain ⟨state, word, toEnd, stops⟩ := Word.of_read mark first read
      have le := Scan.fst_read_le q 1 { kind := k, escaped := c == '\\' } rest
      rw [read] at le
      obtain rfl : n = rest.length := le.antisymm (all ▸ Scan.more_finish_le s n _)
      -- Nothing has stopped the word, for there is nothing behind it.
      have unstopped : stopped = false := by
        cases stopped with
        | false => rfl
        | true =>
          obtain ⟨d, behind, drop, -⟩ := stops rfl
          rw [List.drop_length] at drop
          cases drop
      obtain ⟨-, rfl⟩ := toEnd unstopped
      simp only [unstopped, dot, beq_self_eq_true, Bool.not_false, Bool.and_self] at all kind
      obtain ⟨ipv4, few⟩ := finish_dot word.usual pos all kind
      rw [List.take_length] at word
      have h := word.numbers (by simp [WordState.Numeric, ipv4])
      exact ⟨⟨h.head, h.chars, h.kind_eq_ipv4_iff.1 ipv4⟩, h.dots ▸ few⟩
  · rintro ⟨dotted, few⟩
    obtain ⟨d, hd, digit⟩ := dotted.head
    obtain rfl : c = d := Option.some.inj hd
    obtain ⟨s, word, numbers⟩ := Word.of_numbers q after digit fun e he =>
      dotted.chars e (List.mem_cons_of_mem _ he)
    have ipv4 := numbers.kind_eq_ipv4_iff.2 dotted.dots
    rw [← numbers.dots] at few
    simp [word.ofWord_end true, finish, ipv4, few]

end Lexeme

/-! ### White space -/

theorem isSpace_of_fitsUri {i : Nat} (h : fitsUri i c) : Text.isSpace c = false := by
  by_contra space
  rw [Bool.not_eq_false] at space
  obtain ⟨-, url, -, -, chars⟩ := WordState.isSpace_classes space
  have letter : c ≠ 'h' ∧ c ≠ 'H' := by
    constructor
    · rintro rfl
      cases space
    · rintro rfl
      cases space
  unfold fitsUri at h
  split at h <;> simp_all

theorem isSpace_of_spellsUri {i : Nat} (h : SpellsUri i x) : ∀ c ∈ x, Text.isSpace c = false := by
  intro c hc
  obtain ⟨j, at_j⟩ := List.mem_iff_getElem?.1 hc
  exact isSpace_of_fitsUri (h j c at_j)

theorem ne_uri_of_address? {n : Nat} {k : Kind} (h : address? t = some (n, k)) : k ≠ .uri := by
  obtain ⟨x, w, r, -, -, -, along, kind⟩ := address?_eq_some_iff.1 h
  rw [(ColonRun.counts_of_along? along).kind?_eq] at kind
  obtain ⟨-, kind⟩ := Option.ite_none_right_eq_some.1 kind
  obtain rfl := Option.some.inj kind
  unfold addressKind
  split
  · decide
  · split <;> decide

namespace Scan

variable {cursor : Cursor} {text : Text} {q : Option Quotation} {last : Kind} {atEnd : Bool}

/-- What stands at the beginning of a text is a timestamp, an address or a word. -/
theorem next_cases (v : Vocabulary) (q : Option Quotation) (last : Kind) (atEnd : Bool) (c : Char)
    (rest : Text) :
    let f := next v q last atEnd c rest
    f.token.kind = .time ∨ address? (c :: rest) = some (f.more + 1, f.token.kind) ∨
      address? (c :: rest) = none ∧
        Lexeme.ofWord q atEnd (last = .ipv4) c rest = (⟨f.more, f.token.kind⟩, f.quotation) := by
  unfold next
  cases v.time.match? (c :: rest) with
  | some m => exact .inl (by by_cases verified : m.verified <;> simp [verified])
  | none =>
    cases found : address? (c :: rest) with
    | some a =>
      obtain ⟨n, kind⟩ := a
      obtain ⟨n, rfl⟩ := Nat.exists_eq_add_of_le' (Nat.le_of_lt (two_le_of_address? found))
      exact .inr (.inl rfl)
    | none => exact .inr (.inr ⟨rfl, rfl⟩)

/-- White space is only inside of literals and timestamps. -/
theorem kind_of_isSpace {d : Char} (space : Text.isSpace d)
    (hd : d ∈ c :: rest.take (next v q last atEnd c rest).more) :
    (next v q last atEnd c rest).token.kind = .time ∨
      (next v q last atEnd c rest).token.kind = .literal := by
  by_contra neither
  rw [not_or] at neither
  have spaceless : Text.isSpace d = false := by
    by_cases uri : (next v q last atEnd c rest).token.kind = .uri
    · rcases next_cases v q last atEnd c rest with time | address | ⟨-, word⟩
      · exact absurd time neither.1
      · exact absurd uri (ne_uri_of_address? address)
      · rw [uri, Lexeme.ofWord_uri_iff] at word
        obtain ⟨-, -, -, spells, -⟩ := word
        exact isSpace_of_spellsUri spells d hd
    · exact (describes_next q last atEnd c rest).isSpace ⟨neither.2, uri, neither.1⟩ d hd
  rw [spaceless] at space
  cases space

/-! ### The last token -/

/-- A token that was found at the end of a message is a float or a literal with the dot there just
when it is a dotted number and neither an address nor a timestamp. -/
theorem next_dot_iff (v : Vocabulary) (q : Option Quotation) (last : Kind) (c : Char)
    (dot : rest.getLast? = some '.') :
    let f := next v q last true c rest
    f.more = rest.length ∧ (f.token.kind = .float ∨ f.token.kind = .literal) ↔
      f.token.kind ≠ .time ∧ IsDotted (c :: rest) ∧ (c :: rest).count '.' ≠ 3 := by
  rcases next_cases v q last true c rest with time | address | ⟨-, word⟩
  · simp [time]
  · -- An address has no dot, and none begins with a dotted number.
    constructor
    · rintro ⟨all, -⟩
      obtain ⟨x, w, r, eq, length, -, along, -⟩ := address?_eq_some_iff.1 address
      obtain ⟨run, -, -⟩ := ColonRun.exists_along?_iff.1 ⟨r, along⟩
      have whole : x = c :: rest := by
        refine (List.prefix_iff_eq_take.1 ⟨w, eq.symm⟩).trans ?_
        rw [← length, all, ← List.length_cons (a := c), List.take_length]
      have := run '.' (whole ▸ List.mem_cons_of_mem c (List.mem_of_getLast? dot))
      cases this
    · rintro ⟨-, dotted, -⟩
      have none := address?_of_dot dotted.chars
        (List.mem_cons_of_mem c (List.mem_of_getLast? dot)) []
      rw [List.append_nil, address] at none
      cases none
  · have iff := Lexeme.ofWord_dot_iff q (last = .ipv4) c dot
    rw [word] at iff
    dsimp only at iff ⊢
    rw [iff]
    refine (and_iff_right_of_imp fun ⟨dotted, few⟩ time => ?_).symm
    have := (iff.2 ⟨dotted, few⟩).2
    rw [time] at this
    simp at this

/-- What lies behind a token reaches as far as the text does. -/
theorem place_behind_add (cursor : Cursor) (gap : Text) (f : Found) (c : Char) (rest : Text) :
    (cursor.behind gap f c rest).place + Text.bytes (rest.drop f.more) =
      cursor.place + Text.bytes (gap ++ c :: rest) := by
  have split : Text.bytes (c :: rest) =
      Text.bytes (c :: rest.take f.more) + Text.bytes (rest.drop f.more) := by
    rw [← Text.bytes_append, List.cons_append, List.take_append_drop]
  rw [place_behind, Text.bytes_append, split]
  omega

/-- The last token of a message takes all of the text behind the white space before it. -/
theorem last_of_mem_pieces {p : Piece} (hp : p ∈ pieces v .message cursor text)
    (reach : p.place + p.taken.bytes = cursor.place + text.bytes) :
    (tokens v .message cursor text).getLast? = some p.token ∧
      (p.token.kind = .multiline ∨ ∃ q last c rest space,
        let f := next v q last true c rest
        f.more = rest.length ∧ p.taken = c :: rest ∧
          p.token = { f.token with value := kept v (c :: rest), spaceBefore := space }) := by
  induction cursor, text using induct v .message with
  | blank cursor gap blank =>
    rw [pieces_of_blank blank] at hp
    cases hp
  | cut cursor gap c rest blank hc cut =>
    rw [pieces_of_cut blank hc cut, List.mem_singleton] at hp
    subst hp
    rw [tokens_of_cut blank hc cut, multiline, List.getLast?_concat]
    exact ⟨rfl, .inl rfl⟩
  | cons cursor gap c rest f blank hc uncut found ih =>
    rw [← place_behind_add cursor gap f] at reach
    rw [tokens_of_cons blank hc uncut found]
    rw [pieces_of_cons blank hc uncut found] at hp
    rcases List.mem_cons.1 hp with rfl | hp
    · have taken := taken_piece found
      obtain ⟨branch, data, eq, -⟩ := piece_of_found found
      rw [taken] at reach ⊢
      rw [eq] at reach ⊢
      have behind : rest.drop f.more = [] := by
        by_contra some
        have pos := Text.bytes_pos some
        rw [place_behind] at reach
        simp only [Found.piece] at reach
        omega
      rw [found_message] at found
      subst found
      have all := (more_next_le v cursor.quotation cursor.last true c rest).antisymm
        (List.drop_eq_nil_iff.1 behind)
      rw [behind, tokens_nil]
      exact ⟨List.getLast?_concat, .inr ⟨cursor.quotation, cursor.last, c, rest, !gap.isEmpty, all,
        by rw [all, List.take_length], by simp [Found.piece, all]⟩⟩
    · obtain ⟨final, found⟩ := ih hp reach
      refine ⟨?_, found⟩
      rw [List.getLast?_append, List.getLast?_cons, final]
      rfl

/-! ### The dot -/

/-- A value is the text that its token takes, but for white space at its end that is not kept. -/
theorem exists_kept_append (v : Vocabulary) (x : Text) : ∃ gap, x = kept v x ++ gap ∧
    (∀ d ∈ gap, Text.isSpace d) ∧ (gap ≠ [] → v.markSpaces = false) := by
  unfold kept
  cases v.markSpaces with
  | true => exact ⟨[], by simp⟩
  | false =>
    obtain ⟨gap, eq, blank⟩ := Text.exists_trimEnd_append x
    exact ⟨gap, eq, blank, fun _ => rfl⟩

theorem kept_dot {w gap : Text} (blank : ∀ d ∈ gap, Text.isSpace d)
    (off : gap ≠ [] → v.markSpaces = false) : kept v (w ++ '.' :: gap) = w ++ ['.'] := by
  rw [List.append_cons]
  unfold kept
  split
  · next on =>
    have none : gap = [] := by
      by_contra some
      rw [off some] at on
      cases on
    rw [none, List.append_nil]
  · have spaceless : ∀ d ∈ (w ++ ['.']).getLast?, Text.isSpace d = false := by
      rw [List.getLast?_concat]
      rintro d ⟨⟩
      decide
    rw [Text.trimEnd_append blank, Text.trimEnd_of_getLast spaceless]

/-- A value ends in a dot when the text does, or only white space that is not kept follows it. -/
theorem keepsDot_kept_iff {t : Token} (value : t.value = kept v x) : t.KeepsDot ↔
    ∃ w gap, x = w ++ '.' :: gap ∧ (∀ d ∈ gap, Text.isSpace d) ∧
      (gap ≠ [] → v.markSpaces = false) ∧ (t.kind = .float ∨ t.kind = .literal ∧ w ≠ []) := by
  have long (w : Text) : 1 < (w ++ ['.']).length ↔ w ≠ [] := by
    rw [List.length_append, List.length_singleton, ← List.length_pos_iff]
    omega
  unfold Token.KeepsDot
  rw [value]
  constructor
  · rintro ⟨kind, dot⟩
    obtain ⟨gap, eq, blank, off⟩ := exists_kept_append v x
    obtain ⟨w, front⟩ := List.getLast?_eq_some_iff.1 dot
    rw [front, long] at kind
    exact ⟨w, gap, by rw [eq, front, List.append_assoc]; rfl, blank, off, kind⟩
  · rintro ⟨w, gap, rfl, blank, off, kind⟩
    rw [kept_dot blank off, long]
    exact ⟨kind, List.getLast?_concat⟩

/-- What takes all of a text up to its last dot and the white space behind it. -/
theorem kind_of_dot {q : Option Quotation} {last : Kind} {w gap : Text}
    (all : (next v q last true c rest).more = rest.length) (eq : c :: rest = w ++ '.' :: gap)
    (blank : ∀ d ∈ gap, Text.isSpace d) :
    let kind := (next v q last true c rest).token.kind
    (kind = .float ∨ kind = .literal ∧ w ≠ []) ↔
      kind ≠ .time ∧ w ≠ [] ∧ (gap = [] → IsDotted (c :: rest) ∧ (c :: rest).count '.' ≠ 3) := by
  intro kind
  have described : kind.Describes (c :: rest) := by
    have := describes_next (v := v) q last true c rest
    dsimp only at this
    rwa [all, List.take_length] at this
  cases w with
  | nil =>
    -- No float begins with a dot.
    have notFloat : kind ≠ .float := by
      intro float
      rw [float] at described
      obtain ⟨whole, part, split, some, digits, -⟩ := described
      obtain ⟨d, whole, rfl⟩ := List.exists_cons_of_ne_nil some
      obtain ⟨rfl, -⟩ := List.cons.inj (eq.symm.trans split)
      have := digits '.' List.mem_cons_self
      cases this
    simp [notFloat]
  | cons e w =>
    have behind : rest = w ++ '.' :: gap := (List.cons.inj eq).2
    cases gap with
    | nil =>
      have dot : rest.getLast? = some '.' := by rw [behind, List.getLast?_concat]
      have iff := next_dot_iff v q last c dot
      simp only [all, true_and] at iff
      simpa using iff
    | cons d gap =>
      have found : kind = .time ∨ kind = .literal :=
        kind_of_isSpace (blank d List.mem_cons_self) (by rw [all, List.take_length, eq]; simp)
      rcases found with time | literal
      · simp [time]
      · simp [literal]

/-- The last token of a message that goes on to its end keeps a dot there just when it is a dotted
number that is no address, or a quoted word whose white space behind the dot was trimmed. Timestamps
and text over several lines are no words and keep their dots. -/
theorem keepsDot_iff {p : Piece} (hp : p ∈ pieces v .message {} text)
    (reach : p.place + p.taken.bytes = text.bytes) :
    (message v text).getLast? = some p.token ∧
      (p.token.KeepsDot ↔ p.token.kind ≠ .time ∧ p.token.kind ≠ .multiline ∧
        (IsDotted p.taken ∧ p.taken.getLast? = some '.' ∧ p.taken.count '.' ≠ 3 ∨
          v.markSpaces = false ∧ ∃ w gap, p.taken = w ++ '.' :: gap ∧ w ≠ [] ∧ gap ≠ [] ∧
            ∀ d ∈ gap, Text.isSpace d)) := by
  obtain ⟨final, several | ⟨q, last, c, rest, space, all, taken, token⟩⟩ :=
    last_of_mem_pieces hp (by simpa using reach)
  · exact ⟨final, by simp [Token.KeepsDot, several]⟩
  refine ⟨final, ?_⟩
  have single := kind_next (v := v) q last true c rest
  rw [keepsDot_kept_iff (v := v) (x := c :: rest) (by rw [token]), taken, token]
  simp only [ne_eq, single, not_false_eq_true, true_and]
  constructor
  · rintro ⟨w, gap, eq, blank, off, kind⟩
    obtain ⟨untimed, some, dotted⟩ := (kind_of_dot all eq blank).1 kind
    refine ⟨untimed, ?_⟩
    by_cases none : gap = []
    · obtain ⟨dotted, few⟩ := dotted none
      exact .inl ⟨dotted, by rw [eq, none, List.getLast?_concat], few⟩
    · exact .inr ⟨off none, w, gap, eq, some, none, blank⟩
  · rintro ⟨untimed, ⟨dotted, dot, few⟩ | ⟨off, w, gap, eq, some, behind, blank⟩⟩
    · obtain ⟨w, eq⟩ := List.getLast?_eq_some_iff.1 dot
      have some : w ≠ [] := by
        rintro rfl
        have := dotted.dots
        rw [eq] at this
        simp at this
      exact ⟨w, [], eq, by simp, by simp,
        (kind_of_dot all eq (by simp)).2 ⟨untimed, some, fun _ => ⟨dotted, few⟩⟩⟩
    · exact ⟨w, gap, eq, blank, fun _ => off,
        (kind_of_dot all eq blank).2 ⟨untimed, some, fun none => (behind none).elim⟩⟩

/-- A quoted word behind which white space was trimmed. -/
theorem keepsDot_iff_up : ∃ v, Vocabulary.ofSettings {} = .ok v ∧
    ∃ p ∈ pieces v .message {} "say \"the end. ".toList,
      p.place + p.taken.bytes = Text.bytes "say \"the end. ".toList ∧
        p.taken = "the end. ".toList ∧ p.token.KeepsDot := by
  let v : Vocabulary := {
    tags := [("regextime".toList, .time), ("multiline".toList, .multiline)]
    regextime := ⟨1⟩
    multiline := ⟨2⟩ }
  have h : Vocabulary.ofSettings {} = .ok v := rfl
  have found : ∃ p ∈ pieces v .message {} "say \"the end. ".toList,
      p.place + p.taken.bytes = Text.bytes "say \"the end. ".toList ∧
        p.taken = "the end. ".toList ∧ p.token.kind = .literal := by
    decide +kernel
  obtain ⟨p, hp, reach, taken, literal⟩ := found
  refine ⟨v, h, p, hp, reach, taken, (keepsDot_iff hp reach).2.2 ?_⟩
  exact ⟨by simp [literal], by simp [literal],
    .inr ⟨rfl, "the end".toList, [' '], taken, by decide, by simp, Text.isSpace_blank⟩⟩

/-- A dotted number keeps the dot at the end of a message. -/
theorem message_dotted : ∃ v, Vocabulary.ofSettings {} = .ok v ∧
    message v "1.2.".toList = [{ value := "1.2.".toList, kind := .literal }] := by
  refine ⟨{
    tags := [("regextime".toList, .time), ("multiline".toList, .multiline)]
    regextime := ⟨1⟩
    multiline := ⟨2⟩ }, rfl, ?_⟩
  decide +kernel

end Scan

end LogTemplate
