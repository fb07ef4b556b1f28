import LogTemplate.Scan
import LogTemplate.Proofs.Address
import LogTemplate.Proofs.Line
import LogTemplate.Proofs.Word
import Mathlib.Data.List.TakeWhile

/-!
# Steps of a scan

* `Scan.tokens_of_blank`, `Scan.tokens_of_cut` and `Scan.tokens_of_cons` are the equations of the
  loop, `Scan.induct` is induction over its rounds;
* `Scan.isValue_of_mem_message` says that all placeholders of a message are values;
* `Scan.patternMode_of_readable` finds the announced positions of a printed line.
-/

namespace LogTemplate.Scan

variable {v : Vocabulary} {mode : Mode} {cursor : Cursor} {text gap rest : Text} {c : Char}

/-! ### The loop -/

/-- The cursor behind a token. -/
def Cursor.behind (cursor : Cursor) (gap : Text) (f : Found) (c : Char) (rest : Text) : Cursor where
  place := cursor.place + Text.bytes gap + Text.bytes (c :: rest.take f.more)
  quotation := f.quotation
  last := f.token.kind
  started := true

theorem tokens_blank (h : text.dropWhile Text.isSpace = []) :
    tokens v mode cursor text =
      if cursor.isCut (text.takeWhile Text.isSpace) then []
      else spaces v (text.takeWhile Text.isSpace) := by
  rw [tokens]
  split
  · rfl
  · next eq => rw [h] at eq; cases eq

theorem tokens_cut (h : text.dropWhile Text.isSpace = c :: rest)
    (cut : cursor.isCut (text.takeWhile Text.isSpace)) :
    tokens v mode cursor text = multiline v (c :: rest) := by
  rw [tokens]
  split
  · next eq => rw [h] at eq; cases eq
  · next c' rest' eq =>
    rw [h] at eq
    cases eq
    simp [cut]

theorem tokens_cons (h : text.dropWhile Text.isSpace = c :: rest)
    (cut : cursor.isCut (text.takeWhile Text.isSpace) = false) {f : Found}
    (found : Scan.found v mode cursor (cursor.place + Text.bytes (text.takeWhile Text.isSpace))
      c rest = f) :
    tokens v mode cursor text = spaces v (text.takeWhile Text.isSpace) ++
      { f.token with spaceBefore := !(text.takeWhile Text.isSpace).isEmpty } ::
        tokens v mode (cursor.behind (text.takeWhile Text.isSpace) f c rest)
          (rest.drop f.more) := by
  rw [tokens]
  split
  · next eq => rw [h] at eq; cases eq
  · next c' rest' eq =>
    rw [h] at eq
    cases eq
    simp [cut, found, Cursor.behind]

/-! ### Rounds -/

theorem gap_append (blank : ∀ d ∈ gap, Text.isSpace d) (hc : Text.isSpace c = false) (w : Text) :
    (gap ++ c :: w).takeWhile Text.isSpace = gap ∧
      (gap ++ c :: w).dropWhile Text.isSpace = c :: w := by
  constructor
  · rw [List.takeWhile_append_of_pos blank]
    simp [hc]
  · rw [List.dropWhile_append_of_pos blank]
    simp [hc]

theorem tokens_of_blank (blank : ∀ d ∈ gap, Text.isSpace d) :
    tokens v mode cursor gap = if cursor.isCut gap then [] else spaces v gap := by
  rw [tokens_blank (List.dropWhile_eq_nil_iff.2 blank), List.takeWhile_eq_self_iff.2 blank]

theorem tokens_of_cut (blank : ∀ d ∈ gap, Text.isSpace d) (hc : Text.isSpace c = false)
    (cut : cursor.isCut gap) :
    tokens v mode cursor (gap ++ c :: rest) = multiline v (c :: rest) := by
  obtain ⟨taken, dropped⟩ := gap_append blank hc rest
  exact tokens_cut dropped (by rw [taken]; exact cut)

theorem tokens_of_cons (blank : ∀ d ∈ gap, Text.isSpace d) (hc : Text.isSpace c = false)
    (uncut : cursor.isCut gap = false) {f : Found}
    (found : Scan.found v mode cursor (cursor.place + Text.bytes gap) c rest = f) :
    tokens v mode cursor (gap ++ c :: rest) = spaces v gap ++
      { f.token with spaceBefore := !gap.isEmpty } ::
        tokens v mode (cursor.behind gap f c rest) (rest.drop f.more) := by
  obtain ⟨taken, dropped⟩ := gap_append blank hc rest
  rw [tokens_cons (f := f) dropped (by rw [taken]; exact uncut) (by rw [taken]; exact found),
    taken]

/-- Induction over the rounds of the loop. A round finds nothing but white space, or the cut before
a text over several lines, or one token and then the rest of the text. -/
theorem induct (v : Vocabulary) (mode : Mode) {motive : Cursor → Text → Prop}
    (blank : ∀ (cursor : Cursor) (gap : Text), (∀ d ∈ gap, Text.isSpace d) → motive cursor gap)
    (cut : ∀ (cursor : Cursor) (gap : Text) (c : Char) (rest : Text),
      (∀ d ∈ gap, Text.isSpace d) → Text.isSpace c = false → cursor.isCut gap →
      motive cursor (gap ++ c :: rest))
    (cons : ∀ (cursor : Cursor) (gap : Text) (c : Char) (rest : Text) (f : Found),
      (∀ d ∈ gap, Text.isSpace d) → Text.isSpace c = false → cursor.isCut gap = false →
      found v mode cursor (cursor.place + Text.bytes gap) c rest = f →
      motive (cursor.behind gap f c rest) (rest.drop f.more) → motive cursor (gap ++ c :: rest))
    (cursor : Cursor) (text : Text) : motive cursor text := by
  induction n : text.length using Nat.strongRecOn generalizing text cursor with
  | _ n ih =>
    subst n
    obtain ⟨gap, w, rfl, spaces, begins⟩ : ∃ gap w, text = gap ++ w ∧
        (∀ d ∈ gap, Text.isSpace d) ∧ ∀ d ∈ w.head?, Text.isSpace d = false :=
      ⟨_, _, List.takeWhile_append_dropWhile.symm, fun d hd => List.mem_takeWhile_imp hd,
        fun d hd => by simpa [Option.mem_def.1 hd] using List.head?_dropWhile_not Text.isSpace text⟩
    cases w with
    | nil => simpa using blank cursor gap spaces
    | cons c rest =>
      have hc := begins c rfl
      by_cases h : cursor.isCut gap
      · exact cut cursor gap c rest spaces hc h
      · refine cons cursor gap c rest _ spaces hc (by simpa using h) rfl (ih _ ?_ _ _ rfl)
        simp only [List.length_append, List.length_cons, List.length_drop]
        omega

/-! ### Tokens -/

theorem eq_literal_of_mem_spaces {t : Token} (h : t ∈ spaces v gap) : t = .literal gap := by
  unfold spaces at h
  split at h
  · exact List.mem_singleton.1 h
  · cases h

theorem mem_multiline {t : Token} (h : t ∈ multiline v text) : t = .literal [' '] ∨
    t = { value := text.trimEnd, kind := .multiline, spaceBefore := true } := by
  rcases List.mem_append.1 h with h | h
  · split at h
    · exact .inl (List.mem_singleton.1 h)
    · cases h
  · exact .inr (List.mem_singleton.1 h)

/-- A token is white space that is kept, text over several lines, or found at its place. -/
theorem mem_tokens {t : Token} (h : t ∈ tokens v mode cursor text) :
    (∃ gap, t = .literal gap) ∨
      (∃ w : Text, t = { value := w.trimEnd, kind := .multiline, spaceBefore := true }) ∨
      ∃ cursor place c w space, t = { (found v mode cursor place c w).token with
        spaceBefore := space } := by
  induction cursor, text using induct v mode with
  | blank cursor gap blank =>
    rw [tokens_of_blank blank] at h
    split at h
    · cases h
    · exact .inl ⟨gap, eq_literal_of_mem_spaces h⟩
  | cut cursor gap c rest blank hc cut =>
    rw [tokens_of_cut blank hc cut] at h
    exact (mem_multiline h).imp (fun eq => ⟨_, eq⟩) fun eq => .inl ⟨_, eq⟩
  | cons cursor gap c rest f blank hc uncut found ih =>
    rw [tokens_of_cons blank hc uncut found] at h
    rcases List.mem_append.1 h with h | h
    · exact .inl ⟨gap, eq_literal_of_mem_spaces h⟩
    · rcases List.mem_cons.1 h with rfl | h
      · exact .inr (.inr ⟨cursor, _, c, rest, _, by rw [found]⟩)
      · exact ih h

/-! ### Tokens of a message -/

/-- A token as a scan of a message gives it. -/
def IsScanned (v : Vocabulary) (t : Token) : Prop :=
  (t.tag = .unknown ∧ t.kind = .literal) ∨ (t.isPlaceholder ∧ t.IsValue v)

theorem IsScanned.isLiteral_or {t : Token} (h : IsScanned v t) :
    t.isLiteral ∨ (t.isPlaceholder ∧ t.IsValue v) :=
  h.imp_left fun ⟨tag, kind⟩ => by simp [Token.isLiteral, Token.isPlaceholder, tag, kind,
    Kind.isPlaceholder]

theorem isScanned_of_kind {value : Text} {kind : Kind} (h : kind ≠ .unknown) (space : Bool) :
    IsScanned v { value, kind, spaceBefore := space } := by
  by_cases literal : kind = .literal
  · exact Or.inl ⟨rfl, literal⟩
  · have placeholder : kind.isPlaceholder := by
      cases kind <;> first | rfl | exact absurd rfl h | exact absurd rfl literal
    exact Or.inr ⟨by simp [Token.isPlaceholder, placeholder], rfl, rfl, Or.inl ⟨rfl, placeholder⟩⟩

theorem finish_ne_unknown {s : WordState} (usual : s.Usual) (n : Nat) (finalDot : Bool) :
    (Lexeme.finish s n finalDot).kind ≠ .unknown := by
  unfold WordState.Usual at usual
  simp only [List.mem_cons, List.not_mem_nil, or_false] at usual
  rcases usual with k | k | k | k | k
  · simp [Lexeme.finish, k]
  · simp [Lexeme.finish, k]
  · simp [Lexeme.finish, k]
  · simp only [Lexeme.finish, k]
    split <;> simp
  · simp only [Lexeme.finish, k]
    split <;> simp

theorem usual_read {q : Option Quotation} {i : Nat} {s : WordState} (usual : s.Usual) (t : Text) :
    (WordState.read q i s t).2.1.Usual := by
  induction t generalizing i s with
  | nil => exact usual
  | cons c t ih =>
    rw [WordState.read]
    have next := WordState.usual_step (q := q) (i := i) (c := c) usual
    split
    · next r step => rw [step] at next; exact next
    · next r step => rw [step] at next; exact ih next

theorem ofWord_ne_unknown (q : Option Quotation) (atEnd after : Bool) (c : Char) (rest : Text) :
    (Lexeme.ofWord q atEnd after c rest).1.kind ≠ .unknown := by
  by_cases mark : isMark q c
  · rw [Lexeme.ofWord_mark mark]
    simp [Lexeme.single]
  · rw [Lexeme.ofWord_of_firstKind? (by simpa using mark)]
    cases first : Lexeme.firstKind? q after c rest with
    | none => simp [Lexeme.single]
    | some kind =>
      exact finish_ne_unknown (usual_read (Lexeme.firstKind?_usual first) rest) _ _

theorem kind?_ne_unknown {r : ColonRun} {k : Kind} (h : r.kind? = some k) : k ≠ .unknown := by
  unfold ColonRun.kind? at h
  split at h
  · cases h
  · split at h
    · cases h; decide
    · split at h <;> cases h <;> decide

/-- What stands at the beginning of a text is a literal or a value. -/
theorem isScanned_next (q : Option Quotation) (last : Kind) (atEnd : Bool) (c : Char) (rest : Text)
    (value : Text) (space : Bool) :
    IsScanned v { (next v q last atEnd c rest).token with value, spaceBefore := space } := by
  unfold next
  split
  · next m time =>
    by_cases verified : m.verified
    · refine Or.inr ⟨by simp [verified, Token.isPlaceholder, Kind.isPlaceholder], ?_, ?_, ?_⟩
      · simp [verified]
      · simp [verified]
      · exact Or.inr (by simp only [verified, if_true]; exact ⟨trivial, trivial, m.group, rfl⟩)
    · simp only [verified, Bool.false_eq_true, if_false]
      exact isScanned_of_kind (by decide) space
  · split
    · next n kind address =>
      obtain ⟨_, _, _, -, -, -, -, known⟩ := address?_eq_some_iff.1 address
      exact isScanned_of_kind (kind?_ne_unknown known) space
    · exact isScanned_of_kind (ofWord_ne_unknown _ _ _ _ _) space

theorem isScanned_literal (value : Text) : IsScanned v (.literal value) := .inl ⟨rfl, rfl⟩

/-- All tokens of a message are literals or values, and so is white space that is kept. -/
theorem isScanned_of_mem_message {t : Token} (h : t ∈ tokens v .message cursor text) :
    IsScanned v t := by
  rcases mem_tokens h with ⟨gap, rfl⟩ | ⟨w, rfl⟩ | ⟨cursor, place, c, w, space, rfl⟩
  · exact isScanned_literal gap
  · exact isScanned_of_kind (by decide) true
  · exact isScanned_next _ _ _ _ _ _ _

/-! ### Announced positions -/

theorem pattern_eq_ok_iff {offsets : List Nat} {line : Line} :
    pattern v text offsets = .ok line ↔
      ∃ mode, patternMode v text offsets = .ok mode ∧ line = tokens v mode {} text := by
  unfold pattern
  cases patternMode v text offsets with
  | error e => simp [Except.map]
  | ok mode => simp [Except.map, eq_comm]

theorem insertSorted_of_lt {n : Nat} {l : List Nat} (h : ∀ m ∈ l, n < m) :
    insertSorted n l = n :: l := by
  cases l with
  | nil => rfl
  | cons m l => simp [insertSorted, h m List.mem_cons_self]

/-- The announced positions of a printed line are found. -/
theorem anchors_eq {offsets : List Nat} (ascending : offsets.Pairwise (· < ·))
    (h : ∀ o ∈ offsets, ∃ body t, Placeholder.bodyAt? text o = some body ∧
      Placeholder.parse? v body = some t) : anchors v text offsets = .ok (offsets, true) := by
  induction offsets with
  | nil => rfl
  | cons o offsets ih =>
    obtain ⟨lt, ascending⟩ := List.pairwise_cons.1 ascending
    obtain ⟨body, t, found, parsed⟩ := h o List.mem_cons_self
    have rest := ih ascending fun o ho => h o (List.mem_cons_of_mem _ ho)
    simp [anchors, found, parsed, rest, Except.map, insertSorted_of_lt lt]

/-- In the text of a printed line whose placeholders can be read, placeholders are looked for at its
offsets, if there are some. -/
theorem patternMode_of_readable {line : Line}
    (readable : ∀ t ∈ line, t.isPlaceholder → Placeholder.IsReadable v t) :
    patternMode v (Line.print v line).text (Line.print v line).offsets =
      .ok (if (Line.print v line).offsets = [] then .anywhere []
        else .listed (Line.print v line).offsets) := by
  have found : anchors v (Line.print v line).text (Line.print v line).offsets =
      .ok ((Line.print v line).offsets, true) := by
    refine anchors_eq (Line.pairwise_offsets v none 0 line) fun o ho => ?_
    obtain ⟨t, ht, placeholder, place⟩ := Line.place_of_mem_offsets ho
    have can := readable t ht placeholder
    obtain ⟨t', parsed⟩ := Option.isSome_iff_exists.1 can.parse
    exact ⟨_, t', Line.bodyAt?_of_place can.body place, parsed⟩
  rw [patternMode, found]
  cases (Line.print v line).offsets with
  | nil => rfl
  | cons o offsets => rfl

/-- So they are for the line of a message. -/
theorem patternMode_print (h : v.Regular) {line : Line} (scanned : ∀ t ∈ line, IsScanned v t) :
    patternMode v (Line.print v line).text (Line.print v line).offsets =
      .ok (if (Line.print v line).offsets = [] then .anywhere []
        else .listed (Line.print v line).offsets) := by
  refine patternMode_of_readable fun t ht placeholder => ?_
  rcases scanned t ht with ⟨tag, kind⟩ | ⟨-, value⟩
  · simp [Token.isPlaceholder, tag, kind, Kind.isPlaceholder] at placeholder
  · exact Placeholder.isReadable_of_isValue h value

end LogTemplate.Scan
