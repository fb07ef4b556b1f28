import LogTemplate.Proofs.Text
import LogTemplate.Word
import Mathlib.Tactic.NthRewrite

/-!
# Words and what follows them

* `WordState.along?` is the state of a word behind a text that continues it;
* `Word` says that a text is one word so far, `Lexeme.ofWord_append` what becomes of it before
  another text;
* `Word.blank`, `Word.trim` and `Word.glue` lengthen and shorten words inside of quotations;
* `WordState.stop_quoted`, `stop_blank` and `dot_blank` say which characters end a word.
-/

namespace LogTemplate

namespace WordState

variable {q : Option Quotation} {i : Nat} {s r : WordState} {c d : Char} {t w : Text}

/-- The state behind a text that continues the word to its end. -/
def along? (q : Option Quotation) : Nat → WordState → Text → Option WordState
  | _, s, [] => some s
  | i, s, c :: rest =>
    match s.step q i c with
    | (next, true) => along? q (i + 1) next rest
    | (_, false) => none

theorem along?_cons_eq_some :
    along? q i s (c :: t) = some r ↔
      ∃ next, s.step q i c = (next, true) ∧ along? q (i + 1) next t = some r := by
  rw [along?]
  split
  · next next h => simp [h]
  · next next h => simp [h]

theorem along?_append :
    along? q i s (t ++ w) = (along? q i s t).bind fun r => along? q (i + t.length) r w := by
  induction t generalizing i s with
  | nil => simp [along?]
  | cons c t ih =>
    simp only [List.cons_append, along?]
    split
    · rw [ih]
      simp [Nat.add_assoc, Nat.add_comm 1]
    · rfl

/-- A text that continues the word is read to its end. -/
theorem read_append (h : along? q i s t = some r) :
    read q i s (t ++ w) =
      (t.length + (read q (i + t.length) r w).1, (read q (i + t.length) r w).2) := by
  induction t generalizing i s with
  | nil =>
    obtain rfl : s = r := by simpa [along?] using h
    simp
  | cons c t ih =>
    obtain ⟨next, step, h⟩ := along?_cons_eq_some.1 h
    have place : i + 1 + t.length = i + (t.length + 1) := by omega
    simp [read, step, ih h, place]
    omega

/-- A word takes what continues it, and a character that does not ends it. -/
theorem along?_of_read {n : Nat} {stopped : Bool} (h : read q i s t = (n, r, stopped)) :
    ∃ state, along? q i s (t.take n) = some state ∧
      (stopped = false → n = t.length ∧ r = state) ∧
      (stopped = true → ∃ d rest, t.drop n = d :: rest ∧ state.step q (i + n) d = (r, false)) := by
  induction t generalizing i s n with
  | nil =>
    simp only [read, Prod.mk.injEq] at h
    obtain ⟨rfl, rfl, rfl⟩ := h
    exact ⟨s, rfl, by simp, by simp⟩
  | cons c t ih =>
    rw [read] at h
    cases hstep : s.step q i c with
    | mk next goesOn =>
      cases goesOn with
      | false =>
        simp only [hstep, Prod.mk.injEq] at h
        obtain ⟨rfl, rfl, rfl⟩ := h
        exact ⟨s, rfl, by simp, fun _ => ⟨c, t, rfl, hstep⟩⟩
      | true =>
        simp only [hstep] at h
        rcases hread : read q (i + 1) next t with ⟨m, state, stop⟩
        rw [hread] at h
        simp only [Prod.mk.injEq] at h
        obtain ⟨rfl, rfl, rfl⟩ := h
        obtain ⟨state', along, toEnd, stops⟩ := ih hread
        refine ⟨state', along?_cons_eq_some.2 ⟨next, hstep, along⟩, fun e => ?_, fun e => ?_⟩
        · obtain ⟨rfl, eq⟩ := toEnd e
          exact ⟨rfl, eq⟩
        · obtain ⟨d, rest, drop, step⟩ := stops e
          exact ⟨d, rest, drop, by rw [← step]; congr 1; omega⟩

/-! ### Kinds of words -/

/-- The kinds that a word has while it is read. -/
def Usual (s : WordState) : Prop := s.kind ∈ [.literal, .uri, .integer, .float, .ipv4]

theorem escaped_step : (s.step q i c).1.escaped = (c == '\\') := rfl

theorem usual_step (h : s.Usual) : (s.step q i c).1.Usual := by
  unfold Usual at h ⊢
  simp only [List.mem_cons, List.not_mem_nil, or_false] at h
  rcases h with h | h | h | h | h
  · simp [step, h]
  · simp only [step, h, uriStep]
    split <;> (try split) <;> (try split) <;> simp [h]
  all_goals
    simp only [step, h, numberStep, asLiteral]
    split <;> (try split) <;> (try split) <;> (try split) <;> simp [h]

theorem usual_of_along? (h : s.Usual) (along : along? q i s t = some r) : r.Usual := by
  induction t generalizing i s with
  | nil =>
    obtain rfl : s = r := by simpa [along?] using along
    exact h
  | cons c t ih =>
    obtain ⟨next, step, along⟩ := along?_cons_eq_some.1 along
    refine ih ?_ along
    have := usual_step (q := q) (i := i) (c := c) h
    rwa [step] at this

/-- The word is escaped when it ends in a backslash. -/
theorem escaped_of_along? (start : s.escaped = (c == '\\')) (h : along? q i s t = some r) :
    r.escaped = ((c :: t).getLast? == some '\\') := by
  induction t generalizing i s c with
  | nil =>
    obtain rfl : s = r := by simpa [along?] using h
    simp [start]
  | cons d t ih =>
    obtain ⟨next, step, h⟩ := along?_cons_eq_some.1 h
    have escaped : next.escaped = (d == '\\') := by rw [← escaped_step (q := q), step]
    rw [List.getLast?_cons_cons]
    exact ih escaped h

/-! ### What ends a word -/

theorem isWordChar_closing (m : Quotation) : isWordChar m.closing = false := by
  cases m <;> decide

theorem isWordChar_blank : isWordChar ' ' = false := by decide

/-- The kind of a word that ends before its `i`-th character. -/
def stopKind (s : WordState) (i : Nat) : Kind :=
  if s.kind = .uri ∧ i < 6 then .literal else s.kind

/-- What ends a word leaves its kind, except that of a URI without an authority. -/
theorem stop_kind (usual : s.Usual) (h : s.step q i d = (r, false)) :
    r.kind = s.stopKind i ∧ r.dots = s.dots := by
  unfold Usual at usual
  simp only [List.mem_cons, List.not_mem_nil, or_false] at usual
  rcases usual with k | k | k | k | k
  · simp only [step, k, Prod.mk.injEq] at h
    obtain ⟨rfl, -⟩ := h
    simp [stopKind, k]
  · simp only [step, k, uriStep] at h
    split at h
    · cases h
    · split at h
      · cases h
      · cases h
        by_cases hi : i < 6 <;> simp [stopKind, k, hi]
  all_goals
    simp only [step, k, numberStep, asLiteral] at h
    split at h
    · cases h
    · split at h
      · cases h
      · split at h
        · cases h
          simp [stopKind, k]
        · split at h
          · cases h
          · cases h
            simp [stopKind, k]

/-- Inside of a quotation only its closing mark ends a word, or a slash behind a dotted number. -/
theorem stop_quoted {m : Quotation} (usual : s.Usual) (h : s.step (some m) i d = (r, false)) :
    d = m.closing ∨ (d = '/' ∧ s.kind = .ipv4) := by
  unfold Usual at usual
  simp only [List.mem_cons, List.not_mem_nil, or_false] at usual
  have keep : Quotation.keeps (some m) d = false → d = m.closing := by simp [Quotation.keeps]
  rcases usual with k | k | k | k | k
  · simp only [step, k, Prod.mk.injEq] at h
    refine Or.inl (keep ?_)
    have := h.2
    simp only [Bool.or_eq_false_iff] at this
    exact this.1.2
  · simp only [step, k, uriStep] at h
    split at h
    · cases h
    · split at h
      · cases h
      · next no => exact Or.inl (keep (by simp at no; exact no.2))
  all_goals
    simp only [step, k, numberStep, asLiteral] at h
    split at h
    · cases h
    · split at h
      · cases h
      · split at h
        · next slash => exact Or.inr (by revert slash; simp [k])
        · split at h
          · cases h
          · next no => exact Or.inl (keep (by simp at no; exact no.2))

/-- What ends a word is no letter. -/
theorem stop_not_letter (usual : s.Usual) (h : s.step q i d = (r, false)) :
    d ≠ 't' ∧ d ≠ 'T' := by
  have goesOn : isWordChar d → d.isDigit = false → (d == '/') = false →
      (s.step q i d).2 = true := by
    intro word digit slash
    unfold Usual at usual
    simp only [List.mem_cons, List.not_mem_nil, or_false] at usual
    rcases usual with k | k | k | k | k
    · simp [step, k, word]
    · simp only [step, k, uriStep, word]
      split <;> simp
    all_goals
      simp only [step, k, numberStep, asLiteral, word, digit, slash]
      split
      · rfl
      · split <;> simp
  constructor
  all_goals
    rintro rfl
    have := goesOn (by decide) (by decide) (by decide)
    rw [h] at this
    cases this

/-- Inside of a quotation a blank continues a word, which is no number then. -/
theorem step_blank_quoted (usual : s.Usual) (m : Quotation) :
    ∃ r, s.step (some m) i ' ' = (r, true) ∧ r.kind = .literal ∧ r.escaped = false := by
  have keep : Quotation.keeps (some m) ' ' = true := by cases m <;> decide
  unfold Usual at usual
  simp only [List.mem_cons, List.not_mem_nil, or_false] at usual
  rcases usual with k | k | k | k | k
  · exact ⟨{ s with escaped := false }, by simp [step, k, keep], by simp [k], rfl⟩
  · have scheme : fitsScheme i ' ' = false := by simp [fitsScheme]
    have url : isUrlChar ' ' = false := by decide
    exact ⟨{ s with kind := .literal, escaped := false },
      by simp [step, k, uriStep, scheme, url, keep], rfl, rfl⟩
  all_goals
    exact ⟨{ s with kind := .literal, escaped := false },
      by simp [step, k, numberStep, asLiteral, keep], rfl, rfl⟩

/-- Outside of quotations a blank ends a word that is not escaped. -/
theorem step_blank (usual : s.Usual) (h : s.escaped = false) :
    ∃ r, s.step none i ' ' = (r, false) ∧ r.kind = s.stopKind i ∧ r.dots = s.dots := by
  have keep : Quotation.keeps none ' ' = false := rfl
  obtain ⟨r, step⟩ : ∃ r, s.step none i ' ' = (r, false) := by
    unfold Usual at usual
    simp only [List.mem_cons, List.not_mem_nil, or_false] at usual
    rcases usual with k | k | k | k | k
    · exact ⟨_, by simp [step, k, h, keep, isWordChar_blank]; rfl⟩
    · have scheme : fitsScheme i ' ' = false := by simp [fitsScheme]
      have url : isUrlChar ' ' = false := by decide
      exact ⟨_, by simp [step, k, uriStep, scheme, url, keep, isWordChar_blank]; rfl⟩
    all_goals
      exact ⟨_, by simp [step, k, numberStep, asLiteral, keep, isWordChar_blank]; rfl⟩
  exact ⟨r, step, stop_kind usual step⟩

/-- White space is nothing that a word of its own consists of. -/
theorem isSpace_classes {c : Char} (h : Text.isSpace c) :
    isWordChar c = false ∧ isUrlChar c = false ∧ c.isDigit = false ∧ isHexDigit c = false ∧
      c ∉ ['t', 'T', 'p', 'P', 's', 'S', ':', '/', '.', '\''] := by
  have all : (Text.spaceCodes.map Char.ofNat).all fun c => decide
      (isWordChar c = false ∧ isUrlChar c = false ∧ c.isDigit = false ∧ isHexDigit c = false ∧
        c ∉ ['t', 'T', 'p', 'P', 's', 'S', ':', '/', '.', '\'']) := by decide +kernel
  exact of_decide_eq_true (List.all_eq_true.1 all c (Text.mem_of_isSpace h))

/-- Outside of quotations white space continues a word only when it is escaped. -/
theorem escaped_of_isSpace (usual : s.Usual) (h : Text.isSpace c)
    (step : s.step none i c = (r, true)) : s.escaped = true := by
  obtain ⟨word, url, digit, -, letters⟩ := isSpace_classes h
  simp only [List.mem_cons, List.not_mem_nil, or_false, not_or] at letters
  have keep : Quotation.keeps none c = false := rfl
  have goesOn : (s.step none i c).2 = true := by rw [step]
  unfold Usual at usual
  simp only [List.mem_cons, List.not_mem_nil, or_false] at usual
  rcases usual with k | k | k | k | k
  · simpa [WordState.step, k, word, keep, letters] using goesOn
  · simp [WordState.step, k, uriStep, fitsScheme, word, url, keep, letters] at goesOn
  all_goals
    simp [WordState.step, k, numberStep, asLiteral, word, digit, keep, letters] at goesOn

/-- The closing mark ends a word of its quotation that is not escaped. -/
theorem step_closing (k : s.kind = .literal) (h : s.escaped = false) (m : Quotation) :
    ∃ r, s.step (some m) i m.closing = (r, false) ∧ r.kind = .literal := by
  have keep : Quotation.keeps (some m) m.closing = false := by simp [Quotation.keeps]
  exact ⟨{ s with escaped := m.closing == '\\' },
    by simp [step, k, h, keep, isWordChar_closing], k⟩

/-- What continues a literal depends on nothing but the character before it. -/
theorem along?_literal {p : WordState} {j : Nat} (k : s.kind = .literal) (k' : p.kind = .literal)
    (escaped : p.escaped = s.escaped) (h : along? q i s t = some r) :
    r.kind = .literal ∧
      ∃ r', along? q j p t = some r' ∧ r'.kind = .literal ∧ r'.escaped = r.escaped := by
  induction t generalizing i j s p with
  | nil =>
    obtain rfl : s = r := by simpa [along?] using h
    exact ⟨k, p, rfl, k', escaped⟩
  | cons c t ih =>
    obtain ⟨next, step, h⟩ := along?_cons_eq_some.1 h
    have same : (s.step q i c).2 = (p.step q j c).2 := by simp [WordState.step, k, k', escaped]
    obtain rfl : (s.step q i c).1 = next := congrArg Prod.fst step
    have kind : (s.step q i c).1.kind = .literal := by simp [WordState.step, k]
    have kind' : (p.step q j c).1.kind = .literal := by simp [WordState.step, k']
    obtain ⟨kr, r', along, kind, escaped⟩ := ih (j := j + 1) kind kind' rfl h
    exact ⟨kr, r', along?_cons_eq_some.2 ⟨_, Prod.ext rfl (by rw [← same, step]), along⟩, kind,
      escaped⟩

/-- The kinds of numbers and dotted numbers. -/
def Numeric (k : Kind) : Prop := k ∈ [Kind.integer, .float, .ipv4]

/-- A word stays a number only over digits and dots. -/
theorem numeric_step (usual : s.Usual) (step : s.step q i c = (r, true)) (h : Numeric r.kind) :
    Numeric s.kind ∧ (c = '.' ∨ (c.isDigit ∧ r.kind = s.kind)) := by
  obtain rfl : (s.step q i c).1 = r := congrArg Prod.fst step
  unfold Usual at usual
  simp only [List.mem_cons, List.not_mem_nil, or_false] at usual
  rcases usual with k | k | k | k | k
  · simp [WordState.step, k, Numeric] at h
  · simp only [WordState.step, k, uriStep] at h
    split at h
    · simp [k, Numeric] at h
    · split at h
      · simp [Numeric] at h
      · split at h <;> simp [k, Numeric] at h
  all_goals
    refine ⟨by simp [k, Numeric], ?_⟩
    simp only [WordState.step, k, numberStep, asLiteral] at h step ⊢
    split at h
    · next digit => exact Or.inr ⟨digit, by simp [digit, k]⟩
    · split at h
      · next dot => exact Or.inl dot
      · split at h
        · simp_all
        · split at h
          · simp [Numeric] at h
          · simp_all

theorem numeric_of_along? (usual : s.Usual) (along : along? q i s t = some r)
    (h : Numeric r.kind) :
    Numeric s.kind ∧ (∀ c ∈ t, c.isDigit ∨ c = '.') ∧ (r.kind ≠ s.kind → '.' ∈ t) := by
  induction t generalizing i s with
  | nil =>
    obtain rfl : s = r := by simpa [along?] using along
    exact ⟨h, by simp, by simp⟩
  | cons c t ih =>
    obtain ⟨next, step, along⟩ := along?_cons_eq_some.1 along
    have usual' : next.Usual := by
      have := usual_step (q := q) (i := i) (c := c) usual
      rwa [step] at this
    obtain ⟨kind, chars, dot⟩ := ih usual' along
    obtain ⟨kind', hc⟩ := numeric_step usual step kind
    refine ⟨kind', fun d hd => ?_, fun ne => ?_⟩
    · rcases List.mem_cons.1 hd with rfl | hd
      · exact hc.symm.imp_left And.left
      · exact chars d hd
    · rcases hc with rfl | ⟨-, same⟩
      · exact List.mem_cons_self
      · exact List.mem_cons_of_mem _ (dot (by rw [same]; exact ne))

end WordState

/-! ### Words -/

/-- A character that opens or closes a quotation. -/
def isMark (q : Option Quotation) (c : Char) : Bool :=
  c = '"' || c = '\'' || (c = '<' && q.isNone) || c = '>'

/-- The quotation that is open behind a character that stands on its own. -/
def Quotation.behind (q : Option Quotation) (c : Char) : Option Quotation :=
  if c = '"' then toggle q .double
  else if c = '\'' then toggle q .single
  else if c = '<' && q.isNone then some .angle
  else if c = '>' && q = some .angle then none
  else q

/-- Only marks open and close quotations. -/
theorem Quotation.behind_of_not_mark {q : Option Quotation} {c : Char} (h : isMark q c = false) :
    behind q c = q := by
  simp only [isMark, Bool.or_eq_false_iff, decide_eq_false_iff_not] at h
  obtain ⟨⟨⟨double, single⟩, angle⟩, closing⟩ := h
  simp [behind, double, single, angle, closing]

/-- The text is one word so far, read inside of the quotation `q`; `s` is the state behind it. -/
def Word (q : Option Quotation) (afterIpv4 : Bool) (x : Text) (s : WordState) : Prop :=
  ∃ c t kind, x = c :: t ∧ isMark q c = false ∧ Lexeme.firstKind? q afterIpv4 c t = some kind ∧
    WordState.along? q 1 { kind, escaped := c == '\\' } t = some s

namespace Lexeme

variable {q : Option Quotation} {after atEnd : Bool} {c : Char} {t w : Text} {kind : Kind}

/-- A mark stands on its own. -/
theorem ofWord_mark (h : isMark q c) (after atEnd : Bool) (rest : Text) :
    ofWord q atEnd after c rest = (single, Quotation.behind q c) := by
  unfold ofWord Quotation.behind
  by_cases h1 : c = '"'
  · simp [h1]
  by_cases h2 : c = '\''
  · simp [h2]
  by_cases h3 : (c = '<' && q.isNone) = true
  · simp only [h1, h2, h3, if_false, if_true]
  · have h4 : c = '>' := by
      simp only [isMark, h1, h2, h3, decide_false, Bool.false_or] at h
      simpa using h
    simp [h4]

theorem ofWord_of_firstKind? (mark : isMark q c = false) (atEnd : Bool) (rest : Text) :
    ofWord q atEnd after c rest =
      match firstKind? q after c rest with
      | none => (single, q)
      | some kind =>
        let (more, s, stopped) := WordState.read q 1 { kind, escaped := c == '\\' } rest
        (finish s more (!stopped && atEnd && rest.getLast? == some '.'), q) := by
  simp only [isMark, Bool.or_eq_false_iff, decide_eq_false_iff_not] at mark
  obtain ⟨⟨⟨h1, h2⟩, h3⟩, h4⟩ := mark
  simp only [ofWord, h1, h2, h4, if_false]
  exact if_neg (by rw [h3]; decide)

theorem firstKind?_usual (h : firstKind? q after c t = some kind) :
    kind ∈ [Kind.literal, .uri, .integer, .float, .ipv4] := by
  unfold firstKind? at h
  split at h
  · cases h
  · split at h
    · cases h
    · split at h
      · cases h; simp
      · split at h
        · cases h; simp
        · split at h
          · cases h; simp
          · cases h

/-- A word that begins as a number begins with a digit. -/
theorem isDigit_of_firstKind? (h : firstKind? q after c t = some kind)
    (numeric : WordState.Numeric kind) : kind = .integer ∧ c.isDigit := by
  unfold firstKind? at h
  split at h
  · cases h
  · split at h
    · cases h
    · split at h
      · next digit => cases h; exact ⟨rfl, digit⟩
      · split at h
        · cases h; simp [WordState.Numeric] at numeric
        · split at h
          · cases h; simp [WordState.Numeric] at numeric
          · cases h

/-- What follows matters to the beginning of a word only as the second letter of a scheme. -/
theorem firstKind?_append (h : t = [] → ∀ d ∈ w.head?, d ≠ 't' ∧ d ≠ 'T') :
    firstKind? q after c (t ++ w) = firstKind? q after c t := by
  cases t with
  | cons d t => rfl
  | nil =>
    have : w.head?.any (fun d => d = 't' || d = 'T') = false := by
      cases hw : w.head? with
      | none => rfl
      | some d => simpa using h rfl d (by simp [hw])
    simp [firstKind?, this]

/-- A character that stands on its own does so before any text. -/
theorem firstKind?_none (h : firstKind? q after c t = none) (w : Text) :
    firstKind? q after c w = none := by
  unfold firstKind? at h ⊢
  by_cases letter : c = 'h' ∨ c = 'H'
  · have word : isWordChar c := by rcases letter with rfl | rfl <;> decide
    exfalso
    revert h
    rcases letter with rfl | rfl <;> simp [word] <;> split <;> simp
  · simp only [not_or] at letter
    simpa [letter] using h

end Lexeme

namespace Word

variable {q : Option Quotation} {after : Bool} {x y w : Text} {s r : WordState}

theorem usual (h : Word q after x s) : s.Usual := by
  obtain ⟨c, t, kind, -, -, first, along⟩ := h
  exact WordState.usual_of_along? (Lexeme.firstKind?_usual first) along

theorem escaped (h : Word q after x s) : s.escaped = (x.getLast? == some '\\') := by
  obtain ⟨c, t, kind, rfl, -, -, along⟩ := h
  exact WordState.escaped_of_along? rfl along

/-- A dotted number consists of digits and dots. -/
theorem chars_of_ipv4 (h : Word q after x s) (kind : s.kind = .ipv4) :
    (∀ c ∈ x, c.isDigit ∨ c = '.') ∧ '.' ∈ x := by
  obtain ⟨c, t, k, rfl, -, first, along⟩ := h
  have numeric : WordState.Numeric s.kind := by simp [WordState.Numeric, kind]
  obtain ⟨start, chars, dot⟩ :=
    WordState.numeric_of_along? (Lexeme.firstKind?_usual first) along numeric
  have digit := Lexeme.isDigit_of_firstKind? first start
  refine ⟨fun d hd => ?_, List.mem_cons_of_mem _ (dot (by simp [kind, digit.1]))⟩
  rcases List.mem_cons.1 hd with rfl | hd
  · exact Or.inl digit.2
  · exact chars d hd

/-- What a word is when it is read from its first character. -/
theorem of_read {c : Char} {rest : Text} {kind : Kind} {n : Nat} {stopped : Bool}
    (mark : isMark q c = false) (first : Lexeme.firstKind? q after c rest = some kind)
    (read : WordState.read q 1 { kind, escaped := c == '\\' } rest = (n, r, stopped)) :
    ∃ s, Word q after (c :: rest.take n) s ∧
      (stopped = false → n = rest.length ∧ r = s) ∧
      (stopped = true → ∃ d behind, rest.drop n = d :: behind ∧
        s.step q (n + 1) d = (r, false)) := by
  obtain ⟨s, along, toEnd, stops⟩ := WordState.along?_of_read read
  have usual : ({ kind, escaped := c == '\\' } : WordState).Usual := Lexeme.firstKind?_usual first
  have first' : Lexeme.firstKind? q after c (rest.take n) = some kind := by
    rw [← first]
    nth_rewrite 2 [← List.take_append_drop n rest]
    refine (Lexeme.firstKind?_append fun none d hd => ?_).symm
    cases stopped with
    | false =>
      obtain ⟨rfl, -⟩ := toEnd rfl
      simp at hd
    | true =>
      obtain ⟨d', behind, drop, step⟩ := stops rfl
      rw [drop] at hd
      cases hd
      exact WordState.stop_not_letter (WordState.usual_of_along? usual along) step
  refine ⟨s, ⟨c, _, kind, rfl, mark, first', along⟩, toEnd, fun e => ?_⟩
  obtain ⟨d, behind, drop, step⟩ := stops e
  exact ⟨d, behind, drop, by rw [Nat.add_comm]; exact step⟩

/-- A word before another text is read on from its state. -/
theorem ofWord_append {c : Char} {t : Text} (h : Word q after (c :: t) s)
    (hw : ∀ d ∈ w.head?, d ≠ 't' ∧ d ≠ 'T') (atEnd : Bool) :
    Lexeme.ofWord q atEnd after c (t ++ w) =
      let found := WordState.read q (t.length + 1) s w
      (Lexeme.finish found.2.1 (t.length + found.1)
        (!found.2.2 && atEnd && (t ++ w).getLast? == some '.'), q) := by
  obtain ⟨c', t', kind, eq, mark, first, along⟩ := h
  cases eq
  rw [Lexeme.ofWord_of_firstKind? mark, Lexeme.firstKind?_append fun _ => hw, first]
  simp [WordState.read_append along, Nat.add_comm]

/-- A word is one up to each of its characters. -/
theorem append_iff (hx : x ≠ []) (hw : ∀ d ∈ w.head?, d ≠ 't' ∧ d ≠ 'T') :
    Word q after (x ++ w) r ↔
      ∃ s, Word q after x s ∧ WordState.along? q x.length s w = some r := by
  obtain ⟨c, t, rfl⟩ := List.exists_cons_of_ne_nil hx
  constructor
  · rintro ⟨c', t', kind, eq, mark, first, along⟩
    rw [List.cons_append] at eq
    obtain ⟨rfl, rfl⟩ := List.cons.inj eq
    rw [Lexeme.firstKind?_append fun _ => hw] at first
    rw [WordState.along?_append, Option.bind_eq_some_iff] at along
    obtain ⟨s, along, behind⟩ := along
    rw [Nat.add_comm, ← List.length_cons] at behind
    exact ⟨s, ⟨c, t, kind, rfl, mark, first, along⟩, behind⟩
  · rintro ⟨s, ⟨c', t', kind, eq, mark, first, along⟩, behind⟩
    cases eq
    refine ⟨c, t ++ w, kind, rfl, mark, ?_, ?_⟩
    · rw [Lexeme.firstKind?_append fun _ => hw, first]
    · rw [WordState.along?_append, along, Option.bind_some, Nat.add_comm]
      exact behind

theorem append_singleton_iff (hx : x ≠ []) {d : Char} (hd : d ≠ 't' ∧ d ≠ 'T') :
    Word q after (x ++ [d]) r ↔ ∃ s, Word q after x s ∧ s.step q x.length d = (r, true) := by
  rw [append_iff hx (by simpa using hd)]
  simp only [WordState.along?_cons_eq_some]
  constructor
  · rintro ⟨s, word, next, step, eq⟩
    cases eq
    exact ⟨s, word, step⟩
  · rintro ⟨s, word, step⟩
    exact ⟨s, word, r, step, rfl⟩

/-- Inside of a quotation a word with a blank is a word. -/
theorem blank {m : Quotation} (h : Word (some m) after x s) :
    ∃ r, Word (some m) after (x ++ [' ']) r ∧ r.kind = .literal ∧ r.escaped = false := by
  obtain ⟨r, step, kind, escaped⟩ := WordState.step_blank_quoted h.usual m (i := x.length)
  have hx : x ≠ [] := by obtain ⟨c, t, _, rfl, -⟩ := h; simp
  exact ⟨r, (append_singleton_iff hx (by decide)).2 ⟨s, h, step⟩, kind, escaped⟩

/-- A word that begins with a slash is a literal. -/
theorem slash {y : Text} (h : Word q false ('/' :: y) r) :
    WordState.along? q 1 { kind := .literal } y = some r := by
  obtain ⟨c, t, kind, eq, mark, first, along⟩ := h
  cases eq
  have : Lexeme.firstKind? q false '/' y = some .literal := by
    have digit : Char.isDigit '/' = false := by decide
    have word : isWordChar '/' = true := by decide
    simp [Lexeme.firstKind?, digit, word]
  rw [this] at first
  cases first
  exact along

/-- Inside of a quotation a word goes on over a blank and a word that begins with a slash. -/
theorem glue {m : Quotation} (h : Word (some m) after x s) (h' : Word (some m) false ('/' :: y) r) :
    ∃ r', Word (some m) after (x ++ ' ' :: '/' :: y) r' ∧ r.kind = .literal ∧
      r'.kind = .literal ∧ r'.escaped = r.escaped := by
  obtain ⟨b, word, kind, escaped⟩ := h.blank
  have slash : WordState.step b (some m) (x ++ [' ']).length '/' =
      ({ b with escaped := false }, true) := by
    have word : isWordChar '/' = true := by decide
    simp [WordState.step, kind, word]
  have word' := (append_singleton_iff (by simp) (by decide)).2 ⟨b, word, slash⟩
  obtain ⟨kr, r', along, kind', escaped'⟩ := WordState.along?_literal
    (s := { kind := .literal }) (p := { b with escaped := false })
    (j := (x ++ [' '] ++ ['/']).length) rfl kind rfl h'.slash
  have eq : x ++ ' ' :: '/' :: y = (x ++ [' '] ++ ['/']) ++ y := by simp
  -- The state behind the slash goes on over the rest as a literal does.
  obtain ⟨c, t, k, ex, mark, first, run⟩ := word'
  refine ⟨r', ⟨c, t ++ y, k, by rw [eq, ex]; rfl, mark, ?_, ?_⟩, kr, kind', escaped'⟩
  · rw [← first]
    cases t with
    | nil => exfalso; simpa using congrArg List.length ex
    | cons d t => rfl
  · rw [WordState.along?_append, run, Option.bind_some, Nat.add_comm, ← List.length_cons, ← ex]
    exact along

end Word

/-! ### What a word is before a blank -/

/-- A word that ends before its `i`-th character is a literal. -/
def WordState.EndsLiteral (s : WordState) (i : Nat) : Prop :=
  s.stopKind i = .literal ∨ (s.kind = .ipv4 ∧ s.dots ≠ 3)

namespace Lexeme

variable {q : Option Quotation} {i n : Nat} {s r : WordState} {d : Char} {finalDot : Bool}

theorem finish_of_literal (h : r.kind = .literal) :
    finish r n finalDot = ⟨if finalDot then n - 1 else n, .literal⟩ := by
  simp [finish, h]

theorem finish_of_endsLiteral (kind : r.kind = s.stopKind i) (dots : r.dots = s.dots)
    (h : s.EndsLiteral i) : finish r n false = ⟨n, .literal⟩ := by
  rcases h with h | ⟨h, few⟩
  · exact finish_of_literal (kind.trans h)
  · have : r.kind = .ipv4 := by rw [kind, WordState.stopKind, h]; simp
    simp [finish, this, dots, few]

/-- What a literal was before it was finished. -/
theorem of_finish (usual : r.Usual) (h : (finish r n finalDot).kind = .literal) :
    r.kind = .literal ∨ (r.kind = .ipv4 ∧ r.dots ≠ 3 ∧ finish r n finalDot = ⟨n, .literal⟩) := by
  unfold WordState.Usual at usual
  simp only [List.mem_cons, List.not_mem_nil, or_false] at usual
  rcases usual with k | k | k | k | k
  · exact Or.inl k
  · simp [finish, k] at h
  · simp [finish, k] at h
  · simp only [finish, k] at h
    split at h <;> cases h
  · simp only [finish, k] at h ⊢
    split at h
    · cases h
    · next few => exact Or.inr ⟨trivial, few, by simp [few]⟩

theorem endsLiteral_of_finish (usual : s.Usual) (step : s.step q i d = (r, false))
    (h : (finish r n false).kind = .literal) : s.EndsLiteral i := by
  obtain ⟨kind, dots⟩ := WordState.stop_kind usual step
  have usual' : r.Usual := by
    have := WordState.usual_step (q := q) (i := i) (c := d) usual
    rwa [step] at this
  rcases of_finish usual' h with k | ⟨k, few, -⟩
  · exact Or.inl (kind.symm.trans k)
  · refine Or.inr ⟨?_, by rw [← dots]; exact few⟩
    rw [kind] at k
    unfold WordState.stopKind at k
    split at k
    · cases k
    · exact k

end Lexeme

namespace Word

variable {after atEnd : Bool} {c : Char} {t w : Text} {s r : WordState} {m : Quotation}

/-- Outside of quotations a blank ends a word. -/
theorem ofWord_blank (h : Word none after (c :: t) s) (escaped : (c :: t).getLast? ≠ some '\\')
    (ends : s.EndsLiteral (t.length + 1)) :
    Lexeme.ofWord none atEnd after c (t ++ ' ' :: w) = (⟨t.length, .literal⟩, none) := by
  obtain ⟨r, step, kind, dots⟩ := WordState.step_blank h.usual
    (by rw [h.escaped]; simpa using escaped) (i := t.length + 1)
  rw [h.ofWord_append (by simp)]
  simp [WordState.read, step, Lexeme.finish_of_endsLiteral kind dots ends]

/-- Inside of a quotation a word before a blank goes on to the closing mark. -/
theorem ofWord_closing (h : Word (some m) after (c :: t) s) :
    Lexeme.ofWord (some m) atEnd after c (t ++ ' ' :: m.closing :: w) =
      (⟨t.length + 1, .literal⟩, some m) := by
  obtain ⟨r, word, kind, escaped⟩ := h.blank
  obtain ⟨l, step, kind'⟩ := WordState.step_closing kind escaped m (i := (t ++ [' ']).length + 1)
  have eq : t ++ ' ' :: m.closing :: w = (t ++ [' ']) ++ m.closing :: w := by simp
  rw [eq, Word.ofWord_append (t := t ++ [' ']) word (by cases m <;> simp [Quotation.closing])]
  simp only [WordState.read, step]
  rw [Lexeme.finish_of_literal kind']
  simp

/-- Inside of a quotation a word goes on over a blank to the end of what it may take. -/
theorem ofWord_window (h : Word (some m) after (c :: t) s) :
    Lexeme.ofWord (some m) false after c (t ++ [' ']) = (⟨t.length + 1, .literal⟩, some m) := by
  obtain ⟨r, word, kind, -⟩ := h.blank
  have := Word.ofWord_append (t := t ++ [' ']) (w := []) word (by simp) false
  simpa [WordState.read, Lexeme.finish_of_literal kind] using this

/-- Inside of a quotation a word goes on over a blank to a final dot, which it gives up. -/
theorem ofWord_dot (h : Word (some m) after (c :: t) s) :
    Lexeme.ofWord (some m) true after c (t ++ [' ', '.']) = (⟨t.length + 1, .literal⟩, some m) := by
  obtain ⟨r, word, kind, -⟩ := h.blank
  have dot : r.step (some m) ((t ++ [' ']).length + 1) '.' =
      ({ r with escaped := false }, true) := by
    have word : isWordChar '.' = true := by decide
    simp [WordState.step, kind, word]
  have := Word.ofWord_append (t := t ++ [' ']) (w := ['.']) word (by simp) true
  simp only [WordState.read, dot] at this
  rw [Lexeme.finish_of_literal (r := { r with escaped := false }) kind] at this
  simpa using this

/-- A word to the end of the text. -/
theorem ofWord_end (h : Word q after (c :: t) s) (atEnd : Bool) :
    Lexeme.ofWord q atEnd after c t =
      (Lexeme.finish s t.length (atEnd && t.getLast? == some '.'), q) := by
  have := Word.ofWord_append (w := []) h (by simp) atEnd
  simpa [WordState.read] using this

/-- Before a dot that makes it a literal, a word is one already or might have become a URI. -/
theorem endsLiteral_of_dot (usual : s.Usual) {q : Option Quotation} {i : Nat}
    (step : s.step q i '.' = (r, true)) (kind : r.kind = .literal) : s.EndsLiteral i := by
  have word : isWordChar '.' = true := by decide
  have url : isUrlChar '.' = true := by decide
  obtain rfl : (s.step q i '.').1 = r := congrArg Prod.fst step
  unfold WordState.Usual at usual
  simp only [List.mem_cons, List.not_mem_nil, or_false] at usual
  rcases usual with k | k | k | k | k
  · exact Or.inl (by simp [WordState.stopKind, k])
  · by_cases hi : i < 6
    · exact Or.inl (by simp [WordState.stopKind, k, hi])
    · have : 6 ≤ i := by omega
      simp [WordState.step, k, WordState.uriStep, url, this] at kind
  all_goals
    simp [WordState.step, k, WordState.numberStep] at kind

end Word

end LogTemplate
