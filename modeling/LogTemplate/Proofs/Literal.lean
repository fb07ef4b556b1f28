import LogTemplate.Proofs.Legible

/-!
# Literals of a message

A literal of a message is read as itself in the text of its line, unless printing changed what
stands around it.

* `Word.ends_cases` says how the word of a message ends;
* `Scan.Clear` excludes the literals that printing changes, `Scan.reads_of_word` reads the others;
* `Scan.reads_unquoted`, `Scan.reads_halted` and `Scan.reads_kept` are about words outside and
  inside of quotations, and about words where white space is kept.
-/

namespace LogTemplate

namespace WordState

variable {q : Option Quotation} {i : Nat} {s r : WordState} {c d : Char} {t : Text}

/-- Outside of quotations a word that ends before some white space ends before a blank. -/
theorem stop_space (usual : s.Usual) (hd : Text.isSpace d) (h : s.step none i d = (r, false)) :
    ∃ r', s.step none i ' ' = (r', false) := by
  obtain ⟨word, url, digit, -, letters⟩ := isSpace_classes hd
  obtain ⟨word', url', digit', -, letters'⟩ := isSpace_classes (c := ' ') (by decide)
  simp only [List.mem_cons, List.not_mem_nil, or_false, not_or] at letters letters'
  have keep : ∀ e, Quotation.keeps none e = false := fun _ => rfl
  have stop : (s.step none i d).2 = false := by rw [h]
  refine ⟨(s.step none i ' ').1, Prod.ext rfl ?_⟩
  unfold Usual at usual
  simp only [List.mem_cons, List.not_mem_nil, or_false] at usual
  rcases usual with k | k | k | k | k
  · simpa [step, k, word, word', keep, letters, letters'] using stop
  all_goals
    simp [step, k, uriStep, fitsScheme, numberStep, asLiteral, word', url', digit', keep]

/-- The letters of the scheme of a URI, at their places. -/
theorem toLower_of_fitsScheme (h : fitsScheme i c) :
    (i = 1 ∨ i = 2 → c.toLower = 't') ∧ (i = 3 → c.toLower = 'p') ∧
      (i = 4 → c.toLower = 's' ∨ c.toLower = ':') := by
  simp only [fitsScheme, Bool.or_eq_true, Bool.and_eq_true, beq_iff_eq, decide_eq_true_eq] at h
  rcases h with (((⟨place, rfl | rfl⟩ | ⟨rfl, rfl | rfl⟩) | ⟨rfl, rfl | rfl⟩) | ⟨place, rfl⟩) |
    ⟨place, rfl⟩
  · exact ⟨fun _ => rfl, by omega, by omega⟩
  · exact ⟨fun _ => rfl, by omega, by omega⟩
  · exact ⟨by omega, fun _ => rfl, by omega⟩
  · exact ⟨by omega, fun _ => rfl, by omega⟩
  · exact ⟨by omega, by omega, fun _ => Or.inl rfl⟩
  · exact ⟨by omega, by omega, fun _ => Or.inl rfl⟩
  · exact ⟨by omega, by omega, fun _ => Or.inr rfl⟩
  · exact ⟨by omega, by omega, by omega⟩

/-- The scheme of a URI consists of characters of URIs. -/
theorem isUrlChar_of_fitsScheme (h : fitsScheme i c) : isUrlChar c := by
  simp only [fitsScheme, Bool.or_eq_true, Bool.and_eq_true, beq_iff_eq] at h
  rcases h with (((⟨-, rfl | rfl⟩ | ⟨-, rfl | rfl⟩) | ⟨-, rfl | rfl⟩) | ⟨-, rfl⟩) | ⟨-, rfl⟩
  all_goals decide

/-- A word stays the beginning of a URI only over what fits its scheme. -/
theorem scheme_of_along? (usual : s.Usual) (h : along? q i s t = some r) (kind : r.kind = .uri) :
    s.kind = .uri ∧ ∀ j (hj : j < t.length), i + j < 6 → fitsScheme (i + j) t[j] := by
  induction t generalizing i s with
  | nil =>
    obtain rfl : s = r := by simpa [along?] using h
    exact ⟨kind, by simp⟩
  | cons c t ih =>
    obtain ⟨next, step, h⟩ := along?_cons_eq_some.1 h
    have usual' : next.Usual := by
      have := usual_step (q := q) (i := i) (c := c) usual
      rwa [step] at this
    obtain ⟨kind', fits⟩ := ih usual' h
    obtain rfl : (s.step q i c).1 = next := congrArg Prod.fst step
    have here : s.kind = .uri ∧ (i < 6 → fitsScheme i c) := by
      unfold Usual at usual
      simp only [List.mem_cons, List.not_mem_nil, or_false] at usual
      rcases usual with k | k | k | k | k
      · simp [WordState.step, k] at kind'
      · refine ⟨k, fun lt => ?_⟩
        simp only [WordState.step, k, uriStep] at kind'
        split at kind'
        · next fits => simpa [Nat.not_le.2 lt] using fits
        · split at kind' <;> simp at kind'
      all_goals
        simp only [WordState.step, k, numberStep, asLiteral] at kind'
        exfalso
        revert kind'
        split <;> (try split) <;> (try split) <;> (try split) <;> simp [k]
    refine ⟨here.1, fun j hj lt => ?_⟩
    cases j with
    | zero => simpa using here.2 (by omega)
    | succ j =>
      have := fits j (by simpa using hj) (by omega)
      simpa [Nat.add_assoc, Nat.add_comm 1] using this

/-- A literal stays one. -/
theorem read_literal (kind : s.kind = .literal) (t : Text) :
    (read q i s t).2.1.kind = .literal := by
  induction t generalizing i s with
  | nil => exact kind
  | cons c t ih =>
    have literal : (s.step q i c).1.kind = .literal := by simp [WordState.step, kind]
    rw [read]
    split
    · next r step =>
      rw [step] at literal
      exact literal
    · next r step =>
      rw [step] at literal
      exact ih literal

end WordState

/-- A beginning of the scheme of a URI, which is a literal on its own. -/
def IsScheme (x : Text) : Prop :=
  x.map Char.toLower ∈
    ["ht".toList, "htt".toList, "http".toList, "https".toList, "http:".toList]

instance (x : Text) : Decidable (IsScheme x) := inferInstanceAs (Decidable (_ ∈ _))

/-- A word begins as a URI with the first two letters of a scheme. -/
theorem Lexeme.firstKind?_uri {q : Option Quotation} {after : Bool} {c : Char} {t : Text}
    (h : firstKind? q after c t = some .uri) : c.toLower = 'h' ∧ t ≠ [] := by
  unfold firstKind? at h
  split at h
  · cases h
  · split at h
    · cases h
    · split at h
      · cases h
      · split at h
        · next letters =>
          simp only [Bool.and_eq_true, Bool.or_eq_true, decide_eq_true_eq] at letters
          refine ⟨by rcases letters.1 with rfl | rfl <;> rfl, ?_⟩
          rintro rfl
          simp at letters
        · split at h <;> cases h

theorem Lexeme.more_finish (s : WordState) (n : Nat) : (finish s n false).more = n := by
  unfold finish
  split <;> rfl

namespace Word

variable {q : Option Quotation} {after : Bool} {x : Text} {s : WordState}

theorem isScheme (h : Word q after x s) (kind : s.kind = .uri) (short : x.length < 6) :
    IsScheme x := by
  obtain ⟨c, t, k, rfl, mark, first, along⟩ := h
  have usual : ({ kind := k, escaped := c == '\\' } : WordState).Usual :=
    Lexeme.firstKind?_usual first
  obtain ⟨start, fits⟩ := WordState.scheme_of_along? usual along kind
  obtain rfl : k = .uri := start
  obtain ⟨letter, ne⟩ := Lexeme.firstKind?_uri first
  simp only [List.length_cons] at short
  have letters : ∀ j d, t[j]? = some d → j < 5 → (1 + j = 1 ∨ 1 + j = 2 → d.toLower = 't') ∧
      (1 + j = 3 → d.toLower = 'p') ∧ (1 + j = 4 → d.toLower = 's' ∨ d.toLower = ':') := by
    intro j d hd lt
    obtain ⟨lt', rfl⟩ := List.getElem?_eq_some_iff.1 hd
    exact WordState.toLower_of_fitsScheme (fits j lt' (by omega))
  have first : ∀ d ∈ t[0]?, d.toLower = 't' := fun d hd =>
    (letters 0 d hd (by omega)).1 (Or.inl rfl)
  have second : ∀ d ∈ t[1]?, d.toLower = 't' := fun d hd =>
    (letters 1 d hd (by omega)).1 (Or.inr rfl)
  have third : ∀ d ∈ t[2]?, d.toLower = 'p' := fun d hd =>
    (letters 2 d hd (by omega)).2.1 rfl
  have fourth : ∀ d ∈ t[3]?, d.toLower = 's' ∨ d.toLower = ':' := fun d hd =>
    (letters 3 d hd (by omega)).2.2 rfl
  rcases t with _ | ⟨d, _ | ⟨e, _ | ⟨f, _ | ⟨g, _ | ⟨_, t⟩⟩⟩⟩⟩
  · exact absurd rfl ne
  · simp [IsScheme, letter, first d rfl]
  · simp [IsScheme, letter, first d rfl, second e rfl]
  · simp [IsScheme, letter, first d rfl, second e rfl, third f rfl]
  · rcases fourth g rfl with last | last <;>
      simp [IsScheme, letter, first d rfl, second e rfl, third f rfl, last]
  · simp only [List.length_cons] at short
    omega

/-- How the word of a message ends that is a literal. -/
theorem ends_cases {c : Char} {rest : Text} {kind : Kind} {n : Nat} {q' : Option Quotation}
    (mark : isMark q c = false) (first : Lexeme.firstKind? q after c rest = some kind)
    (found : Lexeme.ofWord q true after c rest = (⟨n, .literal⟩, q')) :
    q' = q ∧ ∃ s, Word q after (c :: rest.take n) s ∧
      ((∃ d w r, rest.drop n = d :: w ∧ s.step q (n + 1) d = (r, false) ∧ s.EndsLiteral (n + 1)) ∨
        (rest.drop n = ['.'] ∧ s.EndsLiteral (n + 1)) ∨ n = rest.length) := by
  rw [Lexeme.ofWord_of_firstKind? mark, first] at found
  rcases read : WordState.read q 1 { kind, escaped := c == '\\' } rest with ⟨m, r, stopped⟩
  simp only [read, Bool.and_true, Prod.mk.injEq] at found
  obtain ⟨lex, rfl⟩ := found
  obtain ⟨s, word, toEnd, stops⟩ := of_read mark first read
  refine ⟨rfl, ?_⟩
  have kind : (Lexeme.finish r m (!stopped && rest.getLast? == some '.')).kind = .literal := by
    rw [lex]
  cases stopped with
  | true =>
    obtain rfl : n = m := by
      have := congrArg Lexeme.more lex
      rw [Bool.not_true, Bool.false_and, Lexeme.more_finish] at this
      exact this.symm
    obtain ⟨d, w, drop, step⟩ := stops rfl
    exact ⟨s, word, Or.inl ⟨d, w, r, drop, step,
      Lexeme.endsLiteral_of_finish word.usual step (by simpa using kind)⟩⟩
  | false =>
    obtain ⟨rfl, rfl⟩ := toEnd rfl
    rw [List.take_length] at word
    rw [Bool.not_false, Bool.true_and] at lex kind
    by_cases dot : rest.getLast? = some '.'
    · rcases Lexeme.of_finish word.usual kind with literal | ⟨-, -, whole⟩
      · rw [Lexeme.finish_of_literal literal, dot] at lex
        obtain rfl : rest.length - 1 = n := by simpa using congrArg Lexeme.more lex
        obtain ⟨x, rfl⟩ := List.getLast?_eq_some_iff.1 dot
        rw [← List.cons_append] at word
        obtain ⟨s, word, step⟩ := (append_singleton_iff (by simp) (by decide)).1 word
        refine ⟨s, by simpa using word, Or.inr (Or.inl ⟨by simp, ?_⟩)⟩
        have := endsLiteral_of_dot word.usual step literal
        simpa using this
      · obtain rfl : rest.length = n := by simpa using congrArg Lexeme.more (whole.symm.trans lex)
        exact ⟨r, by simpa using word, Or.inr (Or.inr rfl)⟩
    · have noDot : (rest.getLast? == some '.') = false := by simpa using dot
      obtain rfl : rest.length = n := by
        have := congrArg Lexeme.more lex
        rwa [noDot, Lexeme.more_finish] at this
      exact ⟨r, by simpa using word, Or.inr (Or.inr rfl)⟩

/-- A word is a literal behind a character that no number and no URI holds. -/
theorem literal_of_getLast {d : Char} (h : Word q after x s) (last : x.getLast? = some d)
    (digit : d.isDigit = false) (dot : d ≠ '.') (url : isUrlChar d = false) :
    s.kind = .literal := by
  have scheme : ∀ i, WordState.fitsScheme i d = false := by
    intro i
    rw [Bool.eq_false_iff]
    intro fits
    rw [WordState.isUrlChar_of_fitsScheme fits] at url
    cases url
  obtain ⟨x, rfl⟩ := List.getLast?_eq_some_iff.1 last
  by_cases hx : x = []
  · subst hx
    obtain ⟨c, t, kind, eq, -, first, along⟩ := h
    obtain ⟨rfl, rfl⟩ := List.cons.inj eq
    obtain rfl : ({ kind, escaped := d == '\\' } : WordState) = s := by
      simpa [WordState.along?] using along
    have letter : d ≠ 'h' ∧ d ≠ 'H' := by
      constructor <;> (rintro rfl; exact absurd url (by decide))
    simp only [Lexeme.firstKind?, digit, letter, decide_false, Bool.false_or, Bool.false_and,
      Bool.false_eq_true, if_false] at first
    split at first
    · cases first
    · split at first
      · cases first
      · split at first
        · cases first
          rfl
        · cases first
  · have letters : d ≠ 't' ∧ d ≠ 'T' := by
      constructor <;> (rintro rfl; exact absurd url (by decide))
    obtain ⟨r, word, step⟩ := (append_singleton_iff hx letters).1 h
    have usual := word.usual
    obtain rfl : (r.step q x.length d).1 = s := congrArg Prod.fst step
    have goesOn : (r.step q x.length d).2 = true := congrArg Prod.snd step
    unfold WordState.Usual at usual
    simp only [List.mem_cons, List.not_mem_nil, or_false] at usual
    rcases usual with k | k | k | k | k
    · simp [WordState.step, k]
    all_goals
      simp only [WordState.step, k, WordState.uriStep, WordState.numberStep, WordState.asLiteral,
        scheme, url, digit, dot, Bool.and_false, Bool.or_false, Bool.false_eq_true,
        if_false] at goesOn ⊢
      revert goesOn
      split <;> (try split) <;> simp

/-- Outside of quotations a word ends in white space only if it is escaped. -/
theorem trimEnd_or {c : Char} {t : Text} (h : Word none after (c :: t) s)
    (hc : Text.isSpace c = false) :
    Text.trimEnd (c :: t) = c :: t ∨ (Text.trimEnd (c :: t)).getLast? = some '\\' := by
  cases last : t.getLast? with
  | none =>
    obtain rfl := List.getLast?_eq_none_iff.1 last
    exact Or.inl (Text.trimEnd_of_getLast (x := [c]) (by simpa using hc))
  | some d =>
    obtain ⟨t', rfl⟩ := List.getLast?_eq_some_iff.1 last
    by_cases hd : Text.isSpace d
    · have letters := (WordState.isSpace_classes hd).2.2.2.2
      simp only [List.mem_cons, List.not_mem_nil, or_false, not_or] at letters
      rw [← List.cons_append] at h ⊢
      obtain ⟨r, word, step⟩ := (append_singleton_iff (by simp) ⟨letters.1, letters.2.1⟩).1 h
      have escaped := WordState.escaped_of_isSpace word.usual hd step
      rw [word.escaped] at escaped
      have slash : (c :: t').getLast? = some '\\' := by simpa using escaped
      refine Or.inr ?_
      have kept : Text.trimEnd (c :: t') = c :: t' := Text.trimEnd_of_getLast (by
        rw [slash]
        rintro _ ⟨⟩
        decide)
      rw [Text.trimEnd_append (b := [d]) (by simpa using hd), kept, slash]
    · exact Or.inl (Text.trimEnd_of_getLast (x := c :: (t' ++ [d]))
        (by simpa [List.getLast?_cons, last] using hd))

/-- No white space ends a dotted number. -/
theorem trimEnd_of_ipv4 (h : Word q after x s) (kind : s.kind = .ipv4) : Text.trimEnd x = x := by
  refine Text.trimEnd_of_getLast fun d hd => ?_
  rcases (h.chars_of_ipv4 kind).1 d (List.mem_of_getLast? hd) with digit | rfl
  · exact Placeholder.isSpace_of_isDigit digit
  · decide

/-- A word that ends in white space is read to the end of a text. -/
theorem ofWord_blank_end {c : Char} {t : Text} (h : Word q after (c :: t) s)
    (hc : Text.isSpace c = false) (blank : Text.trimEnd (c :: t) ≠ c :: t) :
    Lexeme.ofWord q true after c t = (⟨t.length, .literal⟩, q) := by
  obtain ⟨d, last, hd⟩ : ∃ d, t.getLast? = some d ∧ Text.isSpace d := by
    cases last : t.getLast? with
    | none =>
      obtain rfl := List.getLast?_eq_none_iff.1 last
      exact absurd (Text.trimEnd_of_getLast (x := [c]) (by simpa using hc)) blank
    | some d =>
      refine ⟨d, rfl, ?_⟩
      by_contra hd
      refine blank (Text.trimEnd_of_getLast (x := c :: t) ?_)
      simpa [List.getLast?_cons, last] using hd
  obtain ⟨-, url, digit, -, letters⟩ := WordState.isSpace_classes hd
  simp only [List.mem_cons, List.not_mem_nil, or_false, not_or] at letters
  have kind := h.literal_of_getLast (by simp [List.getLast?_cons, last]) digit
    letters.2.2.2.2.2.2.2.2.1 url
  have noDot : (t.getLast? == some '.') = false := by
    rw [last]
    simpa using letters.2.2.2.2.2.2.2.2.1
  rw [h.ofWord_end, noDot, Bool.and_false, Lexeme.finish_of_literal kind]
  rfl

/-- A word without the white space at its end is a word. -/
theorem trim {c : Char} {t : Text} (h : Word q after (c :: t) s) (hc : Text.isSpace c = false) :
    ∃ r, Word q after (Text.trimEnd (c :: t)) r := by
  obtain ⟨b, eq, blank⟩ := Text.exists_trimEnd_append (c :: t)
  obtain ⟨t', trimmed⟩ := Text.trimEnd_cons hc t
  rw [eq] at h
  have noLetter : ∀ d ∈ b.head?, d ≠ 't' ∧ d ≠ 'T' := fun d hd => by
    have letters := (WordState.isSpace_classes (blank d (List.mem_of_mem_head? hd))).2.2.2.2
    simp only [List.mem_cons, List.not_mem_nil, or_false, not_or] at letters
    exact ⟨letters.1, letters.2.1⟩
  obtain ⟨r, word, -⟩ := (append_iff (by rw [trimmed]; simp) noLetter).1 h
  exact ⟨r, word⟩

end Word

namespace Scan

open Line

variable {v : Vocabulary} {strict after : Bool} {q q' : Option Quotation} {t u : Token}
  {line rest : Line} {c : Char} {x b y : Text} {s : WordState} {m : Quotation}

/-- Printing leaves the literal `t` before the rest of a line alone. -/
structure Clear (v : Vocabulary) (strict : Bool) (t : Token) (rest : Line) : Prop where
  /-- If all runs are looked at, none begins there that is a placeholder. -/
  run : strict → ∀ found ∈ Placeholder.run? (stretch v t rest), Placeholder.parse? v found.1 = none
  /-- No timestamp begins there. -/
  time : v.time.match? (stretch v t rest) = none
  /-- No address begins there but one that is the literal. -/
  address : ∀ found ∈ address? (stretch v t rest), found = (t.value.length, .literal)
  /-- If it ends in a backslash, which escapes the blank that is printed behind it, then what comes
  behind the blank continues no word. -/
  escape : v.markSpaces = false → t.value.getLast? = some '\\' →
    ∀ d ∈ (follow v t rest).tail.head?, isWordChar d = false ∧ d ≠ '\''
  /-- It is no beginning of a URI that a placeholder cuts off. -/
  scheme : v.markSpaces → ∀ u ∈ rest.head?, u.isPlaceholder → ¬ IsScheme t.value

/-- Whether printing leaves a literal alone. -/
def isClear (v : Vocabulary) (strict : Bool) (t : Token) (rest : Line) : Bool :=
  (!strict || (Placeholder.run? (stretch v t rest)).all fun found =>
    (Placeholder.parse? v found.1).isNone) &&
  (v.time.match? (stretch v t rest)).isNone &&
  (address? (stretch v t rest)).all (· == (t.value.length, .literal)) &&
  (v.markSpaces || t.value.getLast? != some '\\' ||
    (follow v t rest).tail.head?.all fun d => !isWordChar d && d != '\'') &&
  (!v.markSpaces || rest.head?.all fun u => !u.isPlaceholder || !decide (IsScheme t.value))

theorem isClear_iff : isClear v strict t rest ↔ Clear v strict t rest := by
  simp only [isClear, Bool.and_eq_true, Bool.or_eq_true, Bool.not_eq_true', Option.all_eq_true,
    Option.isNone_iff_eq_none, beq_iff_eq, bne_iff_ne, decide_eq_false_iff_not]
  constructor
  · rintro ⟨⟨⟨⟨run, time⟩, address⟩, escape⟩, scheme⟩
    refine ⟨fun everywhere found h => ?_, time, address, fun off last => ?_,
      fun on u hu value => ?_⟩
    · exact run.resolve_left (by simp [everywhere]) found h
    · exact escape.resolve_left (by simp [off, last])
    · exact (scheme.resolve_left (by simp [on]) u hu).resolve_left (by simp [value])
  · rintro ⟨run, time, address, escape, scheme⟩
    refine ⟨⟨⟨⟨?_, time⟩, address⟩, ?_⟩, ?_⟩
    · cases strict with
      | false => exact Or.inl rfl
      | true => exact Or.inr (run rfl)
    · cases off : v.markSpaces with
      | true => exact Or.inl (Or.inl rfl)
      | false =>
        by_cases last : t.value.getLast? = some '\\'
        · exact Or.inr (escape off last)
        · exact Or.inl (Or.inr last)
    · cases on : v.markSpaces with
      | false => exact Or.inl rfl
      | true =>
        refine Or.inr fun u hu => ?_
        cases value : u.isPlaceholder with
        | false => exact Or.inl rfl
        | true => exact Or.inr (scheme on u hu value)

instance : Decidable (Clear v strict t rest) := decidable_of_iff _ isClear_iff

/-- A literal is read as itself if the word at its place is. -/
theorem reads_of_word (clear : Clear v strict t rest) (literal : t.isLiteral)
    (tight : v.markSpaces = false → t.value.trimEnd = t.value) (value : t.value = c :: x)
    (hc : Text.isSpace c = false) (behind : follow v t rest = b ++ y)
    (hb : b = [] ∨ (v.markSpaces = false ∧ b = [' ']))
    (word : Lexeme.ofWord q (rest.all Token.isLiteral) after c (x ++ follow v t rest) =
      (⟨(x ++ b).length, .literal⟩, q')) (hq : q' = q ∨ x = []) :
    Reads v strict q after t rest q' := by
  have whole : stretch v t rest = c :: (x ++ follow v t rest) := by
    rw [stretch_eq, value, List.cons_append]
  have time := clear.time
  rw [whole] at time
  refine ⟨literal, tight, fun everywhere body w h => clear.run everywhere (body, w) h, ?_⟩
  cases address : address? (c :: (x ++ follow v t rest)) with
  | none =>
    refine ⟨c, x, b, y, value, hc, behind, hb, fun last hl => ?_⟩
    have same : decide (last = .ipv4) = after := by
      rw [Bool.eq_iff_iff, decide_eq_true_eq]
      exact hl
    rw [next, time, address, same, word]
  | some found =>
    obtain ⟨n, k⟩ := found
    obtain ⟨width, rfl⟩ := Prod.mk.inj (clear.address (n, k) (by rw [whole]; exact address))
    rw [value] at width
    obtain rfl : q' = q := by
      refine hq.resolve_right fun single => ?_
      have := two_le_of_address? address
      rw [width, single] at this
      simp at this
    refine ⟨c, x, [], _, value, hc, rfl, Or.inl rfl, fun last _ => ?_⟩
    rw [next, time, address]
    simp [width]

/-- A character that stands on its own is read as itself. -/
theorem reads_single (clear : Clear v strict t rest) (literal : t.isLiteral) (value : t.value = [c])
    (hc : Text.isSpace c = false)
    (word : ∀ atEnd w, Lexeme.ofWord q atEnd after c w = (.single, q')) :
    Reads v strict q after t rest q' := by
  refine reads_of_word clear literal (fun _ => ?_) value hc (b := []) rfl (Or.inl rfl) (word _ _)
    (Or.inr rfl)
  rw [value]
  exact Text.trimEnd_of_getLast (by simpa using hc)

/-- The last word of a message is read as itself. -/
theorem reads_last (clear : Clear v strict t []) (literal : t.isLiteral)
    (tight : v.markSpaces = false → t.value.trimEnd = t.value) (value : t.value = c :: x)
    (hc : Text.isSpace c = false)
    (word : Lexeme.ofWord q true after c x = (⟨x.length, .literal⟩, q)) :
    Reads v strict q after t [] q :=
  reads_of_word clear literal tight value hc (b := []) (y := []) rfl (Or.inl rfl)
    (by simpa [follow] using word) (Or.inl rfl)

/-! ### Where white space is not kept -/

theorem follow_off (off : v.markSpaces = false) (t u : Token) (rest : Line) :
    follow v t (u :: rest) = ' ' :: if u.isLiteral then stretch v u rest else [] := by
  simp [follow, separator_off off]

/-- Outside of quotations a word that ends in a backslash is read with the blank behind it, which it
escapes. -/
theorem reads_escaped (off : v.markSpaces = false) (clear : Clear v strict t rest)
    (literal : t.isLiteral) (tight : t.value.trimEnd = t.value) (value : t.value = c :: x)
    (hc : Text.isSpace c = false) (word : Word none after (c :: x) s)
    (escaped : (c :: x).getLast? = some '\\') (ne : rest ≠ []) :
    Reads v strict none after t rest none := by
  have kind : s.kind = .literal :=
    word.literal_of_getLast escaped (by decide) (by decide) (by decide)
  have step : s.step none (c :: x).length ' ' = ({ s with escaped := false }, true) := by
    simp [WordState.step, kind, word.escaped, escaped]
  have blank : Word none after (c :: (x ++ [' '])) { s with escaped := false } :=
    (Word.append_singleton_iff (by simp) (by decide)).2 ⟨s, word, step⟩
  obtain ⟨u, others, rfl⟩ := List.exists_cons_of_ne_nil ne
  obtain ⟨y, behind⟩ : ∃ y, follow v t (u :: others) = ' ' :: y := ⟨_, follow_off off t u others⟩
  have stops := clear.escape off (by rw [value, escaped])
  rw [behind, List.tail_cons] at stops
  refine reads_of_word clear literal (fun _ => tight) value hc (b := [' ']) behind
    (Or.inr ⟨off, rfl⟩) ?_ (Or.inl rfl)
  have parts : x ++ ' ' :: y = (x ++ [' ']) ++ y := by simp
  have letters : ∀ d ∈ y.head?, d ≠ 't' ∧ d ≠ 'T' := fun d hd => by
    constructor <;> (rintro rfl; exact absurd (stops _ hd).1 (by decide))
  rw [behind, parts, blank.ofWord_append letters]
  cases y with
  | nil =>
    have noDot : (x ++ [' ']).getLast? = some ' ' := by simp
    simp only [WordState.read]
    rw [Lexeme.finish_of_literal (r := { s with escaped := false }) kind]
    simp
  | cons d y =>
    obtain ⟨notWord, mark⟩ := stops d rfl
    have step : ({ s with escaped := false } : WordState).step none ((x ++ [' ']).length + 1) d =
        ({ s with escaped := d == '\\' }, false) := by
      simp [WordState.step, kind, notWord, mark, Quotation.keeps]
    simp only [WordState.read, step]
    rw [Lexeme.finish_of_literal (r := { s with escaped := d == '\\' }) kind]
    simp

/-- Outside of quotations a word is read up to the blank behind it. -/
theorem reads_unquoted (off : v.markSpaces = false) (clear : Clear v strict t rest)
    (literal : t.isLiteral) (value : t.value = Text.trimEnd (c :: x)) (hc : Text.isSpace c = false)
    (word : Word none after (c :: x) s) (ends : s.EndsLiteral (x.length + 1)) (ne : rest ≠ []) :
    Reads v strict none after t rest none := by
  have tight : t.value.trimEnd = t.value := by
    rw [value]
    exact Text.trimEnd_trimEnd _
  by_cases escaped : t.value.getLast? = some '\\'
  · obtain ⟨z, trimmed⟩ := Text.trimEnd_cons hc x
    obtain ⟨r, word'⟩ := word.trim hc
    rw [trimmed] at value word'
    exact reads_escaped off clear literal tight value hc word' (by rw [← value]; exact escaped) ne
  · have kept : Text.trimEnd (c :: x) = c :: x :=
      (word.trimEnd_or hc).resolve_right (by rw [← value]; exact escaped)
    rw [kept] at value
    obtain ⟨u, others, rfl⟩ := List.exists_cons_of_ne_nil ne
    refine reads_of_word clear literal (fun _ => tight) value hc (b := []) rfl (Or.inl rfl) ?_
      (Or.inl rfl)
    rw [follow_off off, word.ofWord_blank (by rw [← value]; exact escaped) ends]
    simp

/-- What stops a word inside of a quotation: a placeholder, the closing mark or a final dot. -/
def Halts (m : Quotation) (rest : Line) : Prop :=
  ∃ u others, rest = u :: others ∧ (u.isPlaceholder ∨
    (u.isLiteral ∧ (u.value = [m.closing] ∨ (u.value = ['.'] ∧ others = []))))

/-- Inside of a quotation a word is read with the blank behind it. -/
theorem reads_halted (off : v.markSpaces = false) (clear : Clear v strict t rest)
    (literal : t.isLiteral) (tight : t.value.trimEnd = t.value) (value : t.value = c :: x)
    (hc : Text.isSpace c = false) (word : Word (some m) after (c :: x) s) (halts : Halts m rest) :
    Reads v strict (some m) after t rest (some m) := by
  obtain ⟨u, others, rfl, placeholder | ⟨hu, mark | ⟨dot, rfl⟩⟩⟩ := halts
  · have hu : u.isLiteral = false := by simp [Token.isLiteral, placeholder]
    refine reads_of_word clear literal (fun _ => tight) value hc (b := [' ']) (y := [])
      (by simp [follow_off off, hu]) (Or.inr ⟨off, rfl⟩) ?_ (Or.inl rfl)
    simp [follow_off off, hu, word.ofWord_window]
  · refine reads_of_word clear literal (fun _ => tight) value hc (b := [' '])
      (y := stretch v u others) (by simp [follow_off off, hu]) (Or.inr ⟨off, rfl⟩) ?_ (Or.inl rfl)
    rw [follow_off off, if_pos hu, stretch_eq, mark, List.singleton_append, word.ofWord_closing]
    simp
  · refine reads_of_word clear literal (fun _ => tight) value hc (b := [' ']) (y := ['.'])
      (by simp [follow_off off, hu, stretch, dot]) (Or.inr ⟨off, rfl⟩) ?_ (Or.inl rfl)
    simp [follow_off off, hu, stretch, dot, word.ofWord_dot]

/-! ### Tokens of a message -/

/-- The value that a token of a message keeps of its text. -/
def kept (v : Vocabulary) (x : Text) : Text := if v.markSpaces then x else x.trimEnd

theorem kept_singleton (v : Vocabulary) {d : Char} (hd : Text.isSpace d = false) :
    kept v [d] = [d] := by
  unfold kept
  split
  · rfl
  · exact Text.trimEnd_of_getLast (by simpa using hd)

theorem kept_cons {d : Char} (hd : Text.isSpace d = false) (x : Text) :
    ∃ y, kept v (d :: x) = d :: y := by
  unfold kept
  split
  · exact ⟨x, rfl⟩
  · exact Text.trimEnd_cons hd x

/-- A message has no placeholders in its text. -/
theorem found_message (cursor : Cursor) (place : Nat) (c : Char) (w : Text) :
    found v .message cursor place c w =
      let f := next v cursor.quotation cursor.last true c w
      { f with token := { f.token with value := kept v (c :: w.take f.more) } } := by
  simp [found, placeholder?, Mode.allows, plain, window, Mode.anchors, kept]

/-- A token of a message where no address begins is a timestamp or a word. -/
theorem next_of_address {d : Char} {w : Text} (h : address? (d :: w) = none)
    (q : Option Quotation) (last : Kind) :
    (next v q last true d w).token.kind = .time ∨
      next v q last true d w =
        let lexeme := Lexeme.ofWord q true (last = .ipv4) d w
        ⟨{ value := [], kind := lexeme.1.kind }, lexeme.1.more, lexeme.2⟩ := by
  unfold next
  cases v.time.match? (d :: w) with
  | some found => exact Or.inl (by by_cases verified : found.verified <;> simp [verified])
  | none => exact Or.inr (by rw [h])

/-- The token behind the white space `g`. -/
theorem tokens_message (cursor : Cursor) {g w : Text} {d : Char} (blank : ∀ c ∈ g, Text.isSpace c)
    (hd : Text.isSpace d = false) (uncut : cursor.isCut g = false) :
    let f := next v cursor.quotation cursor.last true d w
    ∃ place, tokens v .message cursor (g ++ d :: w) = spaces v g ++
      { f.token with value := kept v (d :: w.take f.more), spaceBefore := !g.isEmpty } ::
        tokens v .message ⟨place, f.quotation, f.token.kind, true⟩ (w.drop f.more) := by
  refine ⟨cursor.place + Text.bytes g + Text.bytes (d :: w.take
    (next v cursor.quotation cursor.last true d w).more), ?_⟩
  rw [tokens_of_cons blank hd uncut (found_message _ _ _ _)]
  rfl

theorem tokens_near (cursor : Cursor) {w : Text} {d : Char} (hd : Text.isSpace d = false) :
    let f := next v cursor.quotation cursor.last true d w
    ∃ place, tokens v .message cursor (d :: w) =
      { f.token with value := kept v (d :: w.take f.more), spaceBefore := false } ::
        tokens v .message ⟨place, f.quotation, f.token.kind, true⟩ (w.drop f.more) := by
  obtain ⟨place, scan⟩ := tokens_message (v := v) cursor (g := []) (w := w) (by simp) hd
    (by simp [Cursor.isCut])
  exact ⟨place, by simpa [spaces] using scan⟩

/-- A character that stands on its own is a token, unless a timestamp begins there. -/
theorem tokens_alone (cursor : Cursor) {d : Char} {w : Text} {q' : Option Quotation}
    (hd : Text.isSpace d = false) (hex : isHexDigit d = false) (colon : d ≠ ':')
    (word : Lexeme.ofWord cursor.quotation true (cursor.last = .ipv4) d w =
      (⟨0, .literal⟩, q')) :
    ∃ u others, tokens v .message cursor (d :: w) = u :: others ∧ u.spaceBefore = false ∧
      (u.isPlaceholder ∨
        (u.isLiteral ∧ u.value = [d] ∧ ∃ behind, others = tokens v .message behind w)) := by
  obtain ⟨place, scan⟩ := tokens_near (v := v) cursor (w := w) hd
  refine ⟨_, _, scan, rfl, ?_⟩
  rcases next_of_address (v := v) (address?_cons hex colon w) cursor.quotation cursor.last with
    time | found
  · exact Or.inl (by simp [Token.isPlaceholder, time, Kind.isPlaceholder])
  · refine Or.inr ?_
    rw [found, word]
    exact ⟨rfl, kept_singleton v hd, _, rfl⟩

theorem tokens_nil (cursor : Cursor) : tokens v .message cursor [] = [] := by
  rw [tokens_blank rfl]
  simp [spaces]

/-- The dot at the end of a text. -/
theorem tokens_dot (cursor : Cursor) :
    ∃ u others, tokens v .message cursor ['.'] = u :: others ∧ u.spaceBefore = false ∧
      (u.isPlaceholder ∨ (u.isLiteral ∧ u.value = ['.'] ∧ others = [])) := by
  have word : ∀ q after, Lexeme.ofWord q true after '.' [] = (⟨0, .literal⟩, q) := by
    intro q after
    have letter : isWordChar '.' = true := by decide
    have digit : Char.isDigit '.' = false := by decide
    simp [Lexeme.ofWord, Lexeme.firstKind?, letter, digit, WordState.read, Lexeme.finish]
  obtain ⟨u, others, scan, space, placeholder | ⟨literal, value, behind, rfl⟩⟩ :=
    tokens_alone (v := v) cursor (d := '.') (w := []) (by decide) (by decide) (by decide) (word _ _)
  · exact ⟨u, others, scan, space, Or.inl placeholder⟩
  · exact ⟨u, _, scan, space, Or.inr ⟨literal, value, tokens_nil behind⟩⟩

theorem halts_dot (cursor : Cursor) : Halts m (tokens v .message cursor ['.']) := by
  obtain ⟨u, others, scan, -, placeholder | ⟨literal, value, rfl⟩⟩ := tokens_dot (v := v) cursor
  · exact ⟨u, others, scan, Or.inl placeholder⟩
  · exact ⟨u, [], scan, Or.inr ⟨literal, Or.inr ⟨value, rfl⟩⟩⟩

theorem halts_closing {cursor : Cursor} (hq : cursor.quotation = some m) (w : Text) :
    Halts m (tokens v .message cursor (m.closing :: w)) := by
  have mark : isMark cursor.quotation m.closing := by cases m <;> simp [isMark, Quotation.closing]
  obtain ⟨u, others, scan, -, placeholder | ⟨literal, value, -⟩⟩ :=
    tokens_alone (v := v) cursor (d := m.closing) (w := w) (by cases m <;> decide)
      (by cases m <;> decide) (by cases m <;> decide) (Lexeme.ofWord_mark mark _ _ _)
  · exact ⟨u, others, scan, Or.inl placeholder⟩
  · exact ⟨u, others, scan, Or.inr ⟨literal, Or.inl value⟩⟩

/-- A text without tokens is blank. -/
theorem blank_of_tokens {cursor : Cursor} {text : Text} (h : tokens v .message cursor text = []) :
    ∀ c ∈ text, Text.isSpace c := by
  cases eq : text.dropWhile Text.isSpace with
  | nil => exact List.dropWhile_eq_nil_iff.1 eq
  | cons c rest =>
    by_cases cut : cursor.isCut (text.takeWhile Text.isSpace)
    · rw [tokens_cut eq cut] at h
      simp [multiline] at h
    · rw [tokens_cons eq (by simpa using cut) rfl] at h
      simp at h

/-- A text is blank, or white space stands before its first token. -/
theorem blank_or (text : Text) : (∀ c ∈ text, Text.isSpace c) ∨
    ∃ g c w, text = g ++ c :: w ∧ (∀ d ∈ g, Text.isSpace d) ∧ Text.isSpace c = false := by
  cases eq : text.dropWhile Text.isSpace with
  | nil => exact Or.inl (List.dropWhile_eq_nil_iff.1 eq)
  | cons c w =>
    refine Or.inr ⟨text.takeWhile Text.isSpace, c, w, ?_, fun _ => List.mem_takeWhile_imp, ?_⟩
    · rw [← eq, List.takeWhile_append_dropWhile]
    · simpa [eq] using List.head?_dropWhile_not Text.isSpace text

theorem suffix_of_drop {w : Text} (n : Nat) : w.drop n <:+ c :: w :=
  (List.drop_suffix n w).trans (List.suffix_cons c w)

/-- There are tokens up to the end of a text that does not end in white space. -/
theorem tokens_ne_nil {cursor : Cursor} {text w : Text} (suffix : w <:+ text) (ne : w ≠ [])
    (last : tokens v .message cursor w = [] → ∀ d ∈ text.getLast?, Text.isSpace d = false) :
    tokens v .message cursor w ≠ [] := by
  intro none
  obtain ⟨x, rfl⟩ := suffix
  have final := last none (w.getLast ne)
    (by rw [List.getLast?_append, List.getLast?_eq_some_getLast ne]; rfl)
  rw [blank_of_tokens none _ (List.getLast_mem ne)] at final
  cases final

/-! ### What stands behind a literal -/

/-- To a literal, `rest` is like the tokens `others` behind one of a message: both go on or neither
does. What is more, if white space is kept or a quotation is open, a literal that `rest` begins with
is that of the message, and ends the line if it ends the message. -/
structure Agrees (v : Vocabulary) (q : Option Quotation) (rest others : Line) : Prop where
  ends : rest = [] ↔ others = []
  begins : v.markSpaces ∨ q ≠ none → ∀ u ∈ rest.head?, u.isLiteral →
    ∃ o ∈ others.head?, o.isLiteral ∧ o.value = u.value ∧ (rest.tail = [] ↔ others.tail = [])

instance (rest others : Line) : Decidable (Agrees v q rest others) :=
  decidable_of_iff ((rest = [] ↔ others = []) ∧ (v.markSpaces ∨ q ≠ none → ∀ u ∈ rest.head?,
      u.isLiteral → ∃ o ∈ others.head?,
        o.isLiteral ∧ o.value = u.value ∧ (rest.tail = [] ↔ others.tail = [])))
    ⟨fun ⟨ends, begins⟩ => ⟨ends, begins⟩, fun ⟨ends, begins⟩ => ⟨ends, begins⟩⟩

theorem Agrees.refl (line : Line) : Agrees v q line line :=
  ⟨Iff.rfl, fun _ u hu literal => ⟨u, hu, literal, rfl, Iff.rfl⟩⟩

/-- Behind a literal stands nothing, a placeholder, or the literal that stands there in the
message. -/
theorem Agrees.cases {others : Line} (h : Agrees v q rest others)
    (near : v.markSpaces ∨ q ≠ none) :
    (rest = [] ∧ others = []) ∨ (∃ u behind, rest = u :: behind ∧ u.isPlaceholder) ∨
      ∃ u behind o later, rest = u :: behind ∧ u.isLiteral ∧ others = o :: later ∧ o.isLiteral ∧
        o.value = u.value ∧ (behind = [] ↔ later = []) := by
  cases rest with
  | nil => exact Or.inl ⟨rfl, h.ends.1 rfl⟩
  | cons u behind =>
    refine Or.inr ?_
    by_cases literal : u.isLiteral
    · obtain ⟨o, ho, known, value, tails⟩ := h.begins near u rfl literal
      obtain ⟨later, rfl⟩ := List.head?_eq_some_iff.1 ho
      exact Or.inr ⟨u, behind, o, later, rfl, literal, rfl, known, value, tails⟩
    · exact Or.inl ⟨u, behind, rfl, by simpa [Token.isLiteral] using literal⟩

/-- Where white space is kept, the first token of a message shows how its text begins, but for the
blank before a text over several lines. -/
theorem head_kept (on : v.markSpaces) {cursor : Cursor} {w : Text} {u : Token} {others : Line}
    (scan : tokens v .message cursor w = u :: others) :
    u.spaceBefore = false ∧ (u.isLiteral → ∃ d w' d' y, w = d :: w' ∧ u.value = d' :: y ∧
      (d' = d ∨ (d' = ' ' ∧ Text.isSpace d ∧ cursor.quotation = none))) := by
  have gap : ∀ (d : Char) (g : Text), spaces v (d :: g) = [.literal (d :: g)] := by
    simp [spaces, on]
  obtain blank | ⟨g, c, w, rfl, blank, hc⟩ := blank_or w
  · rw [tokens_of_blank blank] at scan
    split at scan
    · cases scan
    · cases w with
      | nil => simp [spaces] at scan
      | cons d w =>
        rw [gap] at scan
        cases scan
        exact ⟨rfl, fun _ => ⟨d, w, d, w, rfl, rfl, Or.inl rfl⟩⟩
  by_cases cut : cursor.isCut g
  · rw [tokens_of_cut blank hc cut] at scan
    simp only [Cursor.isCut, Bool.and_eq_true, Option.isNone_iff_eq_none] at cut
    cases g with
    | nil => simp at cut
    | cons d g =>
      simp only [multiline, if_pos on, List.singleton_append, List.cons.injEq] at scan
      obtain ⟨rfl, -⟩ := scan
      exact ⟨rfl, fun _ => ⟨d, g ++ c :: w, ' ', [], rfl, rfl,
        Or.inr ⟨rfl, blank d List.mem_cons_self, cut.1.2⟩⟩⟩
  · obtain ⟨place, eq⟩ := tokens_message (v := v) cursor (w := w) blank hc (by simpa using cut)
    rw [eq] at scan
    cases g with
    | cons d g =>
      rw [gap] at scan
      cases scan
      exact ⟨rfl, fun _ => ⟨d, g ++ c :: w, d, g, rfl, rfl, Or.inl rfl⟩⟩
    | nil =>
      have none : spaces v [] = [] := by simp [spaces]
      rw [none] at scan
      cases scan
      exact ⟨rfl, fun _ => ⟨c, w, c, _, rfl, if_pos on, Or.inl rfl⟩⟩

/-- Where white space is kept, nothing at the beginning of a line has space before it. -/
theorem spaceBefore_of_mem_head? (on : v.markSpaces) {cursor : Cursor} {w : Text} {u : Token}
    (h : u ∈ (tokens v .message cursor w).head?) : u.spaceBefore = false := by
  obtain ⟨others, scan⟩ := List.head?_eq_some_iff.1 h
  exact (head_kept on scan).1

/-! ### Where white space is kept -/

theorem follow_near (on : v.markSpaces) (t : Token) (h : u.spaceBefore = false) (rest : Line) :
    follow v t (u :: rest) = if u.isLiteral then stretch v u rest else [] := by
  simp [follow, separator, on, h]

/-- Where white space is kept, what is printed behind a token begins as the text of the message
does, but for the blank before a text over several lines. -/
theorem follow_kept (on : v.markSpaces) (cursor : Cursor) {w : Text} (t : Token)
    (agrees : Agrees v cursor.quotation rest (tokens v .message cursor w))
    (near : ∀ u ∈ rest.head?, u.spaceBefore = false) :
    (tokens v .message cursor w = [] ∧ rest = []) ∨
    (follow v t rest = [] ∧ ∃ u ∈ rest.head?, u.isPlaceholder) ∨
    ∃ d w' d' y, w = d :: w' ∧ follow v t rest = d' :: y ∧
      (d' = d ∨ (d' = ' ' ∧ Text.isSpace d ∧ cursor.quotation = none)) := by
  obtain ⟨none, empty⟩ | ⟨u, behind, rfl, placeholder⟩ |
    ⟨u, behind, o, later, rfl, literal, scan, known, value, -⟩ := agrees.cases (Or.inl on)
  · exact Or.inl ⟨empty, none⟩
  · have hu : u.isLiteral = false := by simp [Token.isLiteral, placeholder]
    refine Or.inr (Or.inl ⟨?_, u, rfl, placeholder⟩)
    rw [follow_near on t (near u rfl), hu]
    rfl
  · obtain ⟨d, w', d', y, rfl, shown, same⟩ := (head_kept on scan).2 known
    refine Or.inr (Or.inr ⟨d, w', d', y ++ follow v u behind, rfl, ?_, same⟩)
    rw [follow_near on t (near u rfl), if_pos literal, stretch_eq, ← value, shown,
      List.cons_append]

/-- A word that a placeholder cuts off stays a literal, unless it is the beginning of a URI. -/
theorem ofWord_cut (word : Word q after (c :: x) s) (ends : s.EndsLiteral (x.length + 1))
    (scheme : ¬ IsScheme (c :: x)) :
    Lexeme.ofWord q false after c x = (⟨x.length, .literal⟩, q) := by
  rw [word.ofWord_end, Bool.false_and]
  have kind : s.kind = .literal ∨ (s.kind = .ipv4 ∧ s.dots ≠ 3) := by
    refine ends.imp_left fun stop => ?_
    unfold WordState.stopKind at stop
    split at stop
    · next uri => exact absurd (word.isScheme uri.1 uri.2) scheme
    · exact stop
  rcases kind with kind | ⟨kind, dots⟩
  · rw [Lexeme.finish_of_literal kind]
    rfl
  · simp [Lexeme.finish, kind, dots]

/-- Where white space is kept, a placeholder behind a word cuts it off. -/
theorem reads_cut (on : v.markSpaces) (clear : Clear v strict t rest) (literal : t.isLiteral)
    (value : t.value = c :: x) (hc : Text.isSpace c = false) (word : Word q after (c :: x) s)
    (ends : s.EndsLiteral (x.length + 1)) (behind : follow v t rest = [])
    (placeholder : ∃ u ∈ rest.head?, u.isPlaceholder) : Reads v strict q after t rest q := by
  obtain ⟨u, hu, placeholder⟩ := placeholder
  have notAll : rest.all Token.isLiteral = false := by
    obtain ⟨others, rfl⟩ := List.head?_eq_some_iff.1 hu
    simp [Token.isLiteral, placeholder]
  refine reads_of_word clear literal (by simp [on]) value hc (b := []) (y := []) behind (Or.inl rfl)
    ?_ (Or.inl rfl)
  rw [notAll, behind, List.append_nil]
  exact ofWord_cut word ends (by rw [← value]; exact clear.scheme on u hu placeholder)

/-- Where white space is kept, a word is read up to what is printed behind it, if that ends it. -/
theorem reads_stopped (on : v.markSpaces) (clear : Clear v strict t rest) (literal : t.isLiteral)
    (value : t.value = c :: x) (hc : Text.isSpace c = false) (word : Word q after (c :: x) s)
    (ends : s.EndsLiteral (x.length + 1)) {d : Char} {r : WordState}
    (behind : follow v t rest = d :: y) (step : s.step q (x.length + 1) d = (r, false)) :
    Reads v strict q after t rest q := by
  obtain ⟨kind, dots⟩ := WordState.stop_kind word.usual step
  have letters := WordState.stop_not_letter word.usual step
  refine reads_of_word clear literal (by simp [on]) value hc (b := []) behind (Or.inl rfl) ?_
    (Or.inl rfl)
  rw [behind, word.ofWord_append (by simpa using letters)]
  simp [WordState.read, step, Lexeme.finish_of_endsLiteral kind dots ends]

/-- Where white space is kept, a word is read up to what is printed behind it. -/
theorem reads_kept (on : v.markSpaces) {w : Text} {n place : Nat} {kind k : Kind}
    (clear : Clear v strict t rest) (literal : t.isLiteral) (value : t.value = c :: w.take n)
    (hc : Text.isSpace c = false) (mark : isMark q c = false)
    (first : Lexeme.firstKind? q after c w = some kind)
    (found : Lexeme.ofWord q true after c w = (⟨n, .literal⟩, q))
    (agrees : Agrees v q rest (tokens v .message ⟨place, q, k, true⟩ (w.drop n)))
    (near : ∀ u ∈ rest.head?, u.spaceBefore = false)
    (last : rest = [] → t.value.trimEnd = t.value →
      ∀ d ∈ (c :: w).getLast?, Text.isSpace d = false) :
    Reads v strict q after t rest q := by
  have off : v.markSpaces = false → t.value.trimEnd = t.value := by simp [on]
  have width : ∀ d rest, w.drop n = d :: rest → (w.take n).length = n := by
    intro d rest drop
    have := congrArg List.length drop
    simp only [List.length_drop, List.length_cons] at this
    simp only [List.length_take]
    omega
  obtain ⟨-, s, word, ⟨d, others, r, drop, step, ends⟩ | ⟨drop, ends⟩ | rfl⟩ :=
    Word.ends_cases mark first found
  · rw [← width d others drop] at ends step
    obtain ⟨none, rfl⟩ | ⟨behind, placeholder⟩ | ⟨d₁, _, d', y, eq, behind, same⟩ :=
      follow_kept on ⟨place, q, k, true⟩ t agrees near
    · by_cases tight : t.value.trimEnd = t.value
      · exact absurd none (tokens_ne_nil (suffix_of_drop n) (by rw [drop]; simp)
          fun _ => last rfl tight)
      · refine reads_last clear literal off value hc ?_
        rw [value] at tight
        exact word.ofWord_blank_end hc tight
    · exact reads_cut on clear literal value hc word ends behind placeholder
    · rw [drop] at eq
      obtain ⟨rfl, -⟩ := List.cons.inj eq
      obtain ⟨r', step'⟩ : ∃ r', s.step q ((w.take n).length + 1) d' = (r', false) := by
        rcases same with rfl | ⟨rfl, space, none⟩
        · exact ⟨r, step⟩
        · simp only at none
          subst none
          exact WordState.stop_space word.usual space step
      exact reads_stopped on clear literal value hc word ends behind step'
  · have length := width '.' [] drop
    rw [← length] at ends
    obtain ⟨u, others, scan, -, final⟩ := tokens_dot (v := v) ⟨place, q, k, true⟩
    rw [drop, scan] at agrees
    obtain ⟨-, empty⟩ | ⟨o, behind, rfl, placeholder⟩ |
      ⟨o, behind, _, _, rfl, ho, eq, hu, same, tails⟩ := agrees.cases (Or.inl on)
    · cases empty
    · refine reads_cut on clear literal value hc word ends ?_ ⟨o, rfl, placeholder⟩
      rw [follow_near on t (near o rfl), if_neg (by simp [Token.isLiteral, placeholder])]
    · obtain ⟨rfl, rfl⟩ := List.cons.inj eq
      obtain ⟨-, dot, rfl⟩ := final.resolve_left fun placeholder => by
        simp [Token.isLiteral, placeholder] at hu
      obtain rfl := tails.2 rfl
      have behind : follow v t [o] = ['.'] := by
        rw [follow_near on t (near o rfl), if_pos ho]
        exact same.symm.trans dot
      refine reads_of_word clear literal off value hc (b := []) behind (Or.inl rfl) ?_ (Or.inl rfl)
      rw [behind, ← drop, List.take_append_drop]
      simpa [ho, length] using found
  · rw [List.drop_length, tokens_nil] at agrees
    obtain rfl := agrees.ends.2 rfl
    rw [List.take_length] at value
    exact reads_last clear literal off value hc found

/-! ### Words inside of quotations -/

/-- What stands behind the word `c :: x` inside of a quotation, whose state is `s`: something that
stops it, or nothing. -/
def Closes (m : Quotation) (s : WordState) (x : Text) (rest : Line) : Prop :=
  Halts m rest ∨
    (rest = [] ∧ Lexeme.finish s x.length (x.getLast? == some '.') = ⟨x.length, .literal⟩)

theorem reads_quoted (off : v.markSpaces = false) (clear : Clear v strict t rest)
    (literal : t.isLiteral) (tight : t.value.trimEnd = t.value) (value : t.value = c :: x)
    (hc : Text.isSpace c = false) (word : Word (some m) after (c :: x) s)
    (closes : Closes m s x rest) : Reads v strict (some m) after t rest (some m) := by
  rcases closes with halts | ⟨rfl, finish⟩
  · exact reads_halted off clear literal tight value hc word halts
  · refine reads_last clear literal (fun _ => tight) value hc ?_
    rw [word.ofWord_end, Bool.true_and, finish]

/-- What stops a word of a message stops it before all that is like it. -/
theorem Closes.of_agrees {others : Line} (h : Closes m s x others)
    (agrees : Agrees v (some m) rest others) : Closes m s x rest := by
  obtain ⟨rfl, rfl⟩ | ⟨u, behind, rfl, placeholder⟩ |
    ⟨u, behind, o, later, rfl, literal, rfl, known, value, tails⟩ := agrees.cases (Or.inr (by simp))
  · exact h
  · exact Or.inl ⟨u, behind, rfl, Or.inl placeholder⟩
  · rcases h with ⟨o', later', eq, placeholder | ⟨-, mark⟩⟩ | ⟨none, -⟩
    · obtain ⟨rfl, rfl⟩ := List.cons.inj eq
      simp [Token.isLiteral, placeholder] at known
    · obtain ⟨rfl, rfl⟩ := List.cons.inj eq
      rw [value] at mark
      exact Or.inl ⟨u, behind, rfl, Or.inr ⟨literal, mark.imp_right (And.imp_right tails.2)⟩⟩
    · cases none

/-- A word of a message inside of a quotation is followed by what stops it, by nothing, or by a
slash behind a dotted number. -/
theorem quoted_cases {w : Text} {n place : Nat} {kind k : Kind}
    (value : t.value = Text.trimEnd (c :: w.take n)) (hc : Text.isSpace c = false)
    (mark : isMark (some m) c = false) (first : Lexeme.firstKind? (some m) after c w = some kind)
    (found : Lexeme.ofWord (some m) true after c w = (⟨n, .literal⟩, some m))
    (agrees : Agrees v (some m) rest (tokens v .message ⟨place, some m, k, true⟩ (w.drop n)))
    (last : rest = [] → ∀ d ∈ (c :: w).getLast?, Text.isSpace d = false) :
    ∃ s x, t.value = c :: x ∧ Word (some m) after (c :: x) s ∧
      (Closes m s x rest ∨ (s.kind = .ipv4 ∧ ∃ behind, w.drop n = '/' :: behind)) := by
  obtain ⟨x, trimmed⟩ := Text.trimEnd_cons hc (w.take n)
  obtain ⟨-, s, word, ends⟩ := Word.ends_cases mark first found
  obtain ⟨s', word'⟩ := word.trim hc
  rw [trimmed] at value word'
  rcases ends with ⟨d, rest, r, drop, step, -⟩ | ⟨drop, -⟩ | rfl
  · rcases WordState.stop_quoted word.usual step with rfl | ⟨rfl, ipv4⟩
    · refine ⟨s', x, value, word', Or.inl (Closes.of_agrees (Or.inl ?_) agrees)⟩
      rw [drop]
      exact halts_closing rfl rest
    · rw [← trimmed, word.trimEnd_of_ipv4 ipv4] at value
      exact ⟨s, _, value, word, Or.inr ⟨ipv4, rest, drop⟩⟩
  · refine ⟨s', x, value, word', Or.inl (Closes.of_agrees (Or.inl ?_) agrees)⟩
    rw [drop]
    exact halts_dot _
  · rw [List.drop_length, tokens_nil] at agrees
    obtain rfl := agrees.ends.2 rfl
    rw [List.take_length] at word trimmed
    have whole : Text.trimEnd (c :: w) = c :: w := Text.trimEnd_of_getLast (last rfl)
    rw [← trimmed, whole] at value
    refine ⟨s, w, value, word, Or.inl (Or.inr ⟨rfl, ?_⟩)⟩
    rw [word.ofWord_end, Bool.true_and] at found
    exact congrArg Prod.fst found

/-- Inside of a quotation a dotted number and a word behind it that begins with a slash are read
as one word. -/
theorem reads_glued (off : v.markSpaces = false) (clear : Clear v strict t (u :: rest))
    (clear' : Clear v strict u rest) (ht : t.isLiteral) (hu : u.isLiteral) {r : WordState}
    (tight : u.value.trimEnd = u.value)
    (value : t.value = c :: x) (value' : u.value = '/' :: y) (hc : Text.isSpace c = false)
    (word : Word (some m) after (c :: x) s) (ipv4 : s.kind = .ipv4)
    (word' : Word (some m) false ('/' :: y) r) (closes : Closes m r y rest) :
    Reads v strict (some m) after { t with value := t.value ++ ' ' :: u.value } rest (some m) := by
  obtain ⟨r', glued, literal, literal', -⟩ := word.glue word'
  have text : stretch v { t with value := t.value ++ ' ' :: u.value } rest =
      stretch v t (u :: rest) := by
    rw [stretch_eq, stretch_eq, follow_off off, if_pos hu, stretch_eq]
    cases rest with
    | nil => simp [follow]
    | cons o others => simp [follow_off off]
  have final : (t.value ++ ' ' :: u.value).getLast? = u.value.getLast? := by
    rw [value', List.getLast?_append]
    simp [List.getLast?_cons]
  have behind : follow v { t with value := t.value ++ ' ' :: u.value } rest = follow v u rest := by
    cases rest with
    | nil => rfl
    | cons o others => rw [follow_off off, follow_off off]
  have clear'' : Clear v strict { t with value := t.value ++ ' ' :: u.value } rest := by
    refine ⟨by rw [text]; exact clear.run, by rw [text]; exact clear.time, fun found h => ?_,
      by rw [final, behind]; exact clear'.escape, by simp [off]⟩
    rw [stretch_eq] at h
    obtain ⟨chars, dot⟩ := word.chars_of_ipv4 ipv4
    rw [List.append_assoc, value, address?_of_dot chars dot] at h
    cases h
  refine reads_quoted off clear'' ht ?_ (c := c) (x := x ++ ' ' :: '/' :: y)
    (by simp [value, value']) hc glued ?_
  · refine Text.trimEnd_of_getLast ?_
    rw [final, ← tight]
    exact Text.getLast_trimEnd _
  · refine closes.imp_right ?_
    rintro ⟨empty, finish⟩
    refine ⟨empty, ?_⟩
    rw [Lexeme.finish_of_literal literal] at finish
    rw [Lexeme.finish_of_literal literal']
    have dot : y.getLast? ≠ some '.' := fun dot => by
      obtain ⟨z, rfl⟩ := List.getLast?_eq_some_iff.1 dot
      simp at finish
    have dot' : (x ++ ' ' :: '/' :: y).getLast? ≠ some '.' := by
      rw [List.getLast?_append]
      cases y with
      | nil => simp
      | cons d y => simpa [List.getLast?_cons_cons] using dot
    rw [beq_eq_false_iff_ne.2 dot']
    rfl

end Scan

end LogTemplate
