import LogTemplate.Proofs.Colons
import LogTemplate.Proofs.Literal
import LogTemplate.Proofs.Longest
import LogTemplate.Proofs.Vocabulary

/-!
# The shape of values

* `WordState.Numbers` is what a number so far tells of the characters that were read: it is kept by
  each step, `WordState.Numbers.step`, and so by a whole word, `Word.numbers`;
* `Kind.Describes` says what a kind tells of a value; `Lexeme.describes_ofWord` and
  `describes_address` prove it of words and addresses, `Kind.Describes.kept` of what is left of them
  when white space is taken off, for `Kind.Describes.isSpace` says that numbers and addresses have
  none;
* `Vocabulary.forall₂_timeGroups` tells which groups keys become, `Settings.Verifies` are those with
  a regular expression, and `Vocabulary.verifies_of_match?` says that verified timestamps are of
  such a group;
* `Scan.isSound_message` puts these together for all tokens of a message.
-/

namespace LogTemplate

variable {v : Vocabulary} {x t rest : Text} {c : Char}

/-! ### Numbers -/

/-- What a number so far tells of the characters that were read: it begins with a digit, all else is
digits and dots, and its kind is that of the number of its dots. -/
structure WordState.Numbers (x : Text) (s : WordState) : Prop where
  head : ∃ c ∈ x.head?, c.isDigit
  chars : ∀ c ∈ x, c.isDigit ∨ c = '.'
  dots : s.dots = x.count '.'
  kind : s.kind = if s.dots = 0 then .integer else if s.dots = 1 then .float else .ipv4

namespace WordState

variable {q : Option Quotation} {i : Nat} {s r : WordState}

theorem usual_of_numeric (h : Numeric s.kind) : s.Usual := by
  simp only [Numeric, List.mem_cons, List.not_mem_nil, or_false] at h
  rcases h with k | k | k <;> simp [Usual, k]

theorem step_of_numeric (h : Numeric s.kind) : s.step q i c =
    ({ (s.numberStep q c).1 with escaped := c == '\\' }, (s.numberStep q c).2) := by
  simp only [Numeric, List.mem_cons, List.not_mem_nil, or_false] at h
  rcases h with k | k | k <;> simp [step, k]

theorem numberStep_of_isDigit (h : c.isDigit) : s.numberStep q c = (s, true) := by
  simp [numberStep, h]

theorem numberStep_dot : s.numberStep q '.' =
    ({ s with dots := s.dots + 1, kind := if s.kind = .integer then .float else .ipv4 }, true) := by
  have digit : Char.isDigit '.' = false := by decide
  simp [numberStep, digit]

theorem Numbers.numeric (h : Numbers x s) : Numeric s.kind := by
  rw [h.kind]
  split
  · simp [Numeric]
  · split <;> simp [Numeric]

/-- A number goes on over digits and dots. -/
theorem Numbers.step (h : Numbers x s) (step : s.step q i c = (r, true))
    (numeric : Numeric r.kind) : Numbers (x ++ [c]) r := by
  obtain ⟨-, hc⟩ := numeric_step (usual_of_numeric h.numeric) step numeric
  rw [step_of_numeric h.numeric] at step
  obtain ⟨d, hd, digit⟩ := h.head
  have chars : ∀ e ∈ x ++ [c], e.isDigit ∨ e = '.' := by
    intro e he
    rcases List.mem_append.1 he with he | he
    · exact h.chars e he
    · rw [List.mem_singleton.1 he]
      exact hc.symm.imp_left And.left
  have head : ∃ e ∈ (x ++ [c]).head?, e.isDigit :=
    ⟨d, by rw [List.head?_append, Option.mem_def.1 hd]; rfl, digit⟩
  rcases hc with rfl | ⟨isDigit, -⟩
  · rw [numberStep_dot] at step
    cases step
    refine ⟨head, chars, by simp [h.dots], ?_⟩
    simp only [h.kind]
    by_cases none : s.dots = 0
    · simp [none]
    · by_cases one : s.dots = 1 <;> simp [none, one]
  · have other : c ≠ '.' := by
      rintro rfl
      cases isDigit
    rw [numberStep_of_isDigit isDigit] at step
    cases step
    exact ⟨head, chars, by simp [h.dots, other], h.kind⟩

/-- A word that is a number at its end is one from its beginning. -/
theorem Numbers.along (h : Numbers x s) (along : along? q i s t = some r)
    (numeric : Numeric r.kind) : Numbers (x ++ t) r := by
  induction t generalizing x i s with
  | nil =>
    obtain rfl : s = r := by simpa [along?] using along
    simpa using h
  | cons c t ih =>
    obtain ⟨next, step, along⟩ := along?_cons_eq_some.1 along
    have usual : next.Usual := by
      have := usual_step (q := q) (i := i) (c := c) (usual_of_numeric h.numeric)
      rwa [step] at this
    have := ih (h.step step (numeric_of_along? usual along numeric).1) along
    simpa using this

end WordState

/-- A word that is a number consists of digits and dots. -/
theorem Word.numbers {q : Option Quotation} {after : Bool} {s : WordState} (h : Word q after x s)
    (numeric : WordState.Numeric s.kind) : WordState.Numbers x s := by
  obtain ⟨c, t, kind, rfl, -, first, along⟩ := h
  obtain ⟨start, -⟩ := WordState.numeric_of_along? (Lexeme.firstKind?_usual first) along numeric
  obtain ⟨rfl, digit⟩ := Lexeme.isDigit_of_firstKind? first start
  have other : c ≠ '.' := by
    rintro rfl
    cases digit
  have first : WordState.Numbers [c] { kind := .integer, escaped := c == '\\' } :=
    { head := ⟨c, rfl, digit⟩
      chars := by simpa using .inl digit
      dots := by simp [other]
      kind := rfl }
  exact first.along along numeric

/-! ### What kinds say -/

/-- What a kind says of a value. Values are no strings and not unknown, and text over several lines
is no single value. -/
def Kind.Describes : Kind → Text → Prop
  | .integer, x => x ≠ [] ∧ ∀ c ∈ x, c.isDigit
  | .float, x => ∃ whole part, x = whole ++ '.' :: part ∧ whole ≠ [] ∧ (∀ c ∈ whole, c.isDigit) ∧
      ∀ c ∈ part, c.isDigit
  | .ipv4, x => (∃ c ∈ x.head?, c.isDigit) ∧ (∀ c ∈ x, c.isDigit ∨ c = '.') ∧ x.count '.' = 3
  | .mac, x => (∀ c ∈ x, isRunChar c) ∧ x.count ':' = 5 ∧ doubleColons x = 0
  | .ipv6, x => (∀ c ∈ x, isRunChar c) ∧
      ((doubleColons x = 1 ∧ x.count ':' ≤ 7) ∨ (x.count ':' = 7 ∧ doubleColons x = 0))
  | .string, _ | .unknown, _ | .multiline, _ => False
  | .literal, _ | .uri, _ | .time, _ => True

theorem isDigit_of_count (chars : ∀ c ∈ x, c.isDigit ∨ c = '.') (none : x.count '.' = 0) :
    ∀ c ∈ x, c.isDigit := by
  intro c hc
  refine (chars c hc).resolve_right ?_
  rintro rfl
  exact List.count_eq_zero.1 none hc

namespace WordState.Numbers

variable {s : WordState}

theorem ne_nil (h : Numbers x s) : x ≠ [] := by
  rintro rfl
  simpa using h.head

/-- A number is described by its kind, unless it is an address that has not got three dots. -/
theorem describes (h : Numbers x s) (address : s.kind = .ipv4 → s.dots = 3) :
    s.kind.Describes x := by
  have kind := h.kind
  split at kind
  · next none =>
    rw [kind]
    exact ⟨h.ne_nil, isDigit_of_count h.chars (h.dots ▸ none)⟩
  · split at kind
    · next one =>
      rw [kind]
      have dot : '.' ∈ x := List.count_pos_iff.1 (by rw [← h.dots, one]; decide)
      obtain ⟨whole, part, rfl⟩ := List.append_of_mem dot
      have counts := h.dots
      rw [one, List.count_append, List.count_cons_self] at counts
      have chars := h.chars
      simp only [List.mem_append, List.mem_cons] at chars
      refine ⟨whole, part, rfl, ?_, isDigit_of_count (fun c hc => chars c (.inl hc)) (by omega),
        isDigit_of_count (fun c hc => chars c (.inr (.inr hc))) (by omega)⟩
      rintro rfl
      obtain ⟨c, hc, digit⟩ := h.head
      cases hc
      cases digit
    · rw [kind]
      exact ⟨h.head, h.chars, by rw [← h.dots, address kind]⟩

/-- A float that gives up the dot at its end becomes an integer. -/
theorem describes_integer (h : Numbers (x ++ ['.']) s) (kind : s.kind = .float) :
    Kind.Describes .integer x := by
  have one : s.dots = 1 := by
    have := h.kind
    rw [kind] at this
    grind
  have counts := h.dots
  rw [one, List.count_append, List.count_singleton_self] at counts
  refine ⟨?_, isDigit_of_count (fun c hc => h.chars c (List.mem_append_left _ hc)) (by omega)⟩
  rintro rfl
  obtain ⟨c, hc, digit⟩ := h.head
  cases hc
  cases digit

end WordState.Numbers

/-! ### Words -/

namespace Lexeme

variable {q : Option Quotation} {after atEnd : Bool} {s : WordState} {n : Nat}

/-- The number that is read at the beginning of a word, with its state. -/
theorem numbers_of_read {kind : Kind} {stopped : Bool} (mark : isMark q c = false)
    (first : firstKind? q after c rest = some kind)
    (read : WordState.read q 1 { kind, escaped := c == '\\' } rest = (n, s, stopped))
    (numeric : WordState.Numeric s.kind) : WordState.Numbers (c :: rest.take n) s := by
  obtain ⟨state, word, toEnd, stops⟩ := Word.of_read mark first read
  cases stopped with
  | false =>
    obtain ⟨-, rfl⟩ := toEnd rfl
    exact word.numbers numeric
  | true =>
    obtain ⟨d, behind, -, step⟩ := stops rfl
    obtain ⟨kind, dots⟩ := WordState.stop_kind word.usual step
    -- What is a number behind its end has not given up a scheme there.
    have same : s.kind = state.kind := by
      unfold WordState.stopKind at kind
      split at kind
      · simp [kind, WordState.Numeric] at numeric
      · exact kind
    have h := word.numbers (same ▸ numeric)
    exact ⟨h.head, h.chars, dots.trans h.dots, by rw [same, dots]; exact h.kind⟩

theorem describes_finish (usual : s.Usual)
    (h : WordState.Numeric s.kind → WordState.Numbers (c :: rest.take n) s) {finalDot : Bool}
    (dot : finalDot → n = rest.length ∧ rest.getLast? = some '.') :
    (finish s n finalDot).kind.Describes (c :: rest.take (finish s n finalDot).more) := by
  simp only [WordState.Usual, List.mem_cons, List.not_mem_nil, or_false] at usual
  rcases usual with k | k | k | k | k
  · simp [finish, k, Kind.Describes]
  · simp [finish, k, Kind.Describes]
  · simpa [finish, k] using (h (by simp [WordState.Numeric, k])).describes (by simp [k])
  · have h := h (by simp [WordState.Numeric, k])
    cases finalDot with
    | false => simpa [finish, k] using h.describes (by simp [k])
    | true =>
      obtain ⟨rfl, last⟩ := dot rfl
      obtain ⟨front, rfl⟩ := List.getLast?_eq_some_iff.1 last
      rw [List.take_length] at h
      simpa [finish, k] using WordState.Numbers.describes_integer (x := c :: front) h k
  · by_cases three : s.dots = 3
    · simpa [finish, k, three] using (h (by simp [WordState.Numeric, k])).describes fun _ => three
    · simp [finish, k, three, Kind.Describes]

/-- The kind of a word describes it. -/
theorem describes_ofWord {lexeme : Lexeme} {q' : Option Quotation}
    (h : ofWord q atEnd after c rest = (lexeme, q')) :
    lexeme.kind.Describes (c :: rest.take lexeme.more) := by
  by_cases mark : isMark q c
  · rw [ofWord_mark mark] at h
    cases h
    trivial
  rw [Bool.not_eq_true] at mark
  rw [ofWord_of_firstKind? mark] at h
  cases first : firstKind? q after c rest with
  | none =>
    rw [first] at h
    cases h
    trivial
  | some kind =>
    have usual := Scan.usual_read (q := q) (i := 1) (s := { kind, escaped := c == '\\' })
      (firstKind?_usual first) rest
    rcases read : WordState.read q 1 { kind, escaped := c == '\\' } rest with ⟨n, s, stopped⟩
    rw [first] at h
    simp only [read] at h usual
    cases h
    refine describes_finish usual (numbers_of_read mark first read) fun dot => ?_
    simp only [Bool.and_eq_true, Bool.not_eq_true', beq_iff_eq] at dot
    obtain ⟨⟨rfl, -⟩, last⟩ := dot
    obtain ⟨_, -, toEnd, -⟩ := WordState.along?_of_read read
    exact ⟨(toEnd rfl).1, last⟩

end Lexeme

/-! ### Addresses -/

/-- The kind of an address describes it. -/
theorem describes_address {n : Nat} {k : Kind} (h : address? t = some (n, k)) :
    k.Describes (t.take n) := by
  obtain ⟨x, w, r, rfl, rfl, -, along, kind⟩ := address?_eq_some_iff.1 h
  obtain ⟨run, -, -⟩ := ColonRun.exists_along?_iff.1 ⟨r, along⟩
  rw [(ColonRun.counts_of_along? along).kind?_eq] at kind
  obtain ⟨-, kind⟩ := Option.ite_none_right_eq_some.1 kind
  obtain rfl := Option.some.inj kind
  rw [List.take_left]
  unfold addressKind
  split
  · next mac => exact ⟨run, mac⟩
  · split
    · next ipv6 => exact ⟨run, ipv6⟩
    · trivial

/-! ### White space -/

theorem isSpace_of_isRunChar (h : isRunChar c) : Text.isSpace c = false := by
  by_contra space
  obtain ⟨-, -, -, hex, chars⟩ := WordState.isSpace_classes (by simpa using space)
  simp only [isRunChar, hex, Bool.false_or, beq_iff_eq] at h
  simp [h] at chars

theorem isSpace_of_number (h : c.isDigit ∨ c = '.') : Text.isSpace c = false := by
  by_contra space
  obtain ⟨-, -, digit, -, chars⟩ := WordState.isSpace_classes (by simpa using space)
  rcases h with h | rfl
  · rw [digit] at h
    cases h
  · simp at chars

/-- Numbers and addresses have no white space. -/
theorem Kind.Describes.isSpace {k : Kind} (h : k.Describes x)
    (other : k ≠ .literal ∧ k ≠ .uri ∧ k ≠ .time) : ∀ c ∈ x, Text.isSpace c = false := by
  intro c hc
  cases k with
  | integer => exact isSpace_of_number (.inl (h.2 c hc))
  | float =>
    obtain ⟨whole, part, rfl, -, digits, digits'⟩ := h
    refine isSpace_of_number ?_
    rcases List.mem_append.1 hc with hc | hc
    · exact .inl (digits c hc)
    · exact (List.mem_cons.1 hc).symm.imp_left (digits' c)
  | ipv4 => exact isSpace_of_number (h.2.1 c hc)
  | mac => exact isSpace_of_isRunChar (h.1 c hc)
  | ipv6 => exact isSpace_of_isRunChar (h.1 c hc)
  | string | unknown | multiline => exact h.elim
  | literal => exact absurd rfl other.1
  | uri => exact absurd rfl other.2.1
  | time => exact absurd rfl other.2.2

/-- A value that ends in white space is a word. -/
theorem Kind.Describes.kept {k : Kind} (h : k.Describes x) : k.Describes (Scan.kept v x) := by
  by_cases other : k ≠ .literal ∧ k ≠ .uri ∧ k ≠ .time
  · have same : Scan.kept v x = x := by
      unfold Scan.kept
      split
      · rfl
      · exact Text.trimEnd_of_getLast fun c hc => h.isSpace other c (List.mem_of_getLast? hc)
    rwa [same]
  · -- These kinds tell nothing of their values.
    have word : k = .literal ∨ k = .uri ∨ k = .time := by tauto
    rcases word with rfl | rfl | rfl <;> trivial

/-! ### Timestamps -/

/-- A group of this number has layouts and a regular expression that verifies its timestamps. -/
def Settings.Verifies (s : Settings) (n : Nat) : Prop :=
  ∃ key layouts regex, (key, layouts) ∈ s.formats ∧
    Text.toNatBelow? Settings.groupLimit key = some n ∧ s.regexes.get? key = some regex

theorem TimeMatcher.exists_group {groups : List TimeGroup} {n : Nat}
    (h : ((ofGroups groups).check? n).isSome) : ∃ g ∈ groups, g.id = n ∧ g.check.isSome := by
  obtain ⟨check, h⟩ := Option.isSome_iff_exists.1 h
  rw [check?_ofGroups_eq] at h
  obtain ⟨g, hg, found⟩ := List.exists_of_findSome?_eq_some h
  obtain ⟨same, found⟩ := Option.ite_none_right_eq_some.1 found
  exact ⟨g, List.mem_reverse.1 hg, same.symm, by rw [found]; rfl⟩

theorem TimeMatcher.isSome_check?_of_verified {m : TimeMatcher} {found : TimeMatch}
    (h : m.match? t = some found) (verified : found.verified) : (m.check? found.group).isSome := by
  obtain ⟨a, -, rfl⟩ := Option.map_eq_some_iff.1 h
  exact verified

/-- The group that a key of the layouts becomes. -/
structure TimeGroup.IsOf (compile : Vocabulary.Compiler) (regexes : Table Text)
    (entry : Text × List Text) (g : TimeGroup) : Prop where
  number : Text.toNatBelow? Settings.groupLimit entry.1 = some g.id
  layouts : g.layouts = entry.2
  valid : ∀ pattern ∈ regexes.get? entry.1, (compile (Vocabulary.anchored pattern)).isSome
  check : g.check =
    (regexes.get? entry.1).bind fun pattern => compile (Vocabulary.anchored pattern)

/-- Keys become groups one by one. -/
theorem Vocabulary.forall₂_timeGroups {compile : Compiler} {regexes : Table Text}
    {formats : Table (List Text)} {groups : List TimeGroup}
    (h : timeGroups compile regexes formats = .ok groups) :
    List.Forall₂ (TimeGroup.IsOf compile regexes) formats groups := by
  induction formats generalizing groups with
  | nil =>
    cases h
    exact .nil
  | cons entry formats ih =>
    obtain ⟨key, layouts⟩ := entry
    unfold timeGroups at h
    split at h
    · cases h
    · next id number =>
      dsimp only at h
      split at h
      · cases h
      · next check regex =>
        split at h
        · cases h
        · next others rest =>
          cases h
          refine .cons ?_ (ih rest)
          split at regex
          · next none =>
            cases regex
            exact ⟨number, rfl, by simp [none], by simp [none]⟩
          · next pattern some =>
            split at regex
            · cases regex
            · next compiled =>
              cases regex
              exact ⟨number, rfl, by simp [some, compiled], by simp [some, compiled]⟩

/-- Lists that are related one by one have partners for each other's members. -/
theorem exists_of_forall₂ {α β : Type} {R : α → β → Prop} {l : List α} {l' : List β}
    (h : List.Forall₂ R l l') : (∀ a ∈ l, ∃ b ∈ l', R a b) ∧ ∀ b ∈ l', ∃ a ∈ l, R a b := by
  induction h with
  | nil => simp
  | cons related _ ih =>
    simp only [List.forall_mem_cons, List.exists_mem_cons_iff]
    exact ⟨⟨.inl related, fun a ha => .inr (ih.1 a ha)⟩, .inl related, fun b hb => .inr (ih.2 b hb)⟩

/-- The vocabulary of settings verifies timestamps by their regular expressions. -/
theorem Vocabulary.verifies_of_match? {compile : Compiler} {s : Settings} {m : TimeMatch}
    (h : build compile s = .ok v) (found : v.time.match? t = some m) (verified : m.verified) :
    s.Verifies m.group := by
  obtain ⟨_, _, _, _, _, groups, -, -, -, timed, rfl⟩ := build_eq_ok h
  obtain ⟨g, hg, id, check⟩ :=
    TimeMatcher.exists_group (TimeMatcher.isSome_check?_of_verified found verified)
  obtain ⟨⟨key, layouts⟩, mem, of⟩ := (exists_of_forall₂ (forall₂_timeGroups timed)).2 g hg
  obtain ⟨demand, some⟩ := Option.isSome_iff_exists.1 check
  obtain ⟨pattern, regex, -⟩ := Option.bind_eq_some_iff.1 (of.check.symm.trans some)
  exact ⟨key, layouts, pattern, mem, id ▸ of.number, regex⟩

/-! ### Tokens -/

/-- The token stands for a single value, and has a tag only as a verified timestamp with its
group. -/
structure Token.IsPlain (v : Vocabulary) (t : Token) : Prop where
  modifier : t.modifier = .single
  stop : t.stop = none
  meaning : (t.tag = .unknown ∧ t.group = none) ∨
    (t.kind = .time ∧ t.tag = v.regextime ∧ ∃ n, t.group = some (Text.ofNat n))

/-- A token as a message in the vocabulary of the settings has it: its kind describes its value, it
stands for a single value, and its tag, if there is one, is that of verified timestamps. -/
structure Token.IsSound (s : Settings) (v : Vocabulary) (t : Token) : Prop where
  value : t.kind ≠ .multiline → t.kind.Describes t.value
  modifier : t.modifier = .single
  stop : t.stop = none
  meaning : (t.tag = .unknown ∧ t.group = none) ∨
    (t.kind = .time ∧ v.tag? Vocabulary.regextimeName = some t.tag ∧
      ∃ n, t.group = some (Text.ofNat n) ∧ s.Verifies n)

namespace Scan

variable {compile : Vocabulary.Compiler} {s : Settings} {cursor : Cursor}

/-- What stands at the beginning of a text is of a kind that describes it. -/
theorem describes_next (q : Option Quotation) (last : Kind) (atEnd : Bool) (c : Char)
    (rest : Text) :
    let f := next v q last atEnd c rest
    f.token.kind.Describes (c :: rest.take f.more) := by
  unfold next
  cases v.time.match? (c :: rest) with
  | some m =>
    by_cases verified : m.verified <;> simp [verified, Kind.Describes]
  | none =>
    cases found : address? (c :: rest) with
    | some a =>
      obtain ⟨n, kind⟩ := a
      obtain ⟨n, rfl⟩ := Nat.exists_eq_add_of_le' (Nat.le_of_lt (two_le_of_address? found))
      simpa using describes_address found
    | none => exact Lexeme.describes_ofWord rfl

/-- What stands at the beginning of a text has a tag only as a verified timestamp. -/
theorem isPlain_next (q : Option Quotation) (last : Kind) (atEnd : Bool) (c : Char)
    (rest value : Text) (space : Bool) : Token.IsPlain v
      { (next v q last atEnd c rest).token with value, spaceBefore := space } := by
  unfold next
  cases v.time.match? (c :: rest) with
  | some m =>
    by_cases verified : m.verified
    · simp only [verified, if_true]
      exact ⟨rfl, rfl, .inr ⟨rfl, rfl, m.group, rfl⟩⟩
    · simp only [verified, Bool.false_eq_true, if_false]
      exact ⟨rfl, rfl, .inl ⟨rfl, rfl⟩⟩
  | none =>
    cases address? (c :: rest) with
    | some a => exact ⟨rfl, rfl, .inl ⟨rfl, rfl⟩⟩
    | none => exact ⟨rfl, rfl, .inl ⟨rfl, rfl⟩⟩

/-- The group of what stands at the beginning of a text has a regular expression. -/
theorem verifies_next (h : Vocabulary.build compile s = .ok v) {q : Option Quotation} {last : Kind}
    {atEnd : Bool} {c : Char} {rest : Text} {n : Nat}
    (group : (next v q last atEnd c rest).token.group = some (Text.ofNat n)) : s.Verifies n := by
  unfold next at group
  cases time : v.time.match? (c :: rest) with
  | some m =>
    by_cases verified : m.verified
    · simp only [time, verified, if_true, Option.some.injEq, Text.ofNat_inj] at group
      exact group ▸ Vocabulary.verifies_of_match? h time verified
    · simp [time, verified] at group
  | none => cases found : address? (c :: rest) <;> simp [time, found] at group

theorem isSound_next (h : Vocabulary.build compile s = .ok v) (q : Option Quotation) (last : Kind)
    (atEnd : Bool) (c : Char) (rest : Text) (space : Bool) :
    let f := next v q last atEnd c rest
    Token.IsSound s v
      { f.token with value := kept v (c :: rest.take f.more), spaceBefore := space } := by
  intro f
  have plain := isPlain_next (v := v) q last atEnd c rest (kept v (c :: rest.take f.more)) space
  refine ⟨fun _ => (describes_next q last atEnd c rest).kept, plain.modifier, plain.stop,
    plain.meaning.imp_right ?_⟩
  rintro ⟨kind, tag, n, group⟩
  exact ⟨kind, tag ▸ (Vocabulary.regular_build h).name, n, group, verifies_next h group⟩

theorem kind_next (q : Option Quotation) (last : Kind) (atEnd : Bool) (c : Char) (rest : Text) :
    (next v q last atEnd c rest).token.kind ≠ .multiline := by
  intro k
  have described := describes_next (v := v) q last atEnd c rest
  simp only [k] at described
  exact described

theorem isSound_of_mem_tokens (h : Vocabulary.build compile s = .ok v) {t : Token}
    (mem : t ∈ tokens v .message cursor x) : t.IsSound s v := by
  rcases mem_tokens mem with ⟨gap, rfl⟩ | ⟨w, rfl⟩ | ⟨cursor, place, c, w, space, rfl⟩
  · exact ⟨fun _ => trivial, rfl, rfl, .inl ⟨rfl, rfl⟩⟩
  · exact ⟨fun other => absurd rfl other, rfl, rfl, .inl ⟨rfl, rfl⟩⟩
  · rw [found_message]
    exact isSound_next h _ _ _ _ _ _

/-- Only the last token of a message is text over several lines. -/
theorem ne_multiline_of_mem_dropLast {t : Token} (h : t ∈ (tokens v .message cursor x).dropLast) :
    t.kind ≠ .multiline := by
  have ofSpaces {gap : Text} (h : t ∈ spaces v gap) : t.kind ≠ .multiline := by
    rw [eq_literal_of_mem_spaces h]
    show Kind.literal ≠ .multiline
    decide
  induction cursor, x using induct v .message with
  | blank cursor gap blank =>
    rw [tokens_of_blank blank] at h
    split at h
    · cases h
    · exact ofSpaces ((List.dropLast_subset _) h)
  | cut cursor gap c rest blank hc cut =>
    rw [tokens_of_cut blank hc cut, multiline, List.dropLast_concat] at h
    split at h
    · rw [List.mem_singleton.1 h]
      show Kind.literal ≠ .multiline
      decide
    · cases h
  | cons cursor gap c rest f blank hc uncut found ih =>
    rw [tokens_of_cons blank hc uncut found, List.dropLast_append_cons] at h
    rcases List.mem_append.1 h with h | h
    · exact ofSpaces h
    · cases behind : tokens v .message (cursor.behind gap f c rest) (rest.drop f.more) with
      | nil =>
        rw [behind] at h
        cases h
      | cons u others =>
        rw [behind, List.dropLast_cons_cons] at h
        rcases List.mem_cons.1 h with rfl | h
        · rw [← found, found_message]
          exact kind_next _ _ _ _ _
        · exact ih (behind ▸ h)

/-- All tokens of a message have the shape that their kinds tell, and a tag only with a verified
timestamp. Text over several lines is the last of them. -/
theorem isSound_message (h : Vocabulary.build compile s = .ok v) (text : Text) :
    (∀ t ∈ message v text, t.IsSound s v) ∧
      ∀ t ∈ (message v text).dropLast, t.kind ≠ .multiline :=
  ⟨fun _ => isSound_of_mem_tokens h, fun _ => ne_multiline_of_mem_dropLast⟩

/-- A verified timestamp, an address, a number and the lines behind them. -/
theorem isSound_message_up : ∃ s v, Vocabulary.ofSettings s = .ok v ∧
    let line := message v "12:34 10.0.0.1 7.5\nmore".toList
    line.map (fun t => (t.kind, t.group)) = [(.time, some "7".toList), (.ipv4, none),
      (.float, none), (.multiline, none)] ∧ ∀ t ∈ line, t.IsSound s v := by
  let s : Settings := {
    formats := [("07".toList, ["01:02".toList])]
    regexes := [("07".toList, "[01].*".toList)] }
  have scanned : ((Vocabulary.ofSettings s).toOption.map fun v =>
      (message v "12:34 10.0.0.1 7.5\nmore".toList).map fun t => (t.kind, t.group)) =
        some [(.time, some "7".toList), (.ipv4, none), (.float, none), (.multiline, none)] := by
    decide +kernel
  cases h : Vocabulary.ofSettings s with
  | error e => simp [h, Except.toOption] at scanned
  | ok v =>
    rw [h] at scanned
    exact ⟨s, v, h, Option.some.inj scanned, (isSound_message h _).1⟩

end Scan

end LogTemplate
