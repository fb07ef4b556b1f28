import LogTemplate.Proofs.Literal

/-!
# What begins with a URI

A word that might be a URI is checked place by place, and each place accepts some characters. What
the places accept together is more than the URIs.

* `fitsUri` is what a place accepts, `SpellsUri` a text of such characters;
* `WordState.UriEnds` says where a URI ends; `WordState.read_uri` tells that it is read so far, from
  one step of it, `WordState.step_uri`;
* `Lexeme.ofWord_uri_iff` tells which words are URIs;
* `Lexeme.ofWord_scheme_alone` is one without an authority.
-/

namespace LogTemplate

/-- What stands at a place of a URI: the letters of the scheme, small or large, then an `s` or a
colon, then a colon or a slash, and from the seventh place on any character of a URL. -/
def fitsUri : Nat → Char → Bool
  | 0, c => c == 'h' || c == 'H'
  | 1, c | 2, c => c == 't' || c == 'T'
  | 3, c => c == 'p' || c == 'P'
  | 4, c => c == 's' || c == 'S' || c == ':'
  | 5, c => c == ':' || c == '/'
  | _, c => isUrlChar c

/-- The characters of a text from the `i`-th place of a URI on. -/
def SpellsUri (i : Nat) (x : Text) : Prop := ∀ j c, x[j]? = some c → fitsUri (i + j) c

/-- The text begins with the scheme of a URI and two slashes. -/
def HasScheme (x : Text) : Prop :=
  ∃ scheme ∈ ["http://".toList, "https://".toList], scheme <+: x.map Char.toLower

instance (x : Text) : Decidable (HasScheme x) :=
  inferInstanceAs (Decidable (∃ scheme ∈ _, scheme <+: x.map Char.toLower))

variable {i : Nat} {c d : Char} {x t rest : Text}

theorem spellsUri_nil : SpellsUri i [] := by simp [SpellsUri]

theorem spellsUri_cons : SpellsUri i (c :: x) ↔ fitsUri i c ∧ SpellsUri (i + 1) x := by
  constructor
  · intro h
    refine ⟨h 0 c rfl, fun j d hd => ?_⟩
    have := h (j + 1) d hd
    rwa [show i + 1 + j = i + (j + 1) by omega]
  · rintro ⟨hc, hx⟩ j d hd
    cases j with
    | zero =>
      cases hd
      exact hc
    | succ j =>
      have := hx j d hd
      rwa [show i + (j + 1) = i + 1 + j by omega]

/-- From the seventh place on any character of a URL fits. -/
theorem fitsUri_of_le (hi : 6 ≤ i) (c : Char) : fitsUri i c = isUrlChar c := by
  obtain ⟨j, rfl⟩ := Nat.exists_eq_add_of_le' hi
  rfl

namespace WordState

variable {q : Option Quotation} {s r : WordState}

/-- The places behind the first one, as a word passes over them. -/
theorem fitsUri_eq (hi : 1 ≤ i) (c : Char) :
    fitsUri i c = (fitsScheme i c || (decide (6 ≤ i) && isUrlChar c)) := by
  have slash : c == '/' → isUrlChar c := by
    intro h
    obtain rfl : c = '/' := by simpa using h
    decide
  match i, hi with
  | 1, _ | 2, _ | 3, _ | 4, _ | 5, _ => simp [fitsUri, fitsScheme]
  | 6, _ | 7, _ =>
    simp only [fitsUri, fitsScheme]
    cases h : c == '/' <;> simp_all
  | i + 8, _ => simp [fitsUri, fitsScheme]

/-- A URI goes on over what fits its place. Over other characters of words it goes on as a literal,
and what ends it leaves it a URI only behind its scheme. -/
theorem step_uri (k : s.kind = .uri) (hi : 1 ≤ i) : s.step q i c =
    ({ s with
        kind := if fitsUri i c || (6 ≤ i && !(isWordChar c || Quotation.keeps q c)) then .uri
          else .literal
        escaped := c == '\\' },
      fitsUri i c || isWordChar c || Quotation.keeps q c) := by
  rw [fitsUri_eq hi]
  cases fits : fitsScheme i c || decide (6 ≤ i) && isUrlChar c with
  | true => simp [step, k, uriStep, fits]
  | false =>
    cases word : isWordChar c || Quotation.keeps q c with
    | true =>
      have goesOn : (i == 4 && c == '/' || isWordChar c || Quotation.keeps q c) = true := by
        rw [Bool.or_assoc, word, Bool.or_true]
      simp [step, k, uriStep, fits, goesOn, word]
    | false =>
      have other : (c == '/') = false := by
        cases h : c == '/' with
        | false => rfl
        | true =>
          obtain rfl : c = '/' := by simpa using h
          cases word
      rw [Bool.or_eq_false_iff] at word
      rw [Bool.or_eq_false_iff, Bool.and_eq_false_iff, decide_eq_false_iff_not, Nat.not_le] at fits
      by_cases early : i < 6
      · simp [step, k, uriStep, fits, other, word, early, Nat.not_le.2 early]
      · have late := Nat.le_of_not_lt early
        simp [step, k, uriStep, fits.1, fits.2.resolve_left early, other, word, late, early]

/-- From its `i`-th place on a URI takes `n` characters of the text: they fit their places, and the
character behind them, if there is one, ends it behind its scheme. -/
def UriEnds (q : Option Quotation) (i n : Nat) (t : Text) : Prop :=
  n ≤ t.length ∧ SpellsUri i (t.take n) ∧ ∀ d ∈ t[n]?, 6 ≤ i + n ∧ isUrlChar d = false ∧
    isWordChar d = false ∧ Quotation.keeps q d = false

theorem uriEnds_nil {n : Nat} : UriEnds q i n [] ↔ n = 0 := by
  simp [UriEnds, spellsUri_nil]

/-- Over a character that fits its place a URI goes on. -/
theorem uriEnds_of_fits (fits : fitsUri i c = true) (n : Nat) :
    UriEnds q i n (c :: t) ↔ ∃ m, n = m + 1 ∧ UriEnds q (i + 1) m t := by
  cases n with
  | zero =>
    constructor
    · rintro ⟨-, -, ends⟩
      obtain ⟨late, url, -⟩ := ends c rfl
      rw [fitsUri_of_le (i := i) late, url] at fits
      cases fits
    · rintro ⟨m, none, -⟩
      cases none
  | succ n =>
    have place : i + (n + 1) = i + 1 + n := by omega
    simp [UriEnds, spellsUri_cons, fits, place]

/-- Nothing that goes beyond a character that does not fit is a URI. -/
theorem uriEnds_of_not (fits : fitsUri i c = false) (n : Nat) : UriEnds q i n (c :: t) ↔
    n = 0 ∧ 6 ≤ i ∧ isWordChar c = false ∧ Quotation.keeps q c = false := by
  cases n with
  | zero =>
    have url : 6 ≤ i → isUrlChar c = false := fun late => by rw [← fitsUri_of_le late, fits]
    simpa [UriEnds, spellsUri_nil] using fun late _ _ => url late
  | succ n => simp [UriEnds, spellsUri_cons, fits]

/-- How far a URI is read, and that it stays one. -/
theorem read_uri (k : s.kind = .uri) (hi : 1 ≤ i) (n : Nat) :
    ((read q i s t).1 = n ∧ (read q i s t).2.1.kind = .uri) ↔ UriEnds q i n t := by
  induction t generalizing i s n with
  | nil =>
    rw [uriEnds_nil]
    simp only [read, k, and_true, eq_comm]
  | cons c t ih =>
    rw [read, step_uri k hi]
    cases fits : fitsUri i c with
    | true =>
      have next := ih (s := { s with kind := .uri, escaped := c == '\\' }) rfl
        (Nat.le_add_left 1 i)
      rw [uriEnds_of_fits fits]
      simp only [Bool.true_or, if_true, ← next]
      constructor
      · rintro ⟨rfl, uri⟩
        exact ⟨_, rfl, rfl, uri⟩
      · rintro ⟨m, rfl, rfl, uri⟩
        exact ⟨rfl, uri⟩
    | false =>
      rw [uriEnds_of_not fits]
      cases word : isWordChar c || Quotation.keeps q c with
      | true =>
        -- The word goes on, but as a literal.
        have literal := read_literal (q := q) (i := i + 1)
          (s := { s with kind := .literal, escaped := c == '\\' }) rfl t
        have notBoth : ¬(isWordChar c = false ∧ Quotation.keeps q c = false) := by
          rintro ⟨h, h'⟩
          simp [h, h'] at word
        simp only [Bool.false_or, word, Bool.not_true, Bool.and_false, Bool.false_eq_true, if_false,
          literal, reduceCtorEq, and_false, notBoth]
      | false =>
        rw [Bool.or_eq_false_iff] at word
        simp [word, eq_comm]

end WordState

namespace Lexeme

variable {q q' : Option Quotation} {atEnd after : Bool} {n m : Nat}

theorem firstKind?_uri_iff :
    isMark q c = false ∧ firstKind? q after c rest = some .uri ↔
      fitsUri 0 c ∧ ∃ d ∈ rest.head?, fitsUri 1 d := by
  constructor
  · rintro ⟨-, h⟩
    unfold firstKind? at h
    split at h
    · cases h
    · split at h
      · cases h
      · split at h
        · cases h
        · split at h
          · next letters => simpa [fitsUri, Option.any_eq_true] using letters
          · split at h <;> cases h
  · rintro ⟨hc, d, hd, second⟩
    have letter : c = 'h' ∨ c = 'H' := by simpa [fitsUri] using hc
    have behind : (rest.head?.any fun d => d = 't' || d = 'T') = true := by
      rw [Option.mem_def.1 hd]
      simpa [fitsUri] using second
    rcases letter with rfl | rfl <;> exact ⟨rfl, by simp [firstKind?, behind]⟩

/-- A word is a URI when it was one to its end. -/
theorem finish_uri {s : WordState} {finalDot : Bool} :
    finish s m finalDot = ⟨n, .uri⟩ ↔ m = n ∧ s.kind = .uri := by
  cases k : s.kind with
  | float => by_cases h : finalDot <;> simp [finish, k, h]
  | ipv4 => by_cases h : s.dots = 3 <;> simp [finish, k, h]
  | _ => simp [finish, k]

/-- A word that is a URI at its end has been one from its beginning. -/
theorem uri_of_read {s : WordState} {i : Nat} (usual : s.Usual)
    (uri : (WordState.read q i s rest).2.1.kind = .uri) : s.kind = .uri := by
  rcases read : WordState.read q i s rest with ⟨m, r, stopped⟩
  rw [read] at uri
  obtain ⟨state, along, toEnd, stops⟩ := WordState.along?_of_read read
  have kind : state.kind = .uri := by
    cases stopped with
    | false => rw [← (toEnd rfl).2, uri]
    | true =>
      obtain ⟨d, w, -, stop⟩ := stops rfl
      have same := (WordState.stop_kind (WordState.usual_of_along? usual along) stop).1
      rw [uri, WordState.stopKind] at same
      split at same
      · cases same
      · exact same.symm
  exact (WordState.scheme_of_along? usual along kind).1

/-- What begins as a URI is a word, and nothing else becomes one. -/
theorem start_of_uri (h : ofWord q atEnd after c rest = (⟨n, .uri⟩, q')) :
    isMark q c = false ∧ firstKind? q after c rest = some .uri := by
  have mark : isMark q c = false := by
    by_contra mark
    rw [ofWord_mark (by simpa using mark)] at h
    cases h
  rw [ofWord_of_firstKind? mark] at h
  cases first : firstKind? q after c rest with
  | none => rw [first] at h; cases h
  | some kind =>
    rw [first] at h
    have uri := (finish_uri.1 (Prod.mk.inj h).1).2
    exact ⟨mark, congrArg some (uri_of_read (firstKind?_usual first) uri)⟩

/-- A text begins with a URI when its characters spell one place by place, and this is either all of
the text, or it is six places long at least and the character behind continues neither the URI nor a
word. -/
theorem ofWord_uri_iff (q q' : Option Quotation) (atEnd after : Bool) (c : Char) (rest : Text)
    (n : Nat) : ofWord q atEnd after c rest = (⟨n, .uri⟩, q') ↔
      q' = q ∧ 1 ≤ n ∧ n ≤ rest.length ∧ SpellsUri 0 (c :: rest.take n) ∧
        ∀ d ∈ rest[n]?, 5 ≤ n ∧ isUrlChar d = false ∧ isWordChar d = false ∧
          Quotation.keeps q d = false := by
  constructor
  · intro h
    obtain ⟨mark, first⟩ := start_of_uri h
    rw [ofWord_of_firstKind? mark, first] at h
    obtain ⟨finish, rfl⟩ := Prod.mk.inj h
    obtain ⟨len, spells, ends⟩ := (WordState.read_uri rfl (Nat.le_refl 1) n).1 (finish_uri.1 finish)
    obtain ⟨letter, d, hd, -⟩ := firstKind?_uri_iff.1 ⟨mark, first⟩
    have far : ∀ d ∈ rest[n]?, 5 ≤ n := fun d hd => by
      have := (ends d hd).1
      omega
    have pos : 1 ≤ n := by
      by_contra none
      obtain rfl : n = 0 := by omega
      have := far d (by rw [← List.head?_eq_getElem?]; exact hd)
      omega
    exact ⟨rfl, pos, len, spellsUri_cons.2 ⟨letter, spells⟩, fun d hd => ⟨far d hd, (ends d hd).2⟩⟩
  · rintro ⟨rfl, pos, len, spells, ends⟩
    obtain ⟨letter, spells⟩ := spellsUri_cons.1 spells
    have second : ∃ d ∈ rest.head?, fitsUri 1 d := by
      cases rest with
      | nil => exact absurd (pos.trans len) (by simp)
      | cons d rest => exact ⟨d, rfl, spells 0 d (List.getElem?_take_of_lt pos)⟩
    obtain ⟨mark, first⟩ : isMark q' c = false ∧ firstKind? q' after c rest = some .uri :=
      firstKind?_uri_iff.2 ⟨letter, second⟩
    rw [ofWord_of_firstKind? mark, first]
    refine Prod.ext (finish_uri.2 ((WordState.read_uri rfl (Nat.le_refl 1) n).2
      ⟨len, spells, fun d hd => ?_⟩)) rfl
    obtain ⟨far, ends⟩ := ends d hd
    exact ⟨by omega, ends⟩

/-- The end of the text leaves the beginning of a scheme a URI. -/
theorem ofWord_scheme_alone : ofWord none true false 'h' "ttps".toList = (⟨4, .uri⟩, none) ∧
    ¬HasScheme "https".toList := by
  decide +kernel

end Lexeme

end LogTemplate
