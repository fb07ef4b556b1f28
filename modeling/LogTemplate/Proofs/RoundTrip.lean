import LogTemplate.Proofs.Literal
import Mathlib.Data.List.Infix

/-!
# Scanning what was printed

The pattern text of a message can be scanned again, and gives the same pattern text unless printing
changed what stands around a literal.

* `Scan.reads_literal` reads a literal of a message before all that is like what stands behind it
  there, `Scan.Agrees`;
* `Scan.Faithful` says which messages printing leaves alone, and `Scan.legible_message` finds each
  token of such a message in the text of its line;
* `Scan.pattern_of_legible` scans the text of a legible line, `Scan.pattern_print` the pattern text
  of any message.
-/

namespace LogTemplate

/-- A tag that bears the name of a kind is of kind IPv4 only if its name says so. -/
def Vocabulary.TellsIpv4 (v : Vocabulary) : Prop :=
  ∀ k ∈ Kind.all, k.isPlaceholder → ∀ tag ∈ v.tag? k.name, (v.kindOf tag = .ipv4 ↔ k = .ipv4)

instance (v : Vocabulary) : Decidable v.TellsIpv4 := by
  unfold Vocabulary.TellsIpv4
  infer_instance

/-- A run consists of hexadecimal digits and colons. -/
theorem ColonRun.chars_of_along? {r s : ColonRun} {x : Text} (h : r.along? x = some s) :
    ∀ c ∈ x, Text.isSpace c = false := by
  have outside : ∀ c, isHexDigit c ∨ c = ':' → Text.isSpace c = false := by
    intro c hc
    cases space : Text.isSpace c with
    | false => rfl
    | true =>
      obtain ⟨-, -, -, hex, letters⟩ := WordState.isSpace_classes space
      rcases hc with hc | rfl
      · rw [hex] at hc
        cases hc
      · simp at letters
  induction x generalizing r with
  | nil => simp
  | cons c x ih =>
    rw [along?] at h
    refine List.forall_mem_cons.2 ?_
    split at h
    · next hex =>
      obtain ⟨next, -, h⟩ := Option.bind_eq_some_iff.1 h
      exact ⟨outside c (Or.inl hex), ih h⟩
    · split at h
      · next colon =>
        obtain ⟨next, -, h⟩ := Option.bind_eq_some_iff.1 h
        exact ⟨outside c (Or.inr colon), ih h⟩
      · cases h

namespace Scan

open Line

variable {v : Vocabulary} {strict loose after : Bool} {q q' : Option Quotation} {t u : Token}
  {line rest : Line} {c : Char} {g w : Text} {cursor : Cursor}

/-! ### Literals of a message -/

theorem endsRun_blank (y : Text) : EndsRun (' ' :: y) := by
  rintro _ ⟨⟩
  decide

theorem endsRun_follow (ends : EndsRun w) (cursor : Cursor) (t : Token)
    (agrees : Agrees v cursor.quotation rest (tokens v .message cursor w))
    (near : v.markSpaces → ∀ u ∈ rest.head?, u.spaceBefore = false) :
    EndsRun (follow v t rest) := by
  cases on : v.markSpaces with
  | false =>
    cases rest with
    | nil => simp [follow, EndsRun]
    | cons u rest =>
      rw [follow_off on]
      exact endsRun_blank _
  | true =>
    obtain ⟨-, rfl⟩ | ⟨behind, -⟩ | ⟨d, w', d', y, rfl, behind, rfl | ⟨rfl, -⟩⟩ :=
      follow_kept on cursor t agrees (near on)
    · simp [follow, EndsRun]
    · simp [behind, EndsRun]
    · rw [behind]
      rintro _ ⟨⟩
      exact ends _ rfl
    · rw [behind]
      exact endsRun_blank _

/-- A run of colons that is no address is read as itself. -/
theorem reads_address {n place : Nat} (clear : Clear v strict t rest) (literal : t.isLiteral)
    (value : t.value = kept v (c :: w.take (n - 1)))
    (address : address? (c :: w) = some (n, .literal))
    (agrees : Agrees v q rest (tokens v .message ⟨place, q, .literal, true⟩ (w.drop (n - 1))))
    (near : v.markSpaces → ∀ u ∈ rest.head?, u.spaceBefore = false) :
    Reads v strict q after t rest q := by
  obtain ⟨x, z, s, text, rfl, ends, along, known⟩ := address?_eq_some_iff.1 address
  have width := two_le_of_address? address
  obtain ⟨d, x, rfl⟩ := List.exists_cons_of_ne_nil (l := x) (by rintro rfl; simp at width)
  rw [List.cons_append] at text
  obtain ⟨rfl, rfl⟩ := List.cons.inj text
  simp only [List.length_cons, Nat.add_sub_cancel, List.take_left, List.drop_left] at value agrees
  have chars := ColonRun.chars_of_along? along
  have trimmed : Text.trimEnd (c :: x) = c :: x :=
    Text.trimEnd_of_getLast fun e he => chars e (List.mem_of_getLast? he)
  have value' : t.value = c :: x := by
    rw [value, kept]
    split
    · rfl
    · exact trimmed
  have again : address? (c :: x ++ follow v t rest) = some ((c :: x).length, .literal) :=
    address?_eq_some_iff.2
      ⟨c :: x, _, s, rfl, rfl, endsRun_follow ends ⟨place, q, .literal, true⟩ t agrees near,
        along, known⟩
  have time := clear.time
  rw [stretch_eq, value'] at time
  refine ⟨literal, fun _ => by rw [value', trimmed],
    fun everywhere body w h => clear.run everywhere (body, w) h, c, x, [], _, value',
    chars c List.mem_cons_self, rfl, Or.inl rfl, fun last _ => ?_⟩
  rw [List.cons_append] at again time
  rw [next, time, again]
  simp

theorem kind_of_isLiteral {x : Text} {k : Kind} (h : ({ value := x, kind := k } : Token).isLiteral)
    (known : k ≠ .unknown) : k = .literal := by
  cases k <;> first | rfl | exact absurd rfl known | cases h

/-- A literal of a message is a run of colons, a character that stands on its own, or a word. -/
theorem next_literal (v : Vocabulary) (q : Option Quotation) (last : Kind) (c : Char) (w : Text)
    (h : (next v q last true c w).token.isLiteral) :
    (∃ n, address? (c :: w) = some (n, .literal) ∧
      next v q last true c w = ⟨{ value := [], kind := .literal }, n - 1, q⟩) ∨
    ((∀ atEnd w', Lexeme.ofWord q atEnd (last = .ipv4) c w' =
        (.single, Quotation.behind q c)) ∧
      next v q last true c w = ⟨{ value := [], kind := .literal }, 0, Quotation.behind q c⟩) ∨
    ∃ kind n, isMark q c = false ∧ Lexeme.firstKind? q (last = .ipv4) c w = some kind ∧
      Lexeme.ofWord q true (last = .ipv4) c w = (⟨n, .literal⟩, q) ∧
      next v q last true c w = ⟨{ value := [], kind := .literal }, n, q⟩ := by
  unfold next at h ⊢
  cases time : v.time.match? (c :: w) with
  | some m =>
    exfalso
    rw [time] at h
    by_cases verified : m.verified <;>
      simp [verified, Token.isLiteral, Token.isPlaceholder, Kind.isPlaceholder] at h
  | none =>
    simp only [time] at h ⊢
    cases address : address? (c :: w) with
    | some found =>
      obtain ⟨n, k⟩ := found
      simp only [address] at h ⊢
      obtain ⟨_, _, _, -, -, -, -, known⟩ := address?_eq_some_iff.1 address
      obtain rfl := kind_of_isLiteral h (kind?_ne_unknown known)
      exact Or.inl ⟨n, rfl, rfl⟩
    | none =>
      simp only [address] at h ⊢
      refine Or.inr ?_
      have known := kind_of_isLiteral h (ofWord_ne_unknown _ _ _ _ _)
      by_cases mark : isMark q c
      · refine Or.inl ⟨fun _ _ => Lexeme.ofWord_mark mark _ _ _, ?_⟩
        rw [Lexeme.ofWord_mark mark]
        rfl
      · simp only [Bool.not_eq_true] at mark
        cases first : Lexeme.firstKind? q (last = .ipv4) c w with
        | none =>
          have alone : ∀ atEnd w',
              Lexeme.ofWord q atEnd (last = .ipv4) c w' = (.single, Quotation.behind q c) := by
            intro atEnd w'
            rw [Lexeme.ofWord_of_firstKind? mark, Lexeme.firstKind?_none first,
              Quotation.behind_of_not_mark mark]
          refine Or.inl ⟨alone, ?_⟩
          rw [alone]
          rfl
        | some kind =>
          have quotation : (Lexeme.ofWord q true (last = .ipv4) c w).2 = q := by
            rw [Lexeme.ofWord_of_firstKind? mark, first]
          refine Or.inr ⟨kind, (Lexeme.ofWord q true (last = .ipv4) c w).1.more, mark, rfl, ?_, ?_⟩
          · rw [← known]
            exact Prod.ext rfl quotation
          · rw [known, quotation]

/-- A value of a message leaves the quotation as it is. -/
theorem quotation_of_isPlaceholder (v : Vocabulary) (q : Option Quotation) (last : Kind) (c : Char)
    (w : Text) (h : (next v q last true c w).token.isPlaceholder) :
    (next v q last true c w).quotation = q := by
  unfold next at h ⊢
  cases time : v.time.match? (c :: w) with
  | some m => rfl
  | none =>
    simp only [time] at h ⊢
    cases address : address? (c :: w) with
    | some found => rfl
    | none =>
      simp only [address] at h ⊢
      by_cases mark : isMark q c
      · rw [Lexeme.ofWord_mark mark] at h
        cases h
      · simp only [Bool.not_eq_true] at mark
        rw [Lexeme.ofWord_of_firstKind? mark]
        split <;> rfl

/-! ### Clear lines -/

/-- All literals of a line are clear, and the last one stands at the end of its text, unless it ends
in white space. -/
structure IsClear (v : Vocabulary) (strict : Bool) (text : Text) (line : Line) : Prop where
  clear : ∀ t rest, (t :: rest) <:+ line → t.isLiteral → t.isSpace = false → Clear v strict t rest
  last : ∀ t ∈ line.getLast?, t.isLiteral → t.value.trimEnd = t.value →
    ∀ c ∈ text.getLast?, Text.isSpace c = false

theorem IsClear.suffix {text behind : Text} (h : IsClear v strict text line)
    (tokens : rest <:+ line) (chars : behind <:+ text) : IsClear v strict behind rest where
  clear t others suffix := h.clear t others (suffix.trans tokens)
  last t ht literal tight c hc := by
    obtain ⟨_, rfl⟩ := tokens
    obtain ⟨_, rfl⟩ := chars
    refine h.last t ?_ literal tight c ?_
    · rw [List.getLast?_append, ht]
      rfl
    · rw [List.getLast?_append, hc]
      rfl

/-- The tokens from a cursor on, behind the white space in front of them, are legible. -/
def IsLegible (v : Vocabulary) (strict loose : Bool) (cursor : Cursor) (line : Line) : Prop :=
  ∃ g rest, line = spaces v g ++ rest ∧ (∀ c ∈ g, Text.isSpace c) ∧ cursor.isCut g = false ∧
    (v.markSpaces → g = [] → ∀ u ∈ rest.head?, u.spaceBefore = false) ∧
    Legible v strict loose cursor.quotation (cursor.last = .ipv4) rest

theorem IsLegible.gap {place : Nat} {k : Kind}
    (h : IsLegible v strict loose ⟨place, q, k, true⟩ line) :
    ∃ g rest, line = spaces v g ++ rest ∧ Gap v q g rest ∧
      Legible v strict loose q (k = .ipv4) rest := by
  obtain ⟨g, rest, rfl, blank, uncut, near, legible⟩ := h
  refine ⟨g, rest, rfl, ⟨blank, fun inner => ?_, near⟩, legible⟩
  simpa [Cursor.isCut, inner, Option.isNone_eq_false_iff, Option.isSome_iff_ne_none] using uncut

/-- In a message, a slash stands behind the dotted number `t` inside of the quotation `m`. -/
structure MeetsSlash (v : Vocabulary) (m : Quotation) (after : Bool) (t : Token) (behind : Text) :
    Prop where
  off : v.markSpaces = false
  word : ∃ c x s, t.value = c :: x ∧ Text.isSpace c = false ∧ Word (some m) after (c :: x) s ∧
    s.kind = .ipv4
  slash : ∃ w, behind = '/' :: w

/-- Where white space is not kept, a word of a message is read as itself, unless a quotation keeps
it together with a slash behind it. -/
theorem reads_off (off : v.markSpaces = false) {n place : Nat} {kind k : Kind}
    (clear : Clear v strict t rest) (literal : t.isLiteral)
    (value : t.value = Text.trimEnd (c :: w.take n)) (hc : Text.isSpace c = false)
    (mark : isMark q c = false) (first : Lexeme.firstKind? q after c w = some kind)
    (found : Lexeme.ofWord q true after c w = (⟨n, .literal⟩, q))
    (agrees : Agrees v q rest (tokens v .message ⟨place, q, k, true⟩ (w.drop n)))
    (last : rest = [] → ∀ d ∈ (c :: w).getLast?, Text.isSpace d = false) :
    Reads v strict q after t rest q ∨ ∃ m, q = some m ∧ MeetsSlash v m after t (w.drop n) := by
  have tight : t.value.trimEnd = t.value := by
    rw [value]
    exact Text.trimEnd_trimEnd _
  cases q with
  | some m =>
    obtain ⟨s, x, value', word, closes | ⟨ipv4, slash⟩⟩ :=
      quoted_cases value hc mark first found agrees last
    · exact Or.inl (reads_quoted off clear literal tight value' hc word closes)
    · exact Or.inr ⟨m, rfl, off, ⟨c, x, s, value', hc, word, ipv4⟩, slash⟩
  | none =>
    refine Or.inl ?_
    have unquoted : ∀ s d others, w.drop n = d :: others → Word none after (c :: w.take n) s →
        s.EndsLiteral (n + 1) → Reads v strict none after t rest none := by
      intro s d others drop word ends
      have width := congrArg List.length drop
      simp only [List.length_drop, List.length_cons] at width
      refine reads_unquoted off clear literal value hc word ?_ fun empty => ?_
      · rwa [List.length_take, Nat.min_eq_left (by omega)]
      · exact tokens_ne_nil (suffix_of_drop n) (by rw [drop]; simp) (fun _ => last empty)
          (agrees.ends.1 empty)
    obtain ⟨-, s, word, ⟨d, others, r, drop, -, ends⟩ | ⟨drop, ends⟩ | rfl⟩ :=
      Word.ends_cases mark first found
    · exact unquoted s d others drop word ends
    · exact unquoted s '.' [] drop word ends
    · rw [List.drop_length, tokens_nil] at agrees
      obtain rfl := agrees.ends.2 rfl
      rw [List.take_length, Text.trimEnd_of_getLast (last rfl)] at value
      exact reads_last clear literal (fun _ => tight) value hc found

/-- A literal of a message is read as itself before all that is like what stands behind it there,
unless a quotation keeps it together with a slash. -/
theorem reads_literal {place : Nat} {last : Kind} {f : Found} (hf : next v q last true c w = f)
    (known : f.token.isLiteral) (hc : Text.isSpace c = false) (clear : Clear v strict t rest)
    (literal : t.isLiteral) (value : t.value = kept v (c :: w.take f.more))
    (agrees : Agrees v q rest
      (tokens v .message ⟨place, f.quotation, f.token.kind, true⟩ (w.drop f.more)))
    (near : v.markSpaces → ∀ u ∈ rest.head?, u.spaceBefore = false)
    (ending : rest = [] → t.value.trimEnd = t.value →
      ∀ d ∈ (c :: w).getLast?, Text.isSpace d = false) :
    f.token.kind = .literal ∧ (Reads v strict q (last = .ipv4) t rest f.quotation ∨
      ∃ m, q = some m ∧ f.quotation = some m ∧
        MeetsSlash v m (last = .ipv4) t (w.drop f.more)) := by
  have cases := next_literal v q last c w
  rw [hf] at cases
  obtain ⟨n, address, rfl⟩ | ⟨alone, rfl⟩ | ⟨kind, n, mark, first, found, rfl⟩ := cases known
  · exact ⟨rfl, Or.inl (reads_address clear literal value address agrees near)⟩
  · exact ⟨rfl, Or.inl (reads_single clear literal (value.trans (kept_singleton v hc)) hc alone)⟩
  · refine ⟨rfl, ?_⟩
    cases on : v.markSpaces with
    | true =>
      rw [kept, if_pos on] at value
      exact Or.inl (reads_kept on clear literal value hc mark first found agrees (near on) ending)
    | false =>
      rw [kept, if_neg (by simp [on])] at value
      have tight : t.value.trimEnd = t.value := by rw [value, Text.trimEnd_trimEnd]
      obtain reads | ⟨m, hm, meets⟩ := reads_off on clear literal value hc mark first found agrees
        fun empty => ending empty tight
      · exact Or.inl reads
      · exact Or.inr ⟨m, hm, hm, meets⟩

/-- Inside of a quotation a word that begins with a slash is a literal. -/
theorem ofWord_slash (m : Quotation) (rest : Text) :
    isMark (some m) '/' = false ∧ Lexeme.firstKind? (some m) false '/' rest = some .literal ∧
      ∃ n, Lexeme.ofWord (some m) true false '/' rest = (⟨n, .literal⟩, some m) := by
  have digit : Char.isDigit '/' = false := by decide
  have letter : isWordChar '/' = true := by decide
  have mark : isMark (some m) '/' = false := by simp [isMark]
  have first : Lexeme.firstKind? (some m) false '/' rest = some .literal := by
    simp [Lexeme.firstKind?, digit, letter]
  refine ⟨mark, first, ?_⟩
  have literal := WordState.read_literal (q := some m) (i := 1)
    (s := { kind := .literal, escaped := '/' == '\\' }) rfl rest
  rw [Lexeme.ofWord_of_firstKind? mark, first]
  simp only [Lexeme.finish_of_literal literal]
  exact ⟨_, rfl⟩

/-- Inside of a quotation a dotted number before a slash is read as itself, or as one word with what
follows it. -/
theorem reads_slash {m : Quotation} {place : Nat} (literal : t.isLiteral)
    (meets : MeetsSlash v m after t ('/' :: w))
    (clear : Clear v strict t (tokens v .message ⟨place, some m, .literal, true⟩ ('/' :: w)))
    (isClear : IsClear v strict ('/' :: w)
      (tokens v .message ⟨place, some m, .literal, true⟩ ('/' :: w))) :
    Reads v strict (some m) after t
        (tokens v .message ⟨place, some m, .literal, true⟩ ('/' :: w)) (some m) ∨
      ∃ u place' n, tokens v .message ⟨place, some m, .literal, true⟩ ('/' :: w) =
          u :: tokens v .message ⟨place', some m, .literal, true⟩ (w.drop n) ∧ u.isLiteral ∧
        Reads v strict (some m) after { t with value := t.value ++ ' ' :: u.value }
          (tokens v .message ⟨place', some m, .literal, true⟩ (w.drop n)) (some m) := by
  obtain ⟨off, ⟨c, x, s, value, hc, word, ipv4⟩, -⟩ := meets
  have slash : Text.isSpace '/' = false := by decide
  obtain ⟨place', scan⟩ := tokens_near (v := v) ⟨place, some m, .literal, true⟩ (w := w) slash
  rcases next_of_address (v := v) (address?_cons (c := '/') (by decide) (by decide) w) (some m)
    .literal with time | found
  · have tight : t.value.trimEnd = t.value := by
      rw [value]
      exact word.trimEnd_of_ipv4 ipv4
    refine Or.inl (reads_halted off clear literal tight value hc word ⟨_, _, scan, Or.inl ?_⟩)
    simp [Token.isPlaceholder, time, Kind.isPlaceholder]
  · obtain ⟨mark, first, n, lexeme⟩ := ofWord_slash m w
    have same : decide (Kind.literal = Kind.ipv4) = false := rfl
    rw [same, lexeme] at found
    simp only [found] at scan
    rw [scan] at clear isClear ⊢
    have value' : kept v ('/' :: w.take n) = Text.trimEnd ('/' :: w.take n) :=
      if_neg (by simp [off])
    rw [value'] at clear isClear ⊢
    have tight : Text.trimEnd (Text.trimEnd ('/' :: w.take n)) = Text.trimEnd ('/' :: w.take n) :=
      Text.trimEnd_trimEnd _
    obtain ⟨z, trimmed⟩ := Text.trimEnd_cons slash (w.take n)
    have space : Token.isSpace { value := Text.trimEnd ('/' :: w.take n), kind := .literal } =
        false := by
      simp [Token.isSpace, trimmed, Text.isBlank, slash]
    refine Or.inr ⟨_, place', n, rfl, rfl, ?_⟩
    obtain ⟨r, y, begins, word', closes | ⟨ipv4', -⟩⟩ :=
      quoted_cases (t := { value := Text.trimEnd ('/' :: w.take n), kind := .literal })
        (k := .literal) rfl slash mark first lexeme (.refl _) fun empty =>
          isClear.last _ (by rw [empty]; rfl) rfl tight
    · exact reads_glued off clear (isClear.clear _ _ List.suffix_rfl rfl space) literal rfl tight
        value begins hc word ipv4 word' closes
    · obtain ⟨-, -, literal', -⟩ := word.glue word'
      rw [ipv4'] at literal'
      cases literal'

theorem legible_of_reads {place : Nat} (reads : Reads v strict q after t line q')
    (h : IsLegible v strict loose ⟨place, q', .literal, true⟩ line) :
    Legible v strict loose q after (t :: line) := by
  obtain ⟨g, rest, rfl, gap, legible⟩ := h.gap
  exact .literal reads gap legible

/-- From every place in a text on, tokens that printing leaves alone are legible. -/
def LegibleWithin (v : Vocabulary) (strict : Bool) (text : Text) : Prop :=
  ∀ (cursor : Cursor) behind, behind <:+ text →
    IsClear v strict behind (tokens v .message cursor behind) →
    IsLegible v strict true cursor (tokens v .message cursor behind)

/-- A literal of a message is found again before tokens that are, or together with the next one. -/
theorem legible_message_literal {place : Nat} {last : Kind} {f : Found}
    (hf : next v q last true c w = f) (known : f.token.isLiteral) (hc : Text.isSpace c = false)
    (isClear : IsClear v strict (c :: w)
      (t :: tokens v .message ⟨place, f.quotation, f.token.kind, true⟩ (w.drop f.more)))
    (literal : t.isLiteral) (value : t.value = kept v (c :: w.take f.more))
    (ih : LegibleWithin v strict w) :
    Legible v strict true q (last = .ipv4)
      (t :: tokens v .message ⟨place, f.quotation, f.token.kind, true⟩ (w.drop f.more)) := by
  have behind := ih ⟨place, f.quotation, f.token.kind, true⟩ (w.drop f.more) (List.drop_suffix _ _)
    (isClear.suffix (List.suffix_cons _ _) (suffix_of_drop _))
  obtain ⟨x, begins⟩ := kept_cons (v := v) hc (w.take f.more)
  have visible : t.isSpace = false := by
    simp [Token.isSpace, value, begins, Text.isBlank, hc]
  have clear := isClear.clear t _ List.suffix_rfl literal visible
  obtain ⟨kind, reads | ⟨m, rfl, quotation, meets⟩⟩ :=
    reads_literal hf known hc clear literal value (.refl _)
      (fun on _ hu => spaceBefore_of_mem_head? on hu)
      fun empty tight => isClear.last t (by rw [empty]; rfl) literal tight
  · rw [kind] at behind reads ⊢
    exact legible_of_reads reads behind
  · obtain ⟨rest, drop⟩ := meets.slash
    have below : '/' :: rest <:+ w := drop ▸ List.drop_suffix f.more w
    have isClear' := isClear.suffix (List.suffix_cons _ _) (suffix_of_drop f.more)
    rw [drop] at meets
    rw [drop, kind, quotation] at clear behind isClear' ⊢
    obtain reads | ⟨u, place', k, scan, hu, reads⟩ := reads_slash literal meets clear isClear'
    · exact legible_of_reads reads behind
    · have suffix : rest.drop k <:+ '/' :: rest := suffix_of_drop k
      rw [scan] at isClear' ⊢
      exact .glued rfl meets.off literal hu (legible_of_reads reads
        (ih _ _ (suffix.trans below) (isClear'.suffix (List.suffix_cons _ _) suffix)))

/-- A value is read as one of kind IPv4 if it is one, where the tags tell. -/
theorem exists_restores_of_tellsIpv4 (h : v.Regular) (kinds : v.TellsIpv4) (value : t.IsValue v)
    (placeholder : t.isPlaceholder) :
    ∃ u, Placeholder.Restores v t u ∧ (u.kind = .ipv4 ↔ t.kind = .ipv4) := by
  obtain ⟨u, restores, kind | ⟨tag, known, kind⟩⟩ := Placeholder.exists_restores h value placeholder
  · exact ⟨u, restores, by rw [kind]⟩
  · have : t.kind.isPlaceholder := by
      rcases value.meaning with ⟨-, kind⟩ | ⟨-, kind, -⟩
      · exact kind
      · rw [kind]
        rfl
    refine ⟨u, restores, ?_⟩
    rw [kind]
    exact kinds t.kind (Kind.mem_all _) this tag known

/-- A token of a message is found again before tokens that are. -/
theorem legible_message_cons (h : v.Regular) (kinds : v.TellsIpv4) {place : Nat} {last : Kind}
    {space : Bool} {f : Found} (hf : next v q last true c w = f) (hc : Text.isSpace c = false)
    (isClear : IsClear v strict (c :: w)
      ({ f.token with value := kept v (c :: w.take f.more), spaceBefore := space } ::
        tokens v .message ⟨place, f.quotation, f.token.kind, true⟩ (w.drop f.more)))
    (ih : LegibleWithin v strict w) :
    Legible v strict true q (last = .ipv4)
      ({ f.token with value := kept v (c :: w.take f.more), spaceBefore := space } ::
        tokens v .message ⟨place, f.quotation, f.token.kind, true⟩ (w.drop f.more)) := by
  have scanned := isScanned_next (v := v) q last true c w (kept v (c :: w.take f.more)) space
  have quotation := quotation_of_isPlaceholder v q last c w
  rw [hf] at scanned quotation
  cases placeholder : f.token.isPlaceholder with
  | true =>
    have behind := ih ⟨place, f.quotation, f.token.kind, true⟩ (w.drop f.more)
      (List.drop_suffix _ _) (isClear.suffix (List.suffix_cons _ _) (suffix_of_drop _))
    obtain ⟨g, rest, eq, gap, legible⟩ := behind.gap
    have value := scanned.isLiteral_or.resolve_left fun h => by
      rw [Token.isLiteral, show Token.isPlaceholder { f.token with
        value := kept v (c :: w.take f.more), spaceBefore := space } = true from placeholder] at h
      cases h
    obtain ⟨u, restores, kind⟩ := exists_restores_of_tellsIpv4 h kinds value.2 placeholder
    have same : decide (f.token.kind = .ipv4) = decide (u.kind = .ipv4) := by simpa using kind.symm
    rw [quotation placeholder] at gap legible
    rw [same] at legible
    rw [eq]
    exact .value restores gap legible
  | false =>
    have literal : f.token.isLiteral := by simp [Token.isLiteral, placeholder]
    exact legible_message_literal hf literal hc isClear literal rfl ih

/-- The tokens of a message that printing leaves alone are legible. -/
theorem legible_message (h : v.Regular) (kinds : v.TellsIpv4) {text : Text}
    (isClear : IsClear v strict text (tokens v .message cursor text)) :
    IsLegible v strict true cursor (tokens v .message cursor text) := by
  induction n : text.length using Nat.strongRecOn generalizing text cursor with
  | _ n ih =>
    subst n
    obtain blank | ⟨g, c, w, rfl, blank, hc⟩ := blank_or text
    · rw [tokens_of_blank blank]
      split
      · exact ⟨[], [], by simp [spaces], by simp, by simp [Cursor.isCut], by simp, .nil⟩
      · next uncut => exact ⟨text, [], by simp, blank, by simpa using uncut, by simp, .nil⟩
    by_cases cut : cursor.isCut g
    · rw [tokens_of_cut blank hc cut]
      let t : Token := { value := Text.trimEnd (c :: w), kind := .multiline, spaceBefore := true }
      have value : t.IsValue v := ⟨rfl, rfl, Or.inl ⟨rfl, rfl⟩⟩
      obtain ⟨u, restores, -⟩ := Placeholder.exists_restores h value rfl
      have alone : [t] = t :: (spaces v [] ++ []) := by simp [spaces]
      have legible : Legible v strict true cursor.quotation (cursor.last = .ipv4) [t] := by
        rw [alone]
        exact .value restores ⟨by simp, by simp, by simp⟩ .nil
      exact ⟨[' '], [t], by simp [multiline, spaces, Token.literal, t], Text.isSpace_blank,
        by simp [Cursor.isCut], by simp, legible⟩
    · obtain ⟨place, scan⟩ := tokens_message (v := v) cursor (w := w) blank hc (by simpa using cut)
      rw [scan] at isClear ⊢
      refine ⟨g, _, rfl, blank, by simpa using cut, fun _ empty u hu => ?_, ?_⟩
      · cases hu
        simp [empty]
      · refine legible_message_cons h kinds rfl hc
          (isClear.suffix (List.suffix_append _ _) (List.suffix_append _ _))
          fun cursor behind suffix hb => ih behind.length ?_ hb rfl
        have := suffix.length_le
        simp only [List.length_append, List.length_cons]
        omega

/-! ### Pattern text of messages -/

/-- Printing leaves a message alone. -/
structure Faithful (v : Vocabulary) (text : Text) : Prop where
  /-- All literals are clear. Where there is no placeholder, all runs are looked at. -/
  clear : ∀ t rest, (t :: rest) <:+ message v text → t.isLiteral → t.isSpace = false →
    Clear v (Line.print v (message v text)).offsets.isEmpty t rest
  /-- White space behind the last literal, which is not printed, does not matter to it. -/
  last : ∀ t ∈ (message v text).getLast?, t.isLiteral → t.value.trimEnd = t.value →
    message v text.trimEnd = message v text

instance (text : Text) : Decidable (Faithful v text) :=
  decidable_of_iff
    ((∀ s ∈ (message v text).tails, ∀ t ∈ s.head?, t.isLiteral → t.isSpace = false →
        Clear v (Line.print v (message v text)).offsets.isEmpty t s.tail) ∧
      ∀ t ∈ (message v text).getLast?, t.isLiteral → t.value.trimEnd = t.value →
        message v text.trimEnd = message v text)
    ⟨fun ⟨clear, last⟩ =>
        ⟨fun t rest suffix => clear (t :: rest) ((List.mem_tails _ _).2 suffix) t rfl, last⟩,
      fun h => ⟨fun s hs t ht => by
        obtain ⟨rest, rfl⟩ := List.head?_eq_some_iff.1 ht
        exact h.clear t rest ((List.mem_tails _ _).1 hs), h.last⟩⟩

theorem Faithful.isLegible (regular : v.Regular) (kinds : v.TellsIpv4) {text : Text}
    (h : Faithful v text) :
    IsLegible v (Line.print v (message v text)).offsets.isEmpty true {} (message v text) := by
  by_cases last : ∃ t ∈ (message v text).getLast?, t.isLiteral ∧ t.value.trimEnd = t.value
  · obtain ⟨t, ht, literal, tight⟩ := last
    have same := h.last t ht literal tight
    have isClear : IsClear v (Line.print v (message v text)).offsets.isEmpty text.trimEnd
        (message v text.trimEnd) :=
      ⟨by rw [same]; exact h.clear, fun _ _ _ _ => Text.getLast_trimEnd text⟩
    have legible := legible_message regular kinds isClear
    rwa [show tokens v .message {} text.trimEnd = message v text from same] at legible
  · exact legible_message regular kinds ⟨h.clear, fun t ht literal tight =>
      absurd ⟨t, ht, literal, tight⟩ last⟩

/-- A line that begins with white space is printed with it. -/
theorem print_spaces (blank : ∀ c ∈ g, Text.isSpace c) (rest : Line) :
    Line.print v (spaces v g ++ rest) =
      let e := if v.markSpaces then g else []
      ⟨e ++ (printFrom v none e.bytes rest).text, (printFrom v none e.bytes rest).offsets⟩ := by
  cases on : v.markSpaces with
  | false => simp [Line.print, spaces, on]
  | true =>
    cases g with
    | nil => simp [Line.print, spaces]
    | cons c g =>
      have kept : spaces v (c :: g) = [.literal (c :: g)] := by simp [spaces, on]
      rw [kept, Line.print, List.singleton_append, printFrom_literal (Token.isLiteral_literal _),
        printBehind, printFrom_behind_space on blank (by simp),
        printToken_literal (Token.isLiteral_literal _)]
      simp [separator, Token.literal]

/-- The positions of the placeholders of a line announce them, or there are none. -/
theorem announces_offsets {offsets : List Nat} {place : Nat}
    (eq : offsets = (printFrom v none place line).offsets) :
    Announces (if offsets = [] then .anywhere [] else .listed offsets) v offsets.isEmpty place
      line := by
  by_cases none : offsets = []
  · rw [if_pos none]
    exact ⟨by rw [← eq, none]; rfl, by simp [Mode.anchors], fun _ _ _ => ⟨by simp [none], rfl⟩⟩
  · have later : offsets.filter (place ≤ ·) = offsets :=
      List.filter_eq_self.2 fun o ho => by
        rw [eq] at ho
        exact decide_eq_true (start_le_of_mem_offsets ho)
    rw [if_neg none]
    exact ⟨by rw [← eq]; exact later, fun place mem => decide_eq_true mem,
      fun place allowed away => absurd (of_decide_eq_true allowed) away⟩

/-- The pattern text of a legible line is scanned with its offsets as tokens that are printed as the
same text with the same offsets, and that are those of the line one by one unless it is loose. -/
theorem pattern_of_legible (readable : ∀ t ∈ line, t.isPlaceholder → Placeholder.IsReadable v t)
    (legible : IsLegible v (Line.print v line).offsets.isEmpty loose {} line) :
    ∃ again, pattern v (Line.print v line).text (Line.print v line).offsets = .ok again ∧
      Line.print v again = Line.print v line ∧
      (loose = false → List.Forall₂ (ReadAs v) line again) := by
  generalize hp : Line.print v line = printed at legible
  have found := patternMode_of_readable readable
  rw [hp] at found
  let mode : Mode := if printed.offsets = [] then .anywhere [] else .listed printed.offsets
  obtain ⟨g, rest, eq, blank, -, near, legible⟩ := legible
  let e := if v.markSpaces then g else []
  have parts : printed = ⟨e ++ (printFrom v none e.bytes rest).text,
      (printFrom v none e.bytes rest).offsets⟩ := by
    rw [← print_spaces blank, ← eq, hp]
  have same : spaces v e = spaces v g := by
    cases on : v.markSpaces <;> simp [e, spaces, on]
  have offsets : printed.offsets = (printFrom v none e.bytes rest).offsets := by rw [parts]
  have announces : Announces mode v printed.offsets.isEmpty e.bytes rest :=
    announces_offsets offsets
  have blank' : ∀ c ∈ e, Text.isSpace c := by
    intro c hc
    simp only [e] at hc
    split at hc
    · exact blank c hc
    · cases hc
  have repeats : Repeats v mode loose {} e rest := tokens_legible legible rfl (by simp)
    blank' (by simp [Cursor.isCut]) (by simpa using announces)
  obtain ⟨again, scan, print, -, -, tokens'⟩ := repeats
  simp only [Nat.zero_add] at scan print
  have whole : Line.print v (spaces v g ++ again) =
      ⟨e ++ (printFrom v none e.bytes again).text, (printFrom v none e.bytes again).offsets⟩ :=
    print_spaces blank again
  have shown : printed.text = e ++ (printFrom v none e.bytes rest).text := by rw [parts]
  refine ⟨spaces v g ++ again, ?_, ?_, fun tight => ?_⟩
  · have read : tokens v mode {} printed.text = spaces v g ++ again := by rw [shown, scan, same]
    rw [pattern, found, ← read]
    rfl
  · rw [whole, print, parts]
  · rw [eq]
    exact List.rel_append (forall₂_readAs_spaces v g) (tokens' tight)

/-- The pattern text of a message can be scanned with its offsets. If printing leaves the message
alone, what was scanned is printed as the same text with the same offsets. -/
theorem pattern_print_message (h : v.Regular) (text : Text) :
    let printed := Line.print v (message v text)
    ∃ again, pattern v printed.text printed.offsets = .ok again ∧
      (v.TellsIpv4 → Faithful v text → Line.print v again = printed) := by
  intro printed
  have scanned : ∀ t ∈ message v text, IsScanned v t := fun t ht => isScanned_of_mem_message ht
  have found := patternMode_print h scanned
  by_cases faithful : v.TellsIpv4 ∧ Faithful v text
  · have readable : ∀ t ∈ message v text, t.isPlaceholder → Placeholder.IsReadable v t := by
      intro t ht placeholder
      have value := (scanned t ht).isLiteral_or.resolve_left
        (by simp [Token.isLiteral, placeholder])
      exact Placeholder.isReadable_of_isValue h value.2
    obtain ⟨again, scan, print, -⟩ :=
      pattern_of_legible readable (faithful.2.isLegible h faithful.1)
    exact ⟨again, scan, fun _ _ => print⟩
  · exact ⟨_, by rw [pattern, found]; rfl, fun kinds alone => absurd ⟨kinds, alone⟩ faithful⟩

/-- In the vocabulary of any settings, the pattern text of a message can be scanned with its
offsets, and is printed as before if printing leaves the message alone. -/
theorem pattern_print {compile : Vocabulary.Compiler} {s : Settings}
    (h : Vocabulary.build compile s = .ok v) (text : Text) :
    let printed := Line.print v (message v text)
    ∃ again, pattern v printed.text printed.offsets = .ok again ∧
      (v.TellsIpv4 → Faithful v text → Line.print v again = printed) :=
  pattern_print_message (Vocabulary.regular_build h) text

/-- A message with a number, a quotation and a lone dot. -/
theorem pattern_print_up : ∃ v, Vocabulary.ofSettings {} = .ok v ∧
    let text := "up 5 'a  b' 1.2.3 . ".toList
    let printed := Line.print v (message v text)
    v.TellsIpv4 ∧ Faithful v text ∧
      ∃ again, pattern v printed.text printed.offsets = .ok again ∧
        Line.print v again = printed := by
  let v : Vocabulary :=
    { tags := [("regextime".toList, .time), ("multiline".toList, .multiline)]
      regextime := ⟨1⟩, multiline := ⟨2⟩ }
  have settings : Vocabulary.ofSettings {} = .ok v := rfl
  refine ⟨v, settings, ?_⟩
  intro text printed
  have kinds : v.TellsIpv4 := by decide
  have faithful : Faithful v text := by decide +kernel
  obtain ⟨again, scan, print⟩ := pattern_print settings text
  exact ⟨kinds, faithful, again, scan, print kinds faithful⟩

/-- Each condition is needed: a run in a message without placeholders, white space behind a final
dot, an address or a timestamp that begins where something before it or between its parts was
dropped, an escaped blank, the scheme of a URI before a value, and a tag that is named as a kind and
has another one. -/
theorem pattern_print_changes :
    let changes (s : Settings) (text : String) : Prop := ∃ v, Vocabulary.ofSettings s = .ok v ∧
      let printed := Line.print v (message v text.toList)
      (pattern v printed.text printed.offsets).toOption.map (Line.print v) ≠ some printed
    changes {} "x %integer% y" ∧ changes {} "abc. " ∧ changes {} "\"1:2:3:4:5:6." ∧
      changes { formats := [("1".toList, ["Mon Jan".toList])] } "Tue  Feb" ∧
      changes {} "a\\  'x  y'" ∧ changes { markSpaces := true } "ht::1" ∧
      changes { tags := ["integer:ipv4".toList] } "5 /abc" := by
  refine ⟨⟨_, rfl, ?_⟩, ⟨_, rfl, ?_⟩, ⟨_, rfl, ?_⟩, ⟨_, rfl, ?_⟩, ⟨_, rfl, ?_⟩, ⟨_, rfl, ?_⟩,
    ⟨_, rfl, ?_⟩⟩
  all_goals decide +kernel

end Scan

end LogTemplate
