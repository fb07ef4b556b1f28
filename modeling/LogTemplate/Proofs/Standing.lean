import LogTemplate.Proofs.RoundTrip

/-!
# Literals that stand in messages

A literal of any line is read as itself if it stands in some message in the same way.

* `Scan.Context` is what a scan remembers of the tokens before a place, `Scan.context` what it
  remembers behind a line;
* `Scan.foundIn_of_tokens` finds the place of a literal in the text of its message;
* `Scan.Stands` compares a literal of a line with one of a message, `Scan.Kept` says that printing
  leaves such a literal alone, and `Scan.reads_of_kept` that it is read as itself then.
-/

namespace LogTemplate

/-- The tokens of a line, each with what stands before it and behind it. -/
def Line.splits : Line → List (Line × Token × Line)
  | [] => []
  | t :: rest =>
    ([], t, rest) :: (splits rest).map fun (before, u, behind) => (t :: before, u, behind)

theorem Line.mem_splits {line before rest : Line} {t : Token} :
    (before, t, rest) ∈ line.splits ↔ line = before ++ t :: rest := by
  induction line generalizing before with
  | nil => simp [splits]
  | cons u line ih =>
    cases before with
    | nil => simp [splits, eq_comm]
    | cons b before =>
      constructor
      · intro h
        obtain ⟨⟨x, y, z⟩, mem, eq⟩ := List.mem_map.1 ((List.mem_cons.1 h).resolve_left (by simp))
        cases eq
        rw [ih.1 mem, List.cons_append]
      · intro h
        rw [List.cons_append] at h
        obtain ⟨rfl, eq⟩ := List.cons.inj h
        exact List.mem_cons_of_mem _ (List.mem_map.2 ⟨_, ih.2 eq, rfl⟩)

namespace Scan

open Line

variable {v : Vocabulary} {strict after : Bool} {q : Option Quotation} {t u : Token}
  {line rest before : Line} {c : Char} {g w text : Text} {cursor : Cursor} {last : Kind} {f : Found}

/-! ### Contexts -/

/-- What a scan remembers of the tokens before a place. -/
structure Context where
  /-- The quotation that is open. -/
  quotation : Option Quotation := none
  /-- The last token is an IPv4 address. -/
  afterIpv4 : Bool := false
  deriving DecidableEq, Repr

namespace Context

/-- The quotation behind a token: a literal of one character may open or close one. -/
def past (q : Option Quotation) (t : Token) : Option Quotation :=
  match t.value with
  | [c] => if t.isLiteral then Quotation.behind q c else q
  | _ => q

/-- What is remembered behind one more token. White space is forgotten. -/
def behind (k : Context) (t : Token) : Context :=
  if t.isSpace then k else ⟨past k.quotation t, t.kind = .ipv4⟩

theorem past_placeholder (h : t.isPlaceholder) : past q t = q := by
  unfold past
  split
  · exact if_neg (by simp [Token.isLiteral, h])
  · rfl

end Context

/-- What is remembered behind a line. -/
def context (line : Line) : Context := line.foldl Context.behind {}

/-- What a cursor remembers. -/
def Cursor.context (cursor : Cursor) : Context := ⟨cursor.quotation, cursor.last = .ipv4⟩

theorem isSpace_gap {d : Char} (blank : ∀ c ∈ d :: g, Text.isSpace c) :
    (Token.literal (d :: g)).isSpace := by
  simp only [Token.isSpace, Token.isLiteral_literal, Text.isBlank, Bool.and_eq_true,
    List.all_eq_true]
  exact ⟨⟨trivial, rfl⟩, blank⟩

/-- White space between tokens is not remembered. -/
theorem foldl_spaces (blank : ∀ c ∈ g, Text.isSpace c) (k : Context) :
    (spaces v g).foldl Context.behind k = k := by
  unfold spaces
  split
  · next kept =>
    obtain ⟨d, g, rfl⟩ := List.exists_cons_of_ne_nil (l := g) (by
      rintro rfl
      simp at kept)
    exact if_pos (isSpace_gap blank)
  · rfl

/-- The quotation behind a token of a message is the one that the token leaves. -/
theorem quotation_next (hf : next v q last true c w = f) (hc : Text.isSpace c = false)
    (literal : t.isLiteral = f.token.isLiteral) (value : t.value = kept v (c :: w.take f.more)) :
    Context.past q t = f.quotation := by
  cases known : f.token.isLiteral with
  | false =>
    have placeholder : f.token.isPlaceholder := by simpa [Token.isLiteral] using known
    have own : t.isPlaceholder := by simpa [Token.isLiteral] using literal.trans known
    rw [Context.past_placeholder own, ← hf]
    exact (quotation_of_isPlaceholder v q last c w (by rw [hf]; exact placeholder)).symm
  | true =>
    rw [known] at literal
    -- What begins with no mark is none.
    have unmarked : isMark q c = false → Context.past q t = q := by
      intro mark
      obtain ⟨x, begins⟩ := kept_cons (v := v) hc (w.take f.more)
      rw [begins] at value
      cases x with
      | nil => simp [Context.past, value, Quotation.behind_of_not_mark mark]
      | cons d x => simp [Context.past, value]
    have cases := next_literal v q last c w
    rw [hf] at cases
    obtain ⟨n, address, rfl⟩ | ⟨-, rfl⟩ | ⟨kind, n, mark, -, -, rfl⟩ := cases known
    · refine unmarked ?_
      by_contra marked
      have mark : c = '"' ∨ c = '\'' ∨ c = '<' ∨ c = '>' := by
        simp only [isMark, Bool.not_eq_false, Bool.or_eq_true, decide_eq_true_eq,
          Bool.and_eq_true] at marked
        tauto
      have none := address?_cons (c := c) (by rcases mark with rfl | rfl | rfl | rfl <;> decide)
        (by rcases mark with rfl | rfl | rfl | rfl <;> decide) w
      rw [none] at address
      cases address
    · rw [List.take_zero, kept_singleton v hc] at value
      simp [Context.past, value, literal]
    · exact unmarked mark

/-- What is remembered behind a token of a message is what the cursor remembers there. -/
theorem behind_found {place : Nat} (hc : Text.isSpace c = false)
    (hf : found v .message cursor place c w = f) (space : Bool) :
    cursor.context.behind { f.token with spaceBefore := space } =
      (cursor.behind g f c w).context := by
  rw [found_message] at hf
  subst hf
  obtain ⟨x, begins⟩ := kept_cons (v := v) hc
    (w.take (next v cursor.quotation cursor.last true c w).more)
  rw [Context.behind, if_neg (by simp [Token.isSpace, begins, Text.isBlank, hc])]
  exact congrArg (Context.mk · _) (quotation_next rfl hc rfl rfl)

/-! ### Places of literals -/

/-- In the text of a message, the scan finds the literal `t` in the context `k`, and `rest` behind
it. -/
def FoundIn (v : Vocabulary) (text : Text) (k : Context) (t : Token) (rest : Line) : Prop :=
  ∃ last place c w f, k.afterIpv4 = decide (last = .ipv4) ∧ Text.isSpace c = false ∧
    c :: w <:+ text ∧ next v k.quotation last true c w = f ∧ f.token.isLiteral ∧
    t.value = kept v (c :: w.take f.more) ∧
    rest = tokens v .message ⟨place, f.quotation, f.token.kind, true⟩ (w.drop f.more)

theorem FoundIn.mono {behind : Text} {k : Context} (h : FoundIn v behind k t rest)
    (suffix : behind <:+ text) : FoundIn v text k t rest := by
  obtain ⟨last, place, c, w, f, after, hc, chars, found⟩ := h
  exact ⟨last, place, c, w, f, after, hc, chars.trans suffix, found⟩

/-- White space is no literal that is looked for. -/
theorem split_of_spaces (blank : ∀ c ∈ g, Text.isSpace c) (visible : t.isSpace = false)
    (h : spaces v g ++ line = before ++ t :: rest) :
    ∃ others, before = spaces v g ++ others ∧ line = others ++ t :: rest := by
  rcases List.append_eq_append_iff.1 h with ⟨others, eq, eq'⟩ | ⟨others, eq, eq'⟩
  · exact ⟨others, eq, eq'⟩
  · cases others with
    | nil => exact ⟨[], by simpa using eq.symm, by simpa using eq'.symm⟩
    | cons o others =>
      obtain ⟨rfl, -⟩ := List.cons.inj eq'
      have mem : t ∈ spaces v g := by rw [eq]; simp
      obtain rfl := eq_literal_of_mem_spaces mem
      cases g with
      | nil => simp [spaces] at mem
      | cons d g =>
        rw [isSpace_gap blank] at visible
        cases visible

/-- Each literal of a message is found at its place. -/
theorem foundIn_of_tokens (scan : tokens v .message cursor text = before ++ t :: rest)
    (literal : t.isLiteral) (visible : t.isSpace = false) :
    FoundIn v text (before.foldl Context.behind cursor.context) t rest := by
  induction cursor, text using induct v .message generalizing before with
  | blank cursor g blank =>
    have none : tokens v .message cursor g = [] ∨
        tokens v .message cursor g = spaces v g ++ [] := by
      rw [tokens_of_blank blank]
      split
      · exact Or.inl rfl
      · exact Or.inr (List.append_nil _).symm
    rcases none with none | none
    · simp [none] at scan
    · obtain ⟨others, -, absurd⟩ := split_of_spaces blank visible (none.symm.trans scan)
      simp at absurd
  | cut cursor g c w blank hc cut =>
    have mem : t ∈ multiline v (c :: w) := by
      rw [← tokens_of_cut blank hc cut, scan]
      simp
    rcases mem_multiline mem with rfl | rfl
    · exact absurd visible (by decide)
    · cases literal
  | cons cursor g c w f blank hc uncut found ih =>
    rw [tokens_of_cons blank hc uncut found] at scan
    obtain ⟨others, rfl, eq⟩ := split_of_spaces blank visible scan
    rw [List.foldl_append, foldl_spaces blank]
    have below : w.drop f.more <:+ g ++ c :: w :=
      (suffix_of_drop f.more).trans (List.suffix_append g _)
    cases others with
    | nil =>
      obtain ⟨rfl, rfl⟩ := List.cons.inj eq
      rw [found_message] at found
      subst found
      exact ⟨cursor.last, _, c, w, _, rfl, hc, List.suffix_append g _, rfl, literal, rfl, rfl⟩
    | cons o others =>
      obtain ⟨rfl, later⟩ := List.cons.inj eq
      rw [List.foldl_cons, behind_found hc found]
      exact (ih later).mono below

/-! ### Literals that are kept -/

/-- The literal `t` stands in a message as it stands in a line: in the context `k`, and with the
same behind it as in `rest`. The white space at the end of the message does not matter to it. -/
def Stands (v : Vocabulary) (k : Context) (t : Token) (rest : Line) (text : Text) : Prop :=
  ∃ s ∈ (message v text).splits, context s.1 = k ∧ s.2.1.isLiteral ∧ s.2.1.value = t.value ∧
    Agrees v k.quotation rest s.2.2 ∧ (rest = [] → t.value.trimEnd = t.value →
      ∀ c ∈ text.getLast?, Text.isSpace c = false)

instance (k : Context) (rest : Line) : Decidable (Stands v k t rest text) :=
  -- The characters of the text are tried, not all there are.
  letI : Decidable (∀ c ∈ text.getLast?, Text.isSpace c = false) := Option.decidableForallMem ..
  inferInstanceAs (Decidable (∃ s ∈ _, _))

/-- Printing leaves the literal `t` alone, which a line holds in the context `k` before `rest`. -/
structure Kept (v : Vocabulary) (strict : Bool) (texts : List Text) (k : Context) (t : Token)
    (rest : Line) : Prop where
  clear : Clear v strict t rest
  /-- It stands in some message in the same way. -/
  stands : ∃ text ∈ texts, Stands v k t rest text
  /-- No quotation keeps it together with a slash behind it. -/
  apart : v.markSpaces = false → k.quotation ≠ none → (∀ c ∈ t.value, c.isDigit ∨ c = '.') →
    ∀ u ∈ rest.head?, u.isLiteral → u.value.head? ≠ some '/'

instance (texts : List Text) (k : Context) (rest : Line) :
    Decidable (Kept v strict texts k t rest) :=
  letI : Decidable (∀ c ∈ t.value, c.isDigit ∨ c = '.') := List.decidableBAll ..
  decidable_of_iff (Clear v strict t rest ∧ (∃ text ∈ texts, Stands v k t rest text) ∧
      (v.markSpaces = false → k.quotation ≠ none → (∀ c ∈ t.value, c.isDigit ∨ c = '.') →
        ∀ u ∈ rest.head?, u.isLiteral → u.value.head? ≠ some '/'))
    ⟨fun ⟨clear, stands, apart⟩ => ⟨clear, stands, apart⟩,
      fun ⟨clear, stands, apart⟩ => ⟨clear, stands, apart⟩⟩

/-- Inside of a quotation a dotted number that meets a slash in a message is read as itself where it
does not. -/
theorem reads_apart {m : Quotation} {place : Nat} {slashed : Text}
    (meets : MeetsSlash v m after t slashed) (clear : Clear v strict t rest) (literal : t.isLiteral)
    (agrees : Agrees v (some m) rest
      (tokens v .message ⟨place, some m, .literal, true⟩ slashed))
    (apart : (∀ c ∈ t.value, c.isDigit ∨ c = '.') →
      ∀ u ∈ rest.head?, u.isLiteral → u.value.head? ≠ some '/') :
    Reads v strict (some m) after t rest (some m) := by
  obtain ⟨off, ⟨c, x, s, value, hc, word, ipv4⟩, w, rfl⟩ := meets
  have slash : Text.isSpace '/' = false := by decide
  have tight : t.value.trimEnd = t.value := by
    rw [value]
    exact word.trimEnd_of_ipv4 ipv4
  obtain ⟨-, none⟩ | ⟨u, behind, rfl, placeholder⟩ |
    ⟨u, behind, o, later, rfl, hu, scan, known, same, -⟩ := agrees.cases (Or.inr (by simp))
  · have := blank_of_tokens none '/' List.mem_cons_self
    rw [slash] at this
    cases this
  · exact reads_halted off clear literal tight value hc word ⟨u, behind, rfl, Or.inl placeholder⟩
  · obtain ⟨place', begins⟩ := tokens_near (v := v) ⟨place, some m, .literal, true⟩ (w := w) slash
    rw [begins] at scan
    obtain ⟨rfl, -⟩ := List.cons.inj scan
    obtain ⟨y, shown⟩ := kept_cons (v := v) slash (w.take
      (next v (some m) .literal true '/' w).more)
    refine absurd ?_ (apart (by rw [value]; exact (word.chars_of_ipv4 ipv4).1) u rfl hu)
    rw [← same]
    exact congrArg List.head? shown

/-- A literal that printing leaves alone is read as itself. -/
theorem reads_of_kept {texts : List Text} {k : Context} (h : Kept v strict texts k t rest)
    (literal : t.isLiteral) (visible : t.isSpace = false)
    (near : v.markSpaces → ∀ u ∈ rest.head?, u.spaceBefore = false) :
    Reads v strict k.quotation k.afterIpv4 t rest (Context.past k.quotation t) := by
  obtain ⟨text, -, ⟨before, o, others⟩, mem, eq, known, value, agrees, ending⟩ := h.stands
  dsimp only at eq known value agrees
  have visible' : o.isSpace = false := by
    simpa [Token.isSpace, known, literal, value] using visible
  have place := foundIn_of_tokens (mem_splits.1 mem) known visible'
  rw [show before.foldl Context.behind ({} : Cursor).context = k from eq] at place
  obtain ⟨last, place, c, w, f, after, hc, suffix, hf, found, shown, rfl⟩ := place
  have own : t.value = kept v (c :: w.take f.more) := value.symm.trans shown
  have behind : rest = [] → t.value.trimEnd = t.value →
      ∀ d ∈ (c :: w).getLast?, Text.isSpace d = false := by
    intro none tight d hd
    obtain ⟨_, rfl⟩ := suffix
    refine ending none tight d ?_
    rw [List.getLast?_append, hd]
    rfl
  rw [quotation_next hf hc (literal.trans found.symm) own, after]
  obtain ⟨kind, reads | ⟨m, hm, hm', meets⟩⟩ :=
    reads_literal hf found hc h.clear literal own agrees near behind
  · exact reads
  · have apart := h.apart meets.off (by simp [hm])
    rw [hm, hm', kind] at agrees
    rw [hm, hm']
    exact reads_apart meets h.clear literal agrees apart

end Scan

end LogTemplate
