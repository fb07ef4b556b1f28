import LogTemplate.Proofs.Scan
import LogTemplate.Proofs.Slice
import LogTemplate.Proofs.Timestamp

/-!
# Pieces of a scan

A piece is a token of a scan together with where it was found.

* `Scan.pieces` lists the pieces of a text, `Scan.tokens_eq_pieces` gives the tokens back from them;
* `Scan.length_plain` bounds what a token takes that is no placeholder;
* `Scan.inText_of_mem_pieces` says that all that is read for a piece is a slice of the text,
  `Scan.pairwise_pieces` that no piece takes anything of another one.
-/

namespace LogTemplate

namespace Scan

variable {v : Vocabulary} {mode : Mode} {cursor : Cursor} {text gap rest : Text} {c : Char}
  {place : Nat} {f : Found}

/-! ### Widths -/

theorem more_finish_le (s : WordState) (n : Nat) (finalDot : Bool) :
    (Lexeme.finish s n finalDot).more ≤ n := by
  unfold Lexeme.finish
  split
  · split
    · exact Nat.sub_le n 1
    · exact Nat.le_refl n
  · exact Nat.le_refl n
  · dsimp only
    split
    · exact Nat.sub_le n 1
    · exact Nat.le_refl n
  · exact Nat.le_refl n

theorem fst_read_le (q : Option Quotation) (i : Nat) (s : WordState) (t : Text) :
    (WordState.read q i s t).1 ≤ t.length := by
  induction t generalizing i s with
  | nil => exact Nat.le_refl 0
  | cons c t ih =>
    rw [WordState.read]
    split
    · exact Nat.zero_le _
    · exact Nat.succ_le_succ (ih _ _)

/-- A word takes no more than there is. -/
theorem more_ofWord_le (q : Option Quotation) (atEnd after : Bool) (c : Char) (t : Text) :
    (Lexeme.ofWord q atEnd after c t).1.more ≤ t.length := by
  by_cases mark : isMark q c
  · rw [Lexeme.ofWord_mark mark]
    exact Nat.zero_le _
  · rw [Lexeme.ofWord_of_firstKind? (by simpa using mark)]
    split
    · exact Nat.zero_le _
    · exact (more_finish_le _ _ _).trans (fst_read_le q 1 _ t)

/-- A timestamp, an address or a word takes no more than there is. -/
theorem more_next_le (v : Vocabulary) (q : Option Quotation) (last : Kind) (atEnd : Bool) (c : Char)
    (t : Text) : (next v q last atEnd c t).more ≤ t.length := by
  unfold next
  split
  · next m time =>
    have := (TimeMatcher.length_of_match? time).2
    rw [List.length_cons] at this
    exact Nat.sub_le_of_le_add this
  · split
    · next n kind address =>
      obtain ⟨x, w, s, eq, rfl, -⟩ := address?_eq_some_iff.1 address
      have := congrArg List.length eq
      rw [List.length_cons, List.length_append] at this
      exact Nat.sub_le_of_le_add (by omega)
    · exact more_ofWord_le _ _ _ _ _

theorem window_prefix (mode : Mode) (place : Nat) (c : Char) (rest : Text) :
    (window mode place c rest).1 <+: rest := by
  unfold window
  split
  · exact Text.takeBytes_prefix _ _
  · exact List.prefix_rfl

/-- A token that is no placeholder takes no more than its window. -/
theorem more_plain_le (v : Vocabulary) (mode : Mode) (cursor : Cursor) (place : Nat) (c : Char)
    (rest : Text) :
    (plain v mode cursor place c rest).more ≤ (window mode place c rest).1.length :=
  more_next_le _ _ _ _ _ _

theorem placeholder?_eq_some_iff :
    placeholder? v mode cursor place text = some f ↔
      mode.allows place ∧ ∃ body after t, Placeholder.IsBody body ∧
        text = Placeholder.run body ++ after ∧ Placeholder.parse? v body = some t ∧
        f = ⟨t, body.length + 1, cursor.quotation⟩ := by
  unfold placeholder?
  by_cases allowed : mode.allows place
  · simp only [allowed, if_true, true_and, Option.bind_eq_bind, Option.bind_eq_some_iff,
      Prod.exists, Placeholder.run?_eq_some_iff, Option.pure_def, Option.some.injEq]
    constructor
    · rintro ⟨body, after, ⟨isBody, rfl⟩, t, parsed, rfl⟩
      exact ⟨body, after, t, isBody, by simp [Placeholder.run], parsed, rfl⟩
    · rintro ⟨body, after, t, isBody, rfl, parsed, rfl⟩
      exact ⟨body, after, ⟨isBody, by simp [Placeholder.run]⟩, t, parsed, rfl⟩
  · simp [allowed]

/-! ### Pieces -/

/-- The ways in which the loop comes to a token. -/
inductive Branch where
  | placeholder
  /-- A timestamp, an address or a word. -/
  | plain
  /-- A text over several lines. -/
  | multiline
  deriving DecidableEq, Repr

/-- A token of a scan with where it was found. -/
structure Piece where
  branch : Branch
  /-- The white space before it. -/
  gap : Text
  /-- The byte position at which it begins. -/
  place : Nat
  /-- The text from there on that it may take. -/
  window : Text
  /-- The number of characters that it takes. -/
  width : Nat
  token : Token
  deriving DecidableEq, Repr

/-- The text that a piece takes. -/
def Piece.taken (p : Piece) : Text := p.window.take p.width

/-- The tokens that a piece gives: white space that is kept, and its own. -/
def Piece.line (v : Vocabulary) (p : Piece) : Line :=
  (if p.branch = .multiline then if v.markSpaces then [.literal [' ']] else [] else spaces v p.gap)
    ++ [p.token]

/-- The piece of a token that was found behind the white space `gap`. -/
def Found.piece (f : Found) (branch : Branch) (cursor : Cursor) (gap window : Text) : Piece where
  branch := branch
  gap := gap
  place := cursor.place + Text.bytes gap
  window := window
  width := f.more + 1
  token := { f.token with spaceBefore := !gap.isEmpty }

/-- The piece that begins with `c` behind the white space `gap`. -/
def piece (v : Vocabulary) (mode : Mode) (cursor : Cursor) (gap : Text) (c : Char) (rest : Text) :
    Piece :=
  match placeholder? v mode cursor (cursor.place + Text.bytes gap) (c :: rest) with
  | some f => f.piece .placeholder cursor gap (c :: rest)
  | none =>
    (plain v mode cursor (cursor.place + Text.bytes gap) c rest).piece .plain cursor gap
      (c :: (window mode (cursor.place + Text.bytes gap) c rest).1)

/-- The text over several lines behind the white space `gap`. -/
def cutPiece (cursor : Cursor) (gap text : Text) : Piece where
  branch := .multiline
  gap := gap
  place := cursor.place + Text.bytes gap
  window := text
  width := text.length
  token := { value := text.trimEnd, kind := .multiline, spaceBefore := true }

/-- The pieces of a text from a cursor on. -/
def pieces (v : Vocabulary) (mode : Mode) (cursor : Cursor) (text : Text) : List Piece :=
  let gap := text.takeWhile Text.isSpace
  match h : text.dropWhile Text.isSpace with
  | [] => []
  | c :: rest =>
    have shrinks : rest.length < text.length := by
      have := (List.dropWhile_sublist Text.isSpace (l := text)).length_le
      rw [h, List.length_cons] at this
      omega
    if cursor.isCut gap then [cutPiece cursor gap (c :: rest)]
    else
      let f := found v mode cursor (cursor.place + Text.bytes gap) c rest
      piece v mode cursor gap c rest ::
        pieces v mode (cursor.behind gap f c rest) (rest.drop f.more)
termination_by text.length
decreasing_by
  simp only [List.length_drop]; omega

theorem pieces_of_blank (blank : ∀ d ∈ gap, Text.isSpace d) : pieces v mode cursor gap = [] := by
  rw [pieces]
  split
  · rfl
  · next eq =>
    rw [List.dropWhile_eq_nil_iff.2 blank] at eq
    cases eq

theorem pieces_of_cut (blank : ∀ d ∈ gap, Text.isSpace d) (hc : Text.isSpace c = false)
    (cut : cursor.isCut gap) :
    pieces v mode cursor (gap ++ c :: rest) = [cutPiece cursor gap (c :: rest)] := by
  obtain ⟨taken, dropped⟩ := gap_append blank hc rest
  rw [pieces]
  split
  · next eq => rw [dropped] at eq; cases eq
  · next eq =>
    rw [dropped] at eq
    cases eq
    simp only [taken, cut, if_true]

theorem pieces_of_cons (blank : ∀ d ∈ gap, Text.isSpace d) (hc : Text.isSpace c = false)
    (uncut : cursor.isCut gap = false)
    (found : Scan.found v mode cursor (cursor.place + Text.bytes gap) c rest = f) :
    pieces v mode cursor (gap ++ c :: rest) = piece v mode cursor gap c rest ::
      pieces v mode (cursor.behind gap f c rest) (rest.drop f.more) := by
  obtain ⟨taken, dropped⟩ := gap_append blank hc rest
  rw [pieces]
  split
  · next eq => rw [dropped] at eq; cases eq
  · next eq =>
    rw [dropped] at eq
    cases eq
    simp only [taken, uncut, found, Bool.false_eq_true, if_false]

/-- A piece is that of the token that was found, which lies within the piece's window. -/
theorem piece_of_found
    (found : Scan.found v mode cursor (cursor.place + Text.bytes gap) c rest = f) :
    ∃ branch data, piece v mode cursor gap c rest = f.piece branch cursor gap (c :: data) ∧
      branch ≠ .multiline ∧ data <+: rest ∧ f.more ≤ data.length := by
  unfold Scan.found at found
  unfold piece
  cases h : placeholder? v mode cursor (cursor.place + Text.bytes gap) (c :: rest) with
  | some g =>
    rw [h] at found
    cases found
    obtain ⟨-, body, after, t, -, eq, -, rfl⟩ := placeholder?_eq_some_iff.1 h
    exact ⟨.placeholder, rest, rfl, by simp, List.prefix_rfl, (Placeholder.take_of_run eq).2⟩
  | none =>
    rw [h] at found
    cases found
    exact ⟨.plain, _, rfl, by simp, window_prefix _ _ _ _, more_plain_le _ _ _ _ _ _⟩

/-- What a piece takes is what the loop passes over. -/
theorem taken_piece
    (found : Scan.found v mode cursor (cursor.place + Text.bytes gap) c rest = f) :
    (piece v mode cursor gap c rest).taken = c :: rest.take f.more := by
  obtain ⟨branch, data, eq, -, ⟨behind, rfl⟩, le⟩ := piece_of_found found
  rw [eq, List.take_append_of_le_length le]
  rfl

/-- The tokens of a scan are those of its pieces, and white space that is kept at the end. -/
theorem tokens_eq_pieces (v : Vocabulary) (mode : Mode) (cursor : Cursor) (text : Text) :
    ∃ gap, tokens v mode cursor text =
      (pieces v mode cursor text).flatMap (Piece.line v) ++ spaces v gap := by
  induction cursor, text using induct v mode with
  | blank cursor gap blank =>
    rw [tokens_of_blank blank, pieces_of_blank blank]
    split
    · exact ⟨[], by simp [spaces]⟩
    · exact ⟨gap, rfl⟩
  | cut cursor gap c rest blank hc cut =>
    rw [tokens_of_cut blank hc cut, pieces_of_cut blank hc cut]
    exact ⟨[], by simp [spaces, multiline, Piece.line, cutPiece]⟩
  | cons cursor gap c rest f blank hc uncut found ih =>
    obtain ⟨final, ih⟩ := ih
    rw [tokens_of_cons blank hc uncut found, pieces_of_cons blank hc uncut found, ih]
    obtain ⟨branch, data, eq, ne, -⟩ := piece_of_found found
    exact ⟨final, by simp [eq, Piece.line, Found.piece, ne]⟩

/-- Where no white space is kept, the tokens are those of the pieces. -/
theorem tokens_eq_map (off : v.markSpaces = false) (mode : Mode) (cursor : Cursor) (text : Text) :
    tokens v mode cursor text = (pieces v mode cursor text).map (·.token) := by
  obtain ⟨gap, eq⟩ := tokens_eq_pieces v mode cursor text
  have alone : Piece.line v = fun p => [p.token] := by
    funext p
    simp [Piece.line, spaces, off]
  rw [eq, alone, List.map_eq_flatMap]
  simp [spaces, off]

/-! ### Slices -/

/-- Where the text ends that a token at a byte position may take, which is no placeholder: at the
next announced placeholder or at the end of the text. -/
def Mode.limit (mode : Mode) (text : Text) (place : Nat) : Nat :=
  (mode.anchors.find? (place < ·)).getD (Text.bytes text)

/-- All that is read for a piece is a slice of the text, and the piece takes some of it. -/
structure Piece.InText (mode : Mode) (text : Text) (p : Piece) : Prop where
  gap : ∃ a, text.IsSlice a p.place p.gap
  window : text.IsSlice p.place
    (if p.branch = .plain then mode.limit text p.place else text.bytes) p.window
  width : 0 < p.width ∧ p.width ≤ p.window.length

/-- What a piece takes is a slice of the text. -/
theorem Piece.InText.taken {p : Piece} (h : p.InText mode text) :
    text.IsSlice p.place (p.place + p.taken.bytes) p.taken := by
  have := h.window
  rw [← List.take_append_drop p.width p.window] at this
  exact this.left

/-- A window is a slice of the text, if no announced position is inside of a character. -/
theorem isSlice_window {x : Text} (places : ∀ a ∈ mode.anchors, text.IsPlace a)
    (eq : text = x ++ c :: rest) : text.IsSlice x.bytes (mode.limit text x.bytes)
      (c :: (window mode x.bytes c rest).1) := by
  unfold Mode.limit window
  cases next : mode.anchors.find? (x.bytes < ·) with
  | none => exact Text.isSlice_end eq
  | some anchor =>
    have lt : x.bytes < anchor := by simpa using List.find?_some next
    obtain ⟨y, y', split, rfl⟩ := places anchor (List.mem_of_find?_eq_some next)
    obtain ⟨z, rfl, whole⟩ := Text.append_eq_append_of_le (eq.symm.trans split) lt.le
    cases z with
    | nil => simp at lt
    | cons d data =>
      rw [List.cons_append] at whole
      obtain ⟨rfl, rfl⟩ := List.cons.inj whole
      have size : (x ++ c :: data).bytes - x.bytes - c.utf8Size = Text.bytes data := by
        rw [Text.bytes_append, Text.bytes_cons]
        omega
      have taken := Text.takeBytes_bytes_append data y'
      rw [← size] at taken
      show text.IsSlice x.bytes (x ++ c :: data).bytes (c :: Text.takeBytes (data ++ y') _)
      rw [taken]
      exact ⟨x, y', by simpa using eq, rfl, Text.bytes_append _ _⟩

theorem inText_piece {x : Text} (places : ∀ a ∈ mode.anchors, text.IsPlace a)
    (place : cursor.place = x.bytes) (eq : text = x ++ (gap ++ c :: rest)) :
    (piece v mode cursor gap c rest).InText mode text := by
  have start : cursor.place + Text.bytes gap = (x ++ gap).bytes := by simp [place]
  have before : text.IsSlice x.bytes (cursor.place + Text.bytes gap) gap :=
    ⟨x, c :: rest, eq, rfl, by rw [place]⟩
  have eq' : text = (x ++ gap) ++ c :: rest := by simpa using eq
  unfold piece
  cases h : placeholder? v mode cursor (cursor.place + Text.bytes gap) (c :: rest) with
  | some f =>
    obtain ⟨-, body, after, t, -, run, -, rfl⟩ := placeholder?_eq_some_iff.1 h
    refine ⟨⟨_, before⟩, ?_, Nat.succ_pos _, ?_⟩
    · show text.IsSlice (cursor.place + Text.bytes gap) text.bytes (c :: rest)
      rw [start]
      exact Text.isSlice_end eq'
    · exact Nat.succ_le_succ (Placeholder.take_of_run run).2
  | none =>
    refine ⟨⟨_, before⟩, ?_, Nat.succ_pos _, Nat.succ_le_succ (more_plain_le _ _ _ _ _ _)⟩
    show text.IsSlice (cursor.place + Text.bytes gap)
      (mode.limit text (cursor.place + Text.bytes gap))
      (c :: (window mode (cursor.place + Text.bytes gap) c rest).1)
    rw [start]
    exact isSlice_window places eq'

/-- All that is read for the pieces of a text is a slice of the text. -/
theorem inText_of_mem_pieces (places : ∀ a ∈ mode.anchors, text.IsPlace a) :
    ∀ p ∈ pieces v mode {} text, p.InText mode text := by
  have run : ∀ cursor w x, text = x ++ w → cursor.place = Text.bytes x →
      ∀ p ∈ pieces v mode cursor w, p.InText mode text := by
    intro cursor w
    induction cursor, w using induct v mode with
    | blank cursor gap blank =>
      rw [pieces_of_blank blank]
      simp
    | cut cursor gap c rest blank hc cut =>
      intro x eq place p hp
      rw [pieces_of_cut blank hc cut, List.mem_singleton] at hp
      subst hp
      have start : cursor.place + Text.bytes gap = (x ++ gap).bytes := by simp [place]
      refine ⟨⟨x.bytes, x, c :: rest, eq, rfl, start.trans (Text.bytes_append _ _)⟩, ?_,
        Nat.succ_pos _, Nat.le_refl _⟩
      show text.IsSlice (cursor.place + Text.bytes gap) text.bytes (c :: rest)
      rw [start]
      exact Text.isSlice_end (by simpa using eq)
    | cons cursor gap c rest f blank hc uncut found ih =>
      intro x eq place p hp
      rw [pieces_of_cons blank hc uncut found] at hp
      rcases List.mem_cons.1 hp with rfl | hp
      · exact inText_piece places place eq
      · refine ih (x ++ gap ++ c :: rest.take f.more) ?_ ?_ p hp
        · rw [eq]
          simp
        · simp [Cursor.behind, place, Nat.add_assoc]
  exact run {} text [] rfl rfl

/-! ### Order -/

theorem place_behind (cursor : Cursor) (gap : Text) (f : Found) (c : Char) (rest : Text) :
    (cursor.behind gap f c rest).place =
      cursor.place + Text.bytes gap + Text.bytes (c :: rest.take f.more) := rfl

theorem place_le_of_mem_pieces {p : Piece} (hp : p ∈ pieces v mode cursor text) :
    cursor.place ≤ p.place := by
  induction cursor, text using induct v mode with
  | blank cursor gap blank =>
    rw [pieces_of_blank blank] at hp
    cases hp
  | cut cursor gap c rest blank hc cut =>
    rw [pieces_of_cut blank hc cut, List.mem_singleton] at hp
    subst hp
    exact Nat.le_add_right _ _
  | cons cursor gap c rest f blank hc uncut found ih =>
    rw [pieces_of_cons blank hc uncut found] at hp
    rcases List.mem_cons.1 hp with rfl | hp
    · obtain ⟨branch, data, eq, -⟩ := piece_of_found found
      rw [eq]
      exact Nat.le_add_right _ _
    · have := ih hp
      rw [place_behind] at this
      omega

/-- Each piece begins behind what the pieces before it take. -/
theorem pairwise_pieces (v : Vocabulary) (mode : Mode) (cursor : Cursor) (text : Text) :
    (pieces v mode cursor text).Pairwise fun p q => p.place + p.taken.bytes ≤ q.place := by
  induction cursor, text using induct v mode with
  | blank cursor gap blank =>
    rw [pieces_of_blank blank]
    exact .nil
  | cut cursor gap c rest blank hc cut =>
    rw [pieces_of_cut blank hc cut]
    exact List.pairwise_singleton _ _
  | cons cursor gap c rest f blank hc uncut found ih =>
    rw [pieces_of_cons blank hc uncut found]
    refine List.pairwise_cons.2 ⟨fun q hq => ?_, ih⟩
    have behind := place_le_of_mem_pieces hq
    obtain ⟨branch, data, eq, -⟩ := piece_of_found found
    rw [taken_piece found, eq]
    exact behind

end Scan

end LogTemplate
