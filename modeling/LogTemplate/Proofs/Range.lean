import LogTemplate.Proofs.Piece

/-!
# Where the values of a scan stand in the text

Where white space is not kept, a scan takes a text apart and loses nothing but white space.

* `Scan.anchors_eq_error_iff` tells which announced position makes a scan fail;
* `Scan.value_of_mem_pieces` says that the value of a piece is what it takes, trimmed at its end;
* `Scan.TakesApart` puts together where the values of all tokens stand, and
  `Scan.takesApart_or_fails` proves it of messages and of pattern text.
-/

namespace LogTemplate.Scan

open Placeholder

variable {v : Vocabulary} {mode : Mode} {cursor : Cursor} {text gap rest : Text} {c : Char}
  {f : Found} {offsets : List Nat}

/-! ### Announced positions -/

/-- The position is the first of the announced ones at which a run stands that is not valid. -/
def IsFirstBad (v : Vocabulary) (text : Text) (offsets : List Nat) (body : Text) (offset : Nat) :
    Prop :=
  ∃ before after, offsets = before ++ offset :: after ∧ RunAt text offset body ∧
    parse? v body = none ∧ ∀ o ∈ before, ∀ b, RunAt text o b → (parse? v b).isSome

theorem isFirstBad_cons {o offset : Nat} {body : Text} :
    IsFirstBad v text (o :: offsets) body offset ↔
      (o = offset ∧ RunAt text o body ∧ parse? v body = none) ∨
      ((∀ b, RunAt text o b → (parse? v b).isSome) ∧ IsFirstBad v text offsets body offset) := by
  constructor
  · rintro ⟨before, after, eq, run, bad, good⟩
    cases before with
    | nil =>
      cases eq
      exact .inl ⟨rfl, run, bad⟩
    | cons o' before =>
      cases eq
      exact .inr ⟨good _ List.mem_cons_self, before, after, rfl, run, bad,
        fun o ho => good o (List.mem_cons_of_mem _ ho)⟩
  · rintro (⟨rfl, run, bad⟩ | ⟨good, before, after, rfl, run, bad, others⟩)
    · exact ⟨[], offsets, rfl, run, bad, by simp⟩
    · refine ⟨o :: before, after, rfl, run, bad, fun o' ho' => ?_⟩
      rcases List.mem_cons.1 ho' with rfl | ho'
      · exact good
      · exact others o' ho'

/-- The announced positions are refused for the first bad one. -/
theorem anchors_eq_error_iff {e : ScanError} : anchors v text offsets = .error e ↔
    ∃ body offset, e = .badPlaceholder body offset ∧ IsFirstBad v text offsets body offset := by
  have map : ∀ {β : Type} (g : List Nat × Bool → β) (x : Except ScanError (List Nat × Bool)),
      x.map g = .error e ↔ x = .error e := fun g x => by cases x <;> simp [Except.map]
  induction offsets with
  | nil => simp [anchors, IsFirstBad]
  | cons o offsets ih =>
    rw [anchors]
    simp only [isFirstBad_cons, ← bodyAt?_eq_some_iff]
    cases found : bodyAt? text o with
    | none => simp [map, ih]
    | some b =>
      cases parsed : parse? v b with
      | none =>
        simp only [parsed, Except.error.injEq, Option.some.injEq]
        constructor
        · rintro rfl
          exact ⟨b, o, rfl, .inl ⟨rfl, rfl, parsed⟩⟩
        · rintro ⟨body, offset, rfl, ⟨rfl, rfl, -⟩ | ⟨good, -⟩⟩
          · rfl
          · have := good b rfl
            rw [parsed] at this
            cases this
      | some t =>
        simp only [parsed, map, ih, Option.some.injEq]
        constructor
        · rintro ⟨body, offset, rfl, bad⟩
          exact ⟨body, offset, rfl, .inr ⟨fun _ eq => by rw [← eq, parsed]; rfl, bad⟩⟩
        · rintro ⟨body, offset, rfl, ⟨-, rfl, bad⟩ | ⟨-, bad⟩⟩
          · rw [parsed] at bad
            cases bad
          · exact ⟨body, offset, rfl, bad⟩

theorem mem_insertSorted {n m : Nat} {l : List Nat} (h : m ∈ insertSorted n l) :
    m = n ∨ m ∈ l := by
  induction l with
  | nil => exact .inl (List.mem_singleton.1 h)
  | cons k l ih =>
    unfold insertSorted at h
    split at h
    · exact List.mem_cons.1 h
    · split at h
      · exact .inr h
      · rcases List.mem_cons.1 h with rfl | h
        · exact .inr List.mem_cons_self
        · exact (ih h).imp_right (List.mem_cons_of_mem _)

/-- At the positions that are found stand valid runs. -/
theorem runAt_of_mem_anchors {found : List Nat} {fresh : Bool}
    (h : anchors v text offsets = .ok (found, fresh)) :
    ∀ a ∈ found, a ∈ offsets ∧ ∃ b t, RunAt text a b ∧ parse? v b = some t := by
  induction offsets generalizing found fresh with
  | nil =>
    cases h
    simp
  | cons o offsets ih =>
    have later : ∀ {found fresh}, anchors v text offsets = .ok (found, fresh) →
        ∀ a ∈ found, a ∈ o :: offsets ∧ ∃ b t, RunAt text a b ∧ parse? v b = some t :=
      fun h a ha => (ih h a ha).imp_left (List.mem_cons_of_mem _)
    rw [anchors] at h
    cases here : bodyAt? text o with
    | none =>
      rw [here] at h
      cases rest : anchors v text offsets with
      | error e => simp [rest, Except.map] at h
      | ok answer =>
        simp only [rest, Except.map, Except.ok.injEq, Prod.mk.injEq] at h
        obtain ⟨rfl, rfl⟩ := h
        exact later rest
    | some b =>
      rw [here] at h
      cases parsed : parse? v b with
      | none => simp [parsed] at h
      | some t =>
        cases rest : anchors v text offsets with
        | error e => simp [parsed, rest, Except.map] at h
        | ok answer =>
          simp only [parsed, rest, Except.map, Except.ok.injEq, Prod.mk.injEq] at h
          obtain ⟨rfl, rfl⟩ := h
          intro a ha
          rcases mem_insertSorted ha with rfl | ha
          · exact ⟨List.mem_cons_self, b, t, bodyAt?_eq_some_iff.1 here, parsed⟩
          · exact later rest a ha

/-- The positions that force a token to begin are those of valid runs. -/
theorem runAt_of_patternMode (h : patternMode v text offsets = .ok mode) :
    ∀ a ∈ mode.anchors, a ∈ offsets ∧ ∃ b t, RunAt text a b ∧ parse? v b = some t := by
  unfold patternMode at h
  cases found : anchors v text offsets with
  | error e => simp [found, Except.map] at h
  | ok answer =>
    have runs := runAt_of_mem_anchors found
    simp only [found, Except.map, Except.ok.injEq] at h
    split at h <;> cases h <;> exact runs

/-! ### Values -/

theorem trimEnd_run (b : Text) : (run b).trimEnd = run b := by
  refine Text.trimEnd_of_getLast fun c hc => ?_
  have last : (run b).getLast? = some '%' := List.getLast?_concat
  rw [last] at hc
  cases hc
  decide

/-- The value of a token is what the token takes, trimmed at its end. -/
theorem value_of_found (off : v.markSpaces = false) {place : Nat}
    (found : Scan.found v mode cursor place c rest = f) :
    f.token.value = Text.trimEnd (c :: rest.take f.more) := by
  unfold Scan.found at found
  cases h : placeholder? v mode cursor place (c :: rest) with
  | some g =>
    rw [h] at found
    cases found
    obtain ⟨-, body, after, t, -, eq, parsed, rfl⟩ := placeholder?_eq_some_iff.1 h
    show t.value = Text.trimEnd (c :: rest.take (body.length + 1))
    rw [(value_of_parse? parsed).1, (take_of_run eq).1, trimEnd_run]
  | none =>
    rw [h] at found
    cases found
    simp [plain, off]

/-- The value of a piece is what the piece takes, trimmed at its end. It takes no white space at its
beginning. -/
theorem value_of_mem_pieces (off : v.markSpaces = false) {p : Piece}
    (hp : p ∈ pieces v mode cursor text) : p.token.value = p.taken.trimEnd ∧
      ∃ c t, p.taken = c :: t ∧ Text.isSpace c = false := by
  induction cursor, text using induct v mode with
  | blank cursor gap blank =>
    rw [pieces_of_blank blank] at hp
    cases hp
  | cut cursor gap c rest blank hc cut =>
    rw [pieces_of_cut blank hc cut, List.mem_singleton] at hp
    subst hp
    have all : (cutPiece cursor gap (c :: rest)).taken = c :: rest := List.take_length
    rw [all]
    exact ⟨rfl, c, rest, rfl, hc⟩
  | cons cursor gap c rest f blank hc uncut found ih =>
    rw [pieces_of_cons blank hc uncut found] at hp
    rcases List.mem_cons.1 hp with rfl | hp
    · rw [taken_piece found, ← value_of_found off found]
      obtain ⟨branch, data, eq, -⟩ := piece_of_found found
      rw [eq]
      exact ⟨rfl, c, _, rfl, hc⟩
    · exact ih hp

/-- The byte position behind the value of a piece. -/
def Piece.stop (p : Piece) : Nat := p.place + p.token.value.bytes

/-- The value of a piece begins what the piece takes, and nothing but white space follows it. -/
theorem taken_eq_append (off : v.markSpaces = false) {p : Piece}
    (hp : p ∈ pieces v mode cursor text) :
    ∃ blank, p.taken = p.token.value ++ blank ∧ ∀ d ∈ blank, Text.isSpace d := by
  obtain ⟨blank, eq, spaces⟩ := Text.exists_trimEnd_append p.taken
  exact ⟨blank, by rwa [← (value_of_mem_pieces off hp).1] at eq, spaces⟩

theorem stop_le (off : v.markSpaces = false) {p : Piece} (hp : p ∈ pieces v mode cursor text) :
    p.stop ≤ p.place + p.taken.bytes := by
  obtain ⟨blank, eq, -⟩ := taken_eq_append off hp
  rw [eq, Text.bytes_append]
  exact Nat.add_le_add_left (Nat.le_add_right _ _) _

/-- What stands outside of the values is white space. -/
theorem isSpace_or_mem_pieces (off : v.markSpaces = false) (mode : Mode) (cursor : Cursor)
    (text : Text) : ∀ x d y, text = x ++ d :: y → Text.isSpace d ∨
      ∃ p ∈ pieces v mode cursor text,
        p.place ≤ cursor.place + Text.bytes x ∧ cursor.place + Text.bytes x < p.stop := by
  -- A character of what a piece takes is one of its value, or of the white space behind it.
  have inside : ∀ (p : Piece) (x : Text) (d : Char) (z behind : Text),
      p.taken = p.token.value ++ behind → (∀ e ∈ behind, Text.isSpace e) → p.taken = x ++ d :: z →
      Text.isSpace d ∨ p.place ≤ p.place + Text.bytes x ∧ p.place + Text.bytes x < p.stop := by
    intro p x d z behind eq spaces here
    rcases Text.append_cons_eq_append (here.symm.trans eq) with ⟨z, value⟩ | ⟨z, -, rfl⟩
    · refine .inr ⟨Nat.le_add_right _ _, ?_⟩
      have := Text.bytes_pos (List.cons_ne_nil d z)
      simp only [Piece.stop, value, Text.bytes_append]
      omega
    · exact .inl (spaces d (by simp))
  induction cursor, text using induct v mode with
  | blank cursor gap blank =>
    rintro x d y rfl
    exact .inl (blank d (by simp))
  | cut cursor gap c rest blank hc cut =>
    intro x d y eq
    have mem : cutPiece cursor gap (c :: rest) ∈ pieces v mode cursor (gap ++ c :: rest) := by
      rw [pieces_of_cut blank hc cut]
      exact List.mem_cons_self
    obtain ⟨behind, value, spaces⟩ := taken_eq_append off mem
    have taken : (cutPiece cursor gap (c :: rest)).taken = c :: rest := List.take_length
    rcases Text.append_cons_eq_append eq.symm with ⟨z, rfl⟩ | ⟨z, rfl, here⟩
    · exact .inl (blank d (by simp))
    · refine (inside _ z d y behind value spaces (taken.trans here)).imp_right fun within =>
        ⟨_, mem, ?_⟩
      rw [Text.bytes_append, ← Nat.add_assoc]
      exact within
  | cons cursor gap c rest f blank hc uncut found ih =>
    intro x d y eq
    have mem : piece v mode cursor gap c rest ∈ pieces v mode cursor (gap ++ c :: rest) := by
      rw [pieces_of_cons blank hc uncut found]
      exact List.mem_cons_self
    have place : (piece v mode cursor gap c rest).place = cursor.place + Text.bytes gap := by
      obtain ⟨branch, data, eq, -⟩ := piece_of_found found
      rw [eq]
      rfl
    obtain ⟨behind, value, spaces⟩ := taken_eq_append off mem
    rcases Text.append_cons_eq_append eq.symm with ⟨z, rfl⟩ | ⟨z, rfl, here⟩
    · exact .inl (blank d (by simp))
    · have split : z ++ d :: y = (c :: rest.take f.more) ++ rest.drop f.more := by
        rw [← here, List.cons_append, List.take_append_drop]
      rcases Text.append_cons_eq_append split with ⟨z', within⟩ | ⟨z', rfl, later⟩
      · refine (inside _ z d z' behind value spaces ((taken_piece found).trans within)).imp_right
          fun within => ⟨_, mem, ?_⟩
        rw [Text.bytes_append, ← Nat.add_assoc, ← place]
        exact within
      · refine (ih z' d y later).imp_right fun ⟨p, hp, within⟩ => ⟨p, ?_, ?_⟩
        · rw [pieces_of_cons blank hc uncut found]
          exact List.mem_cons_of_mem _ hp
        · rw [place_behind] at within
          simpa [Nat.add_assoc] using within

/-- The tokens are those of pieces of the text. The values of the pieces stand in the text one
behind the other and are not empty, they neither begin nor end with white space, and nothing but
white space is left of the text outside of them. -/
structure TakesApart (v : Vocabulary) (mode : Mode) (text : Text) (line : Line) : Prop where
  tokens : line = (pieces v mode {} text).map (·.token)
  /-- All that is read for a piece is a slice of the text, and the piece takes some of it. -/
  inText : ∀ p ∈ pieces v mode {} text, p.InText mode text
  values : ∀ p ∈ pieces v mode {} text, text.IsSlice p.place p.stop p.token.value ∧
    p.place < p.stop ∧ (∀ c ∈ p.token.value.head?, Text.isSpace c = false) ∧
      ∀ c ∈ p.token.value.getLast?, Text.isSpace c = false
  apart : (pieces v mode {} text).Pairwise fun p q => p.stop ≤ q.place
  outside : ∀ (x : Text) (c : Char) (y : Text), text = x ++ c :: y →
    (∀ p ∈ pieces v mode {} text, x.bytes < p.place ∨ p.stop ≤ x.bytes) → Text.isSpace c

theorem takesApart (off : v.markSpaces = false) (places : ∀ a ∈ mode.anchors, text.IsPlace a) :
    TakesApart v mode text (Scan.tokens v mode {} text) where
  tokens := tokens_eq_map off mode {} text
  inText := inText_of_mem_pieces places
  values p hp := by
    obtain ⟨value, c, t, taken, hc⟩ := value_of_mem_pieces off hp
    obtain ⟨t', begins⟩ := Text.trimEnd_cons hc t
    rw [← taken, ← value] at begins
    obtain ⟨blank, eq, -⟩ := taken_eq_append off hp
    have slice : text.IsSlice p.place p.stop p.token.value := by
      have := (inText_of_mem_pieces places p hp).taken
      rw [eq] at this
      exact this.left
    refine ⟨slice, slice.lt ?_, ?_, ?_⟩
    · rw [begins]
      exact List.cons_ne_nil _ _
    · rw [begins]
      rintro d ⟨⟩
      exact hc
    · rw [value]
      exact Text.getLast_trimEnd _
  apart := by
    refine (pairwise_pieces v mode {} text).imp_of_mem fun hp _ le => ?_
    exact (stop_le off hp).trans le
  outside x c y eq none := by
    rcases isSpace_or_mem_pieces off mode {} text x c y eq with space | ⟨p, hp, ge, lt⟩
    · exact space
    · rw [Nat.zero_add] at ge lt
      rcases none p hp with before | behind
      · exact absurd ge (Nat.not_le.2 before)
      · exact absurd lt (Nat.not_lt.2 behind)

/-- Where white space is not kept, a scan of a message takes the text apart. So does a scan of
pattern text, unless a run that is not valid stands at an announced position; then the scan fails
for the first such position. -/
theorem takesApart_or_fails (off : v.markSpaces = false) (text : Text) (offsets : List Nat) :
    TakesApart v .message text (message v text) ∧
    (∀ e, pattern v text offsets = .error e ↔
      ∃ body offset, e = .badPlaceholder body offset ∧ IsFirstBad v text offsets body offset) ∧
    ∀ line, pattern v text offsets = .ok line →
      ∃ mode, patternMode v text offsets = .ok mode ∧ TakesApart v mode text line := by
  refine ⟨takesApart off (by simp [Mode.anchors]), fun e => ?_, fun line h => ?_⟩
  · rw [← anchors_eq_error_iff]
    unfold pattern patternMode
    cases anchors v text offsets <;> simp [Except.map]
  · obtain ⟨mode, eq, rfl⟩ := pattern_eq_ok_iff.1 h
    refine ⟨mode, eq, takesApart off fun a ha => ?_⟩
    obtain ⟨-, b, t, run, -⟩ := runAt_of_patternMode eq a ha
    exact run.isPlace

/-- A message, a pattern text with a valid placeholder, and one with a placeholder that is not. -/
theorem takesApart_or_fails_up : ∃ v, Vocabulary.ofSettings {} = .ok v ∧ v.markSpaces = false ∧
    TakesApart v .message "up 5 s".toList (message v "up 5 s".toList) ∧
    (∃ line mode, pattern v "up %integer% s".toList [3] = .ok line ∧
      TakesApart v mode "up %integer% s".toList line) ∧
    ∃ body offset, pattern v "up %bogus% s".toList [3] = .error (.badPlaceholder body offset) ∧
      IsFirstBad v "up %bogus% s".toList [3] body offset := by
  let v : Vocabulary := {
    tags := [("regextime".toList, .time), ("multiline".toList, .multiline)]
    regextime := ⟨1⟩
    multiline := ⟨2⟩ }
  have off : v.markSpaces = false := rfl
  have scans : (pattern v "up %integer% s".toList [3]).isOk := by decide +kernel
  have fails : pattern v "up %bogus% s".toList [3] = .error (.badPlaceholder "bogus".toList 3) := by
    decide +kernel
  obtain ⟨message, -, -⟩ := takesApart_or_fails off "up 5 s".toList []
  obtain ⟨-, -, good⟩ := takesApart_or_fails off "up %integer% s".toList [3]
  obtain ⟨-, bad, -⟩ := takesApart_or_fails off "up %bogus% s".toList [3]
  refine ⟨v, rfl, off, message, ?_, ?_⟩
  · cases eq : pattern v "up %integer% s".toList [3] with
    | error e =>
      rw [eq] at scans
      cases scans
    | ok line =>
      obtain ⟨mode, -, apart⟩ := good line eq
      exact ⟨line, mode, rfl, apart⟩
  · obtain ⟨body, offset, same, first⟩ := (bad _).1 fails
    exact ⟨body, offset, by rw [fails, same], first⟩

end LogTemplate.Scan
