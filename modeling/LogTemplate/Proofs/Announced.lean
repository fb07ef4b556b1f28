import LogTemplate.Proofs.Produced

/-!
# What a scan recovers of a printed line

* `Placeholder.Runs` says that runs which are placeholders stand one behind the other in a text,
  `Line.runs_printFrom` finds those of a printed line;
* `Scan.reading_placeholders` says that a scan which is given their positions finds a placeholder at
  each of them and nowhere else, by induction over the rounds of the loop;
* `Scan.pattern_print_recovers` puts this together for lines whose placeholders come from scans or
  from what was learned.
-/

namespace LogTemplate

open Placeholder

/-! ### Runs in a text -/

namespace Placeholder

variable {v : Vocabulary} {t x gap w b : Text} {n o : Nat} {entries : List (Nat × Text)}

/-- In the text stand these runs from byte `n` on, one behind the other, and all of them are read as
placeholders. Each is given by its position and its body. -/
inductive Runs (v : Vocabulary) (t : Text) : Nat → List (Nat × Text) → Prop
  | nil {n : Nat} : Runs v t n []
  | cons {n o : Nat} {b : Text} {entries : List (Nat × Text)} (le : n ≤ o) (here : RunAt t o b)
      (read : (parse? v b).isSome) (behind : Runs v t (o + (run b).bytes) entries) :
      Runs v t n ((o, b) :: entries)

theorem Runs.mono {m : Nat} (h : Runs v t n entries) (le : m ≤ n) : Runs v t m entries := by
  cases h with
  | nil => exact .nil
  | cons le' here read behind => exact .cons (le.trans le') here read behind

theorem Runs.le_of_mem (h : Runs v t n entries) : ∀ entry ∈ entries, n ≤ entry.1 := by
  induction h with
  | nil => simp
  | cons le _ _ _ ih =>
    intro entry mem
    rcases List.mem_cons.1 mem with rfl | mem
    · exact le
    · exact le.trans ((Nat.le_add_right _ _).trans (ih entry mem))

theorem Runs.runAt_of_mem (h : Runs v t n entries) :
    ∀ entry ∈ entries, RunAt t entry.1 entry.2 := by
  induction h with
  | nil => simp
  | cons _ run _ _ ih =>
    intro entry mem
    rcases List.mem_cons.1 mem with rfl | mem
    · exact run
    · exact ih entry mem

/-- White space holds no mark, so that a run behind its beginning stands behind its end. -/
theorem RunAt.behind_gap (h : RunAt (x ++ (gap ++ w)) o b) (le : x.bytes ≤ o)
    (blank : ∀ d ∈ gap, Text.isSpace d) :
    ∃ y z, w = y ++ (run b ++ z) ∧ o = x.bytes + gap.bytes + y.bytes := by
  obtain ⟨front, z, eq, rfl, -⟩ := h.slice
  obtain ⟨y, rfl, within⟩ := Text.append_eq_append_of_le eq le
  have marked : run b ++ z = '%' :: (b ++ ['%'] ++ z) := rfl
  rw [marked] at within
  rcases Text.append_cons_eq_append within.symm with ⟨u, here⟩ | ⟨u, rfl, behind⟩
  · have : Text.isSpace '%' := blank '%' (by rw [here]; simp)
    cases this
  · exact ⟨u, z, by rw [behind, marked], by simp [Nat.add_assoc]⟩

end Placeholder

namespace Line

variable {v : Vocabulary} {line : Line}

/-- The bodies of the placeholders, in their order. -/
def bodies (v : Vocabulary) (line : Line) : List Text :=
  (line.filter (·.isPlaceholder)).map (Placeholder.body v)

theorem length_bodies (previous? : Option Token) (start : Nat) :
    (printFrom v previous? start line).offsets.length = (bodies v line).length := by
  induction line generalizing previous? start with
  | nil => rfl
  | cons t line ih =>
    by_cases ht : t.isPlaceholder
    · simp [printFrom_placeholder ht, printBehind, bodies, ht, ih]
    · rw [printFrom_literal (by simpa [Token.isLiteral] using ht)]
      simp [printBehind, bodies, ht, ih]

/-- At the offsets of a printed line stand the runs of the bodies. -/
theorem runs_printFrom (readable : ∀ t ∈ line, t.isPlaceholder → IsReadable v t)
    (previous? : Option Token) (start : Nat) {text before : Text} (place : start = before.bytes)
    (eq : text = before ++ (printFrom v previous? start line).text) :
    Runs v text start ((printFrom v previous? start line).offsets.zip (bodies v line)) := by
  induction line generalizing previous? start before with
  | nil => exact .nil
  | cons t line ih =>
    have later := fun u hu => readable u (List.mem_cons_of_mem _ hu)
    -- What is written for the token joins the text before the others, whose runs stand behind it.
    have behind := ih later (some t)
      (start + (separator v previous? t).bytes + (printToken v t).bytes)
      (show _ = (before ++ (separator v previous? t ++ printToken v t)).bytes by
        simp [place, Nat.add_assoc]) (by simp [eq, printFrom])
    by_cases ht : t.isPlaceholder
    · have can := readable t List.mem_cons_self ht
      have shown : printToken v t = run (Placeholder.body v t) := printToken_placeholder ht
      rw [shown] at behind
      rw [printFrom_placeholder ht, bodies, List.filter_cons_of_pos ht]
      refine .cons (Nat.le_add_right _ _) ⟨can.body, before ++ separator v previous? t,
        (printBehind v previous? start t line).text, ?_, by simp [place], rfl⟩ can.parse ?_
      · rw [eq, printFrom_placeholder ht]
        simp [run, Placeholder.print]
      · rw [printBehind, shown]
        exact behind
    · rw [printFrom_literal (by simpa [Token.isLiteral] using ht), bodies,
        List.filter_cons_of_neg ht]
      refine behind.mono ?_
      omega

/-- A printed line has no line end, if its literals have none. -/
theorem newline_not_mem_printFrom (readable : ∀ t ∈ line, t.isPlaceholder → IsReadable v t)
    (oneLine : ∀ t ∈ line, t.isLiteral → '\n' ∉ t.value) (previous? : Option Token) (start : Nat) :
    '\n' ∉ (printFrom v previous? start line).text := by
  induction line generalizing previous? start with
  | nil => simp [printFrom]
  | cons t line ih =>
    have later := ih (fun u hu => readable u (List.mem_cons_of_mem _ hu))
      (fun u hu => oneLine u (List.mem_cons_of_mem _ hu)) (some t)
      (start + (separator v previous? t).bytes + (printToken v t).bytes)
    have gap : '\n' ∉ separator v previous? t := by
      unfold separator
      split
      · simp
      · split <;> simp
    have shown : '\n' ∉ printToken v t := by
      by_cases ht : t.isPlaceholder
      · rw [printToken_placeholder ht]
        have body : '\n' ∉ Placeholder.body v t := fun mem =>
          absurd ((readable t List.mem_cons_self ht).body.2 _ mem).2 (by decide)
        simp [Placeholder.print, body]
      · have ht : t.isLiteral := by simpa [Token.isLiteral] using ht
        rw [printToken_literal ht]
        exact oneLine t List.mem_cons_self ht
    simp [printFrom, gap, shown, later]

end Line

/-! ### Scans -/

namespace Scan

variable {v : Vocabulary} {mode : Mode} {cursor : Cursor} {text gap rest x w b : Text} {c : Char}
  {o place : Nat} {f : Found} {anchors before : List Nat} {entries : List (Nat × Text)}

/-- The pieces that are placeholders. -/
def placeholders (v : Vocabulary) (mode : Mode) (cursor : Cursor) (text : Text) : List Piece :=
  (pieces v mode cursor text).filter (·.branch = .placeholder)

/-- Where a piece begins, and what it is read as. -/
def Piece.reading (p : Piece) : Nat × Option Token :=
  (p.place, some { p.token with spaceBefore := false })

theorem placeholders_of_run (blank : ∀ d ∈ gap, Text.isSpace d) (hc : Text.isSpace c = false)
    (uncut : cursor.isCut gap = false)
    (run : placeholder? v mode cursor (cursor.place + Text.bytes gap) (c :: rest) = some f) :
    placeholders v mode cursor (gap ++ c :: rest) =
      f.piece .placeholder cursor gap (c :: rest) ::
        placeholders v mode (cursor.behind gap f c rest) (rest.drop f.more) := by
  have found : found v mode cursor (cursor.place + Text.bytes gap) c rest = f := by
    simp [found, run]
  have here : piece v mode cursor gap c rest = f.piece .placeholder cursor gap (c :: rest) := by
    simp [piece, run]
  rw [placeholders, pieces_of_cons blank hc uncut found, here]
  exact List.filter_cons_of_pos (by simp [Found.piece])

theorem branch_piece
    (none : placeholder? v mode cursor (cursor.place + Text.bytes gap) (c :: rest) = none) :
    (piece v mode cursor gap c rest).branch = .plain := by
  simp [piece, none, Found.piece]

theorem placeholders_of_none (blank : ∀ d ∈ gap, Text.isSpace d) (hc : Text.isSpace c = false)
    (uncut : cursor.isCut gap = false)
    (found : found v mode cursor (cursor.place + Text.bytes gap) c rest = f)
    (none : placeholder? v mode cursor (cursor.place + Text.bytes gap) (c :: rest) = none) :
    placeholders v mode cursor (gap ++ c :: rest) =
      placeholders v mode (cursor.behind gap f c rest) (rest.drop f.more) := by
  rw [placeholders, pieces_of_cons blank hc uncut found]
  exact List.filter_cons_of_neg (by simp [branch_piece none])

/-- What is no placeholder takes nothing behind its limit. -/
theorem Piece.InText.le_limit {p : Piece} (h : p.InText mode text) (plain : p.branch = .plain) :
    p.place + p.taken.bytes ≤ mode.limit text p.place := by
  obtain ⟨front, back, -, -, stop⟩ := h.window
  rw [if_pos plain] at stop
  rw [stop, ← List.take_append_drop p.width p.window, Text.bytes_append]
  exact Nat.add_le_add_left (Nat.le_add_right _ _) _

/-- The limit is the first announced position behind the place. -/
theorem limit_listed {others : List Nat} (passed : ∀ a ∈ before, a ≤ place) (lt : place < o) :
    (Mode.listed (before ++ o :: others)).limit text place = o := by
  have none : before.find? (place < ·) = none := by simpa using passed
  simp [Mode.limit, Mode.anchors, List.find?_append, none, lt]

theorem placeholder?_of_not_mem (h : place ∉ anchors) :
    placeholder? v (.listed anchors) cursor place text = none := by
  simp [placeholder?, Mode.allows, h]

/-- A placeholder is read as its body is. -/
theorem reading_piece {t : Token} (read : parse? v b = some t) (q : Option Quotation) (n : Nat) :
    ((⟨t, n, q⟩ : Found).piece .placeholder cursor gap text).reading =
      (cursor.place + Text.bytes gap, parse? v b) := by
  obtain ⟨-, space⟩ := value_of_parse? read
  rw [read]
  simp [Found.piece, Piece.reading, ← space]

/-- A placeholder takes its run. -/
theorem place_behind_run {t : Token} {q : Option Quotation} {z : Text}
    (ahead : c :: rest = run b ++ z) :
    (cursor.behind gap ⟨t, b.length + 1, q⟩ c rest).place =
      cursor.place + Text.bytes gap + (run b).bytes := by
  rw [place_behind, (take_of_run ahead).1]

/-! ### Rounds -/

/-- The state between two rounds: `w` is left of the text, and of the announced positions those are
still ahead at which the runs stand. -/
structure Ahead (v : Vocabulary) (text : Text) (anchors : List Nat) (cursor : Cursor) (w : Text)
    (entries : List (Nat × Text)) : Prop where
  left : ∃ x, text = x ++ w ∧ cursor.place = Text.bytes x
  oneLine : '\n' ∉ w
  passed : ∃ before, anchors = before ++ entries.map Prod.fst ∧ ∀ a ∈ before, a < cursor.place
  runs : Runs v text cursor.place entries

/-- A token leaves the runs ahead that it does not take. -/
theorem Ahead.behind (done : List (Nat × Text))
    (h : Ahead v text anchors cursor (gap ++ c :: rest) (done ++ entries))
    (taken : ∀ entry ∈ done, entry.1 < (cursor.behind gap f c rest).place)
    (runs : Runs v text (cursor.behind gap f c rest).place entries) :
    Ahead v text anchors (cursor.behind gap f c rest) (rest.drop f.more) entries := by
  obtain ⟨⟨x, eq, place⟩, oneLine, ⟨before, known, passed⟩, -⟩ := h
  refine ⟨⟨x ++ gap ++ c :: rest.take f.more, by simp [eq], ?_⟩, fun mem => oneLine ?_,
    ⟨before ++ done.map Prod.fst, by simp [known], fun a ha => ?_⟩, runs⟩
  · simp [place_behind, place, Nat.add_assoc]
  · exact List.mem_append_right _ (List.mem_cons_of_mem _ (List.mem_of_mem_drop mem))
  · rcases List.mem_append.1 ha with ha | ha
    · have := passed a ha
      rw [place_behind]
      omega
    · obtain ⟨entry, hentry, rfl⟩ := List.mem_map.1 ha
      exact taken entry hentry

/-- No run is ahead where nothing but white space is left. -/
theorem Ahead.eq_nil (h : Ahead v text anchors cursor gap entries)
    (blank : ∀ d ∈ gap, Text.isSpace d) : entries = [] := by
  obtain ⟨⟨x, eq, place⟩, -, -, runs⟩ := h
  cases runs with
  | nil => rfl
  | cons le here read behind =>
    rw [place] at le
    rw [eq, ← List.append_nil gap] at here
    obtain ⟨y, z, nothing, -⟩ := here.behind_gap le blank
    simp [run] at nothing

/-- A token before the first run ahead does not take it. -/
theorem Ahead.place_behind_le
    (h : Ahead v text anchors cursor (gap ++ c :: rest) ((o, b) :: entries))
    (places : ∀ a ∈ anchors, text.IsPlace a)
    (found : found v (.listed anchors) cursor (cursor.place + Text.bytes gap) c rest = f)
    (none : placeholder? v (.listed anchors) cursor (cursor.place + Text.bytes gap) (c :: rest) =
      none) (lt : cursor.place + Text.bytes gap < o) : (cursor.behind gap f c rest).place ≤ o := by
  obtain ⟨⟨x, eq, start⟩, -, ⟨before, known, passed⟩, -⟩ := h
  obtain ⟨branch, data, same, -⟩ := piece_of_found found
  have places : ∀ a ∈ (Mode.listed anchors).anchors, text.IsPlace a := places
  have within := (inText_piece (v := v) places start eq).le_limit (branch_piece none)
  have place : (piece v (.listed anchors) cursor gap c rest).place =
      cursor.place + Text.bytes gap := by rw [same]; rfl
  have limit : (Mode.listed anchors).limit text (cursor.place + Text.bytes gap) = o := by
    rw [known]
    exact limit_listed (fun a ha => (passed a ha).le.trans (Nat.le_add_right _ _)) lt
  rwa [taken_piece found, place, limit] at within

/-- In a round the scan comes to the first run ahead and reads it, or it finds a token before it
that is no placeholder. -/
theorem Ahead.next (h : Ahead v text anchors cursor (gap ++ c :: rest) entries)
    (places : ∀ a ∈ anchors, text.IsPlace a) (blank : ∀ d ∈ gap, Text.isSpace d)
    (found : found v (.listed anchors) cursor (cursor.place + Text.bytes gap) c rest = f) :
    (placeholder? v (.listed anchors) cursor (cursor.place + Text.bytes gap) (c :: rest) = none ∧
      Ahead v text anchors (cursor.behind gap f c rest) (rest.drop f.more) entries) ∨
    ∃ b t later, entries = (cursor.place + Text.bytes gap, b) :: later ∧ parse? v b = some t ∧
      f = ⟨t, b.length + 1, cursor.quotation⟩ ∧
      placeholder? v (.listed anchors) cursor (cursor.place + Text.bytes gap) (c :: rest) = some f ∧
      Ahead v text anchors (cursor.behind gap f c rest) (rest.drop f.more) later := by
  have ⟨⟨x, eq, place⟩, _, ⟨before, known, passed⟩, runs⟩ := h
  -- Whatever is not passed and does not stand here leaves the scan free.
  have free : (∀ entry ∈ entries, cursor.place + Text.bytes gap < entry.1) →
      placeholder? v (.listed anchors) cursor (cursor.place + Text.bytes gap) (c :: rest) =
        none := by
    intro ahead
    refine placeholder?_of_not_mem fun mem => ?_
    rw [known] at mem
    rcases List.mem_append.1 mem with mem | mem
    · have := passed _ mem
      omega
    · obtain ⟨entry, hentry, same⟩ := List.mem_map.1 mem
      exact absurd same (ahead entry hentry).ne'
  cases runs with
  | nil => exact .inl ⟨free (by simp), h.behind [] (by simp) .nil⟩
  | @cons _ o b entries le here read behind =>
    rw [place] at le
    obtain ⟨y, z, ahead, position⟩ := (eq ▸ here).behind_gap le blank
    rw [← place] at position
    -- Either the run begins here, or something that is no white space stands before it.
    cases y with
    | nil =>
      obtain ⟨t, parsed⟩ := Option.isSome_iff_exists.1 read
      obtain rfl : o = cursor.place + Text.bytes gap := position
      have hit : placeholder? v (.listed anchors) cursor (cursor.place + Text.bytes gap)
          (c :: rest) = some ⟨t, b.length + 1, cursor.quotation⟩ :=
        placeholder?_eq_some_iff.2 ⟨by simp [Mode.allows, known], b, z, t, here.body, ahead,
          parsed, rfl⟩
      have same : f = ⟨t, b.length + 1, cursor.quotation⟩ := by
        rw [← found, Scan.found, hit]
        rfl
      have stop : (cursor.behind gap f c rest).place =
          cursor.place + Text.bytes gap + (run b).bytes := by rw [same, place_behind_run ahead]
      refine .inr ⟨b, t, entries, rfl, parsed, same, same ▸ hit,
        h.behind [(_, b)] ?_ (stop ▸ behind)⟩
      simp [stop, bytes_run]
    | cons d y =>
      have lt : cursor.place + Text.bytes gap < o := by
        have := Text.bytes_pos (List.cons_ne_nil d y)
        omega
      have ordered : Runs v text o ((o, b) :: entries) := .cons (Nat.le_refl o) here read behind
      have none := free fun entry hentry => lt.trans_le (ordered.le_of_mem entry hentry)
      exact .inl ⟨none, h.behind [] (by simp)
        (ordered.mono (h.place_behind_le places found none lt))⟩

/-- A scan that is given the positions of the runs ahead finds a placeholder at each of them, and
this is what the body of the run is read as. It finds no others. -/
theorem reading_placeholders (places : ∀ a ∈ anchors, text.IsPlace a) (cursor : Cursor) (w : Text)
    (h : Ahead v text anchors cursor w entries) :
    (placeholders v (.listed anchors) cursor w).map Piece.reading =
      entries.map fun entry => (entry.1, parse? v entry.2) := by
  induction cursor, w using induct v (.listed anchors) generalizing entries with
  | blank cursor gap blank => simp [placeholders, pieces_of_blank blank, h.eq_nil blank]
  | cut cursor gap c rest blank hc cut =>
    -- A text without line ends is never cut.
    simp only [Cursor.isCut, Bool.and_eq_true, List.contains_iff_mem] at cut
    exact absurd (List.mem_append_left _ cut.1.1) h.oneLine
  | cons cursor gap c rest f blank hc uncut found ih =>
    rcases h.next places blank found with
      ⟨none, later⟩ | ⟨b, t, entries, rfl, parsed, same, hit, later⟩
    · rw [placeholders_of_none blank hc uncut found none]
      exact ih later
    · rw [placeholders_of_run blank hc uncut hit, List.map_cons, List.map_cons, ih later, same,
        reading_piece parsed]

/-! ### Printed lines -/

/-- A scan of a printed line recovers the placeholders that were printed with these bodies: the
placeholder branch finds one at each of the offsets, which is what the body there is read as, and no
others. -/
structure Recovers (v : Vocabulary) (p : Line.Printed) (bodies : List Text) (scanned : Line) :
    Prop where
  scan : pattern v p.text p.offsets = .ok scanned
  mode : patternMode v p.text p.offsets = .ok (.listed p.offsets)
  runs : Runs v p.text 0 (p.offsets.zip bodies)
  /-- The tokens are those of the pieces, each of which stands in the text at its place. -/
  tokens : ∃ gap, scanned =
    (pieces v (.listed p.offsets) {} p.text).flatMap (Piece.line v) ++ spaces v gap
  inText : ∀ q ∈ pieces v (.listed p.offsets) {} p.text, q.InText (.listed p.offsets) p.text
  places : (placeholders v (.listed p.offsets) {} p.text).map (·.place) = p.offsets
  values : (placeholders v (.listed p.offsets) {} p.text).map
    (fun q => some { q.token with spaceBefore := false }) = bodies.map (parse? v)

/-- Placeholders that can be read are recovered, if the line is printed without line ends. -/
theorem recovers {line : Line} (readable : ∀ t ∈ line, t.isPlaceholder → IsReadable v t)
    (oneLine : ∀ t ∈ line, t.isLiteral → '\n' ∉ t.value) (some : ∃ t ∈ line, t.isPlaceholder) :
    ∃ scanned, Recovers v (Line.print v line) (Line.bodies v line) scanned := by
  have runs : Runs v (Line.print v line).text 0
      ((Line.print v line).offsets.zip (Line.bodies v line)) :=
    Line.runs_printFrom readable none 0 (show 0 = Text.bytes [] from rfl) rfl
  have size : (Line.print v line).offsets.length = (Line.bodies v line).length :=
    Line.length_bodies none 0
  have fst := List.map_fst_zip size.le
  have snd := List.map_snd_zip size.ge
  have mode : patternMode v (Line.print v line).text (Line.print v line).offsets =
      .ok (.listed (Line.print v line).offsets) := by
    have ne : (Line.print v line).offsets ≠ [] := by
      obtain ⟨t, ht, placeholder⟩ := some
      have mem : Placeholder.body v t ∈ Line.bodies v line :=
        List.mem_map.2 ⟨t, List.mem_filter.2 ⟨ht, placeholder⟩, rfl⟩
      rw [← List.length_pos_iff, size]
      exact List.length_pos_of_mem mem
    rw [patternMode_of_readable readable, if_neg ne]
  have places : ∀ a ∈ (Line.print v line).offsets, (Line.print v line).text.IsPlace a := by
    intro a ha
    rw [← fst] at ha
    obtain ⟨entry, hentry, rfl⟩ := List.mem_map.1 ha
    exact (runs.runAt_of_mem entry hentry).isPlace
  have ahead : Ahead v (Line.print v line).text (Line.print v line).offsets {}
      (Line.print v line).text ((Line.print v line).offsets.zip (Line.bodies v line)) :=
    ⟨⟨[], rfl, rfl⟩, Line.newline_not_mem_printFrom readable oneLine none 0,
      ⟨[], by rw [fst]; rfl, by simp⟩, runs⟩
  have reading := reading_placeholders places {} _ ahead
  refine ⟨_, pattern_eq_ok_iff.2 ⟨_, mode, rfl⟩, mode, runs, tokens_eq_pieces v _ {} _,
    inText_of_mem_pieces places, ?_, ?_⟩
  · have := congrArg (List.map Prod.fst) reading
    rw [List.map_map, List.map_map] at this
    exact this.trans fst
  · have := congrArg (List.map Prod.snd) reading
    rw [List.map_map, List.map_map] at this
    rw [← snd, List.map_map]
    exact this

/-- What is printed for placeholders that come from scans, or from templates that were learned, is
recovered, whatever the literals of the line look like. -/
theorem recovers_of_produced (h : v.Proper) (line : Line)
    (produced : ∀ t ∈ line, t.isPlaceholder →
      ∃ u, Produced v u ∧ Slot.ofToken u = Slot.ofToken t)
    (oneLine : ∀ t ∈ line, t.isLiteral → '\n' ∉ t.value) (some : ∃ t ∈ line, t.isPlaceholder) :
    ∃ scanned, Recovers v (Line.print v line) (Line.bodies v line) scanned := by
  refine recovers (fun t ht placeholder => ?_) oneLine some
  obtain ⟨u, known, same⟩ := produced t ht placeholder
  have alike : u.isPlaceholder := by
    obtain ⟨tag, kind, -⟩ := Slot.mk.inj same
    rw [Token.isPlaceholder, tag, kind]
    exact placeholder
  exact isReadable h ((known.isWritable h alike).congr same)

/-- In the vocabulary of any settings, what is printed for placeholders that come from scans, or
from templates that were learned, is recovered. -/
theorem pattern_print_recovers {compile : Vocabulary.Compiler} {s : Settings}
    (h : Vocabulary.build compile s = .ok v) (line : Line)
    (produced : ∀ t ∈ line, t.isPlaceholder →
      ∃ u, Produced v u ∧ Slot.ofToken u = Slot.ofToken t)
    (oneLine : ∀ t ∈ line, t.isLiteral → '\n' ∉ t.value) (some : ∃ t ∈ line, t.isPlaceholder) :
    ∃ scanned, Recovers v (Line.print v line) (Line.bodies v line) scanned :=
  recovers_of_produced (Vocabulary.proper_build h) line produced oneLine some

/-- A line with literals that look like placeholders. -/
theorem pattern_print_recovers_up : ∃ v, Vocabulary.ofSettings {} = .ok v ∧
    let line := Scan.message v "up %integer% 5 of 100%".toList
    (∀ t ∈ line, t.isPlaceholder → ∃ u, Produced v u ∧ Slot.ofToken u = Slot.ofToken t) ∧
    (∀ t ∈ line, t.isLiteral → '\n' ∉ t.value) ∧ (∃ t ∈ line, t.isPlaceholder) ∧
      ∃ scanned, Recovers v (Line.print v line) (Line.bodies v line) scanned := by
  let v : Vocabulary := {
    tags := [("regextime".toList, .time), ("multiline".toList, .multiline)]
    regextime := ⟨1⟩
    multiline := ⟨2⟩ }
  have h : Vocabulary.ofSettings {} = .ok v := rfl
  refine ⟨v, h, ?_⟩
  intro line
  have produced : ∀ t ∈ line, t.isPlaceholder →
      ∃ u, Produced v u ∧ Slot.ofToken u = Slot.ofToken t :=
    fun t ht _ => ⟨t, .message ht, rfl⟩
  have oneLine : ∀ t ∈ line, t.isLiteral → '\n' ∉ t.value := by decide +kernel
  have some : ∃ t ∈ line, t.isPlaceholder := by decide +kernel
  exact ⟨produced, oneLine, some, pattern_print_recovers h line produced oneLine some⟩

end Scan

end LogTemplate
