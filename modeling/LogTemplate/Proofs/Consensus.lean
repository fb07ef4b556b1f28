import LogTemplate.Consensus
import LogTemplate.Proofs.Placeholder
import LogTemplate.Proofs.Registration
import Mathlib.Data.List.Forall2

/-!
# A template covers the lines that it was found for

* `Fits` says that a token of a template covers a part of a line, whatever stands behind the part;
* `fits_columnToken`, `Fits.inferTag`, `Tiles.collapseStep` and `Fits.widen` follow it through the
  steps of `generalize`, where `Tiles` holds the groups of columns against the columns of one row;
* `covers_generalize` puts these together, `match?_generalize` is what a catalog makes of
  it, and
  `mem_generalize` traces the tokens of the template back to the columns.
-/

namespace LogTemplate.Consensus

variable {v : Vocabulary} {regextime : Tag} {t u x : Token} {taken row line : Line}

/-- A token of a template covers a part of a line, whatever stands behind the part. -/
inductive Fits (regextime : Tag) (t : Token) : Line → Prop
  | literal {x : Token} (ht : t.isLiteral) (hx : x.isLiteral) (value : x.value = t.value) :
      Fits regextime t [x]
  | placeholder {taken : Line} (ht : t.isPlaceholder) (stop : t.stop = none) (ne : taken ≠ [])
      (takes : ∀ rest, (Slot.ofToken t).Takes regextime taken rest) : Fits regextime t taken

/-- The columns of a template, each a literal or a placeholder with the tag that is hinted at. -/
def slots (v : Vocabulary) (rows : List Line) : Line :=
  inferTags v [] (columnTokens v (columns rows))

/-- What fits part by part covers the whole. -/
theorem covers_of_fits {template : Line} {parts : List Line}
    (h : List.Forall₂ (Fits regextime) template parts) :
    ∃ slots, Covers regextime template parts.flatten slots := by
  induction h with
  | nil => exact ⟨[], .nil⟩
  | cons fits _ ih =>
    obtain ⟨slots, behind⟩ := ih
    rcases fits with ⟨ht, hx, value⟩ | ⟨ht, -, -, takes⟩
    · exact ⟨_, .literal ht hx value behind⟩
    · exact ⟨_, .placeholder ht (takes _) behind⟩

/-- A placeholder for one token. -/
theorem Fits.single (ht : t.isPlaceholder) (stop : t.stop = none) (modifier : t.modifier = .single)
    (accepts : (Slot.ofToken t).accepts regextime x) : Fits regextime t [x] :=
  .placeholder ht stop (List.cons_ne_nil _ _) fun rest => by
    simpa [Slot.Takes, Slot.ofToken, modifier] using accepts

/-- A run of any tokens. -/
theorem Fits.minus (ht : t.isPlaceholder) (stop : t.stop = none) (modifier : t.modifier = .minus)
    (ne : taken ≠ []) : Fits regextime t taken :=
  .placeholder ht stop ne fun rest => by simpa [Slot.Takes, Slot.ofToken, modifier, stop] using ne

/-- A placeholder for one token accepts it. -/
theorem Fits.accepts (h : Fits regextime t taken) (ht : t.isPlaceholder)
    (modifier : t.modifier = .single) :
    ∃ x, taken = [x] ∧ (Slot.ofToken t).accepts regextime x := by
  cases h with
  | literal hl => simp [Token.isLiteral, ht] at hl
  | placeholder _ _ _ takes => simpa [Slot.Takes, Slot.ofToken, modifier] using takes []

/-! ### Columns -/

/-- A slot of another kind than time looks at kinds only. -/
theorem accepts_ofToken (h : t.kind ≠ .time) :
    (Slot.ofToken t).accepts regextime x = t.kind.accepts x.kind := by
  simp [Slot.accepts, Slot.ofToken, h]

theorem isPlaceholder_countedKind (t : Token) : (countedKind t).isPlaceholder := by
  unfold countedKind
  cases t.kind <;> rfl

theorem preferred_or (column : List Token) (a b : Kind) :
    preferred column a b = a ∨ preferred column a b = b := by
  unfold preferred
  split
  · exact .inr rfl
  · split
    · exact .inr rfl
    · exact .inl rfl

theorem foldl_preferred_mem (column : List Token) (kind : Kind) (kinds : List Kind) :
    kinds.foldl (preferred column) kind ∈ kind :: kinds := by
  refine List.foldlRecOn kinds (preferred column) List.mem_cons_self fun a ha b hb => ?_
  rcases preferred_or column a b with eq | eq
  · rwa [eq]
  · rw [eq]
    exact List.mem_cons_of_mem _ hb

/-- The most frequent kind is one that a token of the column counts as. -/
theorem exists_countedKind_eq_majority {column : List Token} (ne : column ≠ []) :
    ∃ t ∈ column, countedKind t = majority column := by
  unfold majority
  split
  · next none =>
    obtain ⟨t, ht⟩ := List.exists_mem_of_ne_nil column ne
    have counted : 0 < count column (countedKind t) :=
      List.countP_pos_iff.2 ⟨t, ht, decide_eq_true rfl⟩
    have := List.filter_eq_nil_iff.1 none _ (Kind.mem_all (countedKind t))
    exact absurd (decide_eq_true counted) this
  · next kind rest eq =>
    have mem := foldl_preferred_mem column kind rest
    rw [← eq, List.mem_filter] at mem
    obtain ⟨t, ht, counted⟩ := List.countP_pos_iff.1 (of_decide_eq_true mem.2)
    exact ⟨t, ht, of_decide_eq_true counted⟩

theorem isPlaceholder_majority (column : List Token) : (majority column).isPlaceholder := by
  by_cases ne : column = []
  · subst ne
    rfl
  · obtain ⟨t, -, counted⟩ := exists_countedKind_eq_majority ne
    rw [← counted]
    exact isPlaceholder_countedKind t

/-- The kind of a column is a placeholder's and accepts all its tokens. -/
theorem columnKind?_spec {column : List Token} {kind : Kind} (h : columnKind? column = some kind) :
    kind.isPlaceholder ∧ ∀ x ∈ column, kind.accepts x.kind := by
  refine ⟨?_, by simpa using List.find?_some h⟩
  have mem := List.mem_of_find?_eq_some h
  simp only [List.mem_cons, List.not_mem_nil, or_false] at mem
  rcases mem with rfl | rfl | rfl
  · exact isPlaceholder_majority column
  · rfl
  · rfl

/-- The group of a column is that of all its tokens, which are timestamps. -/
theorem commonGroup?_spec {column : List Token} {first : Token} {group : Text}
    (h : commonGroup? v first column = some group) :
    ∀ x ∈ column, x.tag = v.regextime ∧ x.group = some group := by
  unfold commonGroup? at h
  split at h
  · next all =>
    intro x hx
    have := List.all_eq_true.1 all x hx
    simp only [Bool.and_eq_true, decide_eq_true_eq] at this
    exact ⟨this.1, this.2.trans h⟩
  · cases h

/-- The token of a column fits each token of the column. -/
theorem fits_columnToken (h : v.regextime ≠ .unknown) {column : List Token} (first : Token)
    (hx : x ∈ column) : Fits v.regextime (columnToken v first column) [x] := by
  unfold columnToken
  by_cases constant : isConstant first.value column
  · rw [if_pos constant]
    have := List.all_eq_true.1 constant x hx
    simp only [Bool.and_eq_true, decide_eq_true_eq] at this
    exact .literal rfl this.1 this.2
  · rw [if_neg constant]
    cases kind : columnKind? column with
    | none => exact .minus rfl rfl rfl (List.cons_ne_nil _ _)
    | some kind' =>
      obtain ⟨placeholder, accepts⟩ := columnKind?_spec kind
      have acceptsX := accepts x hx
      by_cases time : kind' = .time
      · subst time
        cases group : commonGroup? v first column with
        | some g =>
          refine .single (by simp [Token.isPlaceholder, Kind.isPlaceholder]) rfl rfl ?_
          have isTime : Kind.time = x.kind := by simpa [Kind.accepts] using acceptsX
          simp [Slot.accepts, Slot.ofToken, ← isTime, commonGroup?_spec group x hx]
        | none =>
          refine .single rfl rfl rfl ?_
          simpa [Slot.accepts, Slot.ofToken, h.symm] using acceptsX
      · have other : ∀ t : Token, t.kind = kind' → t.stop = none → t.modifier = .single →
            Fits v.regextime t [x] := by
          intro t tk stop modifier
          refine .single (by simp [Token.isPlaceholder, tk, placeholder]) stop modifier ?_
          rw [accepts_ofToken (by rwa [tk]), tk]
          exact acceptsX
        cases kind' <;> first | exact absurd rfl time | exact other _ rfl rfl rfl

/-- The columns of a row. -/
theorem forall₂_columns {rows : List Line} (sameLength : ∀ r ∈ rows, ∀ s ∈ rows,
    r.length = s.length) (hrow : row ∈ rows) :
    List.Forall₂ (fun column x => x ∈ column) (columns rows) row := by
  have width : (rows.head?.map List.length).getD 0 = row.length := by
    obtain ⟨first, rest, rfl⟩ := List.exists_cons_of_ne_nil (List.ne_nil_of_mem hrow)
    exact sameLength _ List.mem_cons_self _ hrow
  refine List.forall₂_iff_get.2 ⟨by simp [columns, width], fun i _ hi => ?_⟩
  simp only [columns, List.get_eq_getElem, List.getElem_map, List.getElem_range,
    List.mem_filterMap]
  exact ⟨row, hrow, List.getElem?_eq_getElem hi⟩

theorem fits_columnTokens (h : v.regextime ≠ .unknown) {columns : List (List Token)}
    (hrow : List.Forall₂ (fun column x => x ∈ column) columns row) :
    List.Forall₂ (fun t x => Fits v.regextime t [x]) (columnTokens v columns) row := by
  induction hrow with
  | nil => exact .nil
  | @cons column x columns row hx _ ih =>
    obtain ⟨first, rest, rfl⟩ := List.exists_cons_of_ne_nil (List.ne_nil_of_mem hx)
    exact .cons (fits_columnToken h first hx) ih

/-! ### Tags -/

/-- A hinted tag does not change what a placeholder covers. -/
theorem Fits.inferTag (h : Fits regextime t taken) (before : Line) :
    Fits regextime (inferTag v before t) taken := by
  unfold Consensus.inferTag
  split
  · exact h
  · next open' =>
    simp only [isFixedKind, Bool.or_eq_true, bne_iff_ne, ne_eq, decide_eq_true_eq, not_or,
      not_not] at open'
    obtain ⟨⟨literal, tag⟩, time, -⟩ := open'
    split
    · next hinted _ =>
      cases h with
      | literal ht => exact absurd ht literal
      | placeholder ht stop ne takes =>
        have kind : t.kind.isPlaceholder := by simpa [Token.isPlaceholder, tag] using ht
        refine .placeholder (by simp [Token.isPlaceholder, kind]) stop ne fun rest => ?_
        refine (Slot.takes_congr (s := Slot.ofToken t) ?_ ?_ fun x => ?_).2 (takes rest)
        · rfl
        · rfl
        · rw [accepts_ofToken time]
          exact accepts_ofToken (t := { t with tag := hinted }) time
    · exact h

theorem fits_inferTags (before : Line)
    (h : List.Forall₂ (fun t x => Fits regextime t [x]) line row) :
    List.Forall₂ (fun t x => Fits regextime t [x]) (inferTags v before line) row := by
  induction h generalizing before with
  | nil => exact .nil
  | cons fits _ ih => exact .cons (fits.inferTag before) (ih _)

/-! ### Runs -/

/-- What a group stands for in a row. -/
def Group.part (g : Group) (row : Line) : Line := (row.drop g.start).take g.width

/-- The groups, latest first, stand for the first `n` columns of a row, one behind the other, and
each fits what it stands for. -/
inductive Tiles (regextime : Tag) (row : Line) : List Group → Nat → Prop
  | nil : Tiles regextime row [] 0
  | cons {g : Group} {groups : List Group} (behind : Tiles regextime row groups g.start)
      (fits : Fits regextime g.token (g.part row)) :
      Tiles regextime row (g :: groups) (g.start + g.width)

/-- A run goes on with a placeholder that asks for the same. -/
theorem Fits.join (h : Fits regextime t taken) (hu : Fits regextime u [x]) (joins : joins t u) :
    Fits regextime { t with modifier := .plus } (taken ++ [x]) := by
  simp only [Consensus.joins, isCollapsible, Bool.and_eq_true, decide_eq_true_eq] at joins
  obtain ⟨⟨⟨⟨⟨⟨⟨hu', modifierU⟩, -⟩, -⟩, ⟨⟨ht, modifier⟩, -⟩, -⟩, tag⟩, kind⟩, group⟩ := joins
  have stop : t.stop = none := by
    cases h with
    | literal hl => simp [Token.isLiteral, ht] at hl
    | placeholder _ stop => exact stop
  obtain ⟨y, rfl, acceptsY⟩ := h.accepts ht modifier
  obtain ⟨x', hx, acceptsX⟩ := hu.accepts hu' modifierU
  cases hx
  refine .placeholder ht stop (by simp) fun rest => ⟨by simp, fun z hz => ?_⟩
  simp only [List.singleton_append, List.mem_cons, List.not_mem_nil, or_false] at hz
  rcases hz with rfl | rfl
  · exact acceptsY
  · exact (Slot.accepts_congr tag kind group z).trans acceptsX

/-- Taking in the next column keeps the tiling. -/
theorem Tiles.collapseStep {groups : List Group} {j : Nat} (h : Tiles regextime row groups j)
    (hx : row[j]? = some x) (fits : Fits regextime t [x]) :
    Tiles regextime row (collapseStep groups t j) (j + 1) := by
  obtain ⟨lt, rfl⟩ := List.getElem?_eq_some_iff.1 hx
  have one : Group.part ⟨t, j, 1⟩ row = [row[j]] := by
    simp [Group.part, List.take_one, hx]
  have next : ∀ groups, Tiles regextime row groups j →
      Tiles regextime row (⟨t, j, 1⟩ :: groups) (j + 1) := fun groups h =>
    .cons (g := ⟨t, j, 1⟩) h (by rw [one]; exact fits)
  cases h with
  | nil => exact next [] .nil
  | @cons g groups behind fitsG =>
    simp only [Consensus.collapseStep]
    split
    · next joins =>
      refine .cons (g := { g with token := { g.token with modifier := .plus }
                                  width := g.width + 1 }) behind ?_
      have wider : Group.part { g with token := { g.token with modifier := .plus }
                                       width := g.width + 1 } row =
          g.part row ++ [row[g.start + g.width]] := by
        simp [Group.part, List.take_add_one, List.getElem?_drop, lt]
      rw [wider]
      exact fitsG.join fits joins
    · exact next _ (.cons behind fitsG)

/-- Taking in the columns one after the other. -/
theorem tiles_foldl {groups : List Group} (seen : Line)
    (h : Tiles regextime (seen ++ row) groups seen.length)
    (fits : List.Forall₂ (fun t x => Fits regextime t [x]) line row) :
    Tiles regextime (seen ++ row)
      ((line.zipIdx seen.length).foldl (fun groups (t, j) => Consensus.collapseStep groups t j)
        groups)
      (seen ++ row).length := by
  induction fits generalizing groups seen with
  | nil => simpa using h
  | @cons t x line row fitsX _ ih =>
    have step := h.collapseStep (by simp) fitsX
    have := ih (seen ++ [x]) (by simpa using step)
    simpa using this

theorem tiles_collapse (fits : List.Forall₂ (fun t x => Fits regextime t [x]) line row) :
    Tiles regextime row (collapse line) row.length :=
  tiles_foldl [] .nil fits

/-- The groups fit the parts that they stand for, and the parts make up the row. -/
theorem Tiles.forall₂ {groups : List Group} {n : Nat} (h : Tiles regextime row groups n) :
    List.Forall₂ (Fits regextime) (groups.reverse.map (·.token))
        (groups.reverse.map (·.part row)) ∧
      (groups.reverse.map (·.part row)).flatten = row.take n := by
  induction h with
  | nil => exact ⟨.nil, by simp⟩
  | @cons g groups behind fits ih =>
    constructor
    · rw [List.reverse_cons, List.map_append, List.map_append]
      exact List.rel_append ih.1 (.cons fits .nil)
    · rw [List.reverse_cons, List.map_append, List.flatten_append, ih.2]
      simp [Group.part, List.take_add]

/-! ### The template -/

/-- A placeholder may run to the end of the line. -/
theorem Fits.widen (h : Fits regextime t taken) (ht : t.isPlaceholder) :
    Fits regextime { t with modifier := .minus } taken := by
  cases h with
  | literal hl => simp [Token.isLiteral, ht] at hl
  | placeholder _ stop ne _ => exact .minus ht stop rfl ne

theorem Fits.widenTail {g : Group} (h : Fits regextime g.token taken) (rows : List Line) :
    Fits regextime (widenTail rows g) taken := by
  unfold Consensus.widenTail
  split
  · next open' =>
    simp only [Bool.and_eq_true] at open'
    exact h.widen open'.1.1
  · exact h

/-- The template of lines of one length covers each of them. -/
theorem covers_generalize (h : v.regextime ≠ .unknown) {rows : List Line}
    (sameLength : ∀ r ∈ rows, ∀ s ∈ rows, r.length = s.length) (hrow : row ∈ rows) :
    ∃ slots, Covers v.regextime (generalize v rows) row slots := by
  have tiles := tiles_collapse (fits_inferTags (v := v) [] (fits_columnTokens h
    (forall₂_columns sameLength hrow)))
  unfold generalize
  generalize hg : collapse (inferTags v [] (columnTokens v (columns rows))) = groups at tiles
  cases groups with
  | nil =>
    have := tiles.forall₂.2
    simp only [List.reverse_nil, List.map_nil, List.flatten_nil, List.take_length] at this
    exact ⟨[], this ▸ .nil⟩
  | cons last rest =>
    -- The tail is the one group whose token the last step may change.
    have wide : Tiles v.regextime row ({ last with token := widenTail rows last } :: rest)
        row.length := by
      generalize hn : row.length = n at tiles
      cases tiles with
      | cons behind fits =>
        exact .cons (g := { last with token := widenTail rows last }) behind (fits.widenTail rows)
    obtain ⟨fits, whole⟩ := wide.forall₂
    have := covers_of_fits fits
    rw [whole, List.take_length] at this
    simpa using this

/-- The template of lines of one length can be registered, whether it holds a literal or not. A
catalog that holds nothing else matches each of the lines, by this template. -/
theorem match?_template (h : v.Regular) {n : Nat} {rows : List Line} (some : rows ≠ [])
    (tokens : n ≠ 0) (width : ∀ row ∈ rows, row.length = n) :
    ∃ c id, Catalog.addUnanchored v {} (generalize v rows) = .ok (c, id) ∧
      ∀ row ∈ rows, ∃ m, c.match? v row = .some m ∧ m.id = id := by
  have time := (Vocabulary.name?_of_tag? h.name).2
  have covered : ∀ row ∈ rows, ∃ slots, Covers v.regextime (generalize v rows) row slots :=
    fun row hrow => covers_generalize time (fun r hr s hs => (width r hr).trans (width s hs).symm)
      hrow
  have tokensOf : ∀ row ∈ rows, row ≠ [] := by
    rintro row hrow rfl
    exact tokens (width _ hrow).symm
  have ne : generalize v rows ≠ [] := by
    intro none
    obtain ⟨row, hrow⟩ := List.exists_mem_of_ne_nil _ some
    obtain ⟨slots, covers⟩ := covered row hrow
    rw [none, covers_nil_iff] at covers
    exact tokensOf row hrow covers.1
  have sound := Catalog.sound_register (Catalog.sound_empty v) (generalize v rows) none
  obtain ⟨own, registered, answer, -⟩ :=
    Catalog.exists_of_register (Catalog.sound_empty v) (generalize v rows) none
  rw [Catalog.templates_register_empty, List.mem_singleton] at registered
  have granted : Catalog.addUnanchored v {} (generalize v rows) =
      .ok (Catalog.register v {} (generalize v rows) none) := if_neg (by simpa using ne)
  refine ⟨(Catalog.register v {} (generalize v rows) none).1, own.id, by rw [granted, answer],
    fun row hrow => ?_⟩
  obtain ⟨m, hm⟩ := Option.isSome_iff_exists.1
    ((Catalog.isSome_match?_register (tokensOf row hrow)).2 (covered row hrow))
  obtain ⟨T, slots, best, rfl⟩ := Catalog.isBest_of_match? sound hm
  refine ⟨_, hm, ?_⟩
  have only := best.registered
  rw [Catalog.templates_register_empty, List.mem_singleton] at only
  rw [only, registered]

/-- In the vocabulary of any settings, the template of lines of one length can be registered, and a
catalog that holds nothing else matches each of the lines by it. -/
theorem match?_generalize {compile : Vocabulary.Compiler} {s : Settings}
    (h : Vocabulary.build compile s = .ok v) {n : Nat} {rows : List Line} (some : rows ≠ [])
    (tokens : n ≠ 0) (width : ∀ row ∈ rows, row.length = n) :
    ∃ c id, Catalog.addUnanchored v {} (generalize v rows) = .ok (c, id) ∧
      ∀ row ∈ rows, ∃ m, c.match? v row = .some m ∧ m.id = id :=
  match?_template (Vocabulary.regular_build h) some tokens width

/-- Lines with a number, an address and a word in one column. -/
theorem match?_generalize_up : ∃ v, Vocabulary.ofSettings {} = .ok v ∧
    let rows := ["up 5 now".toList, "up 10.0.0.1 now".toList, "up again now".toList].map
      (Scan.message v)
    rows ≠ [] ∧ (∀ row ∈ rows, row.length = 3) ∧
      ∃ c id, Catalog.addUnanchored v {} (generalize v rows) = .ok (c, id) ∧
        ∀ row ∈ rows, ∃ m, c.match? v row = .some m ∧ m.id = id := by
  let v : Vocabulary := {
    tags := [("regextime".toList, .time), ("multiline".toList, .multiline)]
    regextime := ⟨1⟩
    multiline := ⟨2⟩ }
  have h : Vocabulary.ofSettings {} = .ok v := rfl
  refine ⟨v, h, ?_⟩
  intro rows
  have some : rows ≠ [] := by decide +kernel
  have width : ∀ row ∈ rows, row.length = 3 := by decide +kernel
  exact ⟨some, width, match?_generalize h some (by decide) width⟩

/-! ### Where the tokens come from -/

theorem mem_inferTags {before : Line} (h : t ∈ inferTags v before line) :
    ∃ u ∈ line, ∃ before, t = inferTag v before u := by
  induction line generalizing before with
  | nil => cases h
  | cons u line ih =>
    rcases List.mem_cons.1 h with rfl | h
    · exact ⟨u, List.mem_cons_self, before, rfl⟩
    · obtain ⟨w, hw, eq⟩ := ih h
      exact ⟨w, List.mem_cons_of_mem _ hw, eq⟩

/-- The token `t` is `u`, or a run of such tokens. One of a fixed kind never becomes a run. -/
def IsRunOf (u t : Token) : Prop :=
  ∃ m, t = { u with modifier := m } ∧ (isFixedKind u.kind → m = u.modifier)

theorem IsRunOf.refl (t : Token) : IsRunOf t t := ⟨t.modifier, rfl, fun _ => rfl⟩

theorem IsRunOf.trans {w : Token} (h : IsRunOf w u) (h' : IsRunOf u t) : IsRunOf w t := by
  obtain ⟨m, rfl, same⟩ := h
  obtain ⟨m', rfl, same'⟩ := h'
  exact ⟨m', rfl, fun fixed => (same' fixed).trans (same fixed)⟩

/-- A step makes no tokens but that of the column and, for a run, one with another modifier. -/
theorem mem_collapseStep {groups : List Group} {j : Nat} {g : Group}
    (h : g ∈ collapseStep groups t j) : g.token = t ∨ ∃ f ∈ groups, IsRunOf f.token g.token := by
  unfold collapseStep at h
  split at h
  · next last rest =>
    split at h
    · next joined =>
      rcases List.mem_cons.1 h with rfl | h
      · refine .inr ⟨last, List.mem_cons_self, .plus, rfl, fun fixed => ?_⟩
        simp [joins, isCollapsible, fixed] at joined
      · exact .inr ⟨g, List.mem_cons_of_mem _ h, .refl _⟩
    · rcases List.mem_cons.1 h with rfl | h
      · exact .inl rfl
      · exact .inr ⟨g, h, .refl _⟩
  · exact .inl (List.mem_singleton.1 h ▸ rfl)

theorem mem_collapse {g : Group} (h : g ∈ collapse line) : ∃ u ∈ line, IsRunOf u g.token := by
  have run : ∀ (rest : Line) (j : Nat) (groups : List Group), (∀ t ∈ rest, t ∈ line) →
      (∀ g ∈ groups, ∃ u ∈ line, IsRunOf u g.token) →
      ∀ g ∈ (rest.zipIdx j).foldl (fun groups (t, j) => collapseStep groups t j) groups,
        ∃ u ∈ line, IsRunOf u g.token := by
    intro rest
    induction rest with
    | nil => exact fun _ _ _ known => known
    | cons t rest ih =>
      intro j groups sub known
      refine ih (j + 1) _ (fun u hu => sub u (List.mem_cons_of_mem _ hu)) fun g hg => ?_
      rcases mem_collapseStep hg with eq | ⟨f, hf, run⟩
      · exact ⟨t, sub t List.mem_cons_self, eq ▸ .refl t⟩
      · obtain ⟨u, hu, run'⟩ := known f hf
        exact ⟨u, hu, run'.trans run⟩
  exact run line 0 [] (fun _ h => h) (by simp) g h

theorem isRunOf_widenTail (rows : List Line) (g : Group) :
    IsRunOf g.token (widenTail rows g) := by
  unfold widenTail
  split
  · next scattered =>
    exact ⟨_, rfl, fun fixed => by simp [fixed] at scattered⟩
  · exact .refl _

/-- A token of a template is that of a column, with a tag that may be hinted, or a run of such. -/
theorem mem_generalize {rows : List Line} (h : t ∈ generalize v rows) :
    ∃ column ∈ columns rows, ∃ first ∈ column, ∃ before,
      IsRunOf (inferTag v before (columnToken v first column)) t := by
  obtain ⟨g, hg, run⟩ : ∃ g ∈ collapse (inferTags v [] (columnTokens v (columns rows))),
      IsRunOf g.token t := by
    unfold generalize at h
    generalize collapse (inferTags v [] (columnTokens v (columns rows))) = groups at h
    cases groups with
    | nil => cases h
    | cons last rest =>
      rcases List.mem_cons.1 (List.mem_reverse.1 h) with rfl | h
      · exact ⟨last, List.mem_cons_self, isRunOf_widenTail rows last⟩
      · obtain ⟨g, hg, rfl⟩ := List.mem_map.1 h
        exact ⟨g, List.mem_cons_of_mem _ hg, .refl _⟩
  obtain ⟨u, hu, run'⟩ := mem_collapse hg
  obtain ⟨w, hw, before, rfl⟩ := mem_inferTags hu
  obtain ⟨column, hcolumn, found⟩ := List.mem_filterMap.1 hw
  obtain ⟨first, hfirst, rfl⟩ := Option.map_eq_some_iff.1 found
  exact ⟨column, hcolumn, first, List.mem_of_mem_head? hfirst, before, run'.trans run⟩

end LogTemplate.Consensus
