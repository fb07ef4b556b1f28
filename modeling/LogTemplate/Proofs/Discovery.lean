import LogTemplate.Proofs.ColumnKind
import LogTemplate.Proofs.Layout
import LogTemplate.Proofs.Learner
import Mathlib.Data.List.Perm.Basic
import Mathlib.Data.List.Sort

/-!
# Templates do not depend on the order of lines

* Columns of permuted rows are permuted, and the same kinds occur in them; so `step_columnToken`
  says that the token of a column has the same step, whichever row comes first;
* `steps_inferTags` and `like_collapse` follow equal steps through the hints and the runs;
* `steps_generalize` puts these together, where `Steady` is all that is asked of floating-point
  arithmetic;
* `Learner.discover` is what a new learner finds for lines, and `Learner.discover_perm` says that it
  is the same in any order.
-/

namespace LogTemplate

namespace Consensus

variable {v : Vocabulary} {t u a b first first' : Token} {column column' : List Token}
  {line line' before before' : Line} {rows rows' : List Line}

/-! ### Columns -/

theorem columnKind?_perm (perm : column.Perm column') :
    columnKind? column = columnKind? column' :=
  columnKind?_congr fun _ => (perm.map _).mem_iff

/-- If all tokens of a column agree with the first, they agree with any other. -/
theorem agree_perm {α : Type} [DecidableEq α] (p : Token → Bool) (f : Token → α) (first : Token)
    (perm : column.Perm column') (hf' : first' ∈ column')
    (h : column.all fun t => p t && f t = f first) :
    f first' = f first ∧ column'.all fun t => p t && f t = f first' := by
  have same : f first' = f first := by
    have := List.all_eq_true.1 h first' (perm.mem_iff.2 hf')
    simp only [Bool.and_eq_true, decide_eq_true_eq] at this
    exact this.2
  refine ⟨same, ?_⟩
  rw [same, ← perm.all_eq]
  exact h

theorem isConstant_perm (perm : column.Perm column') (hf' : first' ∈ column')
    (h : isConstant first.value column) :
    first'.value = first.value ∧ isConstant first'.value column' :=
  agree_perm Token.isLiteral Token.value first perm hf' h

theorem commonGroup?_perm (perm : column.Perm column') (hf : first ∈ column)
    (hf' : first' ∈ column') : commonGroup? v first column = commonGroup? v first' column' := by
  have agree {c c' : List Token} {g g' : Token} (perm : c.Perm c') (hg' : g' ∈ c')
      (h : c.all fun t => t.tag = v.regextime && t.group = g.group) :=
    agree_perm (fun t => t.tag = v.regextime) Token.group g perm hg' h
  unfold commonGroup?
  by_cases all : column.all fun t => t.tag = v.regextime && t.group = first.group
  · obtain ⟨same, all'⟩ := agree perm hf' all
    rw [if_pos all, if_pos all', same]
  · have all' : ¬column'.all fun t => t.tag = v.regextime && t.group = first'.group :=
      fun h => all (agree perm.symm hf h).2
    rw [if_neg all, if_neg all']

/-- The token of a column has the same step, whichever token of the column comes first. -/
theorem step_columnToken (perm : column.Perm column') (hf : first ∈ column)
    (hf' : first' ∈ column') :
    Step.of (columnToken v first column) = Step.of (columnToken v first' column') := by
  unfold columnToken
  by_cases constant : isConstant first.value column
  · obtain ⟨value, constant'⟩ := isConstant_perm perm hf' constant
    rw [if_pos constant, if_pos constant', value]
    rfl
  · have constant' : ¬isConstant first'.value column' :=
      fun h => constant (isConstant_perm perm.symm hf h).2
    -- The tokens are placeholders now, and their values are no part of their steps.
    rw [if_neg constant, if_neg constant', columnKind?_perm perm]
    cases found : columnKind? column' with
    | none => rfl
    | some kind =>
      have placeholder := (columnKind?_spec found).1
      by_cases time : kind = .time
      · subst time
        simp only [commonGroup?_perm perm hf hf']
        cases commonGroup? v first' column' with
        | none => rfl
        | some group => exact Step.of_congr (by simp [Token.isPlaceholder, Kind.isPlaceholder]) rfl
      · cases kind <;> first | exact absurd rfl time | rfl | cases placeholder

theorem perm_columns (perm : rows.Perm rows')
    (width : ∀ r ∈ rows, ∀ s ∈ rows, r.length = s.length) :
    List.Forall₂ List.Perm (columns rows) (columns rows') := by
  have same : rows.head?.map List.length = rows'.head?.map List.length := by
    cases rows with
    | nil => rw [List.nil_perm.1 perm]
    | cons r rows =>
      cases rows' with
      | nil => simp at perm
      | cons s rows' =>
        exact congrArg some (width r List.mem_cons_self s (perm.mem_iff.2 List.mem_cons_self))
  unfold columns
  rw [same, List.forall₂_map_left_iff, List.forall₂_map_right_iff, List.forall₂_same]
  exact fun j _ => perm.filterMap _

theorem steps_columnTokens {columns columns' : List (List Token)}
    (perm : List.Forall₂ List.Perm columns columns') :
    (columnTokens v columns).steps = (columnTokens v columns').steps := by
  induction perm with
  | nil => rfl
  | @cons column column' columns columns' perm _ ih =>
    cases column with
    | nil =>
      rw [List.nil_perm.1 perm]
      exact ih
    | cons first column =>
      cases column' with
      | nil => simp at perm
      | cons first' column' =>
        exact congrArg₂ List.cons
          (step_columnToken perm List.mem_cons_self List.mem_cons_self) ih

/-! ### Tags -/

theorem precedingWord?_congr (same : before.steps = before'.steps) :
    precedingWord? before = precedingWord? before' := by
  induction before generalizing before' with
  | nil =>
    obtain rfl : before' = [] := by simpa [Line.steps, eq_comm] using same
    rfl
  | cons t before ih =>
    rcases before' with _ | ⟨u, before'⟩
    · simp at same
    · simp only [Line.steps_cons, List.cons.injEq] at same
      unfold precedingWord?
      rw [Step.isPlaceholder_congr same.1, ih same.2]
      rcases Step.cases_of_eq same.1 with ⟨-, -, value⟩ | ⟨-, hu, -⟩
      · rw [value]
      · simp [hu]

theorem step_inferTag (same : before.steps = before'.steps) (step : Step.of t = Step.of u) :
    Step.of (inferTag v before t) = Step.of (inferTag v before' u) := by
  unfold inferTag
  rcases Step.cases_of_eq step with ⟨ht, hu, -⟩ | ⟨ht, hu, slot⟩
  · simpa [ht, hu] using step
  · simp only [Slot.ofToken, Slot.mk.injEq] at slot
    obtain ⟨tag, kind, modifier, stop, group⟩ := slot
    have literal : t.isLiteral = u.isLiteral := by simp [Token.isLiteral, ht, hu]
    rw [literal, tag, kind, precedingWord?_congr same]
    split
    · exact step
    · next free =>
      cases (precedingWord? before').bind (hint? v) with
      | none => exact step
      | some hinted =>
        -- Where a tag is hinted at, the token is a placeholder by its kind.
        have placeholder : u.kind.isPlaceholder := by
          simp only [Bool.or_eq_true, not_or, Bool.not_eq_true, bne_eq_false_iff_eq] at free
          simpa [Token.isPlaceholder, free.1.2] using hu
        refine Step.of_congr (by simp [Token.isPlaceholder, placeholder]) ?_
        simp [Slot.ofToken, modifier, stop, group]

theorem steps_inferTags (same : before.steps = before'.steps) (steps : line.steps = line'.steps) :
    (inferTags v before line).steps = (inferTags v before' line').steps := by
  induction line generalizing before before' line' with
  | nil =>
    obtain rfl : line' = [] := by simpa [Line.steps, eq_comm] using steps
    rfl
  | cons t line ih =>
    rcases line' with _ | ⟨u, line'⟩
    · simp at steps
    · simp only [Line.steps_cons, List.cons.injEq] at steps
      have step := step_inferTag (v := v) same steps.1
      simp only [inferTags, Line.steps_cons, step, List.cons.injEq, true_and]
      exact ih (by simp [step, same]) steps.2

/-- The columns of permuted rows have the same steps. -/
theorem steps_slots (perm : rows.Perm rows')
    (width : ∀ r ∈ rows, ∀ s ∈ rows, r.length = s.length) :
    (slots v rows).steps = (slots v rows').steps :=
  steps_inferTags rfl (steps_columnTokens (perm_columns perm width))

/-! ### Runs -/

/-- Two groups stand for the same columns, with tokens of one step. -/
structure Group.Like (g h : Group) : Prop where
  token : Step.of g.token = Step.of h.token
  start : g.start = h.start
  width : g.width = h.width

theorem joins_congr (left : Step.of a = Step.of t) (right : Step.of b = Step.of u) :
    joins a b = joins t u := by
  have literal {x : Token} (hx : x.isLiteral) : isCollapsible x = false := by
    simp only [Token.isLiteral, Bool.not_eq_true'] at hx
    simp [isCollapsible, hx]
  rcases Step.cases_of_eq left with ⟨ha, ht, -⟩ | ⟨ha, ht, slot⟩
  · simp [joins, literal ha, literal ht]
  rcases Step.cases_of_eq right with ⟨hb, hu, -⟩ | ⟨hb, hu, slot'⟩
  · simp [joins, literal hb, literal hu]
  simp only [Slot.ofToken, Slot.mk.injEq] at slot slot'
  simp [joins, isCollapsible, ha, ht, hb, hu, slot, slot']

theorem like_collapseStep {groups groups' : List Group}
    (like : List.Forall₂ Group.Like groups groups') (step : Step.of t = Step.of u) (j : Nat) :
    List.Forall₂ Group.Like (collapseStep groups t j) (collapseStep groups' u j) := by
  have single : Group.Like ⟨t, j, 1⟩ ⟨u, j, 1⟩ := ⟨step, rfl, rfl⟩
  cases like with
  | nil => exact .cons single .nil
  | @cons g h groups groups' last rest =>
    simp only [collapseStep, joins_congr last.token step]
    split
    · have wider : g.width + 1 = h.width + 1 := by rw [last.width]
      exact .cons ⟨Step.withModifier last.token .plus, last.start, wider⟩ rest
    · exact .cons single (.cons last rest)

theorem like_collapse (steps : line.steps = line'.steps) :
    List.Forall₂ Group.Like (collapse line) (collapse line') := by
  -- The two folds go on side by side, from groups that are alike so far.
  have run : ∀ (line line' : Line) (j : Nat) (groups groups' : List Group),
      line.steps = line'.steps → List.Forall₂ Group.Like groups groups' →
      List.Forall₂ Group.Like
        ((line.zipIdx j).foldl (fun groups place => collapseStep groups place.1 place.2) groups)
        ((line'.zipIdx j).foldl (fun groups place => collapseStep groups place.1 place.2)
          groups') := by
    intro line
    induction line with
    | nil =>
      intro line' j groups groups' steps like
      obtain rfl : line' = [] := by simpa [Line.steps, eq_comm] using steps
      exact like
    | cons t line ih =>
      intro line' j groups groups' steps like
      rcases line' with _ | ⟨u, line'⟩
      · simp at steps
      · simp only [Line.steps_cons, List.cons.injEq] at steps
        exact ih line' (j + 1) _ _ steps.2 (like_collapseStep like steps.1 j)
  exact run line line' 0 [] [] steps .nil

theorem map_like {groups groups' : List Group} (like : List.Forall₂ Group.Like groups groups') :
    groups.map (Step.of ∘ Group.token) = groups'.map (Step.of ∘ Group.token) := by
  induction like with
  | nil => rfl
  | cons like _ ih => simp [like.token, ih]

/-! ### The tail -/

/-- The lengths are scattered or not in any order, as they are in exact arithmetic. -/
def Steady (lengths : List Nat) : Prop :=
  ∀ other, other.Perm lengths → isScattered other = isScattered lengths

/-- Equal lengths have only one order. -/
theorem steady_replicate (n m : Nat) : Steady (List.replicate n m) := by
  intro other perm
  rw [List.perm_replicate.1 perm]

/-- The lengths that decide whether a template ends in a tail. There are none when its last token
cannot run to the end of the line. -/
def tailLengths (v : Vocabulary) (rows : List Line) : List Nat :=
  match collapse (slots v rows) with
  | [] => []
  | last :: _ =>
    if last.token.isPlaceholder && !isFixedKind last.token.kind then rows.map (spanLength last)
    else []

theorem spanLength_congr {g h : Group} (like : g.Like h) : spanLength g = spanLength h := by
  funext row
  simp only [spanLength, like.start, like.width]

theorem step_widenTail {g h : Group} (like : g.Like h) (perm : rows.Perm rows')
    (steady : (g.token.isPlaceholder && !isFixedKind g.token.kind) = true →
      Steady (rows.map (spanLength g))) :
    Step.of (widenTail rows g) = Step.of (widenTail rows' h) := by
  have fixed : (g.token.isPlaceholder && !isFixedKind g.token.kind) =
      (h.token.isPlaceholder && !isFixedKind h.token.kind) := by
    rcases Step.cases_of_eq like.token with ⟨hg, hh, -⟩ | ⟨hg, hh, slot⟩
    · simp only [Token.isLiteral, Bool.not_eq_true'] at hg hh
      simp [hg, hh]
    · simp only [Slot.ofToken, Slot.mk.injEq] at slot
      simp [hg, hh, slot]
  unfold widenTail
  by_cases free : (g.token.isPlaceholder && !isFixedKind g.token.kind) = true
  · have scattered : isScattered (rows.map (spanLength g)) =
        isScattered (rows'.map (spanLength h)) := by
      rw [← spanLength_congr like]
      exact (steady free _ (perm.symm.map _)).symm
    rw [← fixed, free, scattered]
    split
    · exact Step.withModifier like.token .minus
    · exact like.token
  · rw [Bool.not_eq_true] at free
    rw [← fixed, free]
    exact like.token

/-- The template of permuted rows has the same steps. -/
theorem steps_generalize (perm : rows.Perm rows')
    (width : ∀ r ∈ rows, ∀ s ∈ rows, r.length = s.length)
    (steady : Steady (tailLengths v rows)) :
    (generalize v rows).steps = (generalize v rows').steps := by
  have like := like_collapse (steps_slots (v := v) perm width)
  unfold tailLengths at steady
  unfold generalize
  rw [← slots, ← slots]
  generalize collapse (slots v rows) = groups at like steady ⊢
  generalize collapse (slots v rows') = groups' at like ⊢
  cases like with
  | nil => rfl
  | @cons g h groups groups' last rest =>
    have tail : Step.of (widenTail rows g) = Step.of (widenTail rows' h) :=
      step_widenTail last perm fun free => by simpa only [if_pos free] using steady
    simp only [Line.steps, List.map_reverse, List.map_cons, List.map_map, tail, map_like rest]

end Consensus

namespace Learner

open Consensus (generalize Steady tailLengths)

variable {v : Vocabulary} {lines lines' known known' templates templates' : List Line}
  {key : BucketKey} {buckets buckets' : List (BucketKey × List Line)}

/-! ### Buckets -/

theorem width_rowsOf (lines : List Line) (key : BucketKey) :
    ∀ r ∈ rowsOf lines key, ∀ s ∈ rowsOf lines key, r.length = s.length := by
  have size : ∀ r ∈ rowsOf lines key, r.length = key.size := by
    intro r hr
    simp only [rowsOf, List.mem_filter, decide_eq_true_eq] at hr
    exact congrArg BucketKey.size hr.2
  intro r hr s hs
  rw [size r hr, size s hs]

/-- The buckets are told by their keys. -/
theorem Collected.map_rowsOf (h : Collected lines buckets) :
    (buckets.map (·.1)).map (fun key => (key, rowsOf lines key)) = buckets := by
  rw [List.map_map]
  refine (List.map_congr_left fun (key, rows) mem => ?_).trans (List.map_id _)
  exact Prod.ext rfl (h.mem_iff.1 mem).1.symm

theorem Collected.mem_keys (h : Collected lines buckets) :
    key ∈ buckets.map (·.1) ↔ rowsOf lines key ≠ [] := by
  constructor
  · intro mem
    obtain ⟨⟨k, rows⟩, found, rfl⟩ := List.mem_map.1 mem
    obtain ⟨rfl, ne⟩ := h.mem_iff.1 found
    exact ne
  · exact fun ne => List.mem_map.2 ⟨_, h.mem_iff.2 ⟨rfl, ne⟩, rfl⟩

theorem perm_rowsOf (perm : lines.Perm lines') (key : BucketKey) :
    (rowsOf lines key).Perm (rowsOf lines' key) := perm.filter _

/-- Permuted lines have the same buckets, in the same order. -/
theorem Collected.keys_perm (h : Collected lines buckets) (h' : Collected lines' buckets')
    (perm : lines.Perm lines') : buckets.map (·.1) = buckets'.map (·.1) := by
  have : Std.Irrefl fun a b : BucketKey => a.before b = true :=
    ⟨fun a => by simp [BucketKey.before_irrefl]⟩
  have : Std.Antisymm fun a b : BucketKey => a.before b = true :=
    ⟨fun a b hab hba => by
      have := BucketKey.before_trans hab hba
      rw [BucketKey.before_irrefl] at this
      cases this⟩
  have ascending {lines : List Line} {buckets : List (BucketKey × List Line)}
      (h : Collected lines buckets) :
      (buckets.map (·.1)).Pairwise fun a b : BucketKey => a.before b = true :=
    List.pairwise_map.2 h.ascending
  refine (ascending h).eq_of_mem_iff (ascending h') fun key => ?_
  rw [h.mem_keys, h'.mem_keys, ne_eq, ne_eq, ← List.length_eq_zero_iff, ← List.length_eq_zero_iff,
    (perm_rowsOf perm key).length_eq]

/-- The templates of permuted lines have the same steps, bucket by bucket. -/
theorem steps_templatesOf (h : Collected lines buckets) (h' : Collected lines' buckets')
    (perm : lines.Perm lines') (steady : ∀ key, Steady (tailLengths v (rowsOf lines key))) :
    (templatesOf v buckets).map Line.steps = (templatesOf v buckets').map Line.steps := by
  have own {lines : List Line} {buckets : List (BucketKey × List Line)}
      (h : Collected lines buckets) : (templatesOf v buckets).map Line.steps =
        (buckets.map (·.1)).map fun key => (generalize v (rowsOf lines key)).steps := by
    rw [templatesOf, ← h.map_rowsOf]
    simp only [List.map_map, Function.comp_def]
  rw [own h, own h', ← h.keys_perm h' perm]
  exact List.map_congr_left fun key _ =>
    Consensus.steps_generalize (perm_rowsOf perm key) (width_rowsOf lines key) (steady key)

/-! ### Templates of different texts -/

/-- What is printed of a template that is added depends on its steps. -/
theorem print_insertNew (unmarked : v.markSpaces = false) {S T : Line}
    (same : known.map (Line.print v) = known'.map (Line.print v)) (steps : S.steps = T.steps) :
    (insertNew v known S).map (Line.print v) = (insertNew v known' T).map (Line.print v) := by
  have print := Line.print_congr unmarked steps
  have alike : (known.any fun U => Alike v U S) = known'.any fun U => Alike v U T := by
    have texts (known : List Line) (T : Line) : (known.any fun U => Alike v U T) =
        (known.map (Line.print v)).any fun printed => printed.text = (Line.print v T).text := by
      rw [List.any_map]
      rfl
    rw [texts, texts, same, print]
  unfold insertNew
  rw [alike]
  split
  · exact same
  · rw [List.map_append, List.map_append, same, List.map_singleton, List.map_singleton, print]

theorem print_foldl_insertNew (unmarked : v.markSpaces = false)
    (steps : templates.map Line.steps = templates'.map Line.steps)
    (same : known.map (Line.print v) = known'.map (Line.print v)) :
    (templates.foldl (insertNew v) known).map (Line.print v) =
      (templates'.foldl (insertNew v) known').map (Line.print v) := by
  induction templates generalizing known known' templates' with
  | nil =>
    obtain rfl : templates' = [] := by simpa [eq_comm] using steps
    exact same
  | cons S others ih =>
    rcases templates' with _ | ⟨T, others'⟩
    · simp at steps
    · rw [List.map_cons, List.map_cons, List.cons.injEq] at steps
      have next := ih steps.2 (print_insertNew unmarked same steps.1)
      exact next

/-- No two of the templates are written alike. -/
theorem nodup_foldl_insertNew (templates : List Line)
    (distinct : (known.map fun T => (Line.print v T).text).Nodup) :
    ((templates.foldl (insertNew v) known).map fun T => (Line.print v T).text).Nodup := by
  refine List.foldlRecOn (motive := fun known => (known.map fun T => (Line.print v T).text).Nodup)
    templates (insertNew v) distinct fun known distinct T _ => ?_
  unfold insertNew
  split
  · exact distinct
  · next fresh =>
    rw [List.map_append, List.map_singleton]
    refine distinct.append (List.nodup_singleton _) ?_
    simpa using fresh

/-! ### A new learner -/

/-- What is printed of the templates that a new learner finds for lines. -/
def discover (v : Vocabulary) (lines : List Line) : Except LearnError (List Line.Printed) := do
  let l ← lines.foldlM Learner.add {}
  let (_, templates) ← l.finish v
  return templates.map (Line.print v)

/-- A new learner takes lines that have tokens, if there are some. -/
theorem discover_eq (some : lines ≠ []) (tokens : ∀ line ∈ lines, line ≠ []) :
    ∃ buckets, Collected lines buckets ∧ discover v lines =
      .ok (((templatesOf v buckets).foldl (insertNew v) []).map (Line.print v)) := by
  obtain ⟨l, collected, templates, adds, finish⟩ := Mining.learned_exists (v := v) some tokens
  obtain ⟨holds, open'⟩ := collected_nil.foldlM (l := {}) adds
  refine ⟨_, holds, ?_⟩
  have found : templates = (templatesOf v collected.pending).foldl (insertNew v) [] :=
    (finish_eq_ok open' finish).2.trans (templates_findAll {} collected.pending)
  unfold discover
  rw [adds, found.symm]
  simp [finish, bind, Except.bind, pure, Except.pure]

/-- Lines that have tokens lead to the same templates in any order, printed in the same order and no
two of them alike, provided that floating-point arithmetic tells in any order of the same lengths
whether they are scattered. -/
theorem discover_perm (unmarked : v.markSpaces = false) (perm : lines.Perm lines')
    (tokens : ∀ line ∈ lines, line ≠ [])
    (steady : ∀ key, Steady (tailLengths v (rowsOf lines key))) :
    discover v lines = discover v lines' ∧ (lines ≠ [] → ∃ printed,
      discover v lines = .ok printed ∧ (printed.map (·.text)).Nodup) := by
  by_cases some : lines = []
  · subst some
    rw [List.nil_perm.1 perm]
    exact ⟨rfl, fun ne => absurd rfl ne⟩
  have some' : lines' ≠ [] := fun none => some (List.perm_nil.1 (none ▸ perm))
  obtain ⟨buckets, collected, eq⟩ := discover_eq (v := v) some tokens
  obtain ⟨buckets', collected', eq'⟩ := discover_eq (v := v) some'
    fun line hl => tokens line (perm.mem_iff.2 hl)
  have steps := steps_templatesOf collected collected' perm steady
  refine ⟨?_, fun _ => ⟨_, eq, ?_⟩⟩
  · rw [eq, eq', print_foldl_insertNew unmarked steps rfl]
  · rw [List.map_map]
    exact nodup_foldl_insertNew _ List.nodup_nil

/-- Numbers of one digit at the end of a line, and a line of another bucket. -/
theorem discover_perm_up : ∃ v, Vocabulary.ofSettings {} = .ok v ∧
    let lines := ["up 5".toList, "down".toList, "up 7".toList].map (Scan.message v)
    let lines' := ["up 7".toList, "up 5".toList, "down".toList].map (Scan.message v)
    v.markSpaces = false ∧ lines.Perm lines' ∧ (∀ line ∈ lines, line ≠ []) ∧
      (∀ key, Steady (tailLengths v (rowsOf lines key))) ∧
      discover v lines = discover v lines' ∧
        ∃ printed, discover v lines = .ok printed ∧ (printed.map (·.text)).Nodup := by
  let v : Vocabulary := {
    tags := [("regextime".toList, .time), ("multiline".toList, .multiline)]
    regextime := ⟨1⟩
    multiline := ⟨2⟩ }
  refine ⟨v, rfl, ?_⟩
  intro lines lines'
  have some : lines ≠ [] := by decide +kernel
  have tokens : ∀ line ∈ lines, line ≠ [] := by decide +kernel
  have perm : lines.Perm lines' := by
    have : ["up 5".toList, "down".toList, "up 7".toList].Perm
        ["up 7".toList, "up 5".toList, "down".toList] := by decide +kernel
    exact this.map _
  have tails : ∀ line ∈ lines, tailLengths v (rowsOf lines (.of line)) = List.replicate 2 1 ∨
      tailLengths v (rowsOf lines (.of line)) = [] := by decide +kernel
  have steady : ∀ key, Steady (tailLengths v (rowsOf lines key)) := by
    intro key
    by_cases empty : rowsOf lines key = []
    · rw [empty]
      exact Consensus.steady_replicate 0 0
    · obtain ⟨line, mem⟩ := List.exists_mem_of_ne_nil _ empty
      obtain ⟨hl, rfl⟩ : line ∈ lines ∧ BucketKey.of line = key := by simpa [rowsOf] using mem
      rcases tails line hl with eq | eq
      · rw [eq]
        exact Consensus.steady_replicate 2 1
      · rw [eq]
        exact Consensus.steady_replicate 0 0
  obtain ⟨same, found⟩ := discover_perm rfl perm tokens steady
  exact ⟨rfl, perm, tokens, steady, same, found some⟩

end Learner

end LogTemplate
