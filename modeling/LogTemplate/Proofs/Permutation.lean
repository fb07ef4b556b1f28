import LogTemplate.Proofs.Layout
import LogTemplate.Proofs.Order

/-!
# The order of registration

Templates are numbered in the order of their registration, and tries grow in it: which branches
templates share, how the slots of a node stand and which covers a search passes over all depend on
it. What a catalog finds does not.

* `Catalog.addAll` registers a list of lines, `Catalog.Lists` says what the catalog holds then;
* `Catalog.wildcards_cover?_iff` tells the number of tokens that placeholders take in a match by the
  templates alone, whatever their order;
* `Catalog.match?_perm` compares the catalogs of two orders.
-/

namespace LogTemplate

/-- A template covers a line in such a way that its placeholders take `n` tokens. -/
def CoversWith (regextime : Tag) (template line : Line) (n : Nat) : Prop :=
  ∃ slots, Covers regextime template line slots ∧ wildcards slots = n

theorem coversWith_iff {regextime : Tag} {template line : Line} {n : Nat} :
    CoversWith regextime template line n ↔
      ∃ slots ∈ Line.coverings regextime template line, wildcards slots = n := by
  simp only [CoversWith, Line.mem_coverings]

instance (regextime : Tag) (template line : Line) (n : Nat) :
    Decidable (CoversWith regextime template line n) :=
  decidable_of_iff _ coversWith_iff.symm

/-- The fewest tokens that placeholders take in a cover of a line by one of the templates. -/
structure IsFewest (regextime : Tag) (templates : List Line) (line : Line) (n : Nat) : Prop where
  attained : ∃ q ∈ templates, CoversWith regextime q line n
  least : ∀ q ∈ templates, ∀ m, CoversWith regextime q line m → n ≤ m

theorem IsFewest.perm {regextime : Tag} {qs qs' : List Line} {line : Line} {n : Nat}
    (h : IsFewest regextime qs line n) (perm : qs'.Perm qs) : IsFewest regextime qs' line n where
  attained := by
    obtain ⟨q, hq, covers⟩ := h.attained
    exact ⟨q, perm.mem_iff.2 hq, covers⟩
  least q hq := h.least q (perm.mem_iff.1 hq)

namespace Catalog

variable {v : Vocabulary} {c c' : Catalog} {line q : Line} {qs qs' : List Line}

/-! ### Lists of lines -/

/-- Register lines one after the other, until one is refused. -/
def addAll (v : Vocabulary) (qs : List Line) : Except CatalogError Catalog :=
  qs.foldlM (fun c q => (·.1) <$> c.add v q) {}

theorem map_add_eq_ok :
    (·.1) <$> c.add v q = .ok c' ↔ (∃ t ∈ q, t.isLiteral) ∧ (c.register v q none).1 = c' := by
  constructor
  · intro h
    cases granted : c.add v q with
    | ok answer =>
      obtain ⟨-, anchored, eq⟩ := addAnchored_eq_ok.1 granted
      rw [granted] at h
      exact ⟨anchored, by rw [eq]; exact Except.ok.inj h⟩
    | error e =>
      rw [granted] at h
      cases h
  · rintro ⟨⟨t, ht, literal⟩, rfl⟩
    have granted : c.add v q = .ok (c.register v q none) :=
      addAnchored_eq_ok.2 ⟨List.ne_nil_of_mem ht, ⟨t, ht, literal⟩, rfl⟩
    rw [granted]
    rfl

theorem addAll_concat_eq_ok :
    addAll v (qs ++ [q]) = .ok c' ↔
      ∃ c, addAll v qs = .ok c ∧ (∃ t ∈ q, t.isLiteral) ∧ (c.register v q none).1 = c' := by
  have step : addAll v (qs ++ [q]) = addAll v qs >>= fun c => (·.1) <$> c.add v q := by
    simp [addAll, List.foldlM_append]
  rw [step]
  cases addAll v qs with
  | ok c => simpa [bind, Except.bind] using map_add_eq_ok
  | error e => simp [bind, Except.bind]

/-- Lines are all granted just when each has a literal. -/
theorem exists_addAll_iff : (∃ c, addAll v qs = .ok c) ↔ ∀ q ∈ qs, ∃ t ∈ q, t.isLiteral := by
  induction qs using List.reverseRecOn with
  | nil => simp [addAll, pure, Except.pure]
  | append_singleton qs q ih =>
    simp only [addAll_concat_eq_ok, List.forall_mem_append, List.forall_mem_singleton, ← ih]
    constructor
    · rintro ⟨_, c, run, anchored, -⟩
      exact ⟨⟨c, run⟩, anchored⟩
    · rintro ⟨⟨c, run⟩, anchored⟩
      exact ⟨_, c, run, anchored, rfl⟩

/-- The template of a line that is registered as the `i`-th one. -/
def templateAt (v : Vocabulary) (i : Nat) (q : Line) : Template where
  id := Id.ofTemplate (Line.print v q).text
  text := (Line.print v q).text
  offsets := (Line.print v q).offsets
  line := q
  ordinal := i

/-- The templates of a catalog are those of a list of lines, in its order. -/
structure Lists (v : Vocabulary) (c : Catalog) (qs : List Line) : Prop where
  sound : Sound v c
  ordered : Ordered v c
  templates : c.templates = qs.mapIdx (templateAt v)

theorem lists_nil (v : Vocabulary) : Lists v {} [] where
  sound := sound_empty v
  ordered := ordered_empty v
  templates := rfl

/-- Where white space is not kept, a line of a new text has a new path and is added. -/
theorem Lists.register (h : Lists v c qs) (unmarked : v.markSpaces = false)
    (fresh : ∀ p ∈ qs, (Line.print v p).text ≠ (Line.print v q).text) :
    Lists v (c.register v q none).1 (qs ++ [q]) where
  sound := sound_register h.sound q none
  ordered := ordered_register h.sound h.ordered q none
  templates := by
    rcases register_cases h.sound q none with ⟨T, hT, same, -⟩ | ⟨-, -, eq⟩
    · have text : T.text = (Line.print v q).text := by
        rcases same with text | steps
        · exact text
        · exact (h.sound.text T hT).1.trans
            (congrArg Line.Printed.text (Line.print_congr unmarked steps))
      rw [h.templates] at hT
      obtain ⟨i, hi, rfl⟩ := List.mem_mapIdx.1 hT
      exact absurd text (fresh _ (List.getElem_mem hi))
    · have size : c.size = qs.length := by rw [Catalog.size, h.templates, List.length_mapIdx]
      rw [eq, templates_extend, h.templates, List.mapIdx_concat, newTemplate, size]
      rfl

/-- Lines of different texts are all added. -/
theorem lists_addAll (unmarked : v.markSpaces = false)
    (apart : (qs.map fun q => (Line.print v q).text).Nodup) (accepted : addAll v qs = .ok c) :
    Lists v c qs := by
  induction qs using List.reverseRecOn generalizing c with
  | nil =>
    cases accepted
    exact lists_nil v
  | append_singleton qs q ih =>
    obtain ⟨before, run, -, rfl⟩ := addAll_concat_eq_ok.1 accepted
    rw [List.map_append, List.map_singleton, List.nodup_append] at apart
    refine (ih apart.1 run).register unmarked fun p hp => ?_
    exact apart.2.2 _ (List.mem_map_of_mem hp) _ (List.mem_singleton_self _)

theorem Lists.line_mem (h : Lists v c qs) {i : Nat} {T : Template}
    (hT : c.templates[i]? = some T) : T.line ∈ qs ∧ T = templateAt v i T.line := by
  rw [h.templates, List.getElem?_mapIdx, Option.map_eq_some_iff] at hT
  obtain ⟨q, hq, rfl⟩ := hT
  exact ⟨List.mem_of_getElem? hq, rfl⟩

theorem Lists.exists_getElem? (h : Lists v c qs) (hq : q ∈ qs) :
    ∃ (i : Nat) (T : Template), c.templates[i]? = some T ∧ T.line = q := by
  obtain ⟨i, hi⟩ := List.mem_iff_getElem?.1 hq
  exact ⟨i, templateAt v i q, by rw [h.templates, List.getElem?_mapIdx, hi]; rfl, rfl⟩

/-! ### What is found -/

/-- The tokens that placeholders take in a match are as few as templates allow. -/
theorem wildcards_cover?_iff (h : Lists v c qs) {n : Nat} :
    (c.cover? v line).map (·.wildcards) = some n ↔ IsFewest v.regextime qs line n := by
  have real : ∀ a ∈ c.cover? v line, ∃ q ∈ qs, CoversWith v.regextime q line a.wildcards := by
    intro a ha
    obtain ⟨T, hT, count, best⟩ := isBest_of_cover? h.sound ha
    exact ⟨T.line, (h.line_mem hT).1, a.slots, best.covers, count.symm⟩
  have reached : ∀ q ∈ qs, ∀ m, CoversWith v.regextime q line m →
      ∃ a ∈ c.cover? v line, a.wildcards ≤ m := by
    rintro q hq m ⟨slots, covers, rfl⟩
    obtain ⟨i, T, hT, rfl⟩ := h.exists_getElem? hq
    obtain ⟨a, ha, least⟩ := (cover?_improves h.sound line).reaches
      ⟨i, wildcards slots, slots⟩ ⟨T, hT, covers, rfl⟩
    exact ⟨a, ha, least.elim Nat.le_of_lt fun ⟨same, _⟩ => Nat.le_of_eq same⟩
  rw [Option.map_eq_some_iff]
  constructor
  · rintro ⟨a, ha, rfl⟩
    refine ⟨real a ha, fun q hq m covers => ?_⟩
    obtain ⟨b, hb, le⟩ := reached q hq m covers
    rw [ha] at hb
    cases hb
    exact le
  · intro fewest
    obtain ⟨q, hq, covers⟩ := fewest.attained
    obtain ⟨a, ha, le⟩ := reached q hq n covers
    obtain ⟨p, hp, covered⟩ := real a ha
    exact ⟨a, ha, Nat.le_antisymm le (fewest.least p hp _ covered)⟩

theorem match?_eq_none_iff (h : Sound v c) (line : Line) :
    c.match? v line = none ↔ line = [] ∨ (c.cover? v line).map (·.wildcards) = none := by
  by_cases hl : line = []
  · simp [match?, hl]
  · cases found : c.cover? v line with
    | none => simp [match?, found]
    | some cover =>
      obtain ⟨T, hT, -⟩ := isBest_of_cover? h found
      simp [match?_of_cover? hl found hT, hl]

/-- A template that alone attains the fewest tokens is found, with the first of its covers that
attain them. -/
theorem match?_of_unique (h : Lists v c qs) (hl : line ≠ []) {n : Nat}
    (fewest : IsFewest v.regextime qs line n)
    (only : ∀ p ∈ qs, CoversWith v.regextime p line n → p = q) :
    ∃ slots, (Line.coverings v.regextime q line).find? (wildcards · = n) = some slots ∧
      c.match? v line = some ⟨Id.ofTemplate (Line.print v q).text, (Line.print v q).text,
        (Line.print v q).offsets, line.zipWith retag slots⟩ := by
  obtain ⟨cover, found, rfl⟩ := Option.map_eq_some_iff.1 ((wildcards_cover?_iff h).2 fewest)
  obtain ⟨T, hT, count, best⟩ := isBest_of_cover? h.sound found
  have first := find?_coverings h.sound h.ordered found hT
  obtain ⟨registered, eq⟩ := h.line_mem hT
  have same : T.line = q := only T.line registered ⟨cover.slots, best.covers, count.symm⟩
  rw [same] at first eq
  refine ⟨cover.slots, first, ?_⟩
  rw [match?_of_cover? hl found hT, eq]
  rfl

/-- Lines of different texts may be registered in any order, where white space is not kept. All are
granted again, and what is matched is the same, with as many tokens taken by placeholders. If one
template alone leaves so few tokens to placeholders, the whole match is the same. -/
theorem match?_perm (unmarked : v.markSpaces = false)
    (apart : (qs.map fun q => (Line.print v q).text).Nodup) (accepted : addAll v qs = .ok c)
    (perm : qs'.Perm qs) :
    ∃ c', addAll v qs' = .ok c' ∧ ∀ line,
      (c'.match? v line = none ↔ c.match? v line = none) ∧
      (c'.cover? v line).map (·.wildcards) = (c.cover? v line).map (·.wildcards) ∧
      ∀ n, IsFewest v.regextime qs line n →
        (∃! q, q ∈ qs ∧ CoversWith v.regextime q line n) →
        c'.match? v line = c.match? v line := by
  obtain ⟨c', accepted'⟩ : ∃ c', addAll v qs' = .ok c' := by
    rw [exists_addAll_iff]
    intro q hq
    exact exists_addAll_iff.1 ⟨c, accepted⟩ q (perm.mem_iff.1 hq)
  have lists := lists_addAll unmarked apart accepted
  have lists' := lists_addAll unmarked ((perm.map _).nodup_iff.2 apart) accepted'
  refine ⟨c', accepted', fun line => ?_⟩
  have count : (c'.cover? v line).map (·.wildcards) = (c.cover? v line).map (·.wildcards) := by
    refine Option.ext fun n => ?_
    rw [wildcards_cover?_iff lists, wildcards_cover?_iff lists']
    exact ⟨fun h => h.perm perm.symm, fun h => h.perm perm⟩
  refine ⟨?_, count, ?_⟩
  · rw [match?_eq_none_iff lists.sound, match?_eq_none_iff lists'.sound, count]
  · rintro n fewest ⟨q, -, only⟩
    by_cases hl : line = []
    · simp [match?, hl]
    · obtain ⟨slots, first, eq⟩ :=
        match?_of_unique lists hl fewest fun p hp covers => only p ⟨hp, covers⟩
      obtain ⟨slots', first', eq'⟩ :=
        match?_of_unique lists' hl (fewest.perm perm) fun p hp covers =>
          only p ⟨perm.mem_iff.1 hp, covers⟩
      rw [first] at first'
      cases first'
      rw [eq, eq']

/-- Two templates, of which only the later one covers the line. -/
theorem match?_perm_up : ∃ v, Vocabulary.ofSettings {} = .ok v ∧ v.markSpaces = false ∧
    let q := (Scan.pattern v "up %integer% s".toList [3]).toOption.getD []
    let p := (Scan.pattern v "up %string% s".toList [3]).toOption.getD []
    let line := Scan.message v "up north s".toList
    ([q, p].map fun q => (Line.print v q).text).Nodup ∧ [p, q].Perm [q, p] ∧
    IsFewest v.regextime [q, p] line 1 ∧
    (∃! t, t ∈ [q, p] ∧ CoversWith v.regextime t line 1) ∧
    ∃ c c', addAll v [q, p] = .ok c ∧ addAll v [p, q] = .ok c' ∧
      (c.match? v line).isSome ∧ c'.match? v line = c.match? v line := by
  let v : Vocabulary := {
    tags := [("regextime".toList, .time), ("multiline".toList, .multiline)]
    regextime := ⟨1⟩
    multiline := ⟨2⟩ }
  refine ⟨v, rfl, rfl, ?_⟩
  intro q p line
  have apart : ([q, p].map fun q => (Line.print v q).text).Nodup := by decide +kernel
  have counted : (addAll v [q, p]).toOption.all fun c =>
      (c.cover? v line).map (·.wildcards) = some 1 ∧ (c.match? v line).isSome := by
    decide +kernel
  obtain ⟨c, accepted⟩ := exists_addAll_iff.2
    (show ∀ t ∈ [q, p], ∃ x ∈ t, x.isLiteral by decide +kernel)
  rw [accepted] at counted
  obtain ⟨count, found⟩ := of_decide_eq_true counted
  have perm : [p, q].Perm [q, p] := .swap q p []
  have fewest : IsFewest v.regextime [q, p] line 1 :=
    (wildcards_cover?_iff (lists_addAll rfl apart accepted)).1 count
  have alone : ∃! t, t ∈ [q, p] ∧ CoversWith v.regextime t line 1 := by
    refine ⟨p, by decide +kernel, ?_⟩
    rintro t ⟨ht, covers⟩
    have only : ∀ t ∈ [q, p], CoversWith v.regextime t line 1 → t = p := by decide +kernel
    exact only t ht covers
  obtain ⟨c', accepted', same⟩ := match?_perm rfl apart accepted perm
  exact ⟨apart, perm, fewest, alone, c, c', accepted, accepted', found,
    (same line).2.2 1 fewest alone⟩

end Catalog

end LogTemplate
