import LogTemplate.Proofs.Consensus
import LogTemplate.Proofs.Mining
import LogTemplate.Proofs.Placeholder
import LogTemplate.Proofs.Registration
import LogTemplate.Proofs.Text

/-!
# What a learner finds for its lines

* `Learner.Collected` is the invariant of collecting: the buckets ascend and hold just the lines
  that were taken, `Learner.Collected.collect` is its step;
* `Learner.templates_findAll` tells which templates are found, and `Learner.byBucket_findAll` which
  of them each bucket gets: of templates that are written alike, the first bucket's stands for all;
* `Mining.learned_templateOf?` compares the template of the bucket's own lines, which covers all of
  them, with the one that the bucket gets.
-/

namespace LogTemplate

namespace BucketKey

theorem before_irrefl (k : BucketKey) : k.before k = false := by
  simp [before, Text.before_irrefl]

theorem before_iff {a b : BucketKey} : a.before b ↔
    a.size < b.size ∨ a.size = b.size ∧ Text.before a.signature b.signature := by
  simp [before]

theorem before_trans {a b c : BucketKey} (hab : a.before b) (hbc : b.before c) : a.before c := by
  rw [before_iff] at hab hbc ⊢
  rcases hab with hab | ⟨hab, hab'⟩ <;> rcases hbc with hbc | ⟨hbc, hbc'⟩
  · exact .inl (Nat.lt_trans hab hbc)
  · exact .inl (hbc ▸ hab)
  · exact .inl (hab ▸ hbc)
  · exact .inr ⟨hab.trans hbc, Text.before_trans hab' hbc'⟩

theorem before_of_not {a b : BucketKey} (hne : a ≠ b) (h : a.before b = false) : b.before a := by
  have h' : ¬a.before b := by simp [h]
  rw [before_iff, not_or, not_and] at h'
  rw [before_iff]
  rcases Nat.lt_or_ge b.size a.size with lt | ge
  · exact .inl lt
  · have same : a.size = b.size := Nat.le_antisymm ge (Nat.le_of_not_lt h'.1)
    have apart : a.signature ≠ b.signature := by
      intro e
      cases a
      cases b
      exact hne (by simp_all)
    exact .inr ⟨same.symm, Text.before_of_not apart (by simpa using h'.2 same)⟩

end BucketKey

namespace Learner

variable {v : Vocabulary} {lines rows : List Line} {line : Line} {key : BucketKey}
  {buckets : List (BucketKey × List Line)}

/-! ### Buckets -/

/-- The lines of a bucket, in their order. -/
def rowsOf (lines : List Line) (key : BucketKey) : List Line :=
  lines.filter fun line => BucketKey.of line = key

/-- The buckets ascend. -/
def Ascending (buckets : List (BucketKey × List Line)) : Prop :=
  buckets.Pairwise fun a b => a.1.before b.1

theorem lookup_of_before (h : ∀ bucket ∈ buckets, key.before bucket.1) :
    buckets.lookup key = none := by
  induction buckets with
  | nil => rfl
  | cons bucket buckets ih =>
    have ne : key ≠ bucket.1 := by
      intro e
      have := h bucket List.mem_cons_self
      rw [← e, BucketKey.before_irrefl] at this
      cases this
    rw [List.lookup_cons, beq_false_of_ne ne]
    exact ih fun other ho => h other (List.mem_cons_of_mem _ ho)

/-- In ascending buckets a bucket is found by its key. -/
theorem Ascending.lookup (h : Ascending buckets) (mem : (key, rows) ∈ buckets) :
    buckets.lookup key = some rows := by
  induction buckets with
  | nil => cases mem
  | cons bucket buckets ih =>
    obtain ⟨head, tail⟩ := List.pairwise_cons.1 h
    rcases List.mem_cons.1 mem with rfl | mem
    · simp
    · have ne : key ≠ bucket.1 := by
        intro e
        have := head _ mem
        rw [← e, BucketKey.before_irrefl] at this
        cases this
      rw [List.lookup_cons, beq_false_of_ne ne]
      exact ih tail mem

theorem mem_collect {bucket : BucketKey × List Line} (h : bucket ∈ collect key line buckets) :
    bucket.1 = key ∨ bucket ∈ buckets := by
  induction buckets with
  | nil => exact .inl (by simp_all [collect])
  | cons b buckets ih =>
    unfold collect at h
    split at h
    · next hk =>
      rcases List.mem_cons.1 h with rfl | h
      · exact .inl hk
      · exact .inr (List.mem_cons_of_mem _ h)
    · split at h
      · rcases List.mem_cons.1 h with rfl | h
        · exact .inl rfl
        · exact .inr h
      · rcases List.mem_cons.1 h with rfl | h
        · exact .inr List.mem_cons_self
        · exact (ih h).imp_right (List.mem_cons_of_mem _)

theorem Ascending.collect (h : Ascending buckets) (key : BucketKey) (line : Line) :
    Ascending (collect key line buckets) := by
  induction buckets with
  | nil => exact List.pairwise_singleton _ _
  | cons bucket buckets ih =>
    obtain ⟨head, tail⟩ := List.pairwise_cons.1 h
    unfold Learner.collect
    split
    · exact List.pairwise_cons.2 ⟨head, tail⟩
    · next hk =>
      split
      · next before =>
        refine List.pairwise_cons.2 ⟨fun other ho => ?_, h⟩
        rcases List.mem_cons.1 ho with rfl | ho
        · exact before
        · exact BucketKey.before_trans before (head other ho)
      · next before =>
        refine List.pairwise_cons.2 ⟨fun other ho => ?_, ih tail⟩
        rcases mem_collect ho with ho | ho
        · rw [ho]
          exact BucketKey.before_of_not (Ne.symm hk) (by simpa using before)
        · exact head other ho

theorem lookup_collect (h : Ascending buckets) (key : BucketKey) (line : Line) (k : BucketKey) :
    (collect key line buckets).lookup k =
      if k = key then some ((buckets.lookup key).getD [] ++ [line]) else buckets.lookup k := by
  induction buckets with
  | nil =>
    by_cases hk : k = key
    · simp [Learner.collect, hk]
    · simp [Learner.collect, List.lookup_cons, hk, beq_false_of_ne hk]
  | cons bucket buckets ih =>
    obtain ⟨head, tail⟩ := List.pairwise_cons.1 h
    obtain ⟨k', rows⟩ := bucket
    unfold Learner.collect
    by_cases same : k' = key
    · subst same
      by_cases hk : k = k'
      · simp [hk]
      · simp [List.lookup_cons, hk, beq_false_of_ne hk]
    · have apart : (key == k') = false := beq_false_of_ne (Ne.symm same)
      rw [if_neg same]
      by_cases before : key.before k'
      · rw [if_pos before]
        have later : buckets.lookup key = none :=
          lookup_of_before fun other ho => BucketKey.before_trans before (head other ho)
        by_cases hk : k = key
        · simp [hk, List.lookup_cons, apart, later]
        · simp [hk, List.lookup_cons, beq_false_of_ne hk]
      · rw [if_neg before, List.lookup_cons, ih tail]
        by_cases hk : k = key
        · simp [hk, List.lookup_cons, apart]
        · simp [hk, List.lookup_cons]

/-- The buckets ascend and hold just these lines, each in its own bucket and in their order. -/
structure Collected (lines : List Line) (buckets : List (BucketKey × List Line)) : Prop where
  ascending : Ascending buckets
  rows : ∀ key, buckets.lookup key =
    if rowsOf lines key = [] then none else some (rowsOf lines key)

theorem collected_nil : Collected [] [] := ⟨.nil, fun key => by simp [rowsOf]⟩

/-- One line more. -/
theorem Collected.collect (h : Collected lines buckets) (line : Line) :
    Collected (lines ++ [line]) (collect (.of line) line buckets) where
  ascending := h.ascending.collect _ _
  rows key := by
    rw [lookup_collect h.ascending, h.rows, h.rows]
    by_cases own : key = .of line
    · have rows : rowsOf (lines ++ [line]) key = rowsOf lines key ++ [line] := by
        simp [rowsOf, own]
      rw [if_pos own, ← own, rows]
      by_cases first : rowsOf lines key = [] <;> simp [first]
    · have other : BucketKey.of line ≠ key := Ne.symm own
      simp [own, rowsOf, other]

/-- The lines of a bucket are found among its lines. -/
theorem Collected.mem_iff (h : Collected lines buckets) :
    (key, rows) ∈ buckets ↔ rows = rowsOf lines key ∧ rows ≠ [] := by
  constructor
  · intro mem
    have := h.ascending.lookup mem
    rw [h.rows] at this
    split at this
    · cases this
    · next ne =>
      cases this
      exact ⟨rfl, ne⟩
  · rintro ⟨rfl, ne⟩
    exact Trie.mem_of_lookup ((h.rows key).trans (if_neg ne))

/-- A learner that takes a line collects it. -/
theorem Collected.add {l l' : Learner} (h : Collected lines l.pending)
    (add : l.add line = .ok l') :
    Collected (lines ++ [line]) l'.pending ∧ l'.findings = l.findings := by
  unfold Learner.add at add
  split at add
  · cases add
  · split at add
    · cases add
    · cases add
      exact ⟨h.collect line, rfl⟩

/-- A learner that takes lines collects them. -/
theorem Collected.foldlM {l l' : Learner} (h : Collected lines l.pending) {more : List Line}
    (run : more.foldlM Learner.add l = .ok l') :
    Collected (lines ++ more) l'.pending ∧ l'.findings = l.findings := by
  induction more generalizing lines l with
  | nil => cases run; simpa using h
  | cons line more ih =>
    rw [List.foldlM_cons, Vocabulary.bind_eq_ok] at run
    obtain ⟨next, add, run⟩ := run
    obtain ⟨step, same⟩ := h.add add
    simpa [same] using ih step run

/-! ### Findings -/

/-- Two templates are written alike. -/
abbrev Alike (v : Vocabulary) (S T : Line) : Prop :=
  (Line.print v S).text = (Line.print v T).text

/-- The first of the templates that is written like this one. -/
def firstAlike (v : Vocabulary) (templates : List Line) (T : Line) : Line :=
  (templates.find? fun S => Alike v S T).getD T

/-- A template, and a catalog that holds nothing else. -/
def findingFor (v : Vocabulary) (template : Line) : Finding :=
  ⟨template, (Catalog.register v {} template none).1⟩

/-- The templates of the buckets. -/
def templatesOf (v : Vocabulary) (buckets : List (BucketKey × List Line)) : List Line :=
  buckets.map fun bucket => Consensus.generalize v bucket.2

theorem firstAlike_append_of_alike {known more : List Line} {S T : Line} (hS : S ∈ known)
    (alike : Alike v S T) : firstAlike v (known ++ more) T = firstAlike v known T := by
  obtain ⟨U, found⟩ : ∃ U, known.find? (fun S => Alike v S T) = some U :=
    Option.isSome_iff_exists.1 (List.find?_isSome.2 ⟨S, hS, by simpa using alike⟩)
  simp [firstAlike, List.find?_append, found]

/-- A template that is written like a known one is never the first. -/
theorem firstAlike_insert {known more : List Line} {S U : Line} (hS : S ∈ known)
    (alike : Alike v S U) (T : Line) :
    firstAlike v (known ++ U :: more) T = firstAlike v (known ++ more) T := by
  by_cases hT : Alike v U T
  · rw [firstAlike_append_of_alike hS (Eq.trans alike hT),
      firstAlike_append_of_alike hS (Eq.trans alike hT)]
  · simp [firstAlike, List.find?_append, hT]

/-- Each bucket gets the first template that is written like its own. -/
theorem byBucket_findAll (known : List Line) (found : List (BucketKey × Finding))
    (buckets : List (BucketKey × List Line)) :
    (findAll v ⟨known, found⟩ buckets).byBucket = found ++ buckets.map fun bucket =>
      (bucket.1, findingFor v
        (firstAlike v (known ++ templatesOf v buckets) (Consensus.generalize v bucket.2))) := by
  induction buckets generalizing known found with
  | nil => simp [findAll]
  | cons bucket buckets ih =>
    obtain ⟨key, rows⟩ := bucket
    unfold findAll findingOf
    simp only
    cases hS : known.find? fun S =>
        (Line.print v S).text = (Line.print v (Consensus.generalize v rows)).text with
    | some S =>
      have alike : Alike v S (Consensus.generalize v rows) := by
        simpa using List.find?_some hS
      have first : firstAlike v known (Consensus.generalize v rows) = S := by
        simp [firstAlike, hS]
      have mem := List.mem_of_find?_eq_some hS
      rw [ih]
      simp [templatesOf, firstAlike_insert mem alike, firstAlike_append_of_alike mem alike, first,
        findingFor]
    | none =>
      rw [ih]
      simp [templatesOf, firstAlike, List.find?_append, hS, findingFor]

/-- Add a template to those that are known, unless one of them is written alike. -/
def insertNew (v : Vocabulary) (known : List Line) (T : Line) : List Line :=
  if known.any fun S => Alike v S T then known else known ++ [T]

theorem fst_findingOf (known rows : List Line) :
    (findingOf v known rows).1 = insertNew v known (Consensus.generalize v rows) := by
  unfold findingOf insertNew
  dsimp only
  cases found : known.find? fun S =>
      (Line.print v S).text = (Line.print v (Consensus.generalize v rows)).text with
  | none =>
    have fresh := List.find?_eq_none.1 found
    rw [if_neg (by simpa using fresh)]
  | some S =>
    have alike := List.find?_some found
    rw [if_pos (List.any_eq_true.2 ⟨S, List.mem_of_find?_eq_some found, alike⟩)]

/-- What is found are the templates of the buckets, without those that are written alike. -/
theorem templates_findAll (found : Findings) (buckets : List (BucketKey × List Line)) :
    (findAll v found buckets).templates =
      (templatesOf v buckets).foldl (insertNew v) found.templates := by
  induction buckets generalizing found with
  | nil => rfl
  | cons bucket buckets ih =>
    obtain ⟨key, rows⟩ := bucket
    calc (findAll v found ((key, rows) :: buckets)).templates
      _ = (templatesOf v buckets).foldl (insertNew v) (findingOf v found.templates rows).1 := ih _
      _ = (templatesOf v ((key, rows) :: buckets)).foldl (insertNew v) found.templates := by
        rw [fst_findingOf]
        rfl

theorem mem_foldl_insertNew {known templates : List Line} {T : Line}
    (h : T ∈ templates.foldl (insertNew v) known) : T ∈ known ∨ T ∈ templates := by
  induction templates generalizing known with
  | nil => exact .inl h
  | cons S templates ih =>
    rcases ih h with known | later
    · unfold insertNew at known
      split at known
      · exact .inl known
      · rcases List.mem_append.1 known with known | own
        · exact .inl known
        · rw [List.mem_singleton.1 own]
          exact .inr List.mem_cons_self
    · exact .inr (List.mem_cons_of_mem _ later)

/-- A learner that finishes has found the templates of its buckets. -/
theorem finish_eq_ok {l l' : Learner} {templates : List Line} (collecting : l.findings = none)
    (h : l.finish v = .ok (l', templates)) :
    l'.findings = some (findAll v {} l.pending) ∧
      templates = (findAll v {} l.pending).templates := by
  unfold finish at h
  rw [collecting] at h
  simp only at h
  split at h
  · cases h
  · cases h
    exact ⟨rfl, rfl⟩

/-- The first template that is written like one of a list is in the list and written like it, and
those before it are not. -/
theorem firstAlike_spec {templates : List Line} {T : Line} (hT : T ∈ templates) :
    Alike v (firstAlike v templates T) T ∧ ∃ before after,
      templates = before ++ firstAlike v templates T :: after ∧ ∀ S ∈ before, ¬Alike v S T := by
  obtain ⟨S, found⟩ : ∃ S, templates.find? (fun S => Alike v S T) = some S :=
    Option.isSome_iff_exists.1 (List.find?_isSome.2 ⟨T, hT, by simp⟩)
  have eq : firstAlike v templates T = S := by simp [firstAlike, found]
  obtain ⟨alike, before, after, split, others⟩ := List.find?_eq_some_iff_append.1 found
  rw [eq]
  exact ⟨of_decide_eq_true alike, before, after, split, fun U hU => by simpa using others U hU⟩

end Learner

namespace Mining

open Learner

variable {v : Vocabulary} {lines : List Line} {line : Line} {l : Learner}

/-- The template of the lines of the bucket that a line belongs to. -/
def ownTemplate (v : Vocabulary) (lines : List Line) (line : Line) : Line :=
  Consensus.generalize v (rowsOf lines (.of line))

/-- A line is covered by the template of its own bucket. -/
theorem covers_ownTemplate (h : v.regextime ≠ .unknown) (hl : line ∈ lines) :
    ∃ slots, Covers v.regextime (ownTemplate v lines line) line slots := by
  refine Consensus.covers_generalize h (fun r hr s hs => ?_) (by simp [rowsOf, hl])
  have sameKey : BucketKey.of r = .of s := by
    simp only [rowsOf, List.mem_filter, decide_eq_true_eq] at hr hs
    rw [hr.2, hs.2]
  exact congrArg BucketKey.size sameKey

/-- What a learner has found for the buckets of its lines. -/
theorem findings_of_learned (h : Learned v lines l) :
    ∃ buckets, Collected lines buckets ∧ l.findings = some (findAll v {} buckets) := by
  obtain ⟨collected, templates, adds, finish⟩ := h
  obtain ⟨holds, open'⟩ := collected_nil.foldlM (l := {}) adds
  exact ⟨_, holds, (finish_eq_ok open' finish).1⟩

/-- A template that was learned is that of lines of one bucket. -/
theorem eq_generalize_of_learned {templates : List Line} {T : Line} (h : Learned v lines l)
    (found : l.templates? = some templates) (hT : T ∈ templates) :
    ∃ key, T = Consensus.generalize v (rowsOf lines key) := by
  obtain ⟨buckets, collected, findings⟩ := findings_of_learned h
  rw [Learner.templates?, findings] at found
  cases found
  have hT : T ∈ (findAll v {} buckets).templates := hT
  rw [templates_findAll] at hT
  have own := (mem_foldl_insertNew hT).resolve_left (by simp)
  obtain ⟨⟨key, rows⟩, mem, rfl⟩ := List.mem_map.1 own
  obtain ⟨rfl, -⟩ := collected.mem_iff.1 mem
  exact ⟨key, rfl⟩

/-- The template that is kept for a line: of the templates that are written like that of the line's
own bucket, the first bucket's. -/
structure IsKept (v : Vocabulary) (lines : List Line) (line first : Line) : Prop where
  mem : first ∈ lines
  alike : Alike v (ownTemplate v lines first) (ownTemplate v lines line)
  least : ∀ other ∈ lines, Alike v (ownTemplate v lines other) (ownTemplate v lines line) →
    ¬(BucketKey.of other).before (.of first)

/-- In a list of buckets the first template that is written like a line's own is kept for it. -/
theorem isKept_firstAlike {buckets : List (BucketKey × List Line)} (h : Collected lines buckets)
    (hl : line ∈ lines) : ∃ first, IsKept v lines line first ∧
      firstAlike v (templatesOf v buckets) (ownTemplate v lines line) =
        ownTemplate v lines first := by
  have bucketOf : ∀ other ∈ lines, (BucketKey.of other, rowsOf lines (.of other)) ∈ buckets :=
    fun other ho => h.mem_iff.2 ⟨rfl, List.ne_nil_of_mem (a := other) (by simp [rowsOf, ho])⟩
  have own : ownTemplate v lines line ∈ templatesOf v buckets :=
    List.mem_map.2 ⟨_, bucketOf line hl, rfl⟩
  obtain ⟨alike, before, after, split, others⟩ := firstAlike_spec (v := v) own
  obtain ⟨front, back, eq, hfront, hback⟩ := List.map_eq_append_iff.1 split
  obtain ⟨⟨key, rows⟩, later, rfl, hkept, -⟩ := List.map_eq_cons_iff.1 hback
  obtain ⟨rfl, ne⟩ := h.mem_iff.1 (eq ▸ List.mem_append_right front List.mem_cons_self)
  obtain ⟨first, hfirst⟩ := List.exists_mem_of_ne_nil _ ne
  simp only [rowsOf, List.mem_filter, decide_eq_true_eq] at hfirst
  obtain ⟨mem, rfl⟩ := hfirst
  rw [← hkept] at alike
  refine ⟨first, ⟨mem, alike, fun other ho alikeOther least => ?_⟩, hkept.symm⟩
  have ascending := h.ascending
  rw [eq] at ascending
  have place := bucketOf other ho
  rw [eq, List.mem_append, List.mem_cons] at place
  rcases place with place | place | place
  · refine others (ownTemplate v lines other) ?_ alikeOther
    rw [← hfront]
    exact List.mem_map.2 ⟨_, place, rfl⟩
  · rw [(Prod.mk.inj place).1, BucketKey.before_irrefl] at least
    cases least
  · have := (List.pairwise_cons.1 (List.pairwise_append.1 ascending).2.1).1 _ place
    have := BucketKey.before_trans least this
    rw [BucketKey.before_irrefl] at this
    cases this

/-- A learner answers with the template that is kept for a line, if this covers the line. -/
theorem templateOf?_of_learned (h : Learned v lines l) (hl : line ∈ lines) (ne : line ≠ []) :
    ∃ first, IsKept v lines line first ∧ ∀ T, l.templateOf? v line = some T ↔
      T = ownTemplate v lines first ∧ ∃ slots, Covers v.regextime T line slots := by
  obtain ⟨buckets, collected, findings⟩ := findings_of_learned h
  obtain ⟨first, kept, eq⟩ := isKept_firstAlike (v := v) collected hl
  have bucket : buckets.lookup (.of line) = some (rowsOf lines (.of line)) := by
    rw [collected.rows, if_neg (List.ne_nil_of_mem (a := line) (by simp [rowsOf, hl]))]
  have finding : (findAll v {} buckets).byBucket.lookup (.of line) =
      some (findingFor v (ownTemplate v lines first)) := by
    rw [← eq, byBucket_findAll, List.nil_append, List.nil_append,
      Trie.lookup_map (fun rows => findingFor v
        (firstAlike v (templatesOf v buckets) (Consensus.generalize v rows))), bucket]
    rfl
  refine ⟨first, kept, fun T => ?_⟩
  have covers := Catalog.isSome_match?_register (v := v) (T := ownTemplate v lines first) ne
  unfold Learner.templateOf?
  simp only [findings, finding, Option.bind_eq_bind, Option.bind_some, Option.bind_eq_some_iff]
  constructor
  · rintro ⟨m, hm, same⟩
    cases Option.some.inj same
    exact ⟨rfl, covers.1 (Option.isSome_of_mem hm)⟩
  · rintro ⟨rfl, covered⟩
    obtain ⟨m, hm⟩ := Option.isSome_iff_exists.1 (covers.2 covered)
    exact ⟨m, hm, rfl⟩

/-- Lines that have tokens can be learned from, and each of them is covered by the template of its
own bucket. The learner answers with the template of the first bucket whose template is written like
that one, if it covers the line, which it does when it has the same steps. -/
theorem templateOf?_learned (h : v.Regular) (some : lines ≠ [])
    (tokens : ∀ line ∈ lines, line ≠ []) :
    ∃ l, Learned v lines l ∧ ∀ line ∈ lines,
      (∃ slots, Covers v.regextime (ownTemplate v lines line) line slots) ∧
      ∃ first, IsKept v lines line first ∧
        (∀ T, l.templateOf? v line = .some T ↔
          T = ownTemplate v lines first ∧ ∃ slots, Covers v.regextime T line slots) ∧
        ((ownTemplate v lines first).steps = (ownTemplate v lines line).steps →
          l.templateOf? v line = .some (ownTemplate v lines first)) := by
  have time := (Vocabulary.name?_of_tag? h.name).2
  obtain ⟨l, learned⟩ := learned_exists (v := v) some tokens
  refine ⟨l, learned, fun line hl => ?_⟩
  obtain ⟨slots, own⟩ := covers_ownTemplate time hl
  obtain ⟨first, kept, answer⟩ := templateOf?_of_learned learned hl (tokens line hl)
  exact ⟨⟨slots, own⟩, first, kept, answer,
    fun same => (answer _).2 ⟨rfl, slots, own.congr same⟩⟩

/-- In the vocabulary of any settings, the learner answers for a line of a bucket with the template
of the first bucket whose template is written like that of the line's own, if it covers the line.
The template of its own bucket covers the line, and so does one of the same steps. -/
theorem learned_templateOf? {compile : Vocabulary.Compiler} {s : Settings}
    (h : Vocabulary.build compile s = .ok v) (some : lines ≠ [])
    (tokens : ∀ line ∈ lines, line ≠ []) :
    ∃ l, Learned v lines l ∧ ∀ line ∈ lines,
      (∃ slots, Covers v.regextime (ownTemplate v lines line) line slots) ∧
      ∃ first, IsKept v lines line first ∧
        (∀ T, l.templateOf? v line = .some T ↔
          T = ownTemplate v lines first ∧ ∃ slots, Covers v.regextime T line slots) ∧
        ((ownTemplate v lines first).steps = (ownTemplate v lines line).steps →
          l.templateOf? v line = .some (ownTemplate v lines first)) :=
  templateOf?_learned (Vocabulary.regular_build h) some tokens

/-- Two buckets, told apart by a word of one character, whose templates are written alike and have
the same steps. -/
theorem learned_templateOf?_up : ∃ v, Vocabulary.ofSettings {} = .ok v ∧
    let lines := ["up aa bb now".toList, "up cc dd now".toList, "up x ee now".toList,
      "up ff x now".toList].map (Scan.message v)
    lines ≠ [] ∧ (∀ line ∈ lines, line ≠ []) ∧
      (lines.map BucketKey.of).dedup.length = 2 ∧
      (∀ a ∈ lines, ∀ b ∈ lines, Alike v (ownTemplate v lines a) (ownTemplate v lines b)) ∧
      ∃ l, Learned v lines l ∧ ∀ line ∈ lines, (l.templateOf? v line).isSome := by
  let v : Vocabulary := {
    tags := [("regextime".toList, .time), ("multiline".toList, .multiline)]
    regextime := ⟨1⟩
    multiline := ⟨2⟩ }
  have h : Vocabulary.ofSettings {} = .ok v := rfl
  refine ⟨v, h, ?_⟩
  intro lines
  have some : lines ≠ [] := by decide +kernel
  have tokens : ∀ line ∈ lines, line ≠ [] := by decide +kernel
  have buckets : (lines.map BucketKey.of).dedup.length = 2 := by decide +kernel
  have alike : ∀ a ∈ lines, ∀ b ∈ lines,
      Alike v (ownTemplate v lines a) (ownTemplate v lines b) := by
    decide +kernel
  have steps : ∀ a ∈ lines, ∀ b ∈ lines,
      (ownTemplate v lines a).steps = (ownTemplate v lines b).steps := by decide +kernel
  obtain ⟨l, learned, found⟩ := learned_templateOf? h some tokens
  refine ⟨some, tokens, buckets, alike, l, learned, fun line hl => ?_⟩
  obtain ⟨-, first, kept, -, answer⟩ := found line hl
  rw [answer (steps first kept.mem line hl)]
  rfl

/-- The templates of two buckets are written alike, and the one that is kept does not cover the line
of the other. -/
theorem learned_templateOf?_none : ∃ v, Vocabulary.ofSettings {} = .ok v ∧
    let lines := ["x 5 y".toList, "x %integer% y".toList].map (Scan.message v)
    (∀ line ∈ lines, line ≠ []) ∧ ∃ l, Learned v lines l ∧
      ∃ line ∈ lines, l.templateOf? v line = none := by
  let v : Vocabulary := {
    tags := [("regextime".toList, .time), ("multiline".toList, .multiline)]
    regextime := ⟨1⟩
    multiline := ⟨2⟩ }
  refine ⟨v, rfl, ?_⟩
  intro lines
  have tokens : ∀ line ∈ lines, line ≠ [] := by decide +kernel
  have some : lines ≠ [] := by decide +kernel
  obtain ⟨l, learned⟩ := learned_exists (v := v) some tokens
  have unanswered : (learned? v lines).bind (fun l =>
      l.templateOf? v (Scan.message v "x %integer% y".toList)) = none := by decide +kernel
  rw [learned?_eq_some_iff.2 learned] at unanswered
  exact ⟨tokens, l, learned, _, List.mem_cons_of_mem _ List.mem_cons_self, unanswered⟩

end Mining

end LogTemplate
