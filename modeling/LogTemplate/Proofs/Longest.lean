import LogTemplate.Proofs.Line
import LogTemplate.Proofs.Timestamp
import Mathlib.Data.List.Forall2
import Mathlib.Data.List.Induction

/-!
# The longest timestamp

What a timestamp is, told layout by layout: a beginning of the text that fits a layout character by
character, and that the group of the layout admits. The longest one counts, and of equally long
ones that of the smallest group.

* `LayoutTrie.Ends` are the paths of a trie, `LayoutTrie.ends_insert` says that a layout adds its
  own path, and `LayoutTrie.mem_walk` that a walk with all live nodes finds what the paths accept;
* `IsStamp` and `IsLongest` are the specification;
* `TimeMatcher.hasten?` is the search with its short cuts: a text that is too short is given up at
  once, and the groups are asked only until one admits;
* `TimeMatcher.match?_eq_longest` says that both find the longest timestamp.
-/

namespace LogTemplate

/-- The characters of a text belong to the classes, one by one. -/
def LayoutClass.Fits (classes : List LayoutClass) (stamp : Text) : Prop :=
  List.Forall₂ (fun k c => k.accepts c) classes stamp

/-! ### Paths -/

namespace LayoutTrie

variable {t child : LayoutTrie} {k : LayoutClass} {path layout : List LayoutClass} {g h n m : Nat}
  {text : Text}

/-- The path leads from the root to a node where a layout of the group ends. -/
inductive Ends : LayoutTrie → List LayoutClass → Nat → Prop
  | here {t : LayoutTrie} {g : Nat} (ends : g ∈ t.groups) : Ends t [] g
  | behind {t child : LayoutTrie} {k : LayoutClass} {path : List LayoutClass} {g : Nat}
      (branch : (k, child) ∈ t.branches) (ends : Ends child path g) : Ends t (k :: path) g

theorem ends_nil : t.Ends [] g ↔ g ∈ t.groups := by
  constructor
  · rintro ⟨ends⟩
    assumption
  · exact .here

theorem ends_cons :
    t.Ends (k :: path) g ↔ ∃ child, (k, child) ∈ t.branches ∧ child.Ends path g := by
  constructor
  · rintro (_ | ⟨branch, ends⟩)
    exact ⟨_, branch, ends⟩
  · rintro ⟨child, branch, ends⟩
    exact .behind branch ends

theorem not_ends_empty : ¬empty.Ends path g := by
  rintro (ends | ⟨branch, -⟩)
  · cases ends
  · cases branch

/-- A change of the branch of a class changes the paths through this branch. -/
theorem exists_updateBranch {P : LayoutTrie → Prop} {f : LayoutTrie → LayoutTrie} {added : Prop}
    (step : ∀ child, P (f child) ↔ P child ∨ added) (none : ¬P empty) (k k' : LayoutClass)
    (branches : List (LayoutClass × LayoutTrie)) :
    (∃ child, (k, child) ∈ updateBranch k' f branches ∧ P child) ↔
      (∃ child, (k, child) ∈ branches ∧ P child) ∨ (k = k' ∧ added) := by
  induction branches with
  | nil => simp [updateBranch, step, none]
  | cons e branches ih =>
    obtain ⟨k₀, old⟩ := e
    unfold updateBranch
    by_cases same : k₀ = k'
    · subst same
      simp only [if_true, List.mem_cons, Prod.mk.injEq, or_and_right, exists_or, and_assoc,
        exists_and_left, exists_eq_left, step, and_or_left, or_right_comm]
    · simp only [same, if_false, List.mem_cons, Prod.mk.injEq, or_and_right, exists_or, ih,
        or_assoc]

/-- A layout adds its own path, and no other. -/
theorem ends_insert :
    (t.insert h layout).Ends path g ↔ t.Ends path g ∨ (path = layout ∧ g = h) := by
  induction layout generalizing t path with
  | nil =>
    obtain ⟨groups, branches⟩ := t
    cases path with
    | nil =>
      rw [insert, ends_nil, ends_nil]
      by_cases known : h ∈ groups
      · simp only [known, if_true, LayoutTrie.groups, true_and]
        exact ⟨.inl, fun ends => ends.elim id fun eq => eq ▸ known⟩
      · simp [known, LayoutTrie.groups]
    | cons k path => simp [insert, ends_cons, LayoutTrie.branches]
  | cons k' layout ih =>
    obtain ⟨groups, branches⟩ := t
    cases path with
    | nil => simp [insert, ends_nil, LayoutTrie.groups]
    | cons k path =>
      rw [insert, ends_cons, ends_cons]
      have changed := exists_updateBranch (P := (·.Ends path g)) (fun child => ih (t := child))
        not_ends_empty k k' branches
      simpa [LayoutTrie.branches, and_assoc] using changed

/-! ### Walks -/

theorem mem_flatMap_after {live : List LayoutTrie} {c : Char} :
    child ∈ live.flatMap (after c) ↔ ∃ t ∈ live, ∃ k, k.accepts c ∧ (k, child) ∈ t.branches := by
  simp [after, and_comm]

@[simp] theorem walk_of_none (n : Nat) (text : Text) : walk [] n text = [] := by
  cases text <;> simp [walk]

/-- Where no node is alive any more, going on finds nothing. -/
theorem walk_cons (live : List LayoutTrie) (n : Nat) (c : Char) (text : Text) :
    walk live n (c :: text) =
      (live.flatMap (after c)).flatMap (fun t => t.groups.map (n + 1, ·)) ++
        walk (live.flatMap (after c)) (n + 1) text := by
  rw [walk]
  cases live.flatMap (after c) <;> simp

/-- A walk lists where the paths of its nodes end, behind what they accept of the text. -/
theorem mem_walk {live : List LayoutTrie} :
    (m, g) ∈ walk live n text ↔
      ∃ t ∈ live, ∃ path stamp, t.Ends path g ∧ path ≠ [] ∧ LayoutClass.Fits path stamp ∧
        stamp <+: text ∧ m = n + stamp.length := by
  induction text generalizing live n with
  | nil =>
    constructor
    · intro found
      cases found
    · rintro ⟨t, -, path, stamp, -, ne, fits, begins, -⟩
      obtain rfl := List.prefix_nil.1 begins
      cases fits
      exact absurd rfl ne
  | cons c text ih =>
    rw [walk_cons, List.mem_append, ih, List.mem_flatMap]
    constructor
    · rintro (⟨child, alive, ends⟩ | ⟨child, alive, path, stamp, ends, -, fits, begins, rfl⟩)
      · obtain ⟨t, ht, k, accepts, branch⟩ := mem_flatMap_after.1 alive
        obtain ⟨group, known, eq⟩ := List.mem_map.1 ends
        cases eq
        exact ⟨t, ht, [k], [c], .behind branch (.here known), by simp, .cons accepts .nil,
          (List.prefix_cons_inj c).2 List.nil_prefix, rfl⟩
      · obtain ⟨t, ht, k, accepts, branch⟩ := mem_flatMap_after.1 alive
        exact ⟨t, ht, k :: path, c :: stamp, .behind branch ends, by simp, .cons accepts fits,
          (List.prefix_cons_inj c).2 begins, by simp only [List.length_cons]; omega⟩
    · rintro ⟨t, ht, path, stamp, ends, ne, fits, begins, rfl⟩
      cases fits with
      | nil => exact absurd rfl ne
      | @cons k d path stamp accepts fits =>
        obtain ⟨rfl, behind⟩ := List.cons_prefix_cons.1 begins
        obtain ⟨child, branch, ends⟩ := ends_cons.1 ends
        have alive : child ∈ live.flatMap (after d) :=
          mem_flatMap_after.2 ⟨t, ht, k, accepts, branch⟩
        -- The path ends at the next node, or it goes on behind it.
        cases fits with
        | nil => exact .inl ⟨child, alive, List.mem_map.2 ⟨g, ends_nil.1 ends, rfl⟩⟩
        | cons accepts' fits =>
          exact .inr ⟨child, alive, _, _, ends, by simp, .cons accepts' fits, behind,
            by simp only [List.length_cons]; omega⟩

end LayoutTrie

/-! ### What a timestamp is -/

/-- The text fits a layout of the group, which is not empty, and the group admits it. -/
structure TimeGroup.Reads (g : TimeGroup) (stamp : Text) : Prop where
  layout : ∃ layout ∈ g.layouts, layout ≠ [] ∧ LayoutClass.Fits (layout.map .of) stamp
  admitted : ∀ check ∈ g.check, check stamp

/-- The text begins with a timestamp of one of the groups. -/
structure IsStamp (groups : List TimeGroup) (text : Text) (g : TimeGroup) (stamp : Text) :
    Prop where
  group : g ∈ groups
  begins : stamp <+: text
  reads : g.Reads stamp

/-- No timestamp at the beginning of the text is longer in bytes, and none of the same length is of
a smaller group. -/
structure IsLongest (groups : List TimeGroup) (text : Text) (g : TimeGroup) (stamp : Text) :
    Prop extends IsStamp groups text g stamp where
  longest : ∀ g' stamp', IsStamp groups text g' stamp' →
    stamp'.bytes < stamp.bytes ∨ stamp'.bytes = stamp.bytes ∧ g.id ≤ g'.id

namespace TimeMatcher

variable {groups : List TimeGroup} {g : TimeGroup} {text stamp : Text} {n i : Nat}

theorem ofGroups_concat (groups : List TimeGroup) (g : TimeGroup) :
    ofGroups (groups ++ [g]) = (ofGroups groups).add g := by
  simp [ofGroups]

/-- A group adds the paths of its layouts. -/
theorem ends_add {m : TimeMatcher} {path : List LayoutClass} :
    (m.add g).trie.Ends path i ↔
      m.trie.Ends path i ∨
        (∃ layout ∈ g.layouts, layout ≠ [] ∧ path = layout.map .of) ∧ i = g.id := by
  have added (layouts : List Text) (t : LayoutTrie) :
      (layouts.foldl (fun t layout => t.insert g.id (layout.map .of)) t).Ends path i ↔
        t.Ends path i ∨ (∃ layout ∈ layouts, path = layout.map .of) ∧ i = g.id := by
    induction layouts generalizing t with
    | nil => simp
    | cons layout layouts ih =>
      rw [List.foldl_cons, ih, LayoutTrie.ends_insert]
      simp only [List.exists_mem_cons_iff, or_and_right, or_assoc]
  rw [add, added]
  simp [and_assoc]

/-- The paths of a matcher are those of the layouts of its groups. -/
theorem ends_ofGroups {path : List LayoutClass} :
    (ofGroups groups).trie.Ends path i ↔
      ∃ g ∈ groups, (∃ layout ∈ g.layouts, layout ≠ [] ∧ path = layout.map .of) ∧ i = g.id := by
  induction groups using List.reverseRecOn with
  | nil => simpa [ofGroups] using LayoutTrie.not_ends_empty
  | append_singleton groups g ih =>
    rw [ofGroups_concat, ends_add, ih]
    simp [or_and_right, exists_or]

theorem check?_add (m : TimeMatcher) (g : TimeGroup) (i : Nat) :
    (m.add g).check? i = (if i = g.id then g.check else none).or (m.check? i) := by
  unfold check? add
  by_cases same : i = g.id
  · subst same
    cases g.check <;> simp
  · cases g.check <;> simp [same, List.lookup_cons, beq_false_of_ne same]

/-- The demand of a number is that of the last group with this number that has one. -/
theorem check?_ofGroups_eq (groups : List TimeGroup) (i : Nat) :
    (ofGroups groups).check? i =
      groups.reverse.findSome? fun g => if i = g.id then g.check else none := by
  induction groups using List.reverseRecOn with
  | nil => rfl
  | append_singleton groups g ih =>
    rw [ofGroups_concat, check?_add, ih, List.reverse_concat, List.findSome?_cons]
    cases if i = g.id then g.check else none <;> rfl

theorem check?_of_not_mem (unused : i ∉ groups.map (·.id)) : (ofGroups groups).check? i = none := by
  rw [check?_ofGroups_eq, List.findSome?_eq_none_iff]
  intro g hg
  refine if_neg fun same => unused ?_
  exact same ▸ List.mem_map_of_mem (List.mem_reverse.1 hg)

/-- Groups of different numbers keep their demands. -/
theorem check?_ofGroups (distinct : (groups.map (·.id)).Nodup) (hg : g ∈ groups) :
    (ofGroups groups).check? g.id = g.check := by
  induction groups using List.reverseRecOn with
  | nil => cases hg
  | append_singleton groups last ih =>
    rw [List.map_append, List.nodup_append] at distinct
    obtain ⟨distinct, -, apart⟩ := distinct
    rw [ofGroups_concat, check?_add]
    rcases List.mem_append.1 hg with hg | hg
    · have other : g.id ≠ last.id := apart _ (List.mem_map_of_mem hg) _ (by simp)
      rw [if_neg other, ih distinct hg]
      rfl
    · obtain rfl := List.mem_singleton.1 hg
      have unused : g.id ∉ groups.map (·.id) := fun mem => apart _ mem g.id (by simp) rfl
      rw [if_pos rfl, check?_of_not_mem unused, Option.or_none]

theorem admits_iff {m : TimeMatcher} : m.admits i stamp ↔ ∀ check ∈ m.check? i, check stamp := by
  rw [admits]
  cases m.check? i <;> simp

/-! ### Candidates -/

/-- The beginnings of a text that fit a layout and are admitted by its group, as lengths and numbers
of groups. -/
def candidates (m : TimeMatcher) (text : Text) : List (Nat × Nat) :=
  (LayoutTrie.walk [m.trie] 0 text).filter fun a => m.admits a.2 (text.take a.1)

/-- Candidates are what fits a layout of some group and meets the demand of the group's number. -/
theorem mem_candidates_iff :
    (n, i) ∈ (ofGroups groups).candidates text ↔
      ∃ g ∈ groups, ∃ stamp, stamp <+: text ∧
        (∃ layout ∈ g.layouts, layout ≠ [] ∧ LayoutClass.Fits (layout.map .of) stamp) ∧
        (∀ check ∈ (ofGroups groups).check? g.id, check stamp) ∧ n = stamp.length ∧ i = g.id := by
  rw [candidates, List.mem_filter, LayoutTrie.mem_walk]
  constructor
  · rintro ⟨⟨_, root, path, stamp, ends, -, fits, begins, rfl⟩, admitted⟩
    obtain rfl := List.mem_singleton.1 root
    obtain ⟨g, hg, ⟨layout, hl, ne, rfl⟩, rfl⟩ := ends_ofGroups.1 ends
    rw [Nat.zero_add] at admitted ⊢
    rw [← List.prefix_iff_eq_take.1 begins, admits_iff] at admitted
    exact ⟨g, hg, stamp, begins, ⟨layout, hl, ne, fits⟩, admitted, rfl, rfl⟩
  · rintro ⟨g, hg, stamp, begins, ⟨layout, hl, ne, fits⟩, admitted, rfl, rfl⟩
    refine ⟨⟨_, List.mem_singleton_self _, layout.map .of, stamp,
      ends_ofGroups.2 ⟨g, hg, ⟨layout, hl, ne, rfl⟩, rfl⟩, by simpa using ne, fits, begins,
      (Nat.zero_add _).symm⟩, ?_⟩
    rw [← List.prefix_iff_eq_take.1 begins, admits_iff]
    exact admitted

/-- Candidates are the timestamps of the groups. -/
theorem mem_candidates (distinct : (groups.map (·.id)).Nodup) :
    (n, i) ∈ (ofGroups groups).candidates text ↔
      ∃ g stamp, IsStamp groups text g stamp ∧ n = stamp.length ∧ i = g.id := by
  rw [mem_candidates_iff]
  constructor
  · rintro ⟨g, hg, stamp, begins, layout, admitted, rfl, rfl⟩
    rw [check?_ofGroups distinct hg] at admitted
    exact ⟨g, stamp, ⟨hg, begins, layout, admitted⟩, rfl, rfl⟩
  · rintro ⟨g, stamp, ⟨hg, begins, layout, admitted⟩, rfl, rfl⟩
    rw [← check?_ofGroups distinct hg] at admitted
    exact ⟨g, hg, stamp, begins, layout, admitted, rfl, rfl⟩

/-- The first candidate is at least as good as the second: it is longer, or as long and not of a
larger group. -/
def AtLeast (a b : Nat × Nat) : Prop := b.1 < a.1 ∨ b.1 = a.1 ∧ a.2 ≤ b.2

instance (a b : Nat × Nat) : Decidable (AtLeast a b) :=
  inferInstanceAs (Decidable (_ ∨ _))

theorem AtLeast.trans {a b c : Nat × Nat} (h : AtLeast a b) (h' : AtLeast b c) : AtLeast a c := by
  unfold AtLeast at *
  omega

theorem AtLeast.antisymm {a b : Nat × Nat} (h : AtLeast a b) (h' : AtLeast b a) : a = b := by
  unfold AtLeast at h h'
  exact Prod.ext (by omega) (by omega)

theorem AtLeast.total (a b : Nat × Nat) : AtLeast a b ∨ AtLeast b a := by
  unfold AtLeast
  omega

theorem atLeast_better (a b : Nat × Nat) : AtLeast (better a b) a ∧ AtLeast (better a b) b := by
  unfold better AtLeast
  split <;> simp_all <;> omega

theorem atLeast_foldl (a : Nat × Nat) (l : List (Nat × Nat)) :
    ∀ b ∈ a :: l, AtLeast (l.foldl better a) b := by
  induction l generalizing a with
  | nil => exact fun b hb => .inr (by simp [List.mem_singleton.1 hb])
  | cons c l ih =>
    rw [List.foldl_cons]
    have kept := ih (better a c) _ List.mem_cons_self
    intro b hb
    rcases List.mem_cons.1 hb with rfl | hb
    · exact kept.trans (atLeast_better _ c).1
    · rcases List.mem_cons.1 hb with rfl | hb
      · exact kept.trans (atLeast_better a _).2
      · exact ih _ b (List.mem_cons_of_mem _ hb)

/-- The best candidate is one that is at least as good as all others. -/
theorem best?_eq_some_iff {l : List (Nat × Nat)} {a : Nat × Nat} :
    best? l = some a ↔ a ∈ l ∧ ∀ b ∈ l, AtLeast a b := by
  have best : ∀ b, best? l = some b → b ∈ l ∧ ∀ c ∈ l, AtLeast b c := by
    intro b hb
    refine ⟨mem_of_best? hb, ?_⟩
    cases l with
    | nil => cases hb
    | cons c l =>
      cases hb
      exact atLeast_foldl c l
  refine ⟨best a, fun ⟨mem, least⟩ => ?_⟩
  cases found : best? l with
  | none =>
    cases l with
    | nil => cases mem
    | cons c l => cases found
  | some b =>
    obtain ⟨mem', least'⟩ := best b found
    rw [(least' a mem).antisymm (least b mem')]

theorem best?_eq_none_iff {l : List (Nat × Nat)} : best? l = none ↔ l = [] := by
  cases l <;> simp [best?]

theorem match?_eq (m : TimeMatcher) (text : Text) :
    m.match? text =
      (best? (m.candidates text)).map fun a => ⟨a.1, a.2, (m.check? a.2).isSome⟩ := rfl

/-- Of two beginnings of a text the one of fewer characters is the one of fewer bytes. -/
theorem length_lt_iff {x y : Text} (hx : x <+: text) (hy : y <+: text) :
    x.length < y.length ↔ x.bytes < y.bytes := by
  rcases Nat.le_total x.length y.length with le | le
  · obtain ⟨z, rfl⟩ := List.prefix_of_prefix_length_le hx hy le
    cases z with
    | nil => simp
    | cons c z =>
      have := Text.bytes_pos (List.cons_ne_nil c z)
      simp only [List.length_append, List.length_cons, Text.bytes_append]
      omega
  · obtain ⟨z, rfl⟩ := List.prefix_of_prefix_length_le hy hx le
    simp only [List.length_append, Text.bytes_append]
    omega

theorem atLeast_iff {x y : Text} (hx : x <+: text) (hy : y <+: text) {i j : Nat} :
    AtLeast (x.length, i) (y.length, j) ↔ y.bytes < x.bytes ∨ y.bytes = x.bytes ∧ i ≤ j := by
  have less := length_lt_iff hx hy
  have more := length_lt_iff hy hx
  unfold AtLeast
  simp only
  omega

/-- The longest timestamp is the best candidate. -/
theorem isLongest_iff (distinct : (groups.map (·.id)).Nodup) (h : IsStamp groups text g stamp) :
    IsLongest groups text g stamp ↔
      best? ((ofGroups groups).candidates text) = some (stamp.length, g.id) := by
  rw [best?_eq_some_iff, mem_candidates distinct]
  constructor
  · intro longest
    refine ⟨⟨g, stamp, h, rfl, rfl⟩, fun b hb => ?_⟩
    obtain ⟨g', stamp', h', hn, hi⟩ := (mem_candidates distinct).1 hb
    have := (atLeast_iff h.begins h'.begins).2 (longest.longest g' stamp' h')
    rwa [← hn, ← hi] at this
  · rintro ⟨-, least⟩
    refine ⟨h, fun g' stamp' h' => (atLeast_iff h.begins h'.begins).1 (least _ ?_)⟩
    exact (mem_candidates distinct).2 ⟨g', stamp', h', rfl, rfl⟩

/-! ### Short cuts -/

/-- The length of the shortest layout that is not empty, and zero when there is none. -/
def shortest (groups : List TimeGroup) : Nat :=
  (((groups.flatMap (·.layouts)).filter (!·.isEmpty)).map List.length).min?.getD 0

/-- The timestamp of a beginning that fits a layout, if the group admits it. -/
def stamp? (m : TimeMatcher) (text : Text) (a : Nat × Nat) : Option TimeMatch :=
  match m.check? a.2 with
  | some check => if check (text.take a.1) then some ⟨a.1, a.2, true⟩ else none
  | none => some ⟨a.1, a.2, false⟩

/-- The search with its short cuts: a text with fewer characters than any layout is given up at
once, and what fits a layout is put in order, so that groups are asked only until one admits. -/
def hasten? (groups : List TimeGroup) (text : Text) : Option TimeMatch :=
  let m := ofGroups groups
  if m.trie.branches.isEmpty || (text.take (shortest groups)).length < shortest groups then none
  else
    ((LayoutTrie.walk [m.trie] 0 text).mergeSort fun a b => AtLeast a b).findSome? (m.stamp? text)

theorem stamp?_eq (m : TimeMatcher) (text : Text) :
    m.stamp? text = Option.map (fun a => ⟨a.1, a.2, (m.check? a.2).isSome⟩) ∘
      Option.guard fun a => m.admits a.2 (text.take a.1) := by
  funext a
  cases demand : m.check? a.2 with
  | none => simp [stamp?, admits, Option.guard, demand]
  | some check => cases admitted : check (text.take a.1) <;>
      simp [stamp?, admits, Option.guard, demand, admitted]

/-- In order, the first candidate is the best one. -/
theorem find?_mergeSort (l : List (Nat × Nat)) (p : Nat × Nat → Bool) :
    (l.mergeSort fun a b => AtLeast a b).find? p = best? (l.filter p) := by
  have trans : ∀ a b c, decide (AtLeast a b) → decide (AtLeast b c) → decide (AtLeast a c) :=
    fun a b c h h' => decide_eq_true ((of_decide_eq_true h).trans (of_decide_eq_true h'))
  have total : ∀ a b, decide (AtLeast a b) || decide (AtLeast b a) :=
    fun a b => by simpa using AtLeast.total a b
  have sorted := List.pairwise_mergeSort trans total l
  cases found : (l.mergeSort fun a b => AtLeast a b).find? p with
  | none =>
    have refused : l.filter p = [] := List.filter_eq_nil_iff.2 fun a ha =>
      List.find?_eq_none.1 found a (List.mem_mergeSort.2 ha)
    rw [refused]
    rfl
  | some a =>
    have mem : a ∈ l := List.mem_mergeSort.1 (List.mem_of_find?_eq_some found)
    obtain ⟨hp, before, behind, eq, others⟩ := List.find?_eq_some_iff_append.1 found
    rw [eq, List.pairwise_append, List.pairwise_cons] at sorted
    refine (best?_eq_some_iff.2 ⟨List.mem_filter.2 ⟨mem, hp⟩, fun b hb => ?_⟩).symm
    obtain ⟨hb, hpb⟩ := List.mem_filter.1 hb
    have placed : b ∈ before ++ a :: behind := eq ▸ List.mem_mergeSort.2 hb
    rcases List.mem_append.1 placed with hb | hb
    · simpa [hpb] using others b hb
    · rcases List.mem_cons.1 hb with rfl | hb
      · exact .inr ⟨rfl, Nat.le_refl _⟩
      · simpa using sorted.2.1.1 b hb

/-- A timestamp is as long as its layout, so that it is not given up. -/
theorem shortest_le (h : IsStamp groups text g stamp) :
    (ofGroups groups).trie.branches.isEmpty = false ∧ shortest groups ≤ text.length := by
  obtain ⟨hg, begins, ⟨layout, hl, ne, fits⟩, -⟩ := h
  constructor
  · have ends := ends_ofGroups.2 ⟨g, hg, ⟨layout, hl, ne, rfl⟩, rfl⟩
    obtain ⟨c, layout, rfl⟩ := List.exists_cons_of_ne_nil ne
    obtain ⟨child, branch, -⟩ := LayoutTrie.ends_cons.1 ends
    exact List.isEmpty_eq_false_iff.2 (List.ne_nil_of_mem branch)
  · have mem : layout.length ∈ ((groups.flatMap (·.layouts)).filter (!·.isEmpty)).map List.length :=
      List.mem_map_of_mem (List.mem_filter.2
        ⟨List.mem_flatMap.2 ⟨g, hg, hl⟩, by simpa using ne⟩)
    calc shortest groups ≤ layout.length := List.min?_getD_le_of_mem mem
      _ = stamp.length := by simpa using fits.length_eq
      _ ≤ text.length := begins.length_le

/-- The short cuts change nothing. -/
theorem hasten?_eq (distinct : (groups.map (·.id)).Nodup) (text : Text) :
    hasten? groups text = (ofGroups groups).match? text := by
  have inOrder : ((LayoutTrie.walk [(ofGroups groups).trie] 0 text).mergeSort
      fun a b => AtLeast a b).findSome? ((ofGroups groups).stamp? text) =
        (ofGroups groups).match? text := by
    rw [stamp?_eq, ← List.map_findSome?, List.findSome?_guard, find?_mergeSort, match?_eq]
    rfl
  unfold hasten?
  simp only [inOrder]
  split
  · next short =>
    have nothing : (ofGroups groups).candidates text = [] := by
      refine List.eq_nil_iff_forall_not_mem.2 fun a ha => ?_
      obtain ⟨g, stamp, h, -⟩ := (mem_candidates distinct).1 ha
      obtain ⟨branches, le⟩ := shortest_le h
      rw [branches, List.length_take_of_le le] at short
      simp at short
    rw [match?_eq, nothing]
    rfl
  · rfl

/-! ### What is found -/

/-- The matcher of groups of different numbers finds what trying each layout of each group on its
own would find: nothing when the text begins with no timestamp, and else the longest one, of the
smallest group. It is verified just when this group has a demand. Short cuts lead to the same. -/
theorem match?_eq_longest (distinct : (groups.map (·.id)).Nodup) (text : Text) :
    ((ofGroups groups).match? text = none ↔ ∀ g stamp, ¬IsStamp groups text g stamp) ∧
    (∀ r, (ofGroups groups).match? text = some r ↔ ∃ g stamp,
      IsLongest groups text g stamp ∧ r = ⟨stamp.length, g.id, g.check.isSome⟩) ∧
    hasten? groups text = (ofGroups groups).match? text := by
  have verified : ∀ {g stamp}, IsStamp groups text g stamp →
      (⟨stamp.length, g.id, ((ofGroups groups).check? g.id).isSome⟩ : TimeMatch) =
        ⟨stamp.length, g.id, g.check.isSome⟩ := fun h => by rw [check?_ofGroups distinct h.group]
  refine ⟨?_, fun r => ?_, hasten?_eq distinct text⟩
  · rw [match?_eq, Option.map_eq_none_iff, best?_eq_none_iff, List.eq_nil_iff_forall_not_mem]
    constructor
    · exact fun nothing g stamp h =>
        nothing _ ((mem_candidates distinct).2 ⟨g, stamp, h, rfl, rfl⟩)
    · rintro nothing ⟨n, i⟩ found
      obtain ⟨g, stamp, h, -⟩ := (mem_candidates distinct).1 found
      exact nothing g stamp h
  · rw [match?_eq, Option.map_eq_some_iff]
    constructor
    · rintro ⟨⟨n, i⟩, best, rfl⟩
      obtain ⟨g, stamp, h, rfl, rfl⟩ := (mem_candidates distinct).1 (mem_of_best? best)
      exact ⟨g, stamp, (isLongest_iff distinct h).2 best, verified h⟩
    · rintro ⟨g, stamp, longest, rfl⟩
      exact ⟨(stamp.length, g.id), (isLongest_iff distinct longest.toIsStamp).1 longest,
        verified longest.toIsStamp⟩

/-- The long layout of the third group fits, but its demand refuses it. The short one is as long as
that of the first group. -/
theorem match?_eq_longest_up :
    let groups : List TimeGroup := [
      ⟨3, ["01:02".toList, "01:02:03±07".toList], some fun stamp => stamp.length < 7⟩,
      ⟨1, ["_1:02".toList], none⟩]
    let text := "12:34:56+00 am".toList
    (groups.map (·.id)).Nodup ∧ hasten? groups text = some ⟨5, 1, false⟩ ∧
      ∃ g stamp, IsLongest groups text g stamp ∧ stamp.length = 5 ∧ g.id = 1 := by
  intro groups text
  have distinct : (groups.map (·.id)).Nodup := by decide
  obtain ⟨-, some, short⟩ := match?_eq_longest distinct text
  have found : (ofGroups groups).match? text = .some ⟨5, 1, false⟩ := by decide +kernel
  obtain ⟨g, stamp, longest, eq⟩ := (some _).1 found
  obtain ⟨length, id, -⟩ := TimeMatch.mk.inj eq
  exact ⟨distinct, short.trans found, g, stamp, longest, length.symm, id.symm⟩

end TimeMatcher

end LogTemplate
