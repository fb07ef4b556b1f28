import LogTemplate.Proofs.Arena
import Mathlib.Logic.Relation

/-!
# The trie of an arena

* `Arena.trie` is the trie that begins at a node of an arena;
* `Arena.node_insert` says that an insertion changes only nodes under the one where it begins;
* `Arena.trie_insert` says that the trie of an arena grows as `Trie.insert` tells.
-/

namespace LogTemplate.Arena

variable {a : Arena} {n : Node} {i j k m ordinal : Nat} {t : Token} {line : Line}

/-! ### Nodes as tries -/

namespace Node

/-- Branches of a trie, when `f` gives the tries at the positions. -/
def branches {α : Type} (f : Nat → Trie) (l : List (α × Nat)) : List (α × Trie) :=
  l.map fun e => (e.1, f e.2)

/-- The node as a trie. -/
def toTrie (f : Nat → Trie) (n : Node) : Trie :=
  .node n.terminal (branches f n.literals) (branches f n.slots)

theorem branches_congr {α : Type} {f g : Nat → Trie} {l : List (α × Nat)}
    (same : ∀ j ∈ l.map (·.2), f j = g j) : branches f l = branches g l := by
  refine List.map_congr_left fun e he => ?_
  rw [same e.2 (List.mem_map.2 ⟨e, he, rfl⟩)]

theorem toTrie_congr {f g : Nat → Trie} (same : ∀ j ∈ n.targets, f j = g j) :
    n.toTrie f = n.toTrie g := by
  rw [toTrie, toTrie, branches_congr fun j hj => same j (List.mem_append_left _ hj),
    branches_congr fun j hj => same j (List.mem_append_right _ hj)]

theorem child?_toTrie (f : Nat → Trie) (n : Node) (t : Token) :
    (n.toTrie f).child? t = (n.child? t).map f := by
  unfold Trie.child? child?
  split
  · exact Trie.lookup_map f n.literals t.value
  · exact Trie.lookup_map f n.slots _

end Node

/-- The trie that begins at a node. -/
def trie (a : Arena) (i : Nat) : Trie :=
  (a.node i).toTrie fun j => if _ : i < j ∧ j < a.size then a.trie j else .empty
termination_by a.size - i

/-- Branches lead forward, so the trie at a node is made of those at its targets. -/
theorem trie_eq (h : Grown a) (i : Nat) : a.trie i = (a.node i).toTrie a.trie := by
  rw [trie]
  exact Node.toTrie_congr fun j hj => dif_pos (h.forward i j hj)

/-- The template of a path is the one that ends where the path leads. -/
theorem find?_trie (h : Grown a) (i : Nat) (line : Line) :
    (a.trie i).find? line = (a.walk? i line).bind fun k => (a.node k).terminal := by
  induction line generalizing i with
  | nil => rw [trie_eq h]; rfl
  | cons t line ih =>
    rw [Trie.find?_cons, trie_eq h, Node.child?_toTrie, walk?]
    cases (a.node i).child? t with
    | none => rfl
    | some j => exact ih j

/-! ### Branches of a trie -/

/-- Change the branch of a token. -/
def graft (t : Token) (f : Trie → Trie) : Trie → Trie
  | .node terminal literals slots =>
    if t.isLiteral then .node terminal (Trie.updateLiteral t.value f literals) slots
    else .node terminal literals (Trie.updateSlot (.ofToken t) f slots)

theorem insert_cons (ordinal : Nat) (t : Token) (line : Line) (trie : Trie) :
    trie.insert ordinal (t :: line) = graft t (Trie.insert ordinal line) trie := by
  cases trie
  rfl

section Branches

open Node (branches branches_congr)

variable {f : Trie → Trie} {g g' : Nat → Trie}

theorem updateLiteral_branches {literals : List (Text × Nat)} {word : Text}
    (found : literals.lookup word = some j) (once : (literals.map (·.2)).Nodup)
    (new : g j = f (g' j)) (old : ∀ k ∈ literals.map (·.2), k ≠ j → g k = g' k) :
    Trie.updateLiteral word f (branches g' literals) = branches g literals := by
  induction literals with
  | nil => cases found
  | cons e literals ih =>
    obtain ⟨w, k⟩ := e
    rw [List.map_cons, List.nodup_cons] at once
    have behind := fun m hm => old m (List.mem_cons_of_mem _ hm)
    rw [Trie.lookup_cons_ite] at found
    rw [branches, List.map_cons, Trie.updateLiteral]
    by_cases hw : word = w
    · rw [if_pos hw, Option.some.injEq] at found
      subst found
      rw [if_pos hw.symm, ← new]
      exact congrArg _ (branches_congr fun m hm =>
        (behind m hm fun same => once.1 (same ▸ hm)).symm)
    · rw [if_neg hw] at found
      have mem : j ∈ literals.map (·.2) := List.mem_map.2 ⟨_, Trie.mem_of_lookup found, rfl⟩
      rw [if_neg (Ne.symm hw), ← old k List.mem_cons_self fun same => once.1 (same ▸ mem)]
      exact congrArg _ (ih found once.2 behind)

theorem updateLiteral_branches_new {literals : List (Text × Nat)} {word : Text}
    (missing : literals.lookup word = none) (new : g j = f .empty)
    (old : ∀ k ∈ literals.map (·.2), g k = g' k) :
    Trie.updateLiteral word f (branches g' literals) = branches g (literals ++ [(word, j)]) := by
  induction literals with
  | nil => simp [Trie.updateLiteral, branches, new]
  | cons e literals ih =>
    obtain ⟨w, k⟩ := e
    rw [Trie.lookup_cons_ite] at missing
    split at missing
    · cases missing
    · next hw =>
      rw [branches, List.map_cons, Trie.updateLiteral, if_neg (Ne.symm hw),
        ← old k List.mem_cons_self]
      exact congrArg _ (ih missing fun m hm => old m (List.mem_cons_of_mem _ hm))

theorem updateSlot_branches {slots : List (Slot × Nat)} {slot : Slot} (ranked : Node.Ranked slots)
    (found : slots.lookup slot = some j) (once : (slots.map (·.2)).Nodup)
    (new : g j = f (g' j)) (old : ∀ k ∈ slots.map (·.2), k ≠ j → g k = g' k) :
    Trie.updateSlot slot f (branches g' slots) = branches g slots := by
  induction slots with
  | nil => cases found
  | cons e slots ih =>
    obtain ⟨s, k⟩ := e
    rw [List.map_cons, List.nodup_cons] at once
    have behind := fun m hm => old m (List.mem_cons_of_mem _ hm)
    rw [Trie.lookup_cons_ite] at found
    rw [branches, List.map_cons, Trie.updateSlot]
    by_cases hs : slot = s
    · rw [if_pos hs, Option.some.injEq] at found
      subst found
      rw [if_pos hs.symm, ← new]
      exact congrArg _ (branches_congr fun m hm =>
        (behind m hm fun same => once.1 (same ▸ hm)).symm)
    · rw [if_neg hs] at found
      have entry := Trie.mem_of_lookup found
      have mem : j ∈ slots.map (·.2) := List.mem_map.2 ⟨_, entry, rfl⟩
      obtain ⟨head, tail⟩ := List.pairwise_cons.1 ranked
      -- The slot stands behind this one, whose rank is not higher.
      rw [if_neg (Ne.symm hs), if_neg (Nat.not_lt.2 (head _ entry)),
        ← old k List.mem_cons_self fun same => once.1 (same ▸ mem)]
      exact congrArg _ (ih tail found once.2 behind)

theorem updateSlot_branches_new {slots : List (Slot × Nat)} {slot : Slot}
    (missing : slots.lookup slot = none) (new : g j = f .empty)
    (old : ∀ k ∈ slots.map (·.2), g k = g' k) :
    Trie.updateSlot slot f (branches g' slots) = branches g (Node.addSlot slot j slots) := by
  induction slots with
  | nil => simp [Trie.updateSlot, branches, Node.addSlot, new]
  | cons e slots ih =>
    obtain ⟨s, k⟩ := e
    have behind := fun m hm => old m (List.mem_cons_of_mem _ hm)
    rw [Trie.lookup_cons_ite] at missing
    split at missing
    · cases missing
    · next hs =>
      rw [branches, List.map_cons, Trie.updateSlot, if_neg (Ne.symm hs),
        ← old k List.mem_cons_self, Node.addSlot]
      split
      · rw [← new]
        exact congrArg (fun rest => (slot, g j) :: (s, g k) :: rest)
          (branches_congr fun m hm => (behind m hm).symm)
      · exact congrArg _ (ih missing behind)

/-- When the trie at the branch of a token changes, the branch of the trie changes. -/
theorem toTrie_of_child? (ranked : Node.Ranked n.slots) (once : n.targets.Nodup)
    (found : n.child? t = some j) (new : g j = f (g' j))
    (old : ∀ k ∈ n.targets, k ≠ j → g k = g' k) : n.toTrie g = graft t f (n.toTrie g') := by
  unfold Node.child? at found
  obtain ⟨onceLiterals, onceSlots, apart⟩ := List.nodup_append.1 once
  have oldLiterals := fun k hk => old k (List.mem_append_left _ hk)
  have oldSlots := fun k hk => old k (List.mem_append_right _ hk)
  by_cases ht : t.isLiteral
  · rw [if_pos ht] at found
    have mem : j ∈ n.literals.map (·.2) := List.mem_map.2 ⟨_, Trie.mem_of_lookup found, rfl⟩
    rw [Node.toTrie, Node.toTrie, graft, if_pos ht,
      updateLiteral_branches found onceLiterals new oldLiterals,
      branches_congr fun k hk => oldSlots k hk (apart j mem k hk).symm]
  · rw [if_neg ht] at found
    have mem : j ∈ n.slots.map (·.2) := List.mem_map.2 ⟨_, Trie.mem_of_lookup found, rfl⟩
    rw [Node.toTrie, Node.toTrie, graft, if_neg ht,
      updateSlot_branches ranked found onceSlots new oldSlots,
      branches_congr fun k hk => oldLiterals k hk (apart k hk j mem)]

/-- When a branch is added for a token, it is added to the trie. -/
theorem toTrie_add (missing : n.child? t = none) (new : g j = f .empty)
    (old : ∀ k ∈ n.targets, g k = g' k) : (n.add t j).toTrie g = graft t f (n.toTrie g') := by
  unfold Node.child? at missing
  have oldLiterals := fun k hk => old k (List.mem_append_left _ hk)
  have oldSlots := fun k hk => old k (List.mem_append_right _ hk)
  by_cases ht : t.isLiteral
  · rw [if_pos ht] at missing
    rw [Node.add, if_pos ht, Node.toTrie, Node.toTrie, graft, if_pos ht,
      updateLiteral_branches_new missing new oldLiterals, branches_congr oldSlots]
  · rw [if_neg ht] at missing
    rw [Node.add, if_neg ht, Node.toTrie, Node.toTrie, graft, if_neg ht,
      updateSlot_branches_new missing new oldSlots, branches_congr oldLiterals]

end Branches

/-! ### What an insertion leaves as it was -/

/-- Some branches lead from one node to the other. -/
def Under (a : Arena) : Nat → Nat → Prop := Relation.ReflTransGen a.Leads

theorem Under.le (h : Grown a) (under : a.Under i k) : i ≤ k := by
  induction under with
  | refl => exact Nat.le_refl _
  | tail _ leads ih => exact Nat.le_trans ih (Nat.le_of_lt (h.forward _ _ leads).1)

/-- No node is under two branches of one node. -/
theorem eq_of_under (h : Grown a) (hj : a.Leads i j) (hm : a.Leads i m) (under : a.Under j k)
    (under' : a.Under m k) : j = m := by
  -- The parent of a node is under every branch that the node is under, if it does not begin there.
  have back : ∀ {x y : Nat}, a.Leads i x → a.Leads i y → a.Under x y → x = y := by
    intro x y hx hy under
    rcases Relation.ReflTransGen.cases_tail under with same | ⟨p, before, leads⟩
    · exact same.symm
    · have le := Under.le h before
      rw [h.parent p i y leads hy] at le
      exact absurd (h.forward i x hx).1 (Nat.not_lt.2 le)
  induction k using Nat.strongRecOn with
  | ind k ih =>
    rcases Relation.ReflTransGen.cases_tail under with rfl | ⟨p, before, leads⟩
    · exact (back hm hj under').symm
    · rcases Relation.ReflTransGen.cases_tail under' with rfl | ⟨p', before', leads'⟩
      · exact back hj hm under
      · cases h.parent p p' k leads leads'
        exact ih p (h.forward p k leads).1 before before'

/-- Behind a new branch there is nothing yet. -/
theorem under_child (h : Grown a) (hi : i < a.size) (hk : k < a.size)
    (under : (a.child i t).1.Under (a.child i t).2 k) : a.Under i k := by
  rcases child_cases a i t with ⟨j, found, eq⟩ | ⟨missing, eq⟩
  · rw [eq] at under
    exact .head (leads_of_child? found) under
  · rw [eq] at under
    exact absurd (Under.le (h.grow hi t) under) (Nat.not_le.2 hk)

theorem node_child (hi : i < a.size) (hk : k ≠ i) : (a.child i t).1.node k = a.node k := by
  rcases child_cases a i t with ⟨j, -, eq⟩ | ⟨-, eq⟩
  · rw [eq]
  · rw [eq, node_grow hi, if_neg hk]

/-- An insertion changes only nodes under the one where it begins. -/
theorem node_insert (h : Grown a) (hi : i < a.size) (ordinal : Nat) (line : Line)
    (hk : k < a.size) (apart : ¬a.Under i k) : (a.insert ordinal i line).1.node k = a.node k := by
  have ne : k ≠ i := fun same => apart (same ▸ .refl)
  induction line generalizing a i with
  | nil =>
    unfold insert
    split
    · rfl
    · rw [node_mark hi, if_neg ne]
  | cons t line ih =>
    obtain ⟨grown, le, inside⟩ := h.child hi t
    have apart' : ¬(a.child i t).1.Under (a.child i t).2 k := fun under =>
      apart (under_child h hi hk under)
    rw [insert, ih grown inside (Nat.lt_of_lt_of_le hk le) apart' fun same => apart' (same ▸ .refl),
      node_child hi ne]

/-- A trie depends on the nodes under its root alone. -/
theorem trie_congr {b : Arena} (ha : Grown a) (hb : Grown b) (hi : i < a.size)
    (same : ∀ k < a.size, a.Under i k → b.node k = a.node k) : b.trie i = a.trie i := by
  induction d : a.size - i using Nat.strongRecOn generalizing i with
  | ind n ih =>
    subst d
    rw [trie_eq ha, trie_eq hb, same i hi .refl]
    refine Node.toTrie_congr fun j hj => ?_
    obtain ⟨lt, inside⟩ := ha.forward i j hj
    exact ih (a.size - j) (by omega) inside (fun k hk under => same k hk (.head hj under)) rfl

/-- The tries at the branches of a node stay when only the node changes. -/
theorem trie_of_target {b : Arena} (ha : Grown a) (hb : Grown b) (hj : j ∈ (a.node i).targets)
    (same : ∀ k, k ≠ i → b.node k = a.node k) : b.trie j = a.trie j := by
  obtain ⟨lt, inside⟩ := ha.forward i j hj
  exact trie_congr ha hb inside fun k _ under =>
    same k (Nat.ne_of_gt (Nat.lt_of_lt_of_le lt (Under.le ha under)))

/-- The trie of an arena grows by the path of a line. -/
theorem trie_insert (h : Grown a) (hi : i < a.size) (ordinal : Nat) (line : Line) :
    (a.insert ordinal i line).1.trie i = (a.trie i).insert ordinal line := by
  induction line generalizing a i with
  | nil =>
    unfold insert
    cases known : (a.node i).terminal with
    | some m =>
      rw [trie_eq h]
      simp [Node.toTrie, Trie.insert, known]
    | none =>
      have children : ∀ j ∈ (a.node i).targets, (a.mark ordinal i).trie j = a.trie j :=
        fun j hj => trie_of_target h (h.mark hi ordinal) hj fun k hk => by
          rw [node_mark hi, if_neg hk]
      dsimp only
      rw [trie_eq (h.mark hi ordinal), node_mark hi, if_pos rfl, trie_eq h,
        ← Node.toTrie_congr children]
      simp [Node.toTrie, Trie.insert, known]
  | cons t line ih =>
    obtain ⟨grown, le, inside⟩ := h.child hi t
    have leads : (a.child i t).1.Leads i (a.child i t).2 := leads_of_child? (child?_child hi t)
    have below := (grown.forward _ _ leads).1
    have behind : (a.insert ordinal i (t :: line)).1.trie (a.child i t).2 =
        Trie.insert ordinal line ((a.child i t).1.trie (a.child i t).2) := ih grown inside
    have kept : Grown (a.insert ordinal i (t :: line)).1 := grown.insert inside ordinal line
    have here : ((a.insert ordinal i (t :: line)).1.node i) = (a.child i t).1.node i :=
      node_insert grown inside ordinal line (Nat.lt_of_lt_of_le hi le) fun under =>
        absurd (Under.le grown under) (Nat.not_le.2 below)
    -- The other branches lead to nodes that are not under the changed one.
    have others : ∀ m ∈ ((a.child i t).1.node i).targets, m ≠ (a.child i t).2 →
        (a.insert ordinal i (t :: line)).1.trie m = (a.child i t).1.trie m := by
      intro m hm ne
      refine trie_congr grown kept (grown.forward i m hm).2 fun k hk under => ?_
      exact node_insert grown inside ordinal line hk fun under' =>
        ne (eq_of_under grown hm leads under under')
    rw [trie_eq kept, here, insert_cons, trie_eq h]
    rcases child_cases a i t with ⟨j, found, eq⟩ | ⟨missing, eq⟩
    · simp only [eq] at behind others ⊢
      exact toTrie_of_child? (h.ranked i) (h.once i) found behind others
    · have empty : (a.grow i t).trie a.size = .empty := by
        rw [trie_eq (h.grow hi t), node_grow hi, if_neg (Nat.ne_of_gt hi),
          node_of_size_le (Nat.le_refl _)]
        rfl
      simp only [eq, node_grow hi, if_true, empty] at behind others ⊢
      refine toTrie_add missing behind fun m hm => ?_
      have mem : m ∈ ((a.node i).add t a.size).targets :=
        (Node.targets_add _ t _).mem_iff.2 (List.mem_cons_of_mem _ hm)
      rw [others m mem (Nat.ne_of_lt (h.forward i m hm).2)]
      exact trie_of_target h (h.grow hi t) hm fun k hk => by rw [node_grow hi, if_neg hk]

end LogTemplate.Arena
