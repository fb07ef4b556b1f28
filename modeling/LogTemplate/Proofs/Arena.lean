import LogTemplate.Proofs.Trie

/-!
# Tries as rows of nodes

An arena holds the nodes of a trie in the order in which they were added. Branches lead to
positions.

* `Arena.insert` adds the path of a line, `Arena.walk?` follows one;
* `Arena.Grown` is what insertions keep: branches lead forward, each node but the root has one
  parent, and slots stand in the order of their ranks;
* `Arena.walk?_insert_self` and `Arena.terminal_insert` tell where templates end after an insertion.
-/

namespace LogTemplate

/-- A node whose branches lead to positions. -/
structure Arena.Node where
  terminal : Option Nat := none
  literals : List (Text × Nat) := []
  slots : List (Slot × Nat) := []

/-- The nodes of a trie, the root first. -/
structure Arena where
  nodes : List Arena.Node := [{}]

namespace Arena

variable {a : Arena} {n : Node} {i j k m ordinal : Nat} {t u : Token} {line other : Line}

/-! ### Nodes -/

namespace Node

/-- Where the branches lead. -/
def targets (n : Node) : List Nat := n.literals.map (·.2) ++ n.slots.map (·.2)

/-- Where the branch of a token leads. -/
def child? (n : Node) (t : Token) : Option Nat :=
  if t.isLiteral then n.literals.lookup t.value else n.slots.lookup (.ofToken t)

/-- Add a slot in front of the first one of a higher rank. -/
def addSlot (slot : Slot) (j : Nat) : List (Slot × Nat) → List (Slot × Nat)
  | [] => [(slot, j)]
  | e :: rest => if slot.rank < e.1.rank then (slot, j) :: e :: rest else e :: addSlot slot j rest

/-- Add a branch for a token. -/
def add (t : Token) (j : Nat) (n : Node) : Node :=
  if t.isLiteral then { n with literals := n.literals ++ [(t.value, j)] }
  else { n with slots := addSlot (.ofToken t) j n.slots }

/-- The slots of a node stand in the order plain, star, plus, minus. -/
def Ranked (slots : List (Slot × Nat)) : Prop := slots.Pairwise fun e e' => e.1.rank ≤ e'.1.rank

theorem perm_addSlot (slot : Slot) (j : Nat) (slots : List (Slot × Nat)) :
    (addSlot slot j slots).Perm ((slot, j) :: slots) := by
  induction slots with
  | nil => exact .refl _
  | cons e slots ih =>
    unfold addSlot
    split
    · exact .refl _
    · exact (ih.cons e).trans (.swap _ _ _)

theorem ranked_addSlot {slots : List (Slot × Nat)} (h : Ranked slots) (slot : Slot) (j : Nat) :
    Ranked (addSlot slot j slots) := by
  induction slots with
  | nil => exact List.pairwise_singleton _ _
  | cons e slots ih =>
    obtain ⟨head, tail⟩ := List.pairwise_cons.1 h
    unfold addSlot
    split
    · next lt =>
      refine List.pairwise_cons.2 ⟨fun e' he' => ?_, h⟩
      rcases List.mem_cons.1 he' with rfl | he'
      · exact Nat.le_of_lt lt
      · exact Nat.le_trans (Nat.le_of_lt lt) (head e' he')
    · next le =>
      refine List.pairwise_cons.2 ⟨fun e' he' => ?_, ih tail⟩
      rcases List.mem_cons.1 ((perm_addSlot slot j slots).mem_iff.1 he') with rfl | he'
      · exact Nat.le_of_not_lt le
      · exact head e' he'

theorem lookup_addSlot {slot : Slot} {slots : List (Slot × Nat)}
    (missing : slots.lookup slot = none) (j : Nat) (s : Slot) :
    (addSlot slot j slots).lookup s = if s = slot then some j else slots.lookup s := by
  induction slots with
  | nil => simp [addSlot, Trie.lookup_cons_ite]
  | cons e slots ih =>
    obtain ⟨s', k⟩ := e
    rw [Trie.lookup_cons_ite] at missing
    split at missing
    · cases missing
    · next apart =>
      unfold addSlot
      split
      · rw [Trie.lookup_cons_ite]
      · simp only [Trie.lookup_cons_ite, ih missing]
        by_cases hs : s = slot
        · subst hs
          simp [apart]
        · simp [hs]

theorem targets_add (n : Node) (t : Token) (j : Nat) :
    (n.add t j).targets.Perm (j :: n.targets) := by
  unfold add targets
  split
  · simp
  · refine (((perm_addSlot _ j n.slots).map (·.2)).append_left _).trans ?_
    exact List.perm_middle

theorem ranked_add (h : Ranked n.slots) (t : Token) (j : Nat) : Ranked (n.add t j).slots := by
  unfold add
  split
  · exact h
  · exact ranked_addSlot h _ j

/-- A new branch is found, -/
theorem child?_add_self (missing : n.child? t = none) (j : Nat) :
    (n.add t j).child? t = some j := by
  unfold child? add at *
  split at missing
  · next ht => simp [ht, List.lookup_append, missing]
  · next ht => simp [ht, lookup_addSlot missing]

/-- and the others are found as before. -/
theorem child?_add_of_some (missing : n.child? t = none) (j : Nat) (found : n.child? u = some k) :
    (n.add t j).child? u = some k := by
  by_cases ht : t.isLiteral <;> by_cases hu : u.isLiteral <;>
    simp only [child?, add, ht, hu, if_true, if_false, Bool.false_eq_true] at missing found ⊢
  · rw [List.lookup_append, found, Option.some_or]
  · exact found
  · exact found
  · rw [lookup_addSlot missing, if_neg, found]
    intro same
    rw [same, missing] at found
    cases found

theorem mem_targets (h : n.child? t = some j) : j ∈ n.targets := by
  unfold child? at h
  unfold targets
  split at h
  · exact List.mem_append_left _ (List.mem_map.2 ⟨_, Trie.mem_of_lookup h, rfl⟩)
  · exact List.mem_append_right _ (List.mem_map.2 ⟨_, Trie.mem_of_lookup h, rfl⟩)

end Node

/-! ### Arenas -/

/-- The number of nodes. -/
def size (a : Arena) : Nat := a.nodes.length

/-- The node at a position. -/
def node (a : Arena) (i : Nat) : Node := a.nodes[i]?.getD {}

/-- Change the node at a position. -/
def modify (a : Arena) (i : Nat) (f : Node → Node) : Arena := ⟨a.nodes.modify i f⟩

/-- Add a branch for a token, which leads to a new node. -/
def grow (a : Arena) (i : Nat) (t : Token) : Arena :=
  ⟨(a.modify i (.add t a.size)).nodes ++ [({} : Node)]⟩

/-- The branch of a token, which is added when it is missing. -/
def child (a : Arena) (i : Nat) (t : Token) : Arena × Nat :=
  match (a.node i).child? t with
  | some j => (a, j)
  | none => (a.grow i t, a.size)

/-- End a template at a node. -/
def mark (ordinal : Nat) (a : Arena) (i : Nat) : Arena :=
  a.modify i fun n => { n with terminal := some ordinal }

/-- Add the path of a line from a node on. When a template ends there already it is kept, and its
number is given. -/
def insert (ordinal : Nat) (a : Arena) (i : Nat) : Line → Arena × Option Nat
  | [] =>
    match (a.node i).terminal with
    | some known => (a, some known)
    | none => (a.mark ordinal i, none)
  | t :: rest => insert ordinal (a.child i t).1 (a.child i t).2 rest

/-- Where the path of a line leads from a node on. -/
def walk? (a : Arena) (i : Nat) : Line → Option Nat
  | [] => some i
  | t :: rest => ((a.node i).child? t).bind fun j => a.walk? j rest

theorem node_of_size_le (h : a.size ≤ i) : a.node i = {} := by
  simp [node, List.getElem?_eq_none h]

@[simp] theorem size_grow : (a.grow i t).size = a.size + 1 := by
  simp [grow, modify, size]

@[simp] theorem size_mark : (a.mark ordinal i).size = a.size := by
  simp [mark, modify, size]

theorem node_modify (hi : i < a.size) (f : Node → Node) (k : Nat) :
    (a.modify i f).node k = if k = i then f (a.node i) else a.node k := by
  unfold modify node
  rw [List.getElem?_modify]
  split
  · next h =>
    subst h
    have : a.nodes[i]? = some a.nodes[i] := List.getElem?_eq_getElem hi
    simp [this]
  · next h => simp [Ne.symm h]

/-- A new node is as empty as those that are not there. -/
theorem node_grow (hi : i < a.size) (t : Token) (k : Nat) :
    (a.grow i t).node k = if k = i then (a.node i).add t a.size else a.node k := by
  rw [← node_modify hi]
  unfold grow
  generalize a.modify i _ = b
  unfold node
  rcases Nat.lt_trichotomy k b.nodes.length with h | rfl | h
  · rw [List.getElem?_append_left h]
  · simp
  · rw [List.getElem?_eq_none, List.getElem?_eq_none (Nat.le_of_lt h)]
    rw [List.length_append]
    exact h

theorem node_mark (hi : i < a.size) (ordinal k : Nat) :
    (a.mark ordinal i).node k =
      if k = i then { a.node i with terminal := some ordinal } else a.node k :=
  node_modify hi _ k

/-- A branch is there, or it is added. -/
theorem child_cases (a : Arena) (i : Nat) (t : Token) :
    (∃ j, (a.node i).child? t = some j ∧ a.child i t = (a, j)) ∨
      ((a.node i).child? t = none ∧ a.child i t = (a.grow i t, a.size)) := by
  unfold child
  cases h : (a.node i).child? t with
  | some j => exact .inl ⟨j, rfl, rfl⟩
  | none => exact .inr ⟨rfl, rfl⟩

/-! ### Growth -/

/-- A branch of one node leads to the other. -/
def Leads (a : Arena) (i j : Nat) : Prop := j ∈ (a.node i).targets

/-- What holds of all arenas that insertions lead to. -/
structure Grown (a : Arena) : Prop where
  root : 0 < a.size
  /-- Branches lead to nodes that were added later. -/
  forward : ∀ i j, a.Leads i j → i < j ∧ j < a.size
  /-- Every node but the root has a parent, -/
  reached : ∀ j, 0 < j → j < a.size → ∃ i, a.Leads i j
  /-- which is the only one, -/
  parent : ∀ i i' j, a.Leads i j → a.Leads i' j → i = i'
  /-- by one branch. -/
  once : ∀ i, (a.node i).targets.Nodup
  ranked : ∀ i, Node.Ranked (a.node i).slots

theorem grown_start : Grown {} := by
  have node : ∀ i, node {} i = {} := by
    intro i
    cases i <;> rfl
  refine ⟨Nat.one_pos, ?_, ?_, ?_, ?_, ?_⟩ <;> simp only [Leads, node]
  · simp [Node.targets]
  · intro j pos lt
    exact absurd lt (Nat.not_lt.2 pos)
  · simp [Node.targets]
  · simp [Node.targets]
  · exact fun _ => .nil

theorem leads_grow (hi : i < a.size) :
    (a.grow i t).Leads k j ↔ a.Leads k j ∨ (k = i ∧ j = a.size) := by
  unfold Leads
  rw [node_grow hi]
  by_cases hk : k = i
  · subst hk
    rw [if_pos rfl, (Node.targets_add _ _ _).mem_iff]
    simp [or_comm]
  · simp [hk]

theorem Grown.grow (h : Grown a) (hi : i < a.size) (t : Token) : Grown (a.grow i t) where
  root := by simp
  forward k j leads := by
    rw [size_grow]
    rcases (leads_grow hi).1 leads with leads | ⟨rfl, rfl⟩
    · have := h.forward k j leads
      omega
    · omega
  reached j pos lt := by
    rw [size_grow] at lt
    by_cases new : j = a.size
    · exact ⟨i, (leads_grow hi).2 (.inr ⟨rfl, new⟩)⟩
    · obtain ⟨k, leads⟩ := h.reached j pos (by omega)
      exact ⟨k, (leads_grow hi).2 (.inl leads)⟩
  parent k k' j leads leads' := by
    rcases (leads_grow hi).1 leads with old | ⟨rfl, rfl⟩ <;>
      rcases (leads_grow hi).1 leads' with old' | ⟨rfl, new⟩
    · exact h.parent k k' j old old'
    · have := h.forward k j old
      omega
    · have := h.forward k' _ old'
      omega
    · rfl
  once k := by
    rw [node_grow hi]
    split
    · rw [(Node.targets_add _ _ _).nodup_iff]
      refine List.nodup_cons.2 ⟨fun mem => ?_, h.once i⟩
      have := h.forward i a.size mem
      omega
    · exact h.once k
  ranked k := by
    rw [node_grow hi]
    split
    · exact Node.ranked_add (h.ranked i) t _
    · exact h.ranked k

theorem targets_mark (hi : i < a.size) (ordinal k : Nat) :
    ((a.mark ordinal i).node k).targets = (a.node k).targets := by
  rw [node_mark hi]
  split
  · next hk => rw [hk]; rfl
  · rfl

theorem Grown.mark (h : Grown a) (hi : i < a.size) (ordinal : Nat) : Grown (a.mark ordinal i) where
  root := by rw [size_mark]; exact h.root
  forward := by simpa only [Leads, targets_mark hi, size_mark] using h.forward
  reached := by simpa only [Leads, targets_mark hi, size_mark] using h.reached
  parent := by simpa only [Leads, targets_mark hi] using h.parent
  once := by simpa only [targets_mark hi] using h.once
  ranked k := by
    rw [node_mark hi]
    split
    · exact h.ranked i
    · exact h.ranked k

theorem leads_of_child? (found : (a.node i).child? t = some j) : a.Leads i j :=
  Node.mem_targets found

theorem Grown.child (h : Grown a) (hi : i < a.size) (t : Token) :
    Grown (a.child i t).1 ∧ a.size ≤ (a.child i t).1.size ∧
      (a.child i t).2 < (a.child i t).1.size := by
  rcases child_cases a i t with ⟨j, found, eq⟩ | ⟨missing, eq⟩
  · rw [eq]
    exact ⟨h, Nat.le_refl _, (h.forward i j (leads_of_child? found)).2⟩
  · rw [eq]
    exact ⟨h.grow hi t, by simp, by simp⟩

/-- Insertions keep what holds of arenas. -/
theorem Grown.insert (h : Grown a) (hi : i < a.size) (ordinal : Nat) (line : Line) :
    Grown (a.insert ordinal i line).1 := by
  induction line generalizing a i with
  | nil =>
    unfold Arena.insert
    split
    · exact h
    · exact h.mark hi ordinal
  | cons t line ih =>
    obtain ⟨grown, -, inside⟩ := h.child hi t
    exact ih grown inside

/-! ### Paths -/

/-- Behind a step there is a branch for its token. -/
theorem child?_child (hi : i < a.size) (t : Token) :
    ((a.child i t).1.node i).child? t = some (a.child i t).2 := by
  rcases child_cases a i t with ⟨j, found, eq⟩ | ⟨missing, eq⟩
  · rw [eq]
    exact found
  · rw [eq, node_grow hi, if_pos rfl]
    exact Node.child?_add_self missing _

theorem terminal_child (hi : i < a.size) (t : Token) (k : Nat) :
    ((a.child i t).1.node k).terminal = (a.node k).terminal := by
  rcases child_cases a i t with ⟨j, -, eq⟩ | ⟨-, eq⟩
  · rw [eq]
  · rw [eq, node_grow hi]
    split
    · next hk =>
      rw [hk, Node.add]
      split <;> rfl
    · rfl

/-- Branches stay where they are. -/
theorem child?_insert (h : Grown a) (hi : i < a.size) (ordinal : Nat) (line : Line)
    (found : (a.node k).child? u = some m) :
    ((a.insert ordinal i line).1.node k).child? u = some m := by
  induction line generalizing a i with
  | nil =>
    unfold insert
    split
    · exact found
    · rw [node_mark hi]
      split
      · next hk => rw [hk] at found; exact found
      · exact found
  | cons t line ih =>
    obtain ⟨grown, -, inside⟩ := h.child hi t
    refine ih grown inside ?_
    rcases child_cases a i t with ⟨j, -, eq⟩ | ⟨missing, eq⟩
    · rw [eq]
      exact found
    · rw [eq, node_grow hi]
      split
      · next hk =>
        rw [hk] at found
        exact Node.child?_add_of_some missing _ found
      · exact found

theorem walk?_insert (h : Grown a) (hi : i < a.size) (ordinal : Nat) (line : Line)
    (found : a.walk? k other = some m) : (a.insert ordinal i line).1.walk? k other = some m := by
  induction other generalizing k with
  | nil => exact found
  | cons u other ih =>
    obtain ⟨j, branch, behind⟩ := Option.bind_eq_some_iff.1 found
    exact Option.bind_eq_some_iff.2 ⟨j, child?_insert h hi ordinal line branch, ih behind⟩

/-- The number that an insertion gives is that of the template whose path the line is. -/
theorem snd_insert (h : Grown a) (hi : i < a.size) (ordinal : Nat) (line : Line) :
    (a.insert ordinal i line).2 = (a.walk? i line).bind fun k => (a.node k).terminal := by
  induction line generalizing a i with
  | nil =>
    unfold insert
    cases known : (a.node i).terminal with
    | some known' => simp [walk?, known]
    | none => simp [walk?, known]
  | cons t line ih =>
    obtain ⟨grown, -, inside⟩ := h.child hi t
    rw [insert, ih grown inside, walk?]
    rcases child_cases a i t with ⟨j, found, eq⟩ | ⟨missing, eq⟩
    · rw [eq, found]
      rfl
    · rw [missing, eq]
      -- Nothing leads on from the new node, and no template ends there.
      have empty : (a.grow i t).node a.size = {} := by
        rw [node_grow hi, if_neg (Nat.ne_of_gt hi), node_of_size_le (Nat.le_refl _)]
      cases line with
      | nil => simp [walk?, empty]
      | cons u line => simp [walk?, empty, Node.child?]

/-- Where a template is kept nothing changes. -/
theorem fst_insert_of_known (h : Grown a) (hi : i < a.size)
    (known : (a.insert ordinal i line).2 = some m) : (a.insert ordinal i line).1 = a := by
  induction line generalizing a i with
  | nil =>
    unfold insert at known ⊢
    split
    · rfl
    · next none => simp [none] at known
  | cons t line ih =>
    obtain ⟨grown, -, inside⟩ := h.child hi t
    have := ih grown inside known
    rcases child_cases a i t with ⟨j, found, eq⟩ | ⟨missing, eq⟩
    · rw [insert, this, eq]
    · rw [snd_insert h hi, walk?, missing] at known
      cases known

/-- The path of the line ends at a node with its number. -/
theorem walk?_insert_self (h : Grown a) (hi : i < a.size) (ordinal : Nat) (line : Line) :
    ∃ k, (a.insert ordinal i line).1.walk? i line = some k ∧
      ((a.insert ordinal i line).1.node k).terminal =
        some ((a.insert ordinal i line).2.getD ordinal) := by
  induction line generalizing a i with
  | nil =>
    refine ⟨i, rfl, ?_⟩
    unfold insert
    cases known : (a.node i).terminal with
    | some known' => simp [known]
    | none => simp [node_mark hi]
  | cons t line ih =>
    obtain ⟨grown, -, inside⟩ := h.child hi t
    obtain ⟨k, walk, terminal⟩ := ih grown inside
    refine ⟨k, Option.bind_eq_some_iff.2 ⟨_, ?_, walk⟩, terminal⟩
    exact child?_insert grown inside ordinal line (child?_child hi t)

/-- Templates end where they ended before, -/
theorem terminal_insert_of_some (h : Grown a) (hi : i < a.size) (ordinal : Nat) (line : Line)
    (terminal : (a.node k).terminal = some m) :
    ((a.insert ordinal i line).1.node k).terminal = some m := by
  induction line generalizing a i with
  | nil =>
    unfold insert
    split
    · exact terminal
    · next none =>
      rw [node_mark hi]
      split
      · next hk =>
        rw [hk, none] at terminal
        cases terminal
      · exact terminal
  | cons t line ih =>
    obtain ⟨grown, -, inside⟩ := h.child hi t
    exact ih grown inside (by rw [terminal_child hi]; exact terminal)

/-- and else at the end of the new path. -/
theorem terminal_insert (h : Grown a) (hi : i < a.size)
    (terminal : ((a.insert ordinal i line).1.node k).terminal = some m) :
    (a.node k).terminal = some m ∨
      ((a.insert ordinal i line).1.walk? i line = some k ∧ m = ordinal) := by
  induction line generalizing a i with
  | nil =>
    unfold insert at terminal ⊢
    split at terminal
    · exact .inl terminal
    · rw [node_mark hi] at terminal
      split at terminal
      · next hk => exact .inr ⟨by rw [hk]; rfl, (Option.some.inj terminal).symm⟩
      · exact .inl terminal
  | cons t line ih =>
    obtain ⟨grown, -, inside⟩ := h.child hi t
    refine (ih grown inside terminal).imp (fun old => ?_) fun ⟨walk, same⟩ => ⟨?_, same⟩
    · rwa [terminal_child hi] at old
    · exact Option.bind_eq_some_iff.2
        ⟨_, child?_insert grown inside ordinal line (child?_child hi t), walk⟩

end Arena

end LogTemplate
