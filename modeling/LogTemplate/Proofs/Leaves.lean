import LogTemplate.Flatten
import LogTemplate.Proofs.Json
import LogTemplate.Proofs.Store
import LogTemplate.Proofs.Vocabulary

/-!
# The leaves of JSON values

* `Json.Value.parts` are the parts of an array or an object, each with the step that leads to it;
  `Json.Value.induct` is induction over them;
* `Json.Value.At` follows a path from a value to a part of it, however deep;
* `Json.Value.leaves` lists the parts that have no parts of their own: `Json.Value.mem_leaves_iff`
  says that it has all of them, `Json.Value.pairwise_leaves` that they come depth first;
* for the latter, objects must have their members in order. `Json.Value.ordered_of_parse?` says
  that what is read is `Json.Value.Ordered`;
* `Flatten.tokens_eq_leaves` says that flattening goes through the leaves, and
  `Flatten.tokens_none` what a whole value becomes.
-/

namespace LogTemplate

namespace Json

/-! ### Paths -/

/-- The step to a part of a value. -/
inductive Step where
  | member (key : Text)
  | item (i : Nat)
  deriving DecidableEq, Repr

/-- The steps to a part of a part. -/
abbrev Path := List Step

/-- Members come in the order of the bytes of their keys, items in that of their positions. -/
def Step.Before : Step → Step → Prop
  | .member key, .member other => key.utf8 < other.utf8
  | .item i, .item j => i < j
  | _, _ => False

/-- Depth first: the first step that is not the same decides. -/
def Path.Before : Path → Path → Prop := List.Lex Step.Before

/-- A step in the path of a leaf. -/
def Step.text : Step → Text
  | .member key => key.toLower
  | .item i => Text.ofNat i

/-- The path of a leaf. -/
def Path.text (path : Path) : Text := Text.joinWith ['.'] (path.map Step.text)

namespace Value

variable {value part : Value} {step : Step} {path : Path} {items : List Value}
  {members : Table Value}

/-! ### Parts -/

/-- The parts of an array or an object. -/
def parts : Value → List (Step × Value)
  | .object members => members.map fun (key, value) => (.member key, value)
  | .array items => items.zipIdx.map fun (value, i) => (.item i, value)
  | _ => []

/-- It is a scalar, a null, or an empty array or object. -/
def isLeaf : Value → Bool
  | .array (_ :: _) | .object (_ :: _) => false
  | _ => true

/-- The path leads from a value to a part of it. -/
inductive At : Value → Path → Value → Prop
  | root (value : Value) : At value [] value
  | member {members : List (Text × Value)} {key : Text} {value part : Value} {path : Path}
      (mem : (key, value) ∈ members) (h : At value path part) :
      At (.object members) (.member key :: path) part
  | item {items : List Value} {i : Nat} {value part : Value} {path : Path}
      (place : items[i]? = some value) (h : At value path part) :
      At (.array items) (.item i :: path) part

theorem isLeaf_iff : value.isLeaf ↔ value.parts = [] := by
  cases value with
  | array items => cases items <;> simp [isLeaf, parts]
  | object members => cases members <;> simp [isLeaf, parts]
  | _ => simp [isLeaf, parts]

theorem mem_parts_object : (step, part) ∈ (Value.object members).parts ↔
    ∃ key, step = .member key ∧ (key, part) ∈ members := by
  simp only [parts, List.mem_map, Prod.exists, Prod.mk.injEq]
  constructor
  · rintro ⟨key, _, mem, rfl, rfl⟩
    exact ⟨key, rfl, mem⟩
  · rintro ⟨key, rfl, mem⟩
    exact ⟨key, part, mem, rfl, rfl⟩

theorem mem_parts_array : (step, part) ∈ (Value.array items).parts ↔
    ∃ i, step = .item i ∧ items[i]? = some part := by
  simp only [parts, List.mem_map, Prod.exists, Prod.mk.injEq]
  constructor
  · rintro ⟨_, i, mem, rfl, rfl⟩
    exact ⟨i, rfl, List.mk_mem_zipIdx_iff_getElem?.1 mem⟩
  · rintro ⟨i, rfl, place⟩
    exact ⟨part, i, List.mk_mem_zipIdx_iff_getElem?.2 place, rfl, rfl⟩

theorem at_nil_iff : At value [] part ↔ part = value :=
  ⟨by rintro ⟨⟩; rfl, by rintro rfl; exact .root _⟩

/-- A path begins with the step to a part. -/
theorem at_cons_iff : At value (step :: path) part ↔
    ∃ next, (step, next) ∈ value.parts ∧ At next path part := by
  constructor
  · rintro (_ | ⟨mem, h⟩ | ⟨place, h⟩)
    · exact ⟨_, mem_parts_object.2 ⟨_, rfl, mem⟩, h⟩
    · exact ⟨_, mem_parts_array.2 ⟨_, rfl, place⟩, h⟩
  · rintro ⟨next, mem, h⟩
    cases value with
    | array items =>
      obtain ⟨i, rfl, place⟩ := mem_parts_array.1 mem
      exact .item place h
    | object members =>
      obtain ⟨key, rfl, entry⟩ := mem_parts_object.1 mem
      exact .member entry h
    | _ => cases mem

theorem sizeOf_lt_of_mem_parts {p : Step × Value} (h : p ∈ value.parts) :
    sizeOf p.2 < sizeOf value := by
  obtain ⟨step, part⟩ := p
  cases value with
  | array items =>
    obtain ⟨i, -, place⟩ := mem_parts_array.1 h
    have := List.sizeOf_lt_of_mem (List.mem_of_getElem? place)
    simp only [array.sizeOf_spec]
    omega
  | object members =>
    obtain ⟨key, -, mem⟩ := mem_parts_object.1 h
    have := List.sizeOf_lt_of_mem mem
    simp only [Prod.mk.sizeOf_spec] at this
    simp only [object.sizeOf_spec]
    omega
  | _ => cases h

/-- Induction over the parts of a value. -/
theorem induct {motive : Value → Prop}
    (step : ∀ value : Value, (∀ p ∈ value.parts, motive p.2) → motive value) (value : Value) :
    motive value :=
  step value fun p mem => have := sizeOf_lt_of_mem_parts mem; induct step p.2
termination_by sizeOf value

/-! ### Leaves -/

mutual

/-- The parts of a value that have no parts of their own, with their paths. -/
def leaves : Value → List (Path × Value)
  | .object (m :: rest) => memberLeaves (m :: rest)
  | .array (item :: rest) => itemLeaves 0 (item :: rest)
  | value => [([], value)]
termination_by structural value => value

/-- The leaves of the members of an object. -/
def memberLeaves : List (Text × Value) → List (Path × Value)
  | [] => []
  | (key, value) :: rest =>
    value.leaves.map (fun (path, leaf) => (.member key :: path, leaf)) ++ memberLeaves rest
termination_by structural members => members

/-- The leaves of the items of an array from position `i` on. -/
def itemLeaves (i : Nat) : List Value → List (Path × Value)
  | [] => []
  | value :: rest =>
    value.leaves.map (fun (path, leaf) => (.item i :: path, leaf)) ++ itemLeaves (i + 1) rest
termination_by structural items => items

end

theorem memberLeaves_eq (members : List (Text × Value)) : memberLeaves members =
    members.flatMap fun m => m.2.leaves.map fun (path, leaf) => (.member m.1 :: path, leaf) := by
  induction members with
  | nil => rfl
  | cons m members ih => rw [memberLeaves, ih, List.flatMap_cons]

theorem itemLeaves_eq (i : Nat) (items : List Value) : itemLeaves i items =
    (items.zipIdx i).flatMap fun p =>
      p.1.leaves.map fun (path, leaf) => (.item p.2 :: path, leaf) := by
  induction items generalizing i with
  | nil => rfl
  | cons value items ih => rw [itemLeaves, ih, List.zipIdx_cons, List.flatMap_cons]

theorem leaves_of_isLeaf (h : value.isLeaf) : value.leaves = [([], value)] := by
  cases value with
  | array items => cases items <;> first | rfl | cases h
  | object members => cases members <;> first | rfl | cases h
  | _ => rfl

theorem leaves_of_not_isLeaf (h : value.isLeaf = false) : value.leaves =
    value.parts.flatMap fun p => p.2.leaves.map fun (path, leaf) => (p.1 :: path, leaf) := by
  cases value with
  | array items =>
    cases items with
    | nil => cases h
    | cons item items => rw [leaves, itemLeaves_eq, parts, List.flatMap_map]
  | object members =>
    cases members with
    | nil => cases h
    | cons m members => rw [leaves, memberLeaves_eq, parts, List.flatMap_map]
  | _ => cases h

theorem mem_leaves_of_not_isLeaf {leaf : Value} (h : value.isLeaf = false) :
    (path, leaf) ∈ value.leaves ↔
      ∃ step rest, path = step :: rest ∧
        ∃ p, (step, p) ∈ value.parts ∧ (rest, leaf) ∈ p.leaves := by
  simp only [leaves_of_not_isLeaf h, List.mem_flatMap, List.mem_map, Prod.exists, Prod.mk.injEq]
  constructor
  · rintro ⟨step, p, mem, rest, _, found, rfl, rfl⟩
    exact ⟨step, rest, rfl, p, mem, found⟩
  · rintro ⟨step, rest, rfl, p, mem, found⟩
    exact ⟨step, p, mem, rest, leaf, found, rfl, rfl⟩

/-- The leaves of a value are all its parts without parts of their own. -/
theorem mem_leaves_iff {leaf : Value} :
    (path, leaf) ∈ value.leaves ↔ At value path leaf ∧ leaf.isLeaf := by
  induction value using induct generalizing path with
  | step value ih =>
    by_cases h : value.isLeaf
    · rw [leaves_of_isLeaf h, List.mem_singleton, Prod.mk.injEq]
      constructor
      · rintro ⟨rfl, rfl⟩
        exact ⟨.root _, h⟩
      · rintro ⟨leads, -⟩
        cases path with
        | nil => exact ⟨rfl, at_nil_iff.1 leads⟩
        | cons step path =>
          obtain ⟨next, mem, -⟩ := at_cons_iff.1 leads
          rw [isLeaf_iff.1 h] at mem
          cases mem
    · have none : value.isLeaf = false := by simpa using h
      rw [mem_leaves_of_not_isLeaf none]
      constructor
      · rintro ⟨step, rest, rfl, p, mem, found⟩
        obtain ⟨leads, leaf⟩ := (ih (step, p) mem).1 found
        exact ⟨at_cons_iff.2 ⟨p, mem, leads⟩, leaf⟩
      · rintro ⟨leads, hleaf⟩
        cases path with
        | nil =>
          rw [at_nil_iff.1 leads, none] at hleaf
          cases hleaf
        | cons step path =>
          obtain ⟨p, mem, leads⟩ := at_cons_iff.1 leads
          exact ⟨step, path, rfl, p, mem, (ih (step, p) mem).2 ⟨leads, hleaf⟩⟩

/-! ### Order -/

/-- The parts of a value, and of all parts of it, are in order. -/
inductive Ordered : Value → Prop
  | intro {value : Value} (parts : value.parts.Pairwise fun p q => p.1.Before q.1)
      (deep : ∀ p ∈ value.parts, Ordered p.2) : Ordered value

/-- The leaves come depth first. -/
theorem pairwise_leaves (h : value.Ordered) :
    value.leaves.Pairwise fun a b => Path.Before a.1 b.1 := by
  induction h with
  | @intro value parts _ ih =>
    by_cases h : value.isLeaf
    · rw [leaves_of_isLeaf h]
      exact List.pairwise_singleton _ _
    · rw [leaves_of_not_isLeaf (by simpa using h), List.pairwise_flatMap]
      constructor
      · intro p mem
        exact List.pairwise_map.2 ((ih p mem).imp .cons)
      · refine parts.imp fun {p q} before a ha b hb => ?_
        obtain ⟨_, -, rfl⟩ := List.mem_map.1 ha
        obtain ⟨_, -, rfl⟩ := List.mem_map.1 hb
        exact .rel before

theorem ordered_of_isLeaf (h : value.isLeaf) : value.Ordered := by
  have none := isLeaf_iff.1 h
  exact .intro (by simp [none]) (by simp [none])

theorem ordered_array (h : ∀ value ∈ items, value.Ordered) : (Value.array items).Ordered := by
  constructor
  · have ascending : items.zipIdx.Pairwise fun p q => p.2 < q.2 := by
      rw [← List.pairwise_map (f := Prod.snd) (R := (· < ·)), List.zipIdx_map_snd]
      exact List.pairwise_lt_range' 1
    exact List.pairwise_map.2 ascending
  · rintro ⟨step, part⟩ mem
    obtain ⟨i, -, place⟩ := mem_parts_array.1 mem
    exact h part (List.mem_of_getElem? place)

theorem ordered_object (sorted : members.Sorted) (h : members.All Ordered) :
    (Value.object members).Ordered := by
  constructor
  · exact List.pairwise_map.2 (sorted.imp Text.utf8_lt_of_before)
  · rintro ⟨step, part⟩ mem
    obtain ⟨key, -, mem⟩ := mem_parts_object.1 mem
    exact h _ mem

end Value

/-! ### Reading -/

theorem sorted_ofEntries {α : Type} (entries : List (Text × α)) :
    (Table.ofEntries entries).Sorted :=
  List.foldlRecOn (motive := Table.Sorted) entries _ .nil fun _ sorted entry _ =>
    Table.sorted_insert sorted entry.1 entry.2

theorem all_ofEntries {α : Type} {p : α → Prop} {entries : List (Text × α)}
    (h : ∀ entry ∈ entries, p entry.2) : (Table.ofEntries entries).All p :=
  List.foldlRecOn (motive := Table.All p) entries _ Table.all_nil fun _ all entry mem =>
    all.insert entry.1 (h entry mem)

variable {depth : Nat}

theorem exists_of_mem_itemValues {items : List Tree} {values : List Value} {value : Value}
    (h : itemValues? depth items = some values) (mem : value ∈ values) :
    ∃ t ∈ items, t.value? depth = some value := by
  induction items generalizing values with
  | nil =>
    cases h
    cases mem
  | cons t items ih =>
    rw [itemValues?] at h
    split at h
    · next first rest =>
      cases h
      rcases List.mem_cons.1 mem with rfl | mem
      · exact ⟨t, List.mem_cons_self, first⟩
      · obtain ⟨u, hu, found⟩ := ih rest mem
        exact ⟨u, List.mem_cons_of_mem _ hu, found⟩
    · cases h

theorem exists_of_mem_memberValues {members : List (List StringUnit × Tree)}
    {values : List (Text × Value)} {entry : Text × Value}
    (h : memberValues? depth members = some values) (mem : entry ∈ values) :
    ∃ m ∈ members, m.2.value? depth = some entry.2 := by
  induction members generalizing values with
  | nil =>
    cases h
    cases mem
  | cons m members ih =>
    obtain ⟨key, t⟩ := m
    rw [memberValues?] at h
    split at h
    · next first rest =>
      cases h
      rcases List.mem_cons.1 mem with rfl | mem
      · exact ⟨_, List.mem_cons_self, first⟩
      · obtain ⟨u, hu, found⟩ := ih rest mem
        exact ⟨u, List.mem_cons_of_mem _ hu, found⟩
    · cases h

/-- What is read has its members in order. -/
theorem Value.ordered_of_value? {t : Tree} {depth : Nat} {value : Value}
    (h : t.value? depth = some value) : value.Ordered := by
  -- The recursion is on the depth: what an array or an object holds is read with one level less.
  cases t with
  | null | bool b =>
    cases h
    exact ordered_of_isLeaf rfl
  | number n | string units =>
    obtain ⟨_, -, rfl⟩ := Option.map_eq_some_iff.1 h
    exact ordered_of_isLeaf rfl
  | array items =>
    cases depth with
    | zero => cases h
    | succ depth =>
      obtain ⟨values, read, rfl⟩ := Option.map_eq_some_iff.1 h
      refine ordered_array fun value mem => ?_
      obtain ⟨t, -, found⟩ := exists_of_mem_itemValues read mem
      exact ordered_of_value? found
  | object members =>
    cases depth with
    | zero => cases h
    | succ depth =>
      obtain ⟨values, read, rfl⟩ := Option.map_eq_some_iff.1 h
      refine ordered_object (sorted_ofEntries values) (all_ofEntries fun entry mem => ?_)
      obtain ⟨t, -, found⟩ := exists_of_mem_memberValues read mem
      exact ordered_of_value? found

theorem Value.ordered_of_parse? {text : Text} {value : Value} (h : parse? text = some value) :
    value.Ordered := by
  obtain ⟨t, -, read⟩ := Option.bind_eq_some_iff.1 h
  exact ordered_of_value? read

end Json

/-! ### Flattening -/

namespace Flatten

open Json

variable {v : Vocabulary}

/-- The path that is written behind a path. -/
def pathFrom (path? : Option Text) (path : Path) : Option Text :=
  path.foldl (fun path? step => some (join path? step.text)) path?

theorem pathFrom_some (before : Text) (path : Path) :
    pathFrom (some before) path = some (Text.joinWith ['.'] (before :: path.map Step.text)) := by
  induction path generalizing before with
  | nil => rfl
  | cons step path ih =>
    rw [pathFrom, List.foldl_cons]
    refine (ih _).trans ?_
    simp [join, Tree.joinWith_cons]

/-- The path of a part is that of its steps, and the root has none. -/
theorem pathFrom_none (path : Path) :
    pathFrom none path = if path = [] then none else some path.text := by
  cases path with
  | nil => rfl
  | cons step path => exact pathFrom_some step.text path

theorem memberTokens_eq (path? : Option Text) (members : List (Text × Value)) :
    memberTokens v path? members =
      members.flatMap fun m => tokens v (some (join path? m.1.toLower)) m.2 := by
  induction members with
  | nil => rfl
  | cons m members ih => rw [memberTokens, ih, List.flatMap_cons]

theorem itemTokens_eq (path? : Option Text) (i : Nat) (items : List Value) :
    itemTokens v path? i items =
      (items.zipIdx i).flatMap fun p => tokens v (some (join path? (Text.ofNat p.2))) p.1 := by
  induction items generalizing i with
  | nil => rfl
  | cons value items ih => rw [itemTokens, ih, List.zipIdx_cons, List.flatMap_cons]

theorem tokens_of_isLeaf (path? : Option Text) {value : Value} (h : value.isLeaf) :
    tokens v path? value = leaf v path? value := by
  cases value with
  | array items => cases items <;> first | rfl | cases h
  | object members => cases members <;> first | rfl | cases h
  | _ => rfl

theorem tokens_of_not_isLeaf (path? : Option Text) {value : Value} (h : value.isLeaf = false) :
    tokens v path? value =
      value.parts.flatMap fun p => tokens v (some (join path? p.1.text)) p.2 := by
  cases value with
  | array items =>
    cases items with
    | nil => cases h
    | cons item items => rw [tokens, itemTokens_eq, Value.parts, List.flatMap_map]; rfl
  | object members =>
    cases members with
    | nil => cases h
    | cons m members => rw [tokens, memberTokens_eq, Value.parts, List.flatMap_map]; rfl
  | _ => cases h

/-- The tokens of a value are those of its leaves, one after the other. -/
theorem tokens_eq_leaves (path? : Option Text) (value : Value) :
    tokens v path? value = value.leaves.flatMap fun l => leaf v (pathFrom path? l.1) l.2 := by
  induction value using Value.induct generalizing path? with
  | step value ih =>
    by_cases h : value.isLeaf
    · rw [tokens_of_isLeaf path? h, Value.leaves_of_isLeaf h, List.flatMap_singleton]
      rfl
    · have parts : value.isLeaf = false := by simpa using h
      rw [tokens_of_not_isLeaf path? parts, Value.leaves_of_not_isLeaf parts, List.flatMap_assoc]
      refine List.flatMap_congr fun p mem => ?_
      rw [ih p mem, List.flatMap_map]
      rfl

/-- The tokens of a whole value: path, mark and value token of each leaf below the root. -/
theorem tokens_none (value : Value) : tokens v none value =
    (value.leaves.filter (·.1 ≠ [])).flatMap fun (path, leaf) =>
      .literal path.text :: .literal ['='] :: (valueToken? v leaf).toList := by
  rw [tokens_eq_leaves]
  induction value.leaves with
  | nil => rfl
  | cons l leaves ih =>
    obtain ⟨path, leaf⟩ := l
    rw [List.flatMap_cons, ih, pathFrom_none]
    by_cases root : path = [] <;> simp [root, Flatten.leaf]

end Flatten

end LogTemplate
