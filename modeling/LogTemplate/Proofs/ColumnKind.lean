import LogTemplate.Proofs.Consensus
import Mathlib.Order.Bounds.Basic

/-!
# The kind of a column

* A kind is below those that accept it; this is a partial order of the kinds;
* `Consensus.takers` are the placeholder kinds that accept all tokens of a column.
  `Consensus.majority_le` says that the most frequent kind is below all of them, so that only three
  kinds can be takers, `Consensus.mem_tried`: those that are tried;
* so the kind of a column is the least taker, `Consensus.columnKind?_eq_some_iff`, and which kind
  this is depends on the kinds that occur in the column, `Consensus.columnKind?_congr`, not on how
  often they do.
-/

namespace LogTemplate

/-! ### The order of kinds -/

namespace Kind

variable {a b c : Kind}

theorem accepts_iff : a.accepts b ↔ a = b ∨ (a = .float ∧ b = .integer) ∨
    (a = .string ∧ b ∈ [literal, integer, float, uri, mac, ipv6, ipv4]) := by
  cases a <;> simp [accepts]

/-- Two kinds that accept each other are one. -/
theorem accepts_antisymm (h : a.accepts b) (h' : b.accepts a) : a = b := by
  revert h h'
  cases a <;> cases b <;> decide

theorem accepts_trans (h : a.accepts b) (h' : b.accepts c) : a.accepts c := by
  rcases accepts_iff.1 h with rfl | ⟨rfl, rfl⟩ | ⟨rfl, kind⟩
  · exact h'
  · obtain rfl : integer = c := by simpa [accepts_iff] using h'
    rfl
  · simp only [List.mem_cons, List.not_mem_nil, or_false] at kind
    rcases kind with rfl | rfl | rfl | rfl | rfl | rfl | rfl <;> revert h' <;> cases c <;> decide

/-- A kind is below those that accept it. -/
instance : PartialOrder Kind where
  le a b := b.accepts a
  le_refl := accepts_self
  le_trans _ _ _ hab hbc := accepts_trans hbc hab
  le_antisymm _ _ hab hba := accepts_antisymm hba hab

theorem le_iff : a ≤ b ↔ b.accepts a := Iff.rfl

/-- Above the kind of a placeholder there are only float and string. -/
theorem eq_or_of_le (h : a ≤ b) : b = a ∨ b = .float ∨ b = .string := by
  rcases accepts_iff.1 h with rfl | ⟨rfl, -⟩ | ⟨rfl, -⟩
  · exact .inl rfl
  · exact .inr (.inl rfl)
  · exact .inr (.inr rfl)

end Kind

namespace Consensus

variable {t : Token} {kind : Kind} {rows : List Line} {column column' : List Token}

/-! ### Takers -/

/-- The kinds of placeholders that accept all tokens of a column. -/
def takers (column : List Token) : Set Kind :=
  {kind | kind.isPlaceholder ∧ ∀ t ∈ column, t.kind ≤ kind}

/-- A placeholder that accepts a token accepts what the token counts as. -/
theorem countedKind_le (placeholder : kind.isPlaceholder) (h : t.kind ≤ kind) :
    countedKind t ≤ kind := by
  rw [Kind.le_iff] at h ⊢
  unfold countedKind
  revert placeholder h
  cases t.kind <;> first | exact fun _ h => h | (cases kind <;> decide)

theorem majority_le (ne : column ≠ []) (h : kind ∈ takers column) : majority column ≤ kind := by
  obtain ⟨placeholder, accepts⟩ := h
  obtain ⟨t, ht, counted⟩ := exists_countedKind_eq_majority ne
  rw [← counted]
  exact countedKind_le placeholder (accepts t ht)

/-- No other kinds than those that are tried can be takers. -/
theorem mem_tried (ne : column ≠ []) (h : kind ∈ takers column) :
    kind ∈ [majority column, .float, .string] := by
  simpa using Kind.eq_or_of_le (majority_le ne h)

/-- Of those that are tried, each one is below the takers behind it. -/
theorem tried_pairwise (column : List Token) :
    [majority column, Kind.float, Kind.string].Pairwise fun a b =>
      column ≠ [] → b ∈ takers column → a ≤ b := by
  refine .cons ?_ (.cons ?_ (.cons ?_ .nil))
  · exact fun b _ ne taker => majority_le ne taker
  · rintro b hb - -
    rw [List.mem_singleton.1 hb]
    exact Kind.le_iff.2 rfl
  · simp

/-! ### The least taker -/

theorem mem_takers_of_columnKind? (h : columnKind? column = some kind) : kind ∈ takers column :=
  columnKind?_spec h

/-- The kind of a column is the least kind of placeholders that accepts all its tokens. -/
theorem isLeast_of_columnKind? (ne : column ≠ []) (h : columnKind? column = some kind) :
    IsLeast (takers column) kind := by
  refine ⟨mem_takers_of_columnKind? h, fun other taker => ?_⟩
  obtain ⟨-, before, behind, tried, failed⟩ := List.find?_eq_some_iff_append.1 h
  -- A taker does not stand before the kind that was found, for that one would have been found.
  have place : other = kind ∨ other ∈ behind := by
    have mem := mem_tried ne taker
    rw [tried, List.mem_append, List.mem_cons] at mem
    refine mem.resolve_left fun mem => ?_
    have := failed other mem
    simp only [Bool.not_eq_true', List.all_eq_false] at this
    obtain ⟨t, ht, refused⟩ := this
    exact refused (taker.2 t ht)
  rcases place with rfl | mem
  · exact le_rfl
  · have ordered := tried_pairwise column
    rw [tried, List.pairwise_append, List.pairwise_cons] at ordered
    exact ordered.2.1.1 other mem ne taker

theorem columnKind?_eq_none_iff (ne : column ≠ []) :
    columnKind? column = none ↔ takers column = ∅ := by
  constructor
  · intro none
    refine Set.eq_empty_iff_forall_notMem.2 fun kind taker => ?_
    have refused := List.find?_eq_none.1 none kind (mem_tried ne taker)
    exact refused (List.all_eq_true.2 taker.2)
  · intro empty
    cases h : columnKind? column with
    | none => rfl
    | some kind => exact absurd (mem_takers_of_columnKind? h) (by simp [empty])

theorem columnKind?_eq_some_iff (ne : column ≠ []) :
    columnKind? column = some kind ↔ IsLeast (takers column) kind := by
  refine ⟨isLeast_of_columnKind? ne, fun least => ?_⟩
  cases h : columnKind? column with
  | none =>
    have := least.1
    rw [(columnKind?_eq_none_iff ne).1 h] at this
    exact absurd this (Set.notMem_empty _)
  | some found => rw [(isLeast_of_columnKind? ne h).unique least]

theorem takers_congr (same : ∀ kind, kind ∈ column.map (·.kind) ↔ kind ∈ column'.map (·.kind)) :
    takers column = takers column' := by
  have bounds_iff (column : List Token) (k : Kind) :
      (∀ t ∈ column, t.kind ≤ k) ↔ ∀ kind ∈ column.map (·.kind), kind ≤ k := by simp
  ext k
  simp only [takers, Set.mem_ofPred_eq, bounds_iff, same]

/-- Columns in which the same kinds occur are of one kind. -/
theorem columnKind?_congr
    (same : ∀ kind, kind ∈ column.map (·.kind) ↔ kind ∈ column'.map (·.kind)) :
    columnKind? column = columnKind? column' := by
  have empty_iff : column = [] ↔ column' = [] := by
    have kinds : column.map (·.kind) = [] ↔ column'.map (·.kind) = [] := by
      simp only [List.eq_nil_iff_forall_not_mem, same]
    rwa [List.map_eq_nil_iff, List.map_eq_nil_iff] at kinds
  by_cases ne : column = []
  · rw [ne, empty_iff.1 ne]
  · ext kind
    rw [columnKind?_eq_some_iff ne, columnKind?_eq_some_iff (mt empty_iff.2 ne), takers_congr same]

/-! ### Columns of rows -/

theorem ne_nil_of_mem_columns (h : column ∈ columns rows) : column ≠ [] := by
  obtain ⟨j, hj, rfl⟩ := List.mem_map.1 h
  cases rows with
  | nil => simp at hj
  | cons row rows =>
    have width : j < row.length := by simpa using hj
    simp [width]

/-- The kind of a column is the least kind of placeholders that accepts all tokens of the column; it
has none when there are no such kinds. Columns in which the same kinds occur are of one kind. -/
theorem columnKind?_isLeast (h : column ∈ columns rows) :
    (∀ kind, columnKind? column = some kind ↔ IsLeast (takers column) kind) ∧
      (columnKind? column = none ↔ takers column = ∅) ∧
      ∀ rows', ∀ column' ∈ columns rows',
        (∀ kind, kind ∈ column.map (·.kind) ↔ kind ∈ column'.map (·.kind)) →
          columnKind? column = columnKind? column' :=
  have ne := ne_nil_of_mem_columns h
  ⟨fun _ => columnKind?_eq_some_iff ne, columnKind?_eq_none_iff ne,
    fun _ _ _ same => columnKind?_congr same⟩

/-- Two integers and a float between them. -/
theorem columnKind?_isLeast_up :
    let rows := ["took 5 ms".toList, "took 0.5 ms".toList, "took 7 ms".toList].map (Scan.message {})
    ∃ column ∈ columns rows, column.map (·.kind) = [.integer, .float, .integer] ∧
      columnKind? column = some .float ∧ IsLeast (takers column) .float := by
  intro rows
  have shown : ∃ column ∈ columns rows, column.map (·.kind) = [.integer, .float, .integer] ∧
      columnKind? column = some .float := by decide +kernel
  obtain ⟨column, h, kinds, found⟩ := shown
  exact ⟨column, h, kinds, found, ((columnKind?_isLeast h).1 _).1 found⟩

end Consensus

end LogTemplate
