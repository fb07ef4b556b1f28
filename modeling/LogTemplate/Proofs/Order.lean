import LogTemplate.Proofs.Registration

/-!
# Look-ups keep the order of covers

The templates of a catalog share branches, and a template may stand anywhere among the others. The
covers of each one are come to in its own order nevertheless.

* `Catalog.Ordered` is the invariant of catalogs, `Catalog.ordered_register` its step and
  `Catalog.Built.ordered` its run;
* `Catalog.slotsTo_ways` says the same of the ways that a look-up goes over;
* `Catalog.find?_coverings` says that a look-up finds the first of the best covers of the template
  that wins.
-/

namespace LogTemplate

namespace Catalog

variable {v : Vocabulary} {c : Catalog}

/-- The ways to each template are its covers, in their order. -/
def Ordered (v : Vocabulary) (c : Catalog) : Prop :=
  ∀ (i : Nat) (T : Template), c.templates[i]? = some T → ∀ line,
    (c.trieOf T.line).waysTo v.regextime i line = Line.coverings v.regextime T.line line

/-- A trie has no ways to the templates of other tries. -/
theorem waysTo_eq_nil (h : Sound v c) {kin line : Line} {i : Nat}
    (apart : ∀ T, c.templates[i]? = some T → ¬SameTrie T.line kin) :
    (c.trieOf kin).waysTo v.regextime i line = [] := by
  refine List.eq_nil_iff_forall_not_mem.2 fun slots mem => ?_
  obtain ⟨T, hT, same, -⟩ :=
    (h.way kin line slots i).1 (Trie.mem_ways.1 (Trie.mem_slotsTo.1 mem))
  exact apart T hT same

theorem ordered_empty (v : Vocabulary) : Ordered v {} := by
  intro i T hT
  simp at hT

theorem ordered_extend (h : Sound v c) (ordered : Ordered v c) {line : Line}
    {offsets? : Option (List Nat)} (path : (c.trieOf line).find? line = none) :
    Ordered v (c.extend v line offsets?) := by
  have unused : c.templates[c.size]? = none := List.getElem?_eq_none (Nat.le_refl _)
  intro i T hT other
  rw [trieOf_extend]
  rcases getElem?_extend.1 hT with hT | ⟨rfl, rfl⟩
  · by_cases same : SameTrie line T.line
    · have old : i ≠ c.size := by
        rintro rfl
        rw [unused] at hT
        cases hT
      rw [trieOf_withTrie_self same, Trie.waysTo_insert_of_ne old path, trieOf_congr same]
      exact ordered i T hT other
    · rw [trieOf_withTrie_of_not same]
      exact ordered i T hT other
  · have none : (c.trieOf line).waysTo v.regextime c.size other = [] := by
      refine waysTo_eq_nil h fun T hT => ?_
      rw [unused] at hT
      cases hT
    show ((c.withTrie line _).trieOf line).waysTo v.regextime c.size other = _
    rw [trieOf_withTrie_self ⟨rfl, fun _ => rfl⟩]
    exact Trie.waysTo_insert_self path none

/-- Registration keeps the order. -/
theorem ordered_register (h : Sound v c) (ordered : Ordered v c) (line : Line)
    (offsets? : Option (List Nat)) : Ordered v (c.register v line offsets?).1 := by
  rcases register_cases h line offsets? with ⟨T, -, -, eq⟩ | ⟨-, path, eq⟩
  · rw [eq]
    exact ordered
  · rw [eq]
    exact ordered_extend h ordered path

theorem Built.ordered (built : Built v c) : Ordered v c := by
  refine (built.induct (P := fun c => Sound v c ∧ Ordered v c) ?_ ?_).2
  · exact ⟨sound_empty v, ordered_empty v⟩
  · intro c line offsets? h
    exact ⟨sound_register h.1 line offsets?, ordered_register h.1 h.2 line offsets?⟩

/-- The ways to a template are its covers, in their order. -/
theorem slotsTo_ways (h : Sound v c) (ordered : Ordered v c) {i : Nat} {T : Template}
    (hT : c.templates[i]? = some T) (line : Line) :
    Trie.slotsTo i (c.ways v line) = Line.coverings v.regextime T.line line := by
  have other {kin : Line} (apart : ¬SameTrie T.line kin) :
      (c.trieOf kin).waysTo v.regextime i line = [] := by
    refine waysTo_eq_nil h fun S hS => ?_
    rw [hT] at hS
    cases hS
    exact apart
  have own {kin : Line} (same : SameTrie T.line kin) :
      (c.trieOf kin).waysTo v.regextime i line = Line.coverings v.regextime T.line line := by
    rw [← trieOf_congr same]
    exact ordered i T hT line
  rw [ways, Trie.slotsTo_append]
  show (c.trieOf _).waysTo v.regextime i line ++ (c.trieOf _).waysTo v.regextime i line = _
  cases hv : isVariadic T.line with
  | true =>
    have apart : ¬SameTrie T.line (fixedKin line.length) := by
      rintro ⟨same, -⟩
      rw [hv, isVariadic_fixedKin] at same
      cases same
    have same : SameTrie T.line variadicKin := by
      refine ⟨hv, fun fixed => ?_⟩
      rw [hv] at fixed
      cases fixed
    rw [other apart, own same, List.nil_append]
  | false =>
    have apart : ¬SameTrie T.line variadicKin := by
      rintro ⟨same, -⟩
      rw [hv, isVariadic_variadicKin] at same
      cases same
    rw [other apart, List.append_nil]
    by_cases len : T.line.length = line.length
    · exact own ⟨by rw [hv, isVariadic_fixedKin], fun _ => by rw [len, length_fixedKin]⟩
    · -- A template without runs covers no line of another length.
      have none : Line.coverings v.regextime T.line line = [] := by
        refine List.eq_nil_iff_forall_not_mem.2 fun slots mem => len ?_
        refine ((Line.mem_coverings.1 mem).length_eq fun t ht => ?_).symm
        simpa using (List.any_eq_false.1 hv) t ht
      rw [none]
      exact other fun same => len (by rw [same.2 hv, length_fixedKin])

/-- A look-up finds the first of the best covers of its template. -/
theorem find?_coverings (h : Sound v c) (ordered : Ordered v c) {line : Line} {cover : Cover}
    (found : c.cover? v line = some cover) {T : Template}
    (hT : c.templates[cover.ordinal]? = some T) :
    (Line.coverings v.regextime T.line line).find? (wildcards · = cover.wildcards) =
      some cover.slots := by
  rw [cover?_eq] at found
  have first := Cover.find?_of_offerAll found
  rw [List.find?_map, Option.map_eq_some_iff] at first
  obtain ⟨way, hway, rfl⟩ := first
  rw [← slotsTo_ways h ordered hT, Trie.find?_slotsTo]
  exact congrArg (Option.map (·.1)) hway

end Catalog

end LogTemplate
