import LogTemplate.Proofs.Store
import Mathlib.Algebra.Ring.Nat
import Mathlib.Data.List.Induction

/-!
# What a shelf tells of its hits

* `Statistics.Sums` says that statistics sum up hits on their template;
* `Shelf.Tells` says that a shelf tells of hits: it has their templates in the order of their first
  hits, each with its sum;
* `Shelf.Tells.record` is the step, `Shelf.tells_recordAll` the run;
* `Store.size_foldl_save` counts the templates of a store.
-/

namespace LogTemplate

variable {maxExamples : Nat} {message : Text} {h : Hit}

/-! ### First occurrences -/

section FirstOccurrences

variable {α : Type} [BEq α] [LawfulBEq α] {l : List α} {a : α}

theorem eraseDups_concat_of_mem (h : a ∈ l) : (l ++ [a]).eraseDups = l.eraseDups := by
  simp [List.eraseDups_append, List.removeAll, h]

theorem eraseDups_concat_of_not_mem (h : a ∉ l) : (l ++ [a]).eraseDups = l.eraseDups ++ [a] := by
  simp [List.eraseDups_append, List.removeAll, List.eraseDups_cons, h]

theorem nodup_eraseDups (l : List α) : l.eraseDups.Nodup := by
  induction l using List.reverseRecOn with
  | nil => exact .nil
  | append_singleton l a ih =>
    by_cases h : a ∈ l
    · rw [eraseDups_concat_of_mem h]
      exact ih
    · rw [eraseDups_concat_of_not_mem h]
      refine ih.append (List.nodup_singleton a) fun b hb hb' => h ?_
      rw [List.mem_singleton.1 hb'] at hb
      exact List.mem_eraseDups.1 hb

end FirstOccurrences

/-! ### Statistics -/

/-- The statistics sum up hits on one template, which are given with their messages. What they tell
of the template is taken from the first hit, and the hits are counted in 64 bits. -/
structure Statistics.Sums (maxExamples : Nat) (hits : List (Text × Hit)) (s : Statistics) :
    Prop where
  first : ∃ message h, hits.head? = some (message, h) ∧ s.text = h.text ∧
    s.offsets = h.offsets ∧ s.complexity = h.complexity
  count : s.count = hits.length % 2 ^ 64
  examples : s.examples = (hits.map (·.1)).take (min hits.length maxExamples)

namespace Statistics

@[simp] theorem id_record (s : Statistics) : (s.record maxExamples message).id = s.id := rfl

theorem sums_ofHit (maxExamples : Nat) (message : Text) (h : Hit) :
    ((ofHit h).record maxExamples message).Sums maxExamples [(message, h)] where
  first := ⟨message, h, rfl, rfl, rfl, rfl⟩
  count := rfl
  examples := by cases maxExamples <;> simp [record, ofHit]

/-- One hit more. -/
theorem Sums.record {hits : List (Text × Hit)} {s : Statistics} (sums : s.Sums maxExamples hits)
    (message : Text) (h : Hit) :
    (s.record maxExamples message).Sums maxExamples (hits ++ [(message, h)]) where
  first := by
    obtain ⟨m, k, head, rest⟩ := sums.first
    exact ⟨m, k, by rw [List.head?_append, head]; rfl, rest⟩
  count := by
    have step : (s.record maxExamples message).count = (s.count + 1) % 2 ^ 64 :=
      UInt64.toNat_add s.counter 1
    rw [step, sums.count, List.length_append, List.length_singleton, Nat.mod_add_mod]
  examples := by
    have length : s.examples.length = min hits.length maxExamples := by
      rw [sums.examples, List.length_take, List.length_map]
      omega
    have all : (hits.map (·.1)).length = hits.length := List.length_map _
    have longer : (hits ++ [(message, h)]).length = hits.length + 1 := List.length_append
    simp only [Statistics.record, List.map_append, List.map_singleton]
    split
    · next room =>
      -- There was room for all messages so far.
      rw [sums.examples, List.take_of_length_le (by omega), List.take_of_length_le]
      rw [List.length_append, List.length_singleton]
      omega
    · next full =>
      rw [sums.examples, List.take_append_of_le_length (by omega)]
      congr 1
      omega

end Statistics

/-! ### Shelves -/

namespace Shelf

variable {templates : List Statistics} {hits : List (Text × Hit)}

/-- The hits on the template of an identifier. -/
def hitsOf (id : Text) (hits : List (Text × Hit)) : List (Text × Hit) := hits.filter (·.2.id = id)

/-- The templates of a shelf are those of the hits, in the order in which they were first hit, and
sum them up. -/
structure Tells (maxExamples : Nat) (hits : List (Text × Hit)) (templates : List Statistics) :
    Prop where
  ids : templates.map (·.id) = (hits.map (·.2.id)).eraseDups
  sums : ∀ s ∈ templates, s.Sums maxExamples (hitsOf s.id hits)

theorem hitsOf_concat (id : Text) (hits : List (Text × Hit)) (message : Text) (h : Hit) :
    hitsOf id (hits ++ [(message, h)]) =
      if h.id = id then hitsOf id hits ++ [(message, h)] else hitsOf id hits := by
  unfold hitsOf
  rw [List.filter_append]
  by_cases same : h.id = id <;> simp [same]

/-- No two positions hold the same template. -/
theorem eq_of_id {i j : Nat} {s t : Statistics} (distinct : (templates.map (·.id)).Nodup)
    (hs : templates[i]? = some s) (ht : templates[j]? = some t) (same : s.id = t.id) : i = j := by
  have inside : i < (templates.map (·.id)).length := by
    rw [List.length_map]
    exact (List.getElem?_eq_some_iff.1 hs).1
  refine (List.getElem?_inj inside distinct).1 ?_
  rw [List.getElem?_map, List.getElem?_map, hs, ht, Option.map_some, Option.map_some, same]

/-- A known template is changed in its place, -/
theorem record_of_getElem? {i : Nat} {s : Statistics} (distinct : (templates.map (·.id)).Nodup)
    (hs : templates[i]? = some s) (same : s.id = h.id) :
    record maxExamples message h templates =
      templates.modify i (·.record maxExamples message) := by
  induction templates generalizing i with
  | nil => cases hs
  | cons t templates ih =>
    rw [List.map_cons, List.nodup_cons] at distinct
    obtain ⟨fresh, distinct⟩ := distinct
    cases i with
    | zero =>
      cases hs
      simp [record, same]
    | succ i =>
      have apart : t.id ≠ h.id := fun e =>
        fresh (List.mem_map.2 ⟨s, List.mem_of_getElem? hs, same.trans e.symm⟩)
      simp [record, apart, ih distinct hs]

/-- and a new one is added behind the others. -/
theorem record_of_not_mem (fresh : h.id ∉ templates.map (·.id)) :
    record maxExamples message h templates =
      templates ++ [(Statistics.ofHit h).record maxExamples message] := by
  induction templates with
  | nil => rfl
  | cons t templates ih =>
    rw [List.map_cons, List.mem_cons, not_or] at fresh
    simp [record, Ne.symm fresh.1, ih fresh.2]

theorem Tells.distinct (tells : Tells maxExamples hits templates) :
    (templates.map (·.id)).Nodup := by
  rw [tells.ids]
  exact nodup_eraseDups _

/-- One hit more. -/
theorem Tells.record (tells : Tells maxExamples hits templates) (message : Text) (h : Hit) :
    Tells maxExamples (hits ++ [(message, h)]) (record maxExamples message h templates) := by
  have seen : h.id ∈ templates.map (·.id) ↔ h.id ∈ hits.map (·.2.id) := by
    rw [tells.ids, List.mem_eraseDups]
  by_cases known : h.id ∈ templates.map (·.id)
  · refine ⟨?_, fun s hs => ?_⟩
    · rw [map_record (·.id) maxExamples message h templates fun _ => rfl, if_pos known,
        List.map_append, List.map_singleton, eraseDups_concat_of_mem (seen.1 known), tells.ids]
    · obtain ⟨t, ht, same⟩ := List.mem_map.1 known
      obtain ⟨i, hi⟩ := List.mem_iff_getElem?.1 ht
      rw [record_of_getElem? tells.distinct hi same] at hs
      obtain ⟨j, hj⟩ := List.mem_iff_getElem?.1 hs
      rw [List.getElem?_modify] at hj
      by_cases here : i = j
      · subst here
        simp only [hi, if_true, Option.map_eq_map, Option.map_some, Option.some.injEq] at hj
        subst hj
        rw [Statistics.id_record, hitsOf_concat, if_pos same.symm]
        exact (tells.sums t ht).record message h
      · simp only [here, if_false, Option.map_eq_map, Option.map_id'] at hj
        have apart : h.id ≠ s.id := fun e =>
          here (eq_of_id tells.distinct hi hj (same.trans e))
        rw [hitsOf_concat, if_neg apart]
        exact tells.sums s (List.mem_of_getElem? hj)
  · refine ⟨?_, fun s hs => ?_⟩
    · rw [map_record (·.id) maxExamples message h templates fun _ => rfl, if_neg known,
        List.map_append, List.map_singleton, eraseDups_concat_of_not_mem (mt seen.2 known),
        tells.ids]
      rfl
    · rw [record_of_not_mem known, List.mem_append, List.mem_singleton] at hs
      rcases hs with hs | rfl
      · have apart : h.id ≠ s.id := fun e => known (List.mem_map.2 ⟨s, hs, e.symm⟩)
        rw [hitsOf_concat, if_neg apart]
        exact tells.sums s hs
      · have none : hitsOf h.id hits = [] := by
          simpa [hitsOf, List.filter_eq_nil_iff] using mt seen.2 known
        rw [Statistics.id_record, Statistics.ofHit, hitsOf_concat, if_pos rfl, none]
        exact Statistics.sums_ofHit maxExamples message h

/-- A shelf tells of all hits that it takes in. -/
theorem tells_recordAll (maxExamples : Nat) (hits : List (Text × Hit)) :
    Tells maxExamples hits (recordAll maxExamples [] hits) := by
  induction hits using List.reverseRecOn with
  | nil => exact ⟨rfl, by simp [recordAll]⟩
  | append_singleton hits hit ih =>
    rw [recordAll_append]
    exact ih.record hit.1 hit.2

end Shelf

/-! ### Stores -/

namespace Store

theorem sorted_shelves_foldl_save (reports : List Report) {s : Store} (sorted : s.shelves.Sorted) :
    (reports.foldl save s).shelves.Sorted := by
  induction reports generalizing s with
  | nil => exact sorted
  | cons r reports ih => exact ih (Table.sorted_insert sorted _ _)

/-- There are shelves for the services of the reports. -/
theorem mem_shelves_foldl_save (reports : List Report) (s : Store) (id : Text) :
    id ∈ (reports.foldl save s).shelves.map (·.1) ↔
      id ∈ s.shelves.map (·.1) ∨ id ∈ reports.map (·.serviceId) := by
  induction reports generalizing s with
  | nil => simp
  | cons r reports ih =>
    rw [List.foldl_cons, ih, List.map_cons, List.mem_cons]
    have one : id ∈ (s.save r).shelves.map (·.1) ↔ id ∈ s.shelves.map (·.1) ∨ id = r.serviceId :=
      Table.mem_keys_insert
    rw [one]
    tauto

theorem templates_of_mem {s : Store} (sorted : s.shelves.Sorted) {entry : Text × Shelf}
    (h : entry ∈ s.shelves) : s.templates entry.1 = entry.2.templates := by
  rw [templates, sorted.get?_of_mem h]

/-- A store has the templates of all services that there were reports on. -/
theorem size_foldl_save (maxExamples : Nat) (reports : List Report) :
    let s := reports.foldl save { maxExamples }
    s.size = ((reports.map (·.serviceId)).eraseDups.map fun id => (s.templates id).length).sum := by
  intro s
  have sorted : s.shelves.Sorted := sorted_shelves_foldl_save reports .nil
  have services : (s.shelves.map (·.1)).Perm (reports.map (·.serviceId)).eraseDups := by
    refine (List.perm_ext_iff_of_nodup sorted.nodup (nodup_eraseDups _)).2 fun id => ?_
    rw [mem_shelves_foldl_save, List.mem_eraseDups]
    simp
  calc s.size
    _ = (s.shelves.map fun entry => (s.templates entry.1).length).sum := by
      rw [size, ← List.sum_eq_foldr]
      exact congrArg _ (List.map_congr_left fun entry h => by rw [templates_of_mem sorted h])
    _ = ((s.shelves.map (·.1)).map fun id => (s.templates id).length).sum := by
      rw [List.map_map]
      rfl
    _ = _ := (services.map _).sum_nat

end Store

end LogTemplate
