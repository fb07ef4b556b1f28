import LogTemplate.Timestamp
import Mathlib.Data.List.Basic

/-!
# Lengths of timestamps

* `LayoutTrie.length_of_mem_walk` bounds the lengths that a walk lists;
* `TimeMatcher.length_of_match?` says that a timestamp is a beginning of the text and not empty.
-/

namespace LogTemplate

/-- A walk lists lengths of beginnings that end behind its start. -/
theorem LayoutTrie.length_of_mem_walk {live : List LayoutTrie} {n m g : Nat} {t : Text}
    (h : (m, g) ∈ walk live n t) : n < m ∧ m ≤ n + t.length := by
  induction t generalizing live n with
  | nil => cases h
  | cons c t ih =>
    rw [walk] at h
    split at h
    · cases h
    · rw [List.length_cons]
      rcases List.mem_append.1 h with h | h
      · obtain ⟨node, -, found⟩ := List.mem_flatMap.1 h
        obtain ⟨group, -, eq⟩ := List.mem_map.1 found
        cases eq
        omega
      · have := ih h
        omega

namespace TimeMatcher

variable {m : TimeMatcher} {t : Text} {r : TimeMatch}

theorem better_or (a b : Nat × Nat) : better a b = a ∨ better a b = b := by
  unfold better
  split
  · exact .inr rfl
  · exact .inl rfl

theorem mem_of_best? {candidates : List (Nat × Nat)} {a : Nat × Nat}
    (h : best? candidates = some a) : a ∈ candidates := by
  cases candidates with
  | nil => cases h
  | cons b rest =>
    cases h
    refine List.foldlRecOn rest better List.mem_cons_self fun a ha c hc => ?_
    rcases better_or a c with eq | eq
    · rwa [eq]
    · rw [eq]
      exact List.mem_cons_of_mem _ hc

/-- A timestamp takes at least one character, and no more than there are. -/
theorem length_of_match? (h : m.match? t = some r) : 0 < r.length ∧ r.length ≤ t.length := by
  obtain ⟨⟨n, g⟩, best, rfl⟩ := Option.map_eq_some_iff.1 h
  have := LayoutTrie.length_of_mem_walk (List.mem_filter.1 (mem_of_best? best)).1
  simpa using this

end TimeMatcher

end LogTemplate
