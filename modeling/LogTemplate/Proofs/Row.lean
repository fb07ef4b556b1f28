import LogTemplate.Text.Basic
import Mathlib.Data.List.Nodup
import Mathlib.Logic.Function.Basic

/-!
# Rows with an index

* `getElem?_concat` and `modify_concat` are about rows that grow at their end;
* `Indexes` says that an index leads from the key of each element of a row to its position.
-/

namespace LogTemplate

variable {α : Type} {row : List α} {a b : α} {i : Nat}

/-- The elements of a row with one more, by their positions. -/
theorem getElem?_concat :
    (row ++ [a])[i]? = some b ↔ row[i]? = some b ∨ (i = row.length ∧ b = a) := by
  rw [List.getElem?_append]
  by_cases h : i < row.length
  · simp [h, Nat.ne_of_lt h]
  · by_cases hi : i = row.length
    · subst hi
      simp [eq_comm]
    · have : 1 ≤ i - row.length := by omega
      simp [h, hi, List.getElem?_eq_none (l := [a]) this]

/-- The last element is changed. -/
theorem modify_concat (row : List α) (a : α) (f : α → α) :
    (row ++ [a]).modify row.length f = row ++ [f a] := by
  induction row with
  | nil => rfl
  | cons b row ih => exact congrArg (b :: ·) ih

/-- The index leads from the key of each element to its position, and from no other key. -/
def Indexes (index : Text → Option Nat) (key : α → Text) (row : List α) : Prop :=
  ∀ text i, index text = some i ↔ ∃ a, row[i]? = some a ∧ key a = text

namespace Indexes

variable {index : Text → Option Nat} {key : α → Text}

theorem start (key : α → Text) : Indexes (fun _ => none) key [] := by simp [Indexes]

theorem eq_none_iff (h : Indexes index key row) (text : Text) :
    index text = none ↔ ∀ a ∈ row, key a ≠ text := by
  constructor
  · intro none a ha same
    obtain ⟨i, hi⟩ := List.mem_iff_getElem?.1 ha
    rw [(h text i).2 ⟨a, hi, same⟩] at none
    cases none
  · intro fresh
    cases found : index text with
    | none => rfl
    | some i =>
      obtain ⟨a, ha, same⟩ := (h text i).1 found
      exact absurd same (fresh a (List.mem_of_getElem? ha))

/-- No two elements have the same key, as the index leads to one position only. -/
theorem distinct (h : Indexes index key row) : (row.map key).Nodup := by
  refine List.nodup_iff_injective_getElem.2 fun i j same => ?_
  have position : ∀ k : Fin (row.map key).length, index (row.map key)[k] = some k := by
    intro k
    have inside : k < row.length := by simpa using k.2
    exact (h _ k).2 ⟨row[k], List.getElem?_eq_getElem inside, by simp⟩
  have := (position i).symm.trans ((congrArg index same).trans (position j))
  exact Fin.ext (Option.some.inj this)

/-- An element of a new key is added to the row and to the index. -/
theorem push (h : Indexes index key row) (fresh : ∀ b ∈ row, key b ≠ key a) :
    Indexes (Function.update index (key a) (some row.length)) key (row ++ [a]) := by
  intro text i
  simp only [getElem?_concat]
  by_cases new : text = key a
  · subst new
    rw [Function.update_self, Option.some.injEq]
    constructor
    · rintro rfl
      exact ⟨a, .inr ⟨rfl, rfl⟩, rfl⟩
    · rintro ⟨b, hb | ⟨rfl, rfl⟩, same⟩
      · exact absurd same (fresh b (List.mem_of_getElem? hb))
      · rfl
  · rw [Function.update_of_ne new, h]
    constructor
    · rintro ⟨b, hb, same⟩
      exact ⟨b, .inl hb, same⟩
    · rintro ⟨b, hb | ⟨-, rfl⟩, same⟩
      · exact ⟨b, hb, same⟩
      · exact absurd same.symm new

/-- Changes that keep the keys keep the index. -/
theorem modify (h : Indexes index key row) (i : Nat) {f : α → α} (kept : ∀ a, key (f a) = key a) :
    Indexes index key (row.modify i f) := by
  intro text j
  rw [h text j, List.getElem?_modify]
  cases row[j]? with
  | none => simp
  | some a => by_cases here : i = j <;> simp [here, kept]

end Indexes

end LogTemplate
