import LogTemplate.Proofs.Placeholder
import LogTemplate.Proofs.Search
import Mathlib.Data.List.Basic

/-!
# Names of tags

* `Vocabulary.IsTagName` tells which characters the name of a tag has;
* `Vocabulary.Proper` says that all tags have such names and that words hint at no other tags than
  those, which `Vocabulary.proper_build` proves of the vocabulary of settings.
-/

namespace LogTemplate

namespace Table

variable {α : Type} {p : α → Prop} {key : Text} {value : α} {table : Table α}

/-- All values of a table have a property. -/
def All (p : α → Prop) (table : Table α) : Prop := ∀ entry ∈ table, p entry.2

theorem mem_insert {entry : Text × α} (h : entry ∈ table.insert key value) :
    entry = (key, value) ∨ entry ∈ table := by
  induction table with
  | nil => exact .inl (List.mem_singleton.1 h)
  | cons first rest ih =>
    obtain ⟨k, a⟩ := first
    unfold insert at h
    split at h
    · exact (List.mem_cons.1 h).imp_right (List.mem_cons_of_mem _)
    · split at h
      · exact List.mem_cons.1 h
      · rcases List.mem_cons.1 h with rfl | h
        · exact .inr List.mem_cons_self
        · exact (ih h).imp_right (List.mem_cons_of_mem _)

theorem all_nil : All p [] := by simp [All]

theorem All.insert (h : table.All p) (key : Text) (hv : p value) :
    (table.insert key value).All p := by
  intro entry mem
  rcases mem_insert mem with rfl | mem
  · exact hv
  · exact h entry mem

theorem All.get? (h : table.All p) (found : table.get? key = some value) : p value :=
  h _ (Trie.mem_of_lookup found)

end Table

namespace Vocabulary

variable {v w : Vocabulary} {name : Text} {tag : Tag}

/-- The name of a tag: letters, digits and underscores. -/
def IsTagName (name : Text) : Prop := name ≠ [] ∧ ∀ c ∈ name, c.isAlphanum ∨ c = '_'

/-- All tags have names. -/
def Named (tags : List (Text × Kind)) : Prop := ∀ entry ∈ tags, IsTagName entry.1

/-- The tag is one of the vocabulary's. -/
def Knows (v : Vocabulary) (tag : Tag) : Prop := ∃ name, v.tag? name = some tag

/-- A vocabulary as settings give it: all tags have names, and words hint at these tags only. -/
structure Proper (v : Vocabulary) : Prop extends v.Regular where
  names : Named v.tags
  keywords : v.keywords.All v.Knows
  prekeys : v.prekeys.All fun tags => ∀ tag ∈ tags, v.Knows tag

theorem mem_tags_of_tag? (h : v.tag? name = some tag) : ∃ kind, (name, kind) ∈ v.tags := by
  obtain ⟨i, found, rfl⟩ := Option.map_eq_some_iff.1 h
  obtain ⟨lt, same, -⟩ := List.findIdx?_eq_some_iff_getElem.1 found
  have : v.tags[i].1 = name := by simpa using same
  exact ⟨v.tags[i].2, by rw [← this]; exact List.getElem_mem lt⟩

theorem Proper.isTagName (h : v.Proper) (known : v.tag? name = some tag) : IsTagName name := by
  obtain ⟨kind, mem⟩ := mem_tags_of_tag? known
  exact h.names _ mem

/-! ### Building -/

theorem isTagName_iff : IsTagName name ↔
    (name.isEmpty || !name.all fun c => c.isAlphanum || c = '_') = false := by
  simp only [IsTagName, Bool.or_eq_false_iff, List.isEmpty_eq_false_iff, Bool.not_eq_false',
    List.all_eq_true, Bool.or_eq_true, decide_eq_true_eq]

theorem isTagName_of_definition {definition : Text} {kind : Kind}
    (h : entry? definition = .ok (name, kind)) : IsTagName name := by
  unfold entry? at h
  split at h
  · cases h
  · split at h
    · cases h
    · next valid =>
      split at h
      · cases h
      · cases h
      · cases h
        exact isTagName_iff.2 (by simpa only [Bool.not_eq_true] using valid)

theorem Named.append {tags : List (Text × Kind)} (h : Named tags) (isName : IsTagName name)
    (kind : Kind) : Named (tags ++ [(name, kind)]) := by
  intro entry mem
  rcases List.mem_append.1 mem with mem | mem
  · exact h entry mem
  · rw [List.mem_singleton.1 mem]
    exact isName

theorem Named.addTags {definitions : List Text} (h : Named v.tags)
    (adds : v.addTags definitions = .ok w) : Named w.tags := by
  induction definitions generalizing v with
  | nil =>
    cases adds
    exact h
  | cons definition rest ih =>
    unfold Vocabulary.addTags at adds
    split at adds
    · cases adds
    · next name kind valid =>
      split at adds
      · cases adds
      · next u added =>
        refine ih ?_ adds
        unfold addTag at added
        split at added
        · cases added
        · cases added
          exact h.append (isTagName_of_definition valid) kind

theorem Named.ensureTag {kind : Kind} (h : Named v.tags) (isName : IsTagName name)
    (ensured : v.ensureTag name kind = .ok (w, tag)) : Named w.tags := by
  unfold Vocabulary.ensureTag at ensured
  split at ensured
  · split at ensured
    · cases ensured
      exact h
    · cases ensured
  · cases ensured
    exact h.append isName kind

theorem all_keywordTable (v : Vocabulary) (keywords : Table (List Text)) :
    (v.keywordTable keywords).All v.Knows := by
  refine List.foldlRecOn (motive := Table.All v.Knows) keywords _ Table.all_nil
    fun table known (name, words) _ => ?_
  dsimp only
  split
  · exact known
  · next tag found =>
    refine List.foldlRecOn (motive := Table.All v.Knows) words _ known
      fun table known word _ => ?_
    split
    · exact known
    · exact known.insert _ ⟨name, found⟩

theorem all_prekeyTable (v : Vocabulary) (prekeys : Table (List Text)) :
    (v.prekeyTable prekeys).All fun tags => ∀ tag ∈ tags, v.Knows tag := by
  refine List.foldlRecOn (motive := Table.All fun tags => ∀ tag ∈ tags, v.Knows tag) prekeys _
    Table.all_nil fun table known (word, names) _ => ?_
  dsimp only
  split
  · exact known
  · refine known.insert _ fun tag hit => ?_
    obtain ⟨name, -, found⟩ := List.mem_filterMap.1 hit
    exact ⟨name, found⟩

/-- The vocabulary of settings is proper. -/
theorem proper_build {compile : Compiler} {s : Settings} (h : build compile s = .ok v) :
    v.Proper := by
  have regular := regular_build h
  obtain ⟨u, w, x, regextime, multiline, groups, adds, first, second, -, rfl⟩ := build_eq_ok h
  have names : Named u.tags := Named.addTags (by simp [Named]) adds
  have names : Named x.tags :=
    (names.ensureTag (isTagName_iff.2 rfl) first).ensureTag (isTagName_iff.2 rfl) second
  exact ⟨regular, names, all_keywordTable x s.keywords, all_prekeyTable x s.prekeys⟩

/-! ### Hints -/

theorem Proper.knows_of_keyword? {word : Text} (h : v.Proper) (hint : v.keyword? word = some tag) :
    v.Knows tag :=
  h.keywords.get? hint

theorem Proper.knows_of_mem_prekey {word : Text} (h : v.Proper) (hint : tag ∈ v.prekey word) :
    v.Knows tag := by
  unfold prekey at hint
  cases found : v.prekeys.get? word.toLower with
  | none => simp [found] at hint
  | some tags =>
    rw [found] at hint
    exact h.prekeys.get? found tag hint

end Vocabulary

end LogTemplate
