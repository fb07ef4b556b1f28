import LogTemplate.Proofs.Catalog
import LogTemplate.Proofs.Produced
import Mathlib.Data.List.Forall2

/-!
# Matching a tagged line again

A match puts the tags of the slots on the tokens that they took. A literal with a tag is no literal
any more, so that in the tagged line fewer tokens are left to the literals of templates; what slots
accept does not depend on tags.

* `Token.Fades` is what a tag may do to a token, `Line.Leaves` says that the slots leave to literals
  only literals of a line;
* `Trie.ways_filter` says that the ways for a line that fades are those of the line itself which
  leave only literals to literals, in the same order;
* `Catalog.match?_match?` says that a match of a match is the match.
-/

namespace LogTemplate

/-- The token is the other one up to its tag, and a literal only if the other one is. -/
structure Token.Fades (x y : Token) : Prop where
  same : y = { x with tag := y.tag }
  literal : y.isLiteral → x.isLiteral

namespace Token

variable {x y : Token}

theorem Fades.refl (x : Token) : x.Fades x := ⟨rfl, id⟩

theorem Fades.value (h : x.Fades y) : y.value = x.value := by rw [h.same]

theorem Fades.accepts (h : x.Fades y) (regextime : Tag) (s : Slot) :
    s.accepts regextime y = s.accepts regextime x := by
  rw [h.same]
  rfl

/-- A token whose tag shows in its kind fades under any tag. -/
theorem fades_tag (clean : x.tag ≠ .unknown → x.kind.isPlaceholder) (tag : Tag) :
    x.Fades { x with tag } where
  same := rfl
  literal h := by
    simp only [isLiteral, isPlaceholder, Bool.not_eq_true', Bool.or_eq_false_iff] at h ⊢
    refine ⟨?_, h.2⟩
    by_contra tagged
    have kind := clean (by simpa using tagged)
    rw [h.2] at kind
    cases kind

end Token

/-- A message has tags on values only. -/
theorem Scan.IsScanned.isPlaceholder_kind {v : Vocabulary} {x : Token} (h : Scan.IsScanned v x)
    (tagged : x.tag ≠ .unknown) : x.kind.isPlaceholder := by
  rcases h with ⟨tag, -⟩ | ⟨-, value⟩
  · exact absurd tag tagged
  · rcases value.meaning with ⟨tag, -⟩ | ⟨-, kind, -⟩
    · exact absurd tag tagged
    · rw [kind]
      rfl

/-! ### Numbers of tokens -/

namespace Slot

variable {regextime : Tag} {s : Slot} {line line' : Line} {n : Nat}

theorem reach_of_fades (h : List.Forall₂ Token.Fades line line') :
    s.reach regextime line' = s.reach regextime line := by
  unfold reach
  induction h with
  | nil => rfl
  | cons fades _ ih =>
    rw [List.takeWhile_cons, List.takeWhile_cons, fades.accepts]
    split
    · rw [List.length_cons, List.length_cons, ih]
    · rfl

theorem findIdx?_of_fades (h : List.Forall₂ Token.Fades line line') (word : Text) :
    line'.findIdx? (·.value = word) = line.findIdx? (·.value = word) := by
  induction h with
  | nil => rfl
  | cons fades _ ih => rw [List.findIdx?_cons, List.findIdx?_cons, fades.value, ih]

theorem endsBefore_of_fades (h : List.Forall₂ Token.Fades line line') (n : Nat) :
    endsBefore (mayEnd s.anywhere) n line' = endsBefore (mayEnd s.anywhere) n line := by
  induction h generalizing n with
  | nil => rfl
  | cons _ _ ih => simp only [endsBefore, mayEnd_anywhere, if_true, ih]

/-- What a placeholder may take does not depend on tags. -/
theorem choices_of_fades (h : List.Forall₂ Token.Fades line line') :
    s.choices regextime line' = s.choices regextime line := by
  unfold choices spans
  cases s.modifier with
  | single =>
    cases h with
    | nil => rfl
    | cons fades _ => simp only [fades.accepts]
  | star => simp only [reach_of_fades h]
  | plus => simp only [reach_of_fades h]
  | minus =>
    cases h with
    | nil => rfl
    | cons _ rest =>
      cases s.stop with
      | some word => simp only [findIdx?_of_fades rest]
      | none => simp only [endsBefore_of_fades rest]

end Slot

/-! ### Ways -/

/-- The tokens that no slot took are literals of the line. -/
def Line.Leaves (line : Line) (slots : List (Option Slot)) : Prop :=
  List.Forall₂ (fun x slot? => slot? = none → x.isLiteral) line slots

instance (line : Line) (slots : List (Option Slot)) : Decidable (line.Leaves slots) :=
  inferInstanceAs (Decidable (List.Forall₂ _ line slots))

namespace Line

variable {line : Line} {slots : List (Option Slot)} {n : Nat}

theorem leaves_nil : Line.Leaves [] [] := .nil

theorem leaves_none {x : Token} : Line.Leaves (x :: line) (none :: slots) ↔
    x.isLiteral ∧ line.Leaves slots := by
  simp [Leaves]

theorem leaves_run (s : Slot) (le : n ≤ line.length) :
    line.Leaves (List.replicate n (some s) ++ slots) ↔ Leaves (line.drop n) slots := by
  induction n generalizing line with
  | zero => simp
  | succ n ih =>
    cases line with
    | nil => simp at le
    | cons x line =>
      have short : n ≤ line.length := by simpa using le
      have := ih short
      simpa [Leaves, List.replicate_succ] using this

end Line

namespace Trie

variable {regextime : Tag} {line line' : Line}

/-- Tags take ways from a line, and add none: what is left of the ways are those that leave only
literals of the tagged line to literals. -/
theorem ways_filter (trie : Trie) (h : List.Forall₂ Token.Fades line line') :
    trie.ways regextime line' = (trie.ways regextime line).filter (line'.Leaves ·.1) := by
  induction trie using Trie.induct generalizing line line' with
  | node terminal literals branches onLiterals onSlots =>
    rw [ways_node, ways_node, List.filter_append, List.filter_flatMap]
    congr 1
    · cases h with
      | nil => cases terminal <;> simp [waysByLiterals, Line.leaves_nil]
      | @cons x y rest rest' fades behind =>
        -- A literal of the tagged line is one of the line; a token that lost its own has no way.
        by_cases hy : y.isLiteral
        · simp only [waysByLiterals, hy, fades.literal hy, if_true, fades.value]
          cases branch : literals.lookup x.value with
          | none => simp
          | some child =>
            simp only [Option.getD_some, onLiterals _ (mem_of_lookup branch) behind,
              List.filter_map]
            congr 2
            funext way
            simp [after, Line.leaves_none, hy]
        · have refused : ∀ way : List (Option Slot) × Nat,
              ¬Line.Leaves (y :: rest') (after [none] way).1 := fun way leaves =>
            hy (Line.leaves_none.1 leaves).1
          rw [waysByLiterals, if_neg hy, waysByLiterals]
          split
          · rw [List.filter_map, List.filter_eq_nil_iff.2, List.map_nil]
            intro way _
            simpa using refused way
          · rfl
    · refine List.flatMap_congr fun e he => ?_
      rw [waysBySlot, waysBySlot, List.filter_flatMap, Slot.choices_of_fades h]
      refine List.flatMap_congr fun n hn => ?_
      have le : n ≤ line'.length := h.length_eq ▸ (Slot.mem_choices.1 hn).1
      rw [onSlots e he (List.forall₂_drop n h), List.filter_map]
      congr 2
      funext way
      exact decide_eq_decide.2 (Line.leaves_run e.1 le).symm

/-- The ways for a line leave only its literals to literals. -/
theorem leaves_of_mem_ways {trie : Trie} {way : List (Option Slot) × Nat}
    (h : way ∈ trie.ways regextime line) : line.Leaves way.1 := by
  rw [trie.ways_filter (List.forall₂_same.2 fun x _ => Token.Fades.refl x)] at h
  simpa using (List.mem_filter.1 h).2

end Trie

/-! ### Tagged lines -/

/-- Of some of the covers the best one is that of all covers, if it is among them. -/
theorem Cover.offerAll_filter {covers : List Cover} {p : Cover → Bool} {a : Cover}
    (h : offerAll covers none = some a) (kept : p a) :
    offerAll (covers.filter p) none = some a := by
  have first := find?_of_offerAll h
  have mem : a ∈ covers.filter p := List.mem_filter.2 ⟨List.mem_of_find?_eq_some first, kept⟩
  obtain ⟨b, hb, least⟩ := (offerAll_improves (covers.filter p) none).reaches a mem
  obtain ⟨a', ha', least'⟩ := (offerAll_improves covers none).reaches b <| by
    rcases (offerAll_improves (covers.filter p) none).sound b hb with start | found
    · cases start
    · exact (List.mem_filter.1 found).1
  obtain rfl : a = a' := Option.some.inj (h.symm.trans ha')
  -- The best covers of both lists are of one rank, and the first of this rank was kept.
  have rank : b.ordinal = a.ordinal ∧ b.wildcards = a.wildcards := by
    unfold AtLeast at least least'
    omega
  have firstKept := find?_of_offerAll hb
  rw [rank.1, rank.2, List.find?_filter] at firstKept
  obtain ⟨best, before, behind, eq, others⟩ := List.find?_eq_some_iff_append.1 first
  have same : covers.find? (fun b => p b && (b.ordinal = a.ordinal && b.wildcards = a.wildcards)) =
      some a := by
    refine List.find?_eq_some_iff_append.2 ⟨by simp [kept], before, behind, eq, fun c hc => ?_⟩
    have := others c hc
    simp only [Bool.not_eq_true'] at this ⊢
    simp [this]
  rw [hb]
  exact firstKept.symm.trans (by simpa using same)

namespace Catalog

variable {v : Vocabulary} {c : Catalog} {line : Line} {slots : List (Option Slot)}

/-- Tagging makes a line fade where tags are for values only. -/
theorem forall₂_retag (clean : ∀ x ∈ line, x.tag ≠ .unknown → x.kind.isPlaceholder)
    (leaves : line.Leaves slots) : List.Forall₂ Token.Fades line (line.zipWith retag slots) := by
  unfold Line.Leaves at leaves
  induction leaves with
  | nil => exact .nil
  | @cons x slot? line slots _ _ ih =>
    refine .cons ?_ (ih fun y hy => clean y (List.mem_cons_of_mem _ hy))
    cases slot? with
    | none => exact .refl x
    | some s => exact Token.fades_tag (clean x List.mem_cons_self) s.tag

/-- The literals that templates took are literals of the tagged line as well. -/
theorem leaves_retag (leaves : line.Leaves slots) :
    Line.Leaves (line.zipWith retag slots) slots := by
  unfold Line.Leaves at leaves ⊢
  induction leaves with
  | nil => exact .nil
  | cons literal _ ih =>
    refine .cons ?_ ih
    rintro rfl
    exact literal rfl

theorem zipWith_retag_retag (line : Line) (slots : List (Option Slot)) :
    (line.zipWith retag slots).zipWith retag slots = line.zipWith retag slots := by
  induction line generalizing slots with
  | nil => rfl
  | cons x line ih =>
    cases slots with
    | nil => rfl
    | cons slot? slots =>
      simp only [List.zipWith_cons_cons, ih]
      cases slot? <;> rfl

/-- A look-up of a line that fades finds the same cover, if this leaves only its literals to
literals. -/
theorem cover?_of_fades {line' : Line} (h : List.Forall₂ Token.Fades line line') {cover : Cover}
    (found : c.cover? v line = some cover) (leaves : line'.Leaves cover.slots) :
    c.cover? v line' = some cover := by
  have ways : c.ways v line' = (c.ways v line).filter (line'.Leaves ·.1) := by
    rw [ways, ways, List.filter_append, ← Trie.ways_filter _ h, ← Trie.ways_filter _ h,
      h.length_eq]
  rw [cover?_eq] at found ⊢
  have kept :=
    Cover.offerAll_filter (p := fun a => line'.Leaves a.slots) found (by simpa using leaves)
  rw [List.filter_map] at kept
  rw [ways]
  exact kept

/-- The covers that look-ups find leave only literals of the line to literals. -/
theorem leaves_of_cover? {cover : Cover} (found : c.cover? v line = some cover) :
    line.Leaves cover.slots := by
  rw [cover?_eq] at found
  rcases (Cover.offerAll_improves _ none).sound cover found with start | mem
  · cases start
  · obtain ⟨way, hway, rfl⟩ := List.mem_map.1 mem
    rcases List.mem_append.1 hway with h | h <;> exact Trie.leaves_of_mem_ways h

/-- A message that is matched again, tagged as it was, has the same match, whatever vocabulary it
was scanned with. -/
theorem match?_match? {w : Vocabulary} {m : Match}
    (scanned : (∃ text, Scan.message w text = line) ∨ ∃ text, Scan.json w text = .ok line)
    (hm : c.match? v line = some m) : c.match? v m.line = some m := by
  have clean : ∀ x ∈ line, x.tag ≠ .unknown → x.kind.isPlaceholder := by
    intro x hx
    rcases scanned with ⟨text, rfl⟩ | ⟨text, scan⟩
    · exact (Scan.isScanned_of_mem_message hx).isPlaceholder_kind
    · exact (Scan.isScanned_of_mem_json scan hx).isPlaceholder_kind
  have ne : line ≠ [] := ne_nil_of_match? (Option.isSome_of_eq_some hm)
  obtain ⟨cover, T, found, hT, rfl⟩ := exists_cover_of_match? hm
  have leaves := leaves_of_cover? found
  have fades := forall₂_retag clean leaves
  have again := cover?_of_fades fades found (leaves_retag leaves)
  have ne' : line.zipWith retag cover.slots ≠ [] :=
    List.ne_nil_of_length_pos (fades.length_eq ▸ List.length_pos_iff.2 ne)
  rw [match?_of_cover? ne' again hT, zipWith_retag_retag]

/-- The name of the user is a literal of the line, but not of the tagged one: a template with this
literal covers the line alone. -/
theorem match?_match?_up :
    ∃ v, Vocabulary.ofSettings { tags := ["name:string".toList] } = .ok v ∧
    let c := ofRequests v [.text "user bob %string% %string%".toList [9, 18],
      .text "user %name% logged in".toList [5]]
    let line := Scan.message v "user bob logged in".toList
    ∃ m, c.match? v line = some m ∧ m.offsets = [5] ∧ m.line ≠ line ∧
      c.match? v m.line = some m := by
  let v : Vocabulary := {
    tags := [("name".toList, .string), ("regextime".toList, .time),
      ("multiline".toList, .multiline)]
    regextime := ⟨2⟩
    multiline := ⟨3⟩ }
  refine ⟨v, rfl, ?_⟩
  intro c line
  have found : (c.match? v line).any fun m => m.offsets = [5] ∧ m.line ≠ line := by decide +kernel
  obtain ⟨m, hm, tagged⟩ := (Option.any_eq_true _ _).1 found
  obtain ⟨offsets, other⟩ := of_decide_eq_true tagged
  exact ⟨m, hm, offsets, other, match?_match? (.inl ⟨_, rfl⟩) hm⟩

end Catalog

end LogTemplate
