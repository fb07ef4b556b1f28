import LogTemplate.Proofs.Search
import Mathlib.Tactic.Tauto

/-!
# What a trie holds

Insertion is stated through the two views of a trie: the ways through it and the numbers that
`Trie.find?` gives.

* `Trie.way_insert` says that a new path adds exactly the covers of its template;
* `Trie.find?_insert` says where the numbers of an extended trie come from.
-/

namespace LogTemplate

namespace Trie

variable {regextime : Tag}

/-! ### Branches -/

theorem lookup_updateLiteral (word : Text) (f : Trie → Trie) (literals : List (Text × Trie))
    (value : Text) :
    (updateLiteral word f literals).lookup value =
      if value = word then some (f ((literals.lookup word).getD empty))
      else literals.lookup value := by
  induction literals with
  | nil =>
    by_cases h : value = word
    · simp [updateLiteral, h]
    · simp [updateLiteral, List.lookup_cons, beq_false_of_ne h, h]
  | cons e literals ih =>
    obtain ⟨w, child⟩ := e
    unfold updateLiteral
    by_cases hw : w = word
    · subst hw
      by_cases h : value = w
      · simp [h]
      · simp [List.lookup_cons, beq_false_of_ne h, h]
    · have hw' : (word == w) = false := by simpa using fun e => hw e.symm
      by_cases h : value = word
      · subst h
        simpa [hw, hw', List.lookup_cons] using ih
      · simp [hw, List.lookup_cons, h, ih]

/-- Changing a slot replaces what it leads to, or adds it when it is missing. -/
theorem updateSlot_cases (slot : Slot) (f : Trie → Trie) (slots : List (Slot × Trie)) :
    ∃ before behind, before.lookup slot = none ∧
      ((∃ child, slots = before ++ (slot, child) :: behind ∧
        updateSlot slot f slots = before ++ (slot, f child) :: behind) ∨
      (slots = before ++ behind ∧
        updateSlot slot f slots = before ++ (slot, f empty) :: behind)) := by
  induction slots with
  | nil => exact ⟨[], [], rfl, Or.inr ⟨rfl, rfl⟩⟩
  | cons e slots ih =>
    obtain ⟨s, child⟩ := e
    unfold updateSlot
    by_cases hs : s = slot
    · subst hs
      exact ⟨[], slots, rfl, Or.inl ⟨child, rfl, by simp⟩⟩
    · by_cases hr : slot.rank < s.rank
      · exact ⟨[], (s, child) :: slots, rfl, Or.inr ⟨rfl, by simp [hs, hr]⟩⟩
      · have hs' : (slot == s) = false := beq_false_of_ne fun e => hs e.symm
        obtain ⟨before, behind, hb, h⟩ := ih
        refine ⟨(s, child) :: before, behind, by rw [List.lookup_cons, hs']; exact hb, ?_⟩
        rcases h with ⟨old, h₁, h₂⟩ | ⟨h₁, h₂⟩
        · exact Or.inl ⟨old, by rw [h₁]; rfl, by simp [hs, hr, h₂]⟩
        · exact Or.inr ⟨by rw [h₁]; rfl, by simp [hs, hr, h₂]⟩

/-- What a slot leads to after a change. -/
theorem lookup_updateSlot {slot s : Slot} {f : Trie → Trie} {slots : List (Slot × Trie)}
    {child : Trie} (h : (updateSlot slot f slots).lookup s = some child) :
    (s = slot ∧ ∃ old, (slots.lookup slot = some old ∨ old = empty) ∧ child = f old) ∨
      slots.lookup s = some child := by
  obtain ⟨before, behind, hb, ⟨old, h₁, h₂⟩ | ⟨h₁, h₂⟩⟩ := updateSlot_cases slot f slots
  all_goals
    rw [h₂, List.lookup_append] at h
    by_cases hs : s = slot
    · subst hs
      simp only [hb, Option.none_or, List.lookup_cons_self, Option.some.injEq] at h
      refine Or.inl ⟨rfl, _, ?_, h.symm⟩
      simp [h₁, List.lookup_append, hb]
    · refine Or.inr ?_
      rw [List.lookup_cons, beq_false_of_ne hs] at h
      rw [h₁, List.lookup_append]
      simpa [List.lookup_cons, beq_false_of_ne hs] using h

/-! ### Insertion -/

theorem not_way_empty {line : Line} {slots : List (Option Slot)} {ordinal : Nat} :
    ¬empty.Way regextime line slots ordinal := by
  intro h
  cases h with
  | here terminal => cases terminal
  | literal hx branch behind => cases branch
  | slot branch takes behind => cases branch

@[simp] theorem find?_empty (line : Line) : empty.find? line = none := by
  cases line with
  | nil => rfl
  | cons t line => by_cases h : t.isLiteral <;> simp [find?, child?, h, empty, literals, slots]

theorem find?_cons (t : Token) (line : Line) (trie : Trie) :
    trie.find? (t :: line) = (trie.child? t).bind (find? line) := rfl

/-- Where a path is new, so is what stands behind its literal -/
theorem find?_of_literal {t : Token} {template : Line} {terminal : Option Nat}
    {literals : List (Text × Trie)} {branches : List (Slot × Trie)} (ht : t.isLiteral)
    (fresh : (node terminal literals branches).find? (t :: template) = none) :
    ((literals.lookup t.value).getD empty).find? template = none := by
  cases h : literals.lookup t.value with
  | none => simp
  | some child => simpa [find?_cons, child?, ht, Trie.literals, h] using fresh

/-- or behind its slot. -/
theorem find?_of_slot {t : Token} {template : Line} {terminal : Option Nat}
    {literals : List (Text × Trie)} {branches : List (Slot × Trie)} (ht : ¬t.isLiteral)
    (fresh : (node terminal literals branches).find? (t :: template) = none) {child : Trie}
    (branch : branches.lookup (.ofToken t) = some child ∨ child = empty) :
    child.find? template = none := by
  rcases branch with h | rfl
  · simpa [find?_cons, child?, ht, Trie.slots, h] using fresh
  · exact find?_empty template

/-- The ways that begin with a literal. -/
def LiteralWay (regextime : Tag) (literals : List (Text × Trie)) (line : Line)
    (slots : List (Option Slot)) (ordinal : Nat) : Prop :=
  ∃ x rest found child, line = x :: rest ∧ slots = none :: found ∧ x.isLiteral ∧
    literals.lookup x.value = some child ∧ child.Way regextime rest found ordinal

/-- The ways that begin with a slot. -/
def SlotWay (regextime : Tag) (branches : List (Slot × Trie)) (line : Line)
    (slots : List (Option Slot)) (ordinal : Nat) : Prop :=
  ∃ s taken rest found child, line = taken ++ rest ∧
    slots = List.replicate taken.length (some s) ++ found ∧ s.Takes regextime taken rest ∧
    (s, child) ∈ branches ∧ child.Way regextime rest found ordinal

theorem way_node {terminal : Option Nat} {literals : List (Text × Trie)}
    {branches : List (Slot × Trie)} {line : Line} {slots : List (Option Slot)} {ordinal : Nat} :
    (node terminal literals branches).Way regextime line slots ordinal ↔
      (line = [] ∧ slots = [] ∧ terminal = some ordinal) ∨
      LiteralWay regextime literals line slots ordinal ∨
      SlotWay regextime branches line slots ordinal := by
  constructor
  · intro h
    cases h with
    | here terminal => exact Or.inl ⟨rfl, rfl, terminal⟩
    | literal hx branch behind =>
      exact Or.inr (Or.inl ⟨_, _, _, _, rfl, rfl, hx, branch, behind⟩)
    | slot branch takes behind =>
      exact Or.inr (Or.inr ⟨_, _, _, _, _, rfl, rfl, takes, branch, behind⟩)
  · rintro (⟨rfl, rfl, terminal⟩ | ⟨x, rest, found, child, rfl, rfl, hx, branch, behind⟩ |
      ⟨s, taken, rest, found, child, rfl, rfl, takes, branch, behind⟩)
    · exact .here terminal
    · exact .literal hx branch behind
    · have : (s, child) ∈ (node terminal literals branches).slots := branch
      exact .slot this takes behind

section Insert

variable {new : Nat} {t : Token} {template : Line} {f : Trie → Trie}

/-- When `f` adds the covers of a template to every trie that has no such path, changing a branch
by `f` adds the covers that begin with the branch. -/
theorem literalWay_update (ht : t.isLiteral) {literals : List (Text × Trie)}
    (adds : ∀ line slots ordinal,
      (f ((literals.lookup t.value).getD empty)).Way regextime line slots ordinal ↔
        ((literals.lookup t.value).getD empty).Way regextime line slots ordinal ∨
          (ordinal = new ∧ Covers regextime template line slots))
    {line : Line} {slots : List (Option Slot)} {ordinal : Nat} :
    LiteralWay regextime (updateLiteral t.value f literals) line slots ordinal ↔
      LiteralWay regextime literals line slots ordinal ∨
        (ordinal = new ∧ Covers regextime (t :: template) line slots) := by
  rw [covers_literal_iff ht]
  constructor
  · rintro ⟨x, rest, found, child, rfl, rfl, hx, branch, behind⟩
    rw [lookup_updateLiteral] at branch
    by_cases same : x.value = t.value
    · rw [if_pos same] at branch
      cases branch
      rcases (adds rest found ordinal).1 behind with old | ⟨rfl, covers⟩
      · cases h : literals.lookup t.value with
        | none => rw [h] at old; exact absurd old not_way_empty
        | some child =>
          rw [h] at old
          exact Or.inl ⟨x, rest, found, child, rfl, rfl, hx, by rw [same, h], old⟩
      · exact Or.inr ⟨rfl, x, rest, found, rfl, rfl, hx, same, covers⟩
    · rw [if_neg same] at branch
      exact Or.inl ⟨x, rest, found, child, rfl, rfl, hx, branch, behind⟩
  · rintro (⟨x, rest, found, child, rfl, rfl, hx, branch, behind⟩ |
      ⟨rfl, x, rest, found, rfl, rfl, hx, same, covers⟩)
    · by_cases same : x.value = t.value
      · refine ⟨x, rest, found, _, rfl, rfl, hx, ?_, (adds rest found ordinal).2 (Or.inl ?_)⟩
        · rw [lookup_updateLiteral, if_pos same]
        · rw [← same, branch]; exact behind
      · exact ⟨x, rest, found, child, rfl, rfl, hx,
          by rw [lookup_updateLiteral, if_neg same]; exact branch, behind⟩
    · exact ⟨x, rest, found, _, rfl, rfl, hx, by rw [lookup_updateLiteral, if_pos same],
        (adds rest found _).2 (Or.inr ⟨rfl, covers⟩)⟩

theorem slotWay_append_cons {before behind : List (Slot × Trie)} {s : Slot} {child : Trie}
    {line : Line} {slots : List (Option Slot)} {ordinal : Nat} :
    SlotWay regextime (before ++ (s, child) :: behind) line slots ordinal ↔
      SlotWay regextime (before ++ behind) line slots ordinal ∨
        SlotWay regextime [(s, child)] line slots ordinal := by
  constructor
  · rintro ⟨s', taken, rest, found, child', h₁, h₂, takes, branch, way⟩
    have : (s', child') ∈ before ++ behind ∨ (s', child') ∈ [(s, child)] := by
      simp only [List.mem_append, List.mem_cons, List.not_mem_nil, or_false] at branch ⊢
      tauto
    exact this.imp (fun h => ⟨s', taken, rest, found, child', h₁, h₂, takes, h, way⟩)
      (fun h => ⟨s', taken, rest, found, child', h₁, h₂, takes, h, way⟩)
  · rintro (⟨s', taken, rest, found, child', h₁, h₂, takes, branch, way⟩ |
      ⟨s', taken, rest, found, child', h₁, h₂, takes, branch, way⟩)
    all_goals
      refine ⟨s', taken, rest, found, child', h₁, h₂, takes, ?_, way⟩
      simp only [List.mem_append, List.mem_cons, List.not_mem_nil, or_false] at branch ⊢
      tauto

/-- The same for a slot. -/
theorem slotWay_update (ht : t.isPlaceholder) {branches : List (Slot × Trie)}
    (adds : ∀ child, (branches.lookup (.ofToken t) = some child ∨ child = empty) →
      ∀ line slots ordinal, (f child).Way regextime line slots ordinal ↔
        child.Way regextime line slots ordinal ∨
          (ordinal = new ∧ Covers regextime template line slots))
    {line : Line} {slots : List (Option Slot)} {ordinal : Nat} :
    SlotWay regextime (updateSlot (.ofToken t) f branches) line slots ordinal ↔
      SlotWay regextime branches line slots ordinal ∨
        (ordinal = new ∧ Covers regextime (t :: template) line slots) := by
  have single : ∀ child, (branches.lookup (.ofToken t) = some child ∨ child = empty) →
      (SlotWay regextime [(.ofToken t, f child)] line slots ordinal ↔
        SlotWay regextime [(.ofToken t, child)] line slots ordinal ∨
          (ordinal = new ∧ Covers regextime (t :: template) line slots)) := by
    intro child hchild
    rw [covers_placeholder_iff ht]
    constructor
    · rintro ⟨s, taken, rest, found, child', h₁, h₂, takes, branch, way⟩
      cases List.mem_singleton.1 branch
      rcases (adds child hchild rest found ordinal).1 way with old | ⟨rfl, covers⟩
      · exact Or.inl ⟨_, taken, rest, found, child, h₁, h₂, takes, by simp, old⟩
      · exact Or.inr ⟨rfl, taken, rest, found, h₁, h₂, takes, covers⟩
    · rintro (⟨s, taken, rest, found, child', h₁, h₂, takes, branch, way⟩ |
        ⟨rfl, taken, rest, found, h₁, h₂, takes, covers⟩)
      · cases List.mem_singleton.1 branch
        exact ⟨_, taken, rest, found, f child, h₁, h₂, takes, by simp,
          (adds child hchild rest found ordinal).2 (Or.inl way)⟩
      · exact ⟨_, taken, rest, found, f child, h₁, h₂, takes, by simp,
          (adds child hchild rest found _).2 (Or.inr ⟨rfl, covers⟩)⟩
  obtain ⟨before, behind, hb, ⟨child, h₁, h₂⟩ | ⟨h₁, h₂⟩⟩ :=
    updateSlot_cases (.ofToken t) f branches
  · have found : branches.lookup (.ofToken t) = some child := by simp [h₁, List.lookup_append, hb]
    rw [h₂, slotWay_append_cons, single child (Or.inl found), h₁, slotWay_append_cons, or_assoc]
  · have none : ¬SlotWay regextime [(.ofToken t, empty)] line slots ordinal := by
      rintro ⟨s, taken, rest, found, child', -, -, -, branch, way⟩
      cases List.mem_singleton.1 branch
      exact not_way_empty way
    rw [h₂, slotWay_append_cons, single empty (Or.inr rfl), h₁]
    simp [none]

end Insert

/-- Inserting the path of a template adds the covers of the template. -/
theorem way_insert (new : Nat) (template : Line) {trie : Trie} (fresh : trie.find? template = none)
    (line : Line) (slots : List (Option Slot)) (ordinal : Nat) :
    (trie.insert new template).Way regextime line slots ordinal ↔
      trie.Way regextime line slots ordinal ∨
        (ordinal = new ∧ Covers regextime template line slots) := by
  induction template generalizing trie line slots ordinal with
  | nil =>
    obtain ⟨terminal, literals, branches⟩ := trie
    have : terminal = none := fresh
    subst this
    have added : (none <|> some new) = some new := rfl
    rw [insert, way_node, way_node, covers_nil_iff, added]
    simp only [Option.some.injEq, reduceCtorEq, and_false, false_or]
    constructor
    · rintro (⟨h₁, h₂, rfl⟩ | h)
      · exact Or.inr ⟨rfl, h₁, h₂⟩
      · exact Or.inl h
    · rintro (h | ⟨rfl, h₁, h₂⟩)
      · exact Or.inr h
      · exact Or.inl ⟨h₁, h₂, rfl⟩
  | cons t template ih =>
    obtain ⟨terminal, literals, branches⟩ := trie
    by_cases ht : t.isLiteral
    · rw [insert, if_pos ht, way_node, way_node,
        literalWay_update ht (ih (find?_of_literal ht fresh))]
      simp only [or_assoc, or_comm, or_left_comm]
    · have hp : t.isPlaceholder := by simpa [Token.isLiteral] using ht
      rw [insert, if_neg ht, way_node, way_node,
        slotWay_update hp fun child h => ih (find?_of_slot ht fresh h)]
      simp only [or_assoc]

/-- The numbers in an extended trie are the new one and those that were there. -/
theorem find?_insert {new : Nat} {template : Line} {trie : Trie} {line : Line} {ordinal : Nat}
    (h : (trie.insert new template).find? line = some ordinal) :
    (ordinal = new ∧ line.steps = template.steps) ∨ trie.find? line = some ordinal := by
  induction template generalizing trie line with
  | nil =>
    obtain ⟨terminal, literals, branches⟩ := trie
    rw [insert] at h
    cases line with
    | nil =>
      rcases terminal with _ | old
      · cases h; exact Or.inl ⟨rfl, rfl⟩
      · exact Or.inr h
    | cons u line => exact Or.inr h
  | cons t template ih =>
    obtain ⟨terminal, literals, branches⟩ := trie
    cases line with
    | nil =>
      refine Or.inr ?_
      by_cases ht : t.isLiteral <;> simpa [insert, ht, find?, terminal?] using h
    | cons u line =>
      rw [find?_cons, Option.bind_eq_some_iff] at h
      obtain ⟨child, branch, behind⟩ := h
      -- The branch is an old one, or it is the changed one and both tokens are the same step.
      have key : (Step.of u = Step.of t ∧
          ∃ old, (child? (node terminal literals branches) u = some old ∨ old = empty) ∧
            child = insert new template old) ∨
          child? (node terminal literals branches) u = some child := by
        by_cases ht : t.isLiteral <;> by_cases hu : u.isLiteral
        · simp only [insert, ht, if_true, child?, hu, Trie.literals, lookup_updateLiteral]
            at branch ⊢
          by_cases same : u.value = t.value
          · rw [if_pos same, Option.some.injEq] at branch
            refine Or.inl ⟨by rw [Step.of_literal hu, Step.of_literal ht, same], _, ?_, branch.symm⟩
            cases hl : literals.lookup t.value with
            | none => simp
            | some old => simp [same, hl]
          · rw [if_neg same] at branch
            exact Or.inr branch
        · exact Or.inr (by simpa [insert, ht, child?, hu, Trie.slots] using branch)
        · exact Or.inr (by simpa [insert, ht, child?, hu, Trie.literals] using branch)
        · have hup : u.isPlaceholder := by simpa [Token.isLiteral] using hu
          have htp : t.isPlaceholder := by simpa [Token.isLiteral] using ht
          simp only [insert, ht, if_false, child?, hu, Trie.slots, Bool.false_eq_true] at branch ⊢
          refine (lookup_updateSlot branch).imp ?_ id
          rintro ⟨same, old, hold, rfl⟩
          exact ⟨by rw [Step.of_placeholder hup, Step.of_placeholder htp, same], old,
            by rw [same]; exact hold, rfl⟩
      rcases key with ⟨same, old, hold, rfl⟩ | old
      · rcases ih behind with ⟨rfl, steps⟩ | found
        · exact Or.inl ⟨rfl, by rw [Line.steps_cons, Line.steps_cons, same, steps]⟩
        · rcases hold with hold | rfl
          · exact Or.inr (by rw [find?_cons, hold]; exact found)
          · simp at found
      · exact Or.inr (by rw [find?_cons, old]; exact behind)

end Trie

end LogTemplate
