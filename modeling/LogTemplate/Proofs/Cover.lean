import LogTemplate.Search
import Mathlib.Data.List.Forall2

/-!
# Covers

When a template covers a line, told without tries.

* `Slot.Takes` says which tokens a placeholder may take in front of the rest of a line;
* `Covers` is the relation between a template, a line and the slots that took the line's tokens;
* `wildcards` counts the tokens that placeholders took;
* `Step.of` is all that a cover sees of a token of a template: the word of a literal, or a slot;
* `Covers.mono` says that a template whose slots accept more covers no less.
-/

namespace LogTemplate

/-- The slot may take the tokens `taken` when `rest` stands behind them. -/
def Slot.Takes (regextime : Tag) (s : Slot) (taken rest : Line) : Prop :=
  match s.modifier, s.stop with
  | .single, _ => ∃ t, taken = [t] ∧ s.accepts regextime t
  | .plus, _ => taken ≠ [] ∧ ∀ t ∈ taken, s.accepts regextime t
  | .star, _ => ∀ t ∈ taken, s.accepts regextime t
  | .minus, none => taken ≠ []
  | .minus, some word =>
    taken ≠ [] ∧ (∀ t ∈ taken.tail, t.value ≠ word) ∧ ∃ t ∈ rest.head?, t.value = word

/-- The tokens of the template, in their order, consume the whole line. The list tells for each
token of the line which slot took it; none for a token that a literal consumed. -/
inductive Covers (regextime : Tag) : Line → Line → List (Option Slot) → Prop
  | nil : Covers regextime [] [] []
  | literal {t x : Token} {template line : Line} {slots : List (Option Slot)}
      (ht : t.isLiteral) (hx : x.isLiteral) (value : x.value = t.value)
      (behind : Covers regextime template line slots) :
      Covers regextime (t :: template) (x :: line) (none :: slots)
  | placeholder {t : Token} {template taken line : Line} {slots : List (Option Slot)}
      (ht : t.isPlaceholder) (takes : (Slot.ofToken t).Takes regextime taken line)
      (behind : Covers regextime template line slots) :
      Covers regextime (t :: template) (taken ++ line)
        (List.replicate taken.length (some (.ofToken t)) ++ slots)

/-- The number of tokens that placeholders took. -/
def wildcards (slots : List (Option Slot)) : Nat := slots.countP (·.isSome)

@[simp] theorem wildcards_nil : wildcards [] = 0 := rfl

@[simp] theorem wildcards_none (slots : List (Option Slot)) :
    wildcards (none :: slots) = wildcards slots := by simp [wildcards]

@[simp] theorem wildcards_run (n : Nat) (s : Slot) (slots : List (Option Slot)) :
    wildcards (List.replicate n (some s) ++ slots) = n + wildcards slots := by
  simp [wildcards, List.countP_replicate]

/-- Slots of the same meaning accept the same. -/
theorem Slot.accepts_congr {regextime : Tag} {s s' : Slot} (tag : s'.tag = s.tag)
    (kind : s'.kind = s.kind) (group : s'.group = s.group) (t : Token) :
    s'.accepts regextime t = s.accepts regextime t := by
  cases s
  cases s'
  subst tag kind group
  rfl

/-- Slots that ask for the same take the same. -/
theorem Slot.takes_congr {regextime : Tag} {s s' : Slot} {taken rest : Line}
    (modifier : s'.modifier = s.modifier) (stop : s'.stop = s.stop)
    (accepts : ∀ t, s'.accepts regextime t = s.accepts regextime t) :
    s'.Takes regextime taken rest ↔ s.Takes regextime taken rest := by
  simp only [Slot.Takes, modifier, stop, accepts]

/-- A slot that accepts more takes no less. -/
theorem Slot.Takes.mono {regextime : Tag} {s s' : Slot} {taken rest : Line}
    (h : s.Takes regextime taken rest) (modifier : s'.modifier = s.modifier)
    (stop : s'.stop = s.stop) (accepts : ∀ t, s.accepts regextime t → s'.accepts regextime t) :
    s'.Takes regextime taken rest := by
  unfold Slot.Takes at h ⊢
  rw [modifier, stop]
  cases hm : s.modifier with
  | single =>
    simp only [hm] at h ⊢
    obtain ⟨t, rfl, ht⟩ := h
    exact ⟨t, rfl, accepts t ht⟩
  | plus =>
    simp only [hm] at h ⊢
    exact ⟨h.1, fun t ht => accepts t (h.2 t ht)⟩
  | star =>
    simp only [hm] at h ⊢
    exact fun t ht => accepts t (h t ht)
  | minus =>
    cases hs : s.stop <;> simpa only [hm, hs] using h

/-- A slot that is no run takes one token. -/
theorem Slot.Takes.length_eq_one {regextime : Tag} {s : Slot} {taken rest : Line}
    (hs : s.modifier = .single) (h : s.Takes regextime taken rest) : taken.length = 1 := by
  unfold Slot.Takes at h
  rw [hs] at h
  obtain ⟨t, rfl, -⟩ := h
  rfl

/-- A template without runs covers only lines of its own length. -/
theorem Covers.length_eq {regextime : Tag} {template line : Line} {slots : List (Option Slot)}
    (h : Covers regextime template line slots)
    (fixed : ∀ t ∈ template, t.modifier.isVariable = false) : line.length = template.length := by
  induction h with
  | nil => rfl
  | literal ht hx value behind ih =>
    simp [ih fun t h => fixed t (List.mem_cons_of_mem _ h)]
  | @placeholder t template taken line slots ht takes behind ih =>
    have single : t.modifier = .single := by
      simpa [Modifier.isVariable] using fixed t List.mem_cons_self
    have one := takes.length_eq_one (s := .ofToken t) single
    have tail := ih fun t h => fixed t (List.mem_cons_of_mem _ h)
    simp only [List.length_append, List.length_cons]
    omega

theorem covers_nil_iff {regextime : Tag} {line : Line} {slots : List (Option Slot)} :
    Covers regextime [] line slots ↔ line = [] ∧ slots = [] := by
  constructor
  · intro h; cases h; exact ⟨rfl, rfl⟩
  · rintro ⟨rfl, rfl⟩; exact .nil

theorem covers_literal_iff {regextime : Tag} {t : Token} (ht : t.isLiteral)
    {template line : Line} {slots : List (Option Slot)} :
    Covers regextime (t :: template) line slots ↔
      ∃ x rest found, line = x :: rest ∧ slots = none :: found ∧ x.isLiteral ∧
        x.value = t.value ∧ Covers regextime template rest found := by
  constructor
  · intro h
    cases h with
    | literal _ hx value behind => exact ⟨_, _, _, rfl, rfl, hx, value, behind⟩
    | placeholder hp => simp [Token.isLiteral, hp] at ht
  · rintro ⟨x, rest, found, rfl, rfl, hx, value, behind⟩
    exact .literal ht hx value behind

theorem covers_placeholder_iff {regextime : Tag} {t : Token} (ht : t.isPlaceholder)
    {template line : Line} {slots : List (Option Slot)} :
    Covers regextime (t :: template) line slots ↔
      ∃ taken rest found, line = taken ++ rest ∧
        slots = List.replicate taken.length (some (.ofToken t)) ++ found ∧
        (Slot.ofToken t).Takes regextime taken rest ∧ Covers regextime template rest found := by
  constructor
  · intro h
    cases h with
    | literal hl => simp [Token.isLiteral, ht] at hl
    | placeholder _ takes behind => exact ⟨_, _, _, rfl, rfl, takes, behind⟩
  · rintro ⟨taken, rest, found, rfl, rfl, takes, behind⟩
    exact .placeholder ht takes behind

/-! ### Steps -/

/-- What a cover sees of a token of a template. -/
inductive Step where
  | word (value : Text)
  | slot (s : Slot)
  deriving DecidableEq, Repr

/-- The step of a token. -/
def Step.of (t : Token) : Step := if t.isLiteral then .word t.value else .slot (.ofToken t)

/-- The steps of a line. -/
def Line.steps (line : Line) : List Step := line.map Step.of

@[simp] theorem Line.steps_nil : Line.steps [] = [] := rfl

@[simp] theorem Line.steps_cons (t : Token) (line : Line) :
    Line.steps (t :: line) = Step.of t :: Line.steps line := rfl

theorem Step.of_literal {t : Token} (h : t.isLiteral) : Step.of t = .word t.value := if_pos h

theorem Step.of_placeholder {t : Token} (h : t.isPlaceholder) :
    Step.of t = .slot (.ofToken t) := by
  simp [Step.of, Token.isLiteral, h]

theorem Step.of_eq_word {t : Token} {value : Text} (h : Step.of t = .word value) :
    t.isLiteral ∧ t.value = value := by
  unfold Step.of at h
  split at h
  · cases h; exact ⟨‹_›, rfl⟩
  · cases h

theorem Step.of_eq_slot {t : Token} {s : Slot} (h : Step.of t = .slot s) :
    t.isPlaceholder ∧ Slot.ofToken t = s := by
  unfold Step.of at h
  split at h
  · cases h
  · next hl => cases h; exact ⟨by simpa [Token.isLiteral] using hl, rfl⟩

namespace Step

variable {t u : Token}

/-- Tokens of one step are literals of one value, or placeholders of one slot. -/
theorem cases_of_eq (same : Step.of t = Step.of u) :
    (t.isLiteral ∧ u.isLiteral ∧ t.value = u.value) ∨
      (t.isPlaceholder ∧ u.isPlaceholder ∧ Slot.ofToken t = Slot.ofToken u) := by
  by_cases hu : u.isLiteral
  · obtain ⟨ht, value⟩ := of_eq_word (same.trans (of_literal hu))
    exact .inl ⟨ht, hu, value⟩
  · have hu : u.isPlaceholder := by simpa [Token.isLiteral] using hu
    obtain ⟨ht, slot⟩ := of_eq_slot (same.trans (of_placeholder hu))
    exact .inr ⟨ht, hu, slot⟩

/-- Of placeholders only the slots count. -/
theorem of_congr (ht : t.isPlaceholder) (same : Slot.ofToken t = Slot.ofToken u) :
    Step.of t = Step.of u := by
  have hu : u.isPlaceholder := by
    simp only [Slot.ofToken, Slot.mk.injEq] at same
    rw [Token.isPlaceholder, ← same.1, ← same.2.1]
    exact ht
  rw [of_placeholder ht, of_placeholder hu, same]

theorem isPlaceholder_congr (same : Step.of t = Step.of u) :
    t.isPlaceholder = u.isPlaceholder := by
  rcases cases_of_eq same with ⟨ht, hu, -⟩ | ⟨ht, hu, -⟩
  · simp only [Token.isLiteral, Bool.not_eq_true'] at ht hu
    rw [ht, hu]
  · rw [ht, hu]

theorem withModifier (same : Step.of t = Step.of u) (m : Modifier) :
    Step.of { t with modifier := m } = Step.of { u with modifier := m } := by
  rcases cases_of_eq same with ⟨ht, hu, value⟩ | ⟨ht, -, slot⟩
  · rw [of_literal (t := { t with modifier := m }) ht,
      of_literal (t := { u with modifier := m }) hu, value]
  · simp only [Slot.ofToken, Slot.mk.injEq] at slot
    exact of_congr ht (by simp [Slot.ofToken, slot])

end Step

/-- Templates of the same steps cover the same lines, in the same ways. -/
theorem Covers.congr {regextime : Tag} {template line : Line} {slots : List (Option Slot)}
    (h : Covers regextime template line slots) :
    ∀ {other : Line}, other.steps = template.steps → Covers regextime other line slots := by
  induction h with
  | nil =>
    intro other same
    have : other = [] := by simpa [Line.steps] using same
    subst this
    exact .nil
  | literal ht hx value behind ih =>
    intro other same
    rcases other with _ | ⟨u, others⟩
    · simp at same
    · simp only [Line.steps_cons, List.cons.injEq, Step.of_literal ht] at same
      obtain ⟨hu, huv⟩ := Step.of_eq_word same.1
      exact .literal hu hx (value.trans huv.symm) (ih same.2)
  | placeholder ht takes behind ih =>
    intro other same
    rcases other with _ | ⟨u, others⟩
    · simp at same
    · simp only [Line.steps_cons, List.cons.injEq, Step.of_placeholder ht] at same
      obtain ⟨hu, hus⟩ := Step.of_eq_slot same.1
      rw [← hus] at takes ⊢
      exact .placeholder hu takes (ih same.2)

/-- The token `u` of a template stands for what `t` stands for, or for more. -/
inductive Widens (regextime : Tag) : Token → Token → Prop
  | literal {t u : Token} (ht : t.isLiteral) (hu : u.isLiteral) (value : u.value = t.value) :
      Widens regextime t u
  | placeholder {t u : Token} (ht : t.isPlaceholder) (hu : u.isPlaceholder)
      (modifier : u.modifier = t.modifier) (stop : u.stop = t.stop)
      (accepts : ∀ x, (Slot.ofToken t).accepts regextime x →
        (Slot.ofToken u).accepts regextime x) : Widens regextime t u

/-- A template whose slots accept more covers no less. -/
theorem Covers.mono {regextime : Tag} {template other line : Line} {slots : List (Option Slot)}
    (h : Covers regextime template line slots)
    (wide : List.Forall₂ (Widens regextime) template other) :
    ∃ slots', Covers regextime other line slots' := by
  induction h generalizing other with
  | nil =>
    cases wide
    exact ⟨[], .nil⟩
  | literal ht hx value behind ih =>
    cases wide with
    | cons wider rest =>
      obtain ⟨slots', covers⟩ := ih rest
      cases wider with
      | literal _ hu same => exact ⟨_, .literal hu hx (value.trans same.symm) covers⟩
      | placeholder hp => simp [Token.isLiteral, hp] at ht
  | placeholder ht takes behind ih =>
    cases wide with
    | cons wider rest =>
      obtain ⟨slots', covers⟩ := ih rest
      cases wider with
      | literal hl => simp [Token.isLiteral, ht] at hl
      | placeholder _ hu modifier stop accepts =>
        exact ⟨_, .placeholder hu (takes.mono modifier stop accepts) covers⟩

end LogTemplate
