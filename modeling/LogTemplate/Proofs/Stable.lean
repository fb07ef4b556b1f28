import LogTemplate.Proofs.Cover
import LogTemplate.Proofs.Meaning
import LogTemplate.Proofs.Standing

/-!
# Templates that read back

A template is stored as its text and the positions of its placeholders. What is read of them covers
what the template covers, unless printing changes something.

* `Placeholder.restored` is what is read of a placeholder, `Placeholder.KeepsName` says that it
  takes no less and is written in the same way;
* `Line.Stable` lists what printing may not change in a template;
* `Line.Stable.legible` finds the tokens of such a template in its text, one by one, and
  `Line.Stable.exists_isReading` reads the template back.
-/

namespace LogTemplate

variable {v : Vocabulary} {t u : Token}

/-! ### Placeholders -/

namespace Placeholder

/-- The token, a placeholder with the tag and the kind that its name stands for. -/
def restored (v : Vocabulary) (t : Token) : Token :=
  if t.isPlaceholder then { t with tag := (subject v t).1, kind := (subject v t).2 } else t

theorem restored_of_literal (h : t.isLiteral) : restored v t = t :=
  if_neg (by simpa [Token.isLiteral] using h)

/-- If the name that is written for the token is that of a tag, then this is of a kind that takes
what the token takes, and the token is no run, as runs of a tag and of a kind are written in other
ways. -/
def KeepsName (v : Vocabulary) (t : Token) : Prop :=
  t.tag = .unknown → ∀ tag ∈ v.tag? t.kind.name,
    t.modifier = .single ∧ (v.kindOf tag).accepts t.kind

instance : Decidable (KeepsName v t) := by
  unfold KeepsName
  infer_instance

/-- The name of a token is that of a tag, or it stands for the token. -/
theorem restored_cases (placeholder : t.isPlaceholder) :
    (t.tag = .unknown ∧ ∃ tag, v.tag? t.kind.name = some tag ∧
      restored v t = { t with tag, kind := v.kindOf tag }) ∨ restored v t = t := by
  by_cases unknown : t.tag = .unknown
  · cases known : v.tag? t.kind.name with
    | some tag => exact Or.inl ⟨unknown, tag, rfl, by simp [restored, subject, *]⟩
    | none =>
      refine Or.inr ?_
      simp only [restored, placeholder, if_true, subject, unknown, known]
      rw [← unknown]
  · exact Or.inr (by simp [restored, placeholder, subject, unknown])

theorem isPlaceholder_restored (placeholder : t.isPlaceholder) :
    (restored v t).isPlaceholder := by
  rcases restored_cases (v := v) placeholder with ⟨-, tag, known, eq⟩ | eq
  · simp [eq, Token.isPlaceholder, (Vocabulary.name?_of_tag? known).2]
  · rw [eq]
    exact placeholder

/-- A placeholder that keeps its name is written like the one that is read. -/
theorem print_restored (h : v.Regular) (ht : IsExpressible v t) (placeholder : t.isPlaceholder)
    (name : KeepsName v t) : print v (restored v t) = print v t := by
  rcases restored_cases (v := v) placeholder with ⟨unknown, tag, known, eq⟩ | eq
  · obtain ⟨single, -⟩ := name unknown tag known
    obtain ⟨named, ne⟩ := Vocabulary.name?_of_tag? known
    have stop : t.stop = none := by
      rw [Option.eq_none_iff_forall_not_mem]
      intro word hw
      have := (ht.run word hw).1
      rw [single] at this
      cases this
    rw [eq, print, print, body_of_unknown unknown single stop]
    simp [body, ne, named, ht.group_eq_none h unknown, body.suffixes, runSuffix, stop, single,
      Modifier.sign?]
  · rw [eq]

/-- What is written for a placeholder that keeps its name is read as the one that the name stands
for. -/
theorem exists_restores_of_keepsName (h : v.Proper) (ht : IsExpressible v t)
    (placeholder : t.isPlaceholder) (name : KeepsName v t) :
    ∃ u, Restores v t u ∧ Slot.ofToken u = Slot.ofToken (restored v t) := by
  have same : restored v t = { t with tag := (subject v t).1, kind := (subject v t).2 } :=
    if_pos placeholder
  have known := isPlaceholder_restored (v := v) placeholder
  have print := print_restored h.toRegular ht placeholder name
  rw [same] at known print ⊢
  refine ⟨_, ⟨placeholder, (isReadable h ht.toIsWritable).body, parse?_body_eq h ht, known, ?_⟩,
    rfl⟩
  exact print ▸ print_congr rfl

/-- What a name stands for that a placeholder keeps takes what the placeholder takes. -/
theorem widens_restored (h : v.Regular) (placeholder : t.isPlaceholder) (name : KeepsName v t) :
    Widens v.regextime t (restored v t) := by
  rcases restored_cases (v := v) placeholder with ⟨unknown, tag, known, eq⟩ | eq
  · obtain ⟨-, accepts⟩ := name unknown tag known
    have own : (Slot.ofToken t).tag ≠ v.regextime := fun same =>
      (Vocabulary.name?_of_tag? h.name).2 (same.symm.trans unknown)
    have other : (Slot.ofToken { t with tag, kind := v.kindOf tag }).tag ≠ v.regextime :=
      ne_regextime_of_name h known
    refine .placeholder placeholder (isPlaceholder_restored placeholder) (by rw [eq]) (by rw [eq])
      fun x hx => ?_
    rw [Slot.accepts_of_ne own] at hx
    rw [eq, Slot.accepts_of_ne other]
    exact Kind.accepts_trans accepts hx
  · rw [eq]
    exact .placeholder placeholder placeholder rfl rfl fun _ hx => hx

end Placeholder

namespace Line

open Placeholder Scan

variable {T line before rest : Line} {texts : List Text} {k : Context}

/-! ### Stable templates -/

/-- What the scan of the text of a line remembers behind these tokens of the line. -/
def contextBehind (v : Vocabulary) (before : Line) : Context := context (before.map (restored v))

/-- White space stands in a line where its text shows it: the token `t` stands in the context `k`
between `before` and `rest`. -/
structure Spaced (v : Vocabulary) (k : Context) (before : Line) (t : Token) (rest : Line) :
    Prop where
  /-- White space is a token where it is kept. Two in a row would become one, and a new line outside
  of quotations would cut the text. -/
  space : t.isSpace → v.markSpaces ∧ t = .literal t.value ∧ (∀ u ∈ rest.head?, u.isSpace = false) ∧
    ('\n' ∈ t.value → before = [] ∨ k.quotation ≠ none)
  /-- The blank before a token is white space of its own. -/
  near : v.markSpaces → t.isSpace = false → t.spaceBefore → ∃ u ∈ before.getLast?, u.isSpace

instance : Decidable (Spaced v k before t rest) :=
  decidable_of_iff ((t.isSpace → v.markSpaces ∧ t = .literal t.value ∧
      (∀ u ∈ rest.head?, u.isSpace = false) ∧ ('\n' ∈ t.value → before = [] ∨ k.quotation ≠ none)) ∧
      (v.markSpaces → t.isSpace = false → t.spaceBefore → ∃ u ∈ before.getLast?, u.isSpace))
    ⟨fun ⟨space, near⟩ => ⟨space, near⟩, fun ⟨space, near⟩ => ⟨space, near⟩⟩

/-- Printing changes nothing in a template whose literals stand in these texts. -/
structure Stable (v : Vocabulary) (texts : List Text) (T : Line) : Prop where
  names : ∀ t ∈ T, t.isPlaceholder → KeepsName v t
  kept : ∀ s ∈ T.splits, s.2.1.isLiteral → s.2.1.isSpace = false →
    Kept v (print v T).offsets.isEmpty texts (contextBehind v s.1) s.2.1 s.2.2
  spaced : ∀ s ∈ T.splits, Spaced v (contextBehind v s.1) s.1 s.2.1 s.2.2

instance : Decidable (Stable v texts T) :=
  decidable_of_iff ((∀ t ∈ T, t.isPlaceholder → KeepsName v t) ∧
      (∀ s ∈ T.splits, s.2.1.isLiteral → s.2.1.isSpace = false →
        Kept v (print v T).offsets.isEmpty texts (contextBehind v s.1) s.2.1 s.2.2) ∧
      ∀ s ∈ T.splits, Spaced v (contextBehind v s.1) s.1 s.2.1 s.2.2)
    ⟨fun ⟨names, kept, spaced⟩ => ⟨names, kept, spaced⟩,
      fun ⟨names, kept, spaced⟩ => ⟨names, kept, spaced⟩⟩

/-! ### Reading -/

theorem contextBehind_append (before rest : Line) :
    contextBehind v (before ++ rest) =
      (rest.map (restored v)).foldl Context.behind (contextBehind v before) := by
  simp [contextBehind, context]

theorem contextBehind_spaces {g : Text} (blank : ∀ c ∈ g, Text.isSpace c) (before : Line) :
    contextBehind v (before ++ spaces v g) = contextBehind v before := by
  have same : (spaces v g).map (restored v) = spaces v g := by
    refine (List.map_congr_left fun x hx => ?_).trans (List.map_id _)
    rw [eq_literal_of_mem_spaces hx]
    exact restored_of_literal rfl
  rw [contextBehind_append, same, foldl_spaces blank]

theorem contextBehind_singleton (visible : (restored v t).isSpace = false) (before : Line) :
    contextBehind v (before ++ [t]) =
      ⟨Context.past (contextBehind v before).quotation (restored v t),
        (restored v t).kind = .ipv4⟩ := by
  rw [contextBehind_append]
  exact if_neg (by simp [visible])

/-- Behind its beginning, a line goes on with the white space `g`, if it is kept, and with
`others`. -/
structure Onward (v : Vocabulary) (before : Line) (g : Text) (others : Line) : Prop where
  blank : ∀ c ∈ g, Text.isSpace c
  inner : '\n' ∈ g → before = [] ∨ (contextBehind v before).quotation ≠ none
  near : v.markSpaces → ∀ u ∈ (spaces v g ++ others).head?, u.spaceBefore = false
  visible : ∀ u ∈ others.head?, u.isSpace = false

theorem Onward.gap {g : Text} (h : Onward v before g rest) (ne : before ≠ []) :
    Gap v (contextBehind v before).quotation g rest where
  blank := h.blank
  inner line := (h.inner line).resolve_left ne
  near on none u hu := by
    subst none
    exact h.near on u (by simpa [spaces] using hu)

/-- A stable template goes on in this way behind each of its tokens that is no white space. -/
theorem Stable.onward (h : Stable v texts T) (split : T = before ++ rest)
    (shown : ∀ u ∈ before.getLast?, u.isSpace = false) :
    ∃ g others, rest = spaces v g ++ others ∧ Onward v before g others := by
  cases rest with
  | nil => exact ⟨[], [], by simp [spaces], by simp, by simp, by simp [spaces], by simp⟩
  | cons u rest =>
    have spaced : Spaced v (contextBehind v before) before u rest :=
      h.spaced _ (mem_splits.2 split)
    by_cases space : u.isSpace
    · obtain ⟨on, literal, next, line⟩ := spaced.space space
      have visible := space
      simp only [Token.isSpace, Text.isBlank, Bool.and_eq_true, Bool.not_eq_true',
        List.isEmpty_eq_false_iff, List.all_eq_true] at visible
      obtain ⟨⟨-, ne⟩, blank⟩ := visible
      have kept : spaces v u.value = [u] := by
        rw [literal]
        simp [spaces, on, Token.literal, ne]
      refine ⟨u.value, rest, by rw [kept]; rfl, blank, line, fun _ t ht => ?_, next⟩
      rw [kept] at ht
      cases ht
      rw [literal]
      rfl
    · have space : u.isSpace = false := by simpa using space
      refine ⟨[], u :: rest, by simp [spaces], by simp, by simp, fun on t ht => ?_,
        by simpa using space⟩
      obtain rfl : u = t := by simpa [spaces] using ht
      cases spaceBefore : u.spaceBefore with
      | false => rfl
      | true =>
        obtain ⟨last, hlast, isSpace⟩ := spaced.near on space spaceBefore
        rw [shown last hlast] at isSpace
        cases isSpace

/-- The tokens of a stable template are found again in its text, one by one. -/
theorem Stable.legible (h : v.Proper) (stable : Stable v texts T)
    (expressible : ∀ t ∈ T, t.isPlaceholder → IsExpressible v t) (split : T = before ++ rest)
    (visible : ∀ u ∈ rest.head?, u.isSpace = false) :
    Legible v (print v T).offsets.isEmpty false (contextBehind v before).quotation
      (contextBehind v before).afterIpv4 rest := by
  induction n : rest.length using Nat.strongRecOn generalizing before rest with
  | _ n ih =>
    subst n
    cases rest with
    | nil => exact .nil
    | cons t rest =>
      have shown : t.isSpace = false := visible t rfl
      have mem : t ∈ T := by
        rw [split]
        simp
      have split' : T = before ++ [t] ++ rest := by rw [split, List.append_assoc]; rfl
      obtain ⟨g, others, rfl, onward⟩ := stable.onward split' (by simpa using shown)
      have gap := onward.gap (by simp)
      have shorter : others.length < (t :: (spaces v g ++ others)).length := by
        simp only [List.length_cons, List.length_append]
        omega
      have behind := ih _ shorter (split'.trans (List.append_assoc _ _ _).symm) onward.visible rfl
      rw [contextBehind_spaces onward.blank] at behind
      by_cases placeholder : t.isPlaceholder
      · have known := isPlaceholder_restored (v := v) placeholder
        obtain ⟨u, restores, slot⟩ := exists_restores_of_keepsName h (expressible t mem placeholder)
          placeholder (stable.names t mem placeholder)
        have kind : u.kind = (restored v t).kind := congrArg Slot.kind slot
        rw [contextBehind_singleton (by simp [Token.isSpace, Token.isLiteral, known]),
          Context.past_placeholder known, ← kind] at gap behind
        exact .value restores gap behind
      · have literal : t.isLiteral := by simpa [Token.isLiteral] using placeholder
        have kind : t.kind ≠ .ipv4 := by
          rintro eq
          simp [Token.isLiteral, Token.isPlaceholder, eq, Kind.isPlaceholder] at literal
        rw [contextBehind_singleton (by rw [restored_of_literal literal]; exact shown),
          restored_of_literal literal] at gap behind
        simp only [kind, decide_false] at behind
        have kept := stable.kept _ (mem_splits.2 split) literal shown
        exact .literal (reads_of_kept kept literal shown onward.near) gap behind

theorem Stable.isLegible (h : v.Proper) (stable : Stable v texts T)
    (expressible : ∀ t ∈ T, t.isPlaceholder → IsExpressible v t) :
    IsLegible v (print v T).offsets.isEmpty false {} T := by
  obtain ⟨g, others, split, onward⟩ := stable.onward (List.nil_append T).symm (by simp)
  have legible := stable.legible h expressible split onward.visible
  have start : contextBehind v (spaces v g) = {} := contextBehind_spaces onward.blank []
  rw [start] at legible
  refine ⟨g, others, split, onward.blank, by simp [Cursor.isCut], fun on none u hu => ?_, legible⟩
  subst none
  exact onward.near on u (by simpa [spaces] using hu)

/-- What is found where a placeholder that keeps its name was printed takes what the placeholder
takes. -/
theorem widens_of_readAs {x : Token} (h : v.Proper) (read : ReadAs v t x)
    (expressible : t.isPlaceholder → IsExpressible v t)
    (name : t.isPlaceholder → KeepsName v t) : Widens v.regextime t x := by
  cases read with
  | literal ht hx value => exact .literal ht hx value
  | @value u space restores =>
    have ht := restores.placeholder
    obtain ⟨u', restores', slot⟩ := exists_restores_of_keepsName h (expressible ht) ht (name ht)
    obtain rfl : u' = u := Option.some.inj (restores'.parse.symm.trans restores.parse)
    have same : Slot.ofToken { u' with spaceBefore := space } = Slot.ofToken (restored v t) := slot
    cases widens_restored h.toRegular ht (name ht) with
    | literal literal => simp [Token.isLiteral, ht] at literal
    | placeholder _ _ modifier stop accepts =>
      refine .placeholder ht restores.restored ((congrArg Slot.modifier same).trans modifier)
        ((congrArg Slot.stop same).trans stop) fun x hx => ?_
      rw [same]
      exact accepts x hx

/-- The line `again` is read where the template `T` was written. It is written in the same way, has
a literal if the template has one, and covers what the template covers. -/
structure IsReading (v : Vocabulary) (T again : Line) : Prop where
  scan : pattern v (print v T).text (print v T).offsets = .ok again
  print : print v again = print v T
  literal : (∃ t ∈ T, t.isLiteral) → ∃ t ∈ again, t.isLiteral
  covers : ∀ line slots, Covers v.regextime T line slots →
    ∃ slots', Covers v.regextime again line slots'

/-- A stable template reads back. -/
theorem Stable.exists_isReading (h : v.Proper) (stable : Stable v texts T)
    (expressible : ∀ t ∈ T, t.isPlaceholder → IsExpressible v t) :
    ∃ again, IsReading v T again := by
  obtain ⟨again, scan, print, tokens⟩ := pattern_of_legible
    (fun t ht placeholder => isReadable h (expressible t ht placeholder).toIsWritable)
    (stable.isLegible h expressible)
  have read := tokens rfl
  have wide : List.Forall₂ (Widens v.regextime) T again :=
    ((List.forall₂_and_left T again).2 ⟨fun _ ht => ht, read⟩).imp fun t x ⟨ht, read⟩ =>
      widens_of_readAs h read (expressible t ht) (stable.names t ht)
  refine ⟨again, scan, print, fun ⟨t, ht, literal⟩ => ?_, fun line slots covers =>
    covers.mono wide⟩
  obtain ⟨i, hi, rfl⟩ := List.mem_iff_getElem.1 ht
  obtain ⟨length, each⟩ := List.forall₂_iff_get.1 read
  have same := (each i hi (length ▸ hi)).isPlaceholder
  refine ⟨_, List.get_mem again ⟨i, length ▸ hi⟩, ?_⟩
  simp only [Token.isLiteral, same]
  exact literal

end Line

end LogTemplate
