import LogTemplate.Proofs.ColumnKind
import LogTemplate.Proofs.Notation
import LogTemplate.Proofs.Produced
import LogTemplate.Proofs.Shape

/-!
# What written placeholders mean

* `Produced.isExpressible` says that all placeholders that come about are expressible, from scans,
  `Scan.isExpressible_of_mem_tokens`, and from what is learned,
  `Consensus.isExpressible_of_mem_generalize`;
* `Placeholder.accepts_subject_iff` compares the slot of a token with that of what its name stands
  for;
* `Produced.exists_parse?_body` puts these together: a placeholder that is printed and read again
  accepts the same tokens, unless the name of its kind is that of a tag of another kind.
-/

namespace LogTemplate

open Placeholder

variable {v : Vocabulary} {t : Token}

/-! ### Scans -/

/-- A value or a literal of a message has its place in the notation. -/
theorem Token.IsPlain.isExpressible (h : v.Regular) (ht : t.IsPlain v)
    (placeholder : t.isPlaceholder) : IsExpressible v t := by
  have none_of : t.stop = none := ht.stop
  rcases ht.meaning with ⟨tag, group⟩ | ⟨kind, tag, n, group⟩
  · have kind : t.kind.isPlaceholder := by
      simpa [Token.isPlaceholder, tag] using placeholder
    exact ⟨⟨.inl ⟨tag, kind⟩, by simp [none_of], by simp [group]⟩, by simp [none_of],
      by simp [group]⟩
  · refine ⟨⟨.inr ⟨⟨_, tag ▸ h.name⟩, .inr (by rw [kind]; rfl)⟩, by simp [none_of],
      fun _ g hg => ?_⟩, by simp [none_of], fun g hg => ⟨tag, ?_, ht.modifier, none_of⟩⟩
    · rw [group] at hg
      cases hg
      exact isGroup_ofNat n
    · rw [kind, tag, h.kind]

namespace Scan

variable {mode : Mode} {cursor : Cursor} {text : Text}

/-- A placeholder of a scan has its place in the notation, and in pattern text its own name. -/
theorem isExpressible_of_mem_tokens (h : v.Regular) (ht : t ∈ tokens v mode cursor text)
    (placeholder : t.isPlaceholder) : IsExpressible v t := by
  rcases mem_tokens ht with ⟨gap, rfl⟩ | ⟨w, rfl⟩ | ⟨cursor, place, c, w, space, rfl⟩
  · cases placeholder
  · exact ⟨⟨.inl ⟨rfl, rfl⟩, by simp, by simp⟩, by simp, by simp⟩
  · unfold found at placeholder ⊢
    cases run : placeholder? v mode cursor place (c :: w) with
    | some g =>
      obtain ⟨-, body, after, u, isBody, -, read, rfl⟩ := placeholder?_eq_some_iff.1 run
      exact (isExpressible_of_parse? h isBody read).1.congr rfl
    | none =>
      rw [run] at placeholder
      have plain := isPlain_next (v := v) cursor.quotation cursor.last (window mode place c w).2 c
        (window mode place c w).1 [] space
      exact (plain.isExpressible h placeholder).congr rfl

theorem isExpressible_of_mem_json {line : Line} (h : v.Regular) (scan : json v text = .ok line)
    (ht : t ∈ line) (placeholder : t.isPlaceholder) : IsExpressible v t := by
  rcases mem_json scan ht with ⟨w, rfl⟩ | ⟨w, rfl⟩ | ⟨w, u, mem, rfl⟩
  · cases placeholder
  · exact ⟨⟨.inl ⟨rfl, rfl⟩, by simp, by simp⟩, by simp, by simp⟩
  · exact (isExpressible_of_mem_tokens h mem placeholder).congr rfl

end Scan

/-! ### Templates -/

/-- A placeholder of a template that has a written form has its place in the notation. -/
theorem Consensus.isExpressible_of_mem_generalize (h : v.Regular) {rows : List Line}
    (ht : t ∈ generalize v rows) (writable : IsWritable v t) : IsExpressible v t := by
  obtain ⟨column, -, first, -, before, m, rfl, fixed⟩ := mem_generalize ht
  obtain ⟨stop, ⟨tag, group, -⟩ | ⟨tag, kind, single, -⟩⟩ := columnToken_cases v first column
  · have same : (inferTag v before (columnToken v first column)).stop = none ∧
        (inferTag v before (columnToken v first column)).group = none := by
      unfold inferTag
      split
      · exact ⟨stop, group⟩
      · split
        · exact ⟨stop, group⟩
        · exact ⟨stop, group⟩
    exact ⟨writable, by simp [same.1], by simp [same.2]⟩
  · -- A timestamp with its group is left as it is.
    have time := (Vocabulary.name?_of_tag? h.name).2
    have same : inferTag v before (columnToken v first column) = columnToken v first column :=
      if_pos (by simp [tag, time])
    rw [same] at fixed writable ⊢
    have modifier : m = .single := (fixed (by rw [kind]; rfl)).trans single
    exact ⟨writable, by simp [stop],
      fun g _ => ⟨tag, by rw [kind, tag, h.kind], modifier, stop⟩⟩

/-- All placeholders that come about have their place in the notation. -/
theorem Produced.isExpressible (h : v.Proper) (ht : Produced v t) (placeholder : t.isPlaceholder) :
    IsExpressible v t := by
  have writable := ht.isWritable h placeholder
  cases ht with
  | message mem => exact Scan.isExpressible_of_mem_tokens h.toRegular mem placeholder
  | json scan mem => exact Scan.isExpressible_of_mem_json h.toRegular scan mem placeholder
  | pattern scan mem =>
    obtain ⟨mode, -, rfl⟩ := Scan.pattern_eq_ok_iff.1 scan
    exact Scan.isExpressible_of_mem_tokens h.toRegular mem placeholder
  | template learned rows found hT mem =>
    obtain ⟨key, rfl⟩ := Mining.eq_generalize_of_learned learned found hT
    exact Consensus.isExpressible_of_mem_generalize h.toRegular mem writable

/-! ### Slots -/

theorem Slot.accepts_of_ne {regextime : Tag} {slot : Slot} (ne : slot.tag ≠ regextime) (x : Token) :
    slot.accepts regextime x = slot.kind.accepts x.kind := by
  simp [Slot.accepts, ne]

namespace Placeholder

/-- The tag of timestamps is not named like a kind. -/
theorem ne_regextime_of_name {tag : Tag} {kind : Kind} (h : v.Regular)
    (known : v.tag? kind.name = some tag) : tag ≠ v.regextime := by
  rintro rfl
  have same := (Vocabulary.name?_of_tag? known).1.symm.trans (Vocabulary.name?_of_tag? h.name).1
  revert same
  cases kind <;> decide

/-- The tag and the kind that the name of a token stands for accept what the token's own do, just
when they are the same or the kinds are. -/
theorem accepts_subject_iff (h : v.Regular) (t : Token) :
    (∀ x, ({ Slot.ofToken t with tag := (subject v t).1, kind := (subject v t).2 } : Slot).accepts
        v.regextime x = (Slot.ofToken t).accepts v.regextime x) ↔
      (t.tag = .unknown → ∀ tag, v.tag? t.kind.name = some tag → v.kindOf tag = t.kind) := by
  by_cases unknown : t.tag = .unknown
  · have own : (Slot.ofToken t).tag ≠ v.regextime := fun eq =>
      (Vocabulary.name?_of_tag? h.name).2 (eq.symm.trans unknown)
    cases known : v.tag? t.kind.name with
    | none => simp [subject, unknown, known, Slot.ofToken]
    | some tag =>
      have other : ({ Slot.ofToken t with tag, kind := v.kindOf tag } : Slot).tag ≠ v.regextime :=
        ne_regextime_of_name h known
      simp only [subject, unknown, known, if_true, Slot.accepts_of_ne own,
        Slot.accepts_of_ne other, Option.some.injEq, forall_eq', forall_const]
      constructor
      · intro same
        have left : (v.kindOf tag).accepts t.kind :=
          (same { value := [], kind := t.kind }).trans (Kind.accepts_self _)
        have right : t.kind.accepts (v.kindOf tag) :=
          (same { value := [], kind := v.kindOf tag }).symm.trans (Kind.accepts_self _)
        exact Kind.accepts_antisymm left right
      · intro same x
        rw [same]
        rfl
  · simp [subject, unknown, Slot.ofToken]

end Placeholder

/-! ### Printing and reading -/

/-- A placeholder that comes about is printed as one that can be read again, with its modifier and
its stop word. What is read accepts the same tokens if and only if the placeholder has a tag or
there is no tag with the name and without the kind of its kind. -/
theorem Produced.exists_reading (h : v.Proper) (ht : Produced v t) (placeholder : t.isPlaceholder) :
    ∃ t', parse? v (body v t) = some t' ∧ t'.modifier = t.modifier ∧ t'.stop = t.stop ∧
      ((∀ x, (Slot.ofToken t').accepts v.regextime x = (Slot.ofToken t).accepts v.regextime x) ↔
        (t.tag = .unknown → ∀ tag, v.tag? t.kind.name = some tag → v.kindOf tag = t.kind)) := by
  have expressible := ht.isExpressible h placeholder
  exact ⟨_, parse?_body_eq h expressible, rfl, rfl, accepts_subject_iff h.toRegular t⟩

/-- In the vocabulary of any settings, what is read of a placeholder that comes about accepts the
same tokens if and only if the placeholder has a tag or there is no tag with the name and without
the kind of its kind. -/
theorem Produced.exists_parse?_body {compile : Vocabulary.Compiler} {s : Settings}
    (h : Vocabulary.build compile s = .ok v) (ht : Produced v t) (placeholder : t.isPlaceholder) :
    ∃ t', parse? v (body v t) = some t' ∧ t'.modifier = t.modifier ∧ t'.stop = t.stop ∧
      ((∀ x, (Slot.ofToken t').accepts v.regextime x = (Slot.ofToken t).accepts v.regextime x) ↔
        (t.tag = .unknown → ∀ tag, v.tag? t.kind.name = some tag → v.kindOf tag = t.kind)) :=
  ht.exists_reading (Vocabulary.proper_build h) placeholder

/-- A tag that is named like its own kind. -/
theorem Produced.exists_parse?_body_up : ∃ s v t t', Vocabulary.ofSettings s = .ok v ∧
    t ∈ Scan.message v "load 0.5".toList ∧ t.isPlaceholder ∧
    parse? v (body v t) = some t' ∧ t'.tag ≠ t.tag ∧
    ∀ x, (Slot.ofToken t').accepts v.regextime x = (Slot.ofToken t).accepts v.regextime x := by
  let s : Settings := { tags := ["float:float".toList] }
  let v : Vocabulary := {
    tags := [("float".toList, .float), ("regextime".toList, .time),
      ("multiline".toList, .multiline)]
    regextime := ⟨2⟩
    multiline := ⟨3⟩ }
  let t : Token := { value := "0.5".toList, kind := .float, spaceBefore := true }
  have h : Vocabulary.ofSettings s = .ok v := rfl
  have ht : t ∈ Scan.message v "load 0.5".toList := by decide +kernel
  obtain ⟨t', read, -, -, same⟩ := (Produced.message ht).exists_parse?_body h rfl
  have tagged : (parse? v (body v t)).map (·.tag) = some ⟨1⟩ := by decide +kernel
  rw [read] at tagged
  have other : t'.tag ≠ t.tag := fun eq => by
    rw [Option.map_some, eq] at tagged
    revert tagged
    decide
  refine ⟨s, v, t, t', h, ht, rfl, read, other, same.2 fun _ tag known => ?_⟩
  have first : v.tag? t.kind.name = some ⟨1⟩ := by decide +kernel
  obtain rfl : (⟨1⟩ : Tag) = tag := Option.some.inj (first.symm.trans known)
  rfl

/-- A tag that is named like another kind takes the name of that kind, so that an integer is printed
as a placeholder for any word. -/
theorem Produced.exists_parse?_body_other : ∃ s v t t' x, Vocabulary.ofSettings s = .ok v ∧
    t ∈ Scan.message v "x 5".toList ∧ t.isPlaceholder ∧ parse? v (body v t) = some t' ∧
    x ∈ Scan.message v "word".toList ∧ (Slot.ofToken t').accepts v.regextime x = true ∧
    (Slot.ofToken t).accepts v.regextime x = false := by
  let v : Vocabulary := {
    tags := [("integer".toList, .string), ("regextime".toList, .time),
      ("multiline".toList, .multiline)]
    regextime := ⟨2⟩
    multiline := ⟨3⟩ }
  refine ⟨{ tags := ["integer:string".toList] }, v,
    { value := "5".toList, kind := .integer, spaceBefore := true },
    { value := "%integer%".toList, kind := .string, tag := ⟨1⟩ }, .literal "word".toList, rfl, ?_⟩
  decide +kernel

end LogTemplate
