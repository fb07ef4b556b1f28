import LogTemplate.Proofs.Layout
import LogTemplate.Proofs.Written

/-!
# The notation of placeholders

* `Placeholder.IsExpressible` describes the tokens all parts of which have a place in the notation,
  `Placeholder.parse?_body_eq` what is read from what is written for such a token: the token, but
  with the tag and the kind of `Placeholder.subject`, which its name stands for;
* `Placeholder.Completes` says what the suffixes of a body make of the tag and the kind of its name,
  and `Placeholder.isExpressible_of_parse?` that all that is read is expressible under its own name;
* `Placeholder.parse?_print_of_parse?` puts these together: printing inverts reading.
-/

namespace LogTemplate

theorem Kind.name_of_ofName? {name : Text} {kind : Kind} (h : ofName? name = some kind) :
    kind.name = name := by
  simpa using List.find?_some h

namespace Placeholder

open Vocabulary

variable {v : Vocabulary} {t u : Token} {name b w first : Text} {tag : Tag} {kind : Kind}

/-! ### What is written -/

/-- The tag and the kind that the name written for a token stands for. A token without a tag is
written by the name of its kind, and a tag of that name comes first. -/
def subject (v : Vocabulary) (t : Token) : Tag × Kind :=
  if t.tag = .unknown then
    match v.tag? t.kind.name with
    | some tag => (tag, v.kindOf tag)
    | none => (.unknown, t.kind)
  else (t.tag, t.kind)

/-- All parts of the token have a place in the notation: a stop word stands behind a run whose kind
is not overridden, and a group behind the tag of timestamps and nothing else. -/
structure IsExpressible (v : Vocabulary) (t : Token) : Prop extends IsWritable v t where
  run : ∀ word ∈ t.stop, t.modifier = .minus ∧ (t.tag ≠ .unknown → t.kind = v.kindOf t.tag)
  timestamp : ∀ g ∈ t.group, t.tag = v.regextime ∧ t.kind = v.kindOf t.tag ∧
    t.modifier = .single ∧ t.stop = none

theorem IsExpressible.congr (h : IsExpressible v t) (same : Slot.ofToken t = Slot.ofToken u) :
    IsExpressible v u := by
  obtain ⟨tag, kind, modifier, stop, group⟩ := Slot.mk.inj same
  refine ⟨h.toIsWritable.congr same, ?_, ?_⟩
  · rw [← tag, ← kind, ← modifier, ← stop]
    exact h.run
  · rw [← tag, ← kind, ← modifier, ← stop, ← group]
    exact h.timestamp

/-- Only what has a stop word is a run up to it. -/
theorem IsExpressible.modifier_eq (h : IsExpressible v t) :
    (if t.stop.isSome then .minus else t.modifier) = t.modifier := by
  cases stop : t.stop with
  | none => rfl
  | some word => exact (h.run word stop).1.symm

/-- Only a timestamp, which has a tag, has a group. -/
theorem IsExpressible.group_eq_none (h : v.Regular) (ht : IsExpressible v t)
    (unknown : t.tag = .unknown) : t.group = none := by
  rw [Option.eq_none_iff_forall_not_mem]
  intro g hg
  have time := (name?_of_tag? h.name).2
  exact time ((ht.timestamp g hg).1.symm.trans unknown)

theorem isSubject_subject (h : t.kind.isPlaceholder) (unknown : t.tag = .unknown) :
    IsSubject v t.kind.name (subject v t).1 (subject v t).2 := by
  obtain ⟨body, colon⟩ := isBody_name t.kind
  refine ⟨body, colon, ?_⟩
  cases known : v.tag? t.kind.name with
  | some tag => simp [subject, subject?, unknown, known]
  | none => simp [subject, subject?, unknown, known, Kind.ofName?_name, Option.filter, h]

/-- An untagged token is read under what the name of its kind stands for. -/
theorem parse?_body_of_unknown (h : v.Regular) (ht : IsExpressible v t)
    (unknown : t.tag = .unknown) :
    parse? v (body v t) =
      some { value := Placeholder.run (body v t), tag := (subject v t).1, kind := (subject v t).2
             modifier := t.modifier, stop := t.stop, group := t.group } := by
  have kind : t.kind.isPlaceholder := by
    rcases ht.meaning with ⟨-, kind⟩ | ⟨⟨name, known⟩, -⟩
    · exact kind
    · exact absurd unknown (name?_of_tag? known).2
  have written : body v t = t.kind.name ++ runSuffix t false := by simp [body, unknown]
  rw [written, parse?_runSuffix (isSubject_subject kind unknown) ht.stop, ht.modifier_eq,
    ht.group_eq_none h unknown]

/-- A tagged token is read as it is. -/
theorem parse?_body_of_tagged (h : v.Proper) (ht : IsExpressible v t) (tagged : t.tag ≠ .unknown) :
    parse? v (body v t) =
      some { value := Placeholder.run (body v t), tag := t.tag, kind := t.kind
             modifier := t.modifier, stop := t.stop, group := t.group } := by
  obtain ⟨⟨name, known⟩, kind⟩ := ht.meaning.resolve_left fun unknown => tagged unknown.1
  have isSubject := isSubject_of_tag? h known
  obtain ⟨named, -⟩ := name?_of_tag? known
  cases group : t.group with
  | some g =>
    obtain ⟨time, kind, single, unstopped⟩ := ht.timestamp g group
    have written : body v t = name ++ (":".toList ++ g) := by
      simp [body, group, time ▸ tagged, time ▸ named, time]
    rw [time] at isSubject
    rw [written, parse?_group isSubject (ht.group time g group), single, unstopped, kind, time]
  | none =>
    have written : body v t = name ++ body.suffixes v t := by simp [body, tagged, named, group]
    by_cases same : t.kind = v.kindOf t.tag
    · have suffixes : body.suffixes v t = runSuffix t true := by simp [body.suffixes, same]
      rw [written, suffixes, parse?_runSuffix isSubject ht.stop, ht.modifier_eq, same]
    · -- An overridden kind leaves no place for a stop word.
      have unstopped : t.stop = none := by
        rw [Option.eq_none_iff_forall_not_mem]
        exact fun word hw => same ((ht.run word hw).2 tagged)
      have suffixes : body.suffixes v t = ":".toList ++ t.kind.name ++ runSuffix t false := by
        simp [body.suffixes, bne_iff_ne.2 same, unstopped]
      rw [written, suffixes, parse?_override isSubject tagged (kind.resolve_left same) unstopped,
        unstopped]

/-- What is written for a token is read as the token, under the tag and the kind that its name
stands for. -/
theorem parse?_body_eq (h : v.Proper) (ht : IsExpressible v t) :
    parse? v (body v t) =
      some { value := Placeholder.run (body v t), tag := (subject v t).1, kind := (subject v t).2
             modifier := t.modifier, stop := t.stop, group := t.group } := by
  by_cases unknown : t.tag = .unknown
  · exact parse?_body_of_unknown h.toRegular ht unknown
  · have own : subject v t = (t.tag, t.kind) := if_neg unknown
    rw [own]
    exact parse?_body_of_tagged h ht unknown

/-! ### What is read -/

/-- What the suffixes of a body make of the tag and the kind of its name. -/
structure Completes (v : Vocabulary) (known : Tag) (kind : Kind) (t : Token) : Prop where
  tagged : t.tag = known
  kinded : t.kind = kind ∨ (known ≠ .unknown ∧ t.stop = none ∧ t.group = none)
  stop : ∀ word ∈ t.stop, t.modifier = .minus
  group : ∀ g ∈ t.group,
    known = v.regextime ∧ t.kind = kind ∧ t.modifier = .single ∧ t.stop = none

theorem ne_unknown_of_override? {k : Kind} (h : override? name tag = some k) : tag ≠ .unknown := by
  rintro rfl
  cases h

theorem completes_withSuffix? {value : Text}
    (h : withSuffix? v { value, kind, tag } w = some t) : Completes v tag kind t := by
  unfold withSuffix? at h
  split at h
  · next verified =>
    cases h
    simp only [Bool.and_eq_true, decide_eq_true_eq] at verified
    exact ⟨rfl, .inl rfl, by simp, fun _ _ => ⟨verified.1, rfl, rfl, rfl⟩⟩
  · split at h
    · cases h
      exact ⟨rfl, .inl rfl, by simp, by simp⟩
    · split at h
      · cases h
      · obtain ⟨k, found, rfl⟩ := Option.map_eq_some_iff.1 h
        exact ⟨rfl, .inr ⟨ne_unknown_of_override? found, rfl, rfl⟩, by simp, by simp⟩

theorem completes_withSuffixes? {value : Text}
    (h : withSuffixes? { value, kind, tag } first w = some t) : Completes v tag kind t := by
  unfold withSuffixes? at h
  split at h
  · split at h
    · cases h
    · cases h
      exact ⟨rfl, .inl rfl, fun _ _ => rfl, by simp⟩
  · split at h
    · cases h
    · next k found =>
      obtain ⟨m, -, rfl⟩ := Option.map_eq_some_iff.1 h
      split at found
      · cases found
        exact ⟨rfl, .inl rfl, by simp, by simp⟩
      · exact ⟨rfl, .inr ⟨ne_unknown_of_override? found, rfl, rfl⟩, by simp, by simp⟩

/-- Reading a body completes the tag and the kind of a name. -/
theorem completes_of_parse? (read : parse? v b = some t) :
    ∃ name tag kind, subject? v name = some (tag, kind) ∧ Completes v tag kind t := by
  unfold parse? at read
  split at read
  next name suffixes _ =>
  split at read
  · cases read
  · next tag kind found =>
    refine ⟨name, tag, kind, found, ?_⟩
    split at read
    · cases read
      exact ⟨rfl, .inl rfl, by simp, by simp⟩
    · split at read
      · exact completes_withSuffix? read
      · exact completes_withSuffixes? read

/-- A name without a tag is that of a kind. -/
theorem subject?_unknown (h : subject? v name = some (.unknown, kind)) :
    v.tag? kind.name = none := by
  unfold subject? at h
  split at h
  · next tag known =>
    cases h
    exact absurd rfl (name?_of_tag? known).2
  · next unknown =>
    obtain ⟨k, found, eq⟩ := Option.map_eq_some_iff.1 h
    cases eq
    rw [Kind.name_of_ofName? (Option.filter_eq_some_iff.1 found).1]
    exact unknown

/-- What is read is expressible, and what is written for it stands for its own tag and kind. -/
theorem isExpressible_of_parse? (h : v.Regular) (hb : IsBody b) (read : parse? v b = some t) :
    IsExpressible v t ∧ subject v t = (t.tag, t.kind) := by
  obtain ⟨name, tag, kind, found, tagged, kinded, stop, group⟩ := completes_of_parse? read
  have known : tag ≠ .unknown → kind = v.kindOf tag := fun ne =>
    ((meaning_of_subject? found).resolve_left fun unknown => ne unknown.1).2
  have own : ∀ word ∈ t.stop, t.kind = kind := fun word hw =>
    kinded.resolve_right fun ⟨_, unstopped, _⟩ => by rw [unstopped] at hw; cases hw
  refine ⟨⟨isWritable_of_parse? hb read, fun word hw => ⟨stop word hw, fun ne => ?_⟩,
    fun g hg => ?_⟩, ?_⟩
  · rw [own word hw, tagged]
    exact known (tagged ▸ ne)
  · obtain ⟨time, same, single, unstopped⟩ := group g hg
    have ne : tag ≠ .unknown := time ▸ (name?_of_tag? h.name).2
    exact ⟨tagged.trans time, by rw [same, tagged]; exact known ne, single, unstopped⟩
  · unfold subject
    split
    · next unknown =>
      obtain rfl : tag = .unknown := tagged.symm.trans unknown
      have same : t.kind = kind := kinded.resolve_right fun overridden => overridden.1 rfl
      rw [same, subject?_unknown found, unknown]
    · rfl

/-- What is read gives itself again when it is written and read once more. -/
theorem parse?_body_of_parse? (h : v.Proper) (hb : IsBody b) (read : parse? v b = some t) :
    ∃ t', parse? v (body v t) = some t' ∧ Slot.ofToken t' = Slot.ofToken t := by
  obtain ⟨expressible, own⟩ := isExpressible_of_parse? h.toRegular hb read
  refine ⟨_, parse?_body_eq h expressible, ?_⟩
  rw [Slot.ofToken, own]
  rfl

/-- Printing inverts reading: what is printed for the placeholder of a body is a single run, whose
body is read as a placeholder of the same slot. So two bodies are printed alike if and only if their
placeholders have the same slot. -/
theorem run?_print_of_parse? (h : v.Proper) (hb : IsBody b) (read : parse? v b = some t) :
    run? (print v t) = some (body v t, []) ∧
    (∃ t', parse? v (body v t) = some t' ∧ Slot.ofToken t' = Slot.ofToken t) ∧
    ∀ b' t', IsBody b' → parse? v b' = some t' →
      (print v t = print v t' ↔ Slot.ofToken t = Slot.ofToken t') := by
  have readable := isReadable h (isWritable_of_parse? hb read)
  refine ⟨by simpa using readable.run?_print [], parse?_body_of_parse? h hb read,
    fun b' t' hb' read' => ⟨fun same => ?_, print_congr⟩⟩
  have bodies : body v t = body v t' := by simpa [print] using same
  obtain ⟨u, again, slot⟩ := parse?_body_of_parse? h hb read
  obtain ⟨u', again', slot'⟩ := parse?_body_of_parse? h hb' read'
  rw [bodies, again'] at again
  cases again
  exact slot.symm.trans slot'

/-- In the vocabulary of any settings, printing inverts reading: a single run is printed, which is
read as a placeholder of the same slot, and placeholders of other slots are printed otherwise. -/
theorem parse?_print_of_parse? {compile : Vocabulary.Compiler} {s : Settings}
    (h : Vocabulary.build compile s = .ok v) (hb : IsBody b) (read : parse? v b = some t) :
    run? (print v t) = some (body v t, []) ∧
    (∃ t', parse? v (body v t) = some t' ∧ Slot.ofToken t' = Slot.ofToken t) ∧
    ∀ b' t', IsBody b' → parse? v b' = some t' →
      (print v t = print v t' ↔ Slot.ofToken t = Slot.ofToken t') :=
  run?_print_of_parse? (Vocabulary.proper_build h) hb read

/-- An override that says what the tag says anyway is not printed. -/
theorem parse?_print_of_parse?_up : ∃ s v t,
    Vocabulary.ofSettings s = .ok v ∧ IsBody "port:integer:+".toList ∧
    parse? v "port:integer:+".toList = some t ∧ print v t = "%port::+%".toList ∧
    run? (print v t) = some ("port::+".toList, []) ∧
    ∃ t', parse? v "port::+".toList = some t' ∧ Slot.ofToken t' = Slot.ofToken t := by
  let s : Settings := { tags := ["port:integer".toList] }
  let v : Vocabulary := {
    tags := [("port".toList, .integer), ("regextime".toList, .time),
      ("multiline".toList, .multiline)]
    regextime := ⟨2⟩
    multiline := ⟨3⟩ }
  let t : Token := {
    value := "%port:integer:+%".toList, kind := .integer, tag := ⟨1⟩, modifier := .plus }
  have h : Vocabulary.ofSettings s = .ok v := rfl
  have hb : IsBody "port:integer:+".toList :=
    ⟨by decide, hasBodyChars_iff.1 (by decide +kernel)⟩
  have read : parse? v "port:integer:+".toList = some t := by decide +kernel
  have printed : body v t = "port::+".toList := by decide +kernel
  obtain ⟨run, again, -⟩ := parse?_print_of_parse? h hb read
  rw [printed] at run again
  exact ⟨s, v, t, h, hb, read, by rw [print, printed]; rfl, run, again⟩

end Placeholder

end LogTemplate
