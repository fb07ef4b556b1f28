import LogTemplate.Line

/-!
# Placeholders of values

* `Token.IsValue` describes the placeholders that a scan of a message gives;
* `Placeholder.IsReadable` says that what is written for a token is read as a placeholder, which
  `Placeholder.isReadable_of_isValue` proves of such tokens, and `Placeholder.Restores` what is read;
* `Vocabulary.Regular` and `Vocabulary.regular_build` are about the tag of timestamps.
-/

namespace LogTemplate

namespace Vocabulary

variable {v : Vocabulary}

/-- Verified timestamps have the tag of their name, and its kind. -/
structure Regular (v : Vocabulary) : Prop where
  name : v.tag? regextimeName = some v.regextime
  kind : v.kindOf v.regextime = .time

theorem name?_of_tag? {name : Text} {tag : Tag} (h : v.tag? name = some tag) :
    v.name? tag = some name ∧ tag ≠ .unknown := by
  obtain ⟨i, hi, rfl⟩ := Option.map_eq_some_iff.1 h
  obtain ⟨lt, found, -⟩ := List.findIdx?_eq_some_iff_getElem.1 hi
  refine ⟨?_, by simp [Tag.unknown]⟩
  have : v.tags[i].1 = name := by simpa using found
  simp [name?, lt, this]

/-- A tag that is added changes nothing for the others. -/
theorem tag?_append {name : Text} {tag : Tag} (h : v.tag? name = some tag) (more : Text × Kind) :
    Vocabulary.tag? { v with tags := v.tags ++ [more] } name = some tag ∧
      Vocabulary.kindOf { v with tags := v.tags ++ [more] } tag = v.kindOf tag := by
  obtain ⟨i, hi, rfl⟩ := Option.map_eq_some_iff.1 h
  obtain ⟨lt, -⟩ := List.findIdx?_eq_some_iff_getElem.1 hi
  refine ⟨by simp [tag?, List.findIdx?_append, hi], ?_⟩
  simp [kindOf, List.getElem?_append_left lt]

theorem tag?_of_ensureTag {name : Text} {kind : Kind} {w : Vocabulary} {tag : Tag}
    (h : v.ensureTag name kind = .ok (w, tag)) :
    (w.tag? name = some tag ∧ w.kindOf tag = kind) ∧
      ∀ n t, v.tag? n = some t → w.tag? n = some t ∧ w.kindOf t = v.kindOf t := by
  unfold ensureTag at h
  cases known : v.tag? name with
  | some t =>
    simp only [known] at h
    split at h
    · next same =>
      cases h
      exact ⟨⟨known, same⟩, fun _ _ h => ⟨h, rfl⟩⟩
    · cases h
  | none =>
    simp only [known] at h
    cases h
    refine ⟨⟨?_, by simp [kindOf]⟩, fun n t h => tag?_append h _⟩
    have : v.tags.findIdx? (·.1 = name) = none := by simpa [tag?] using known
    simp [tag?, List.findIdx?_append, this]

theorem bind_eq_ok {ε α β : Type} {x : Except ε α} {f : α → Except ε β} {b : β} :
    x >>= f = .ok b ↔ ∃ a, x = .ok a ∧ f a = .ok b := by
  cases x <;> simp [bind, Except.bind]

/-- The steps of building a vocabulary. -/
theorem build_eq_ok {compile : Compiler} {s : Settings} (h : build compile s = .ok v) :
    ∃ u w x regextime multiline groups,
      addTags { markSpaces := s.markSpaces } s.tags = .ok u ∧
      u.ensureTag regextimeName .time = .ok (w, regextime) ∧
      w.ensureTag multilineName .multiline = .ok (x, multiline) ∧
      timeGroups compile s.regexes s.formats = .ok groups ∧
      v = { x with
        regextime, multiline
        keywords := x.keywordTable s.keywords
        prekeys := x.prekeyTable s.prekeys
        time := .ofGroups groups } := by
  unfold build at h
  cases fault : s.fault? with
  | some e =>
    simp only [fault] at h
    obtain ⟨_, thrown, -⟩ := bind_eq_ok.1 h
    cases thrown
  | none =>
    simp only [fault] at h
    obtain ⟨u, adds, h⟩ := bind_eq_ok.1 h
    obtain ⟨⟨w, regextime⟩, first, h⟩ := bind_eq_ok.1 h
    obtain ⟨⟨x, multiline⟩, second, h⟩ := bind_eq_ok.1 h
    obtain ⟨groups, timed, h⟩ := bind_eq_ok.1 h
    cases h
    exact ⟨u, w, x, regextime, multiline, groups, adds, first, second, timed, rfl⟩

/-- The vocabulary of settings is regular. -/
theorem regular_build {compile : Compiler} {s : Settings} (h : build compile s = .ok v) :
    v.Regular := by
  obtain ⟨u, w, x, regextime, multiline, groups, -, first, second, -, rfl⟩ := build_eq_ok h
  obtain ⟨name, kind⟩ := (tag?_of_ensureTag first).1
  obtain ⟨name', kind'⟩ := (tag?_of_ensureTag second).2 _ _ name
  exact ⟨name', kind'.trans kind⟩

end Vocabulary

/-- The token is a placeholder as a scan of a message gives it: a typed one, or a verified
timestamp with its group. -/
structure Token.IsValue (v : Vocabulary) (t : Token) : Prop where
  modifier : t.modifier = .single
  stop : t.stop = none
  meaning : (t.tag = .unknown ∧ t.kind.isPlaceholder) ∨
    (t.tag = v.regextime ∧ t.kind = .time ∧ ∃ n, t.group = some (Text.ofNat n))

namespace Placeholder

variable {v : Vocabulary} {t : Token} {b w : Text}

/-! ### Runs -/

/-- The characters of a body. -/
def IsBody (b : Text) : Prop := b ≠ [] ∧ ∀ c ∈ b, c ≠ '%' ∧ Text.isSpace c = false

theorem body?_append (h : ∀ c ∈ b, c ≠ '%' ∧ Text.isSpace c = false) (w : Text) :
    body? (b ++ '%' :: w) = some (b, w) := by
  induction b with
  | nil => simp [body?]
  | cons c b ih =>
    obtain ⟨percent, space⟩ := h c List.mem_cons_self
    simp [body?, percent, space, ih fun d hd => h d (List.mem_cons_of_mem _ hd)]

theorem run?_append (h : IsBody b) (w : Text) : run? ('%' :: b ++ '%' :: w) = some (b, w) := by
  obtain ⟨ne, chars⟩ := h
  obtain ⟨c, b, rfl⟩ := List.exists_cons_of_ne_nil ne
  rw [List.cons_append, run?]
  rw [body?_append chars]

/-- The body of the token is one, and is read as a placeholder. -/
structure IsReadable (v : Vocabulary) (t : Token) : Prop where
  body : IsBody (body v t)
  parse : (parse? v (Placeholder.body v t)).isSome

/-- The text of a token that can be read is a run. -/
theorem IsReadable.run?_print (h : IsReadable v t) (w : Text) :
    run? (print v t ++ w) = some (Placeholder.body v t, w) := by
  simpa [print] using run?_append h.body w

/-! ### Bodies of values -/

/-- Whether a text has the characters of a body. -/
def hasBodyChars (b : Text) : Bool := b.all fun c => c != '%' && !Text.isSpace c

theorem hasBodyChars_iff : hasBodyChars b ↔ ∀ c ∈ b, c ≠ '%' ∧ Text.isSpace c = false := by
  simp [hasBodyChars]

theorem hasBodyChars_append : hasBodyChars (b ++ w) = (hasBodyChars b && hasBodyChars w) :=
  List.all_append

theorem hasBodyChars_of_isBody (h : IsBody b) : hasBodyChars b := hasBodyChars_iff.2 h.2

theorem IsBody.append (h : IsBody b) (hw : hasBodyChars w) : IsBody (b ++ w) :=
  ⟨by simp [h.1],
    hasBodyChars_iff.1 (by rw [hasBodyChars_append, hasBodyChars_of_isBody h, hw]; rfl)⟩

theorem isBody_name (k : Kind) : IsBody k.name ∧ ':' ∉ k.name := by
  unfold IsBody
  rw [← hasBodyChars_iff]
  cases k <;> decide

theorem isDigit_ofNat {n : Nat} {c : Char} (h : c ∈ Text.ofNat n) : c.isDigit :=
  Nat.isDigit_of_mem_toDigits (by decide) (by decide) h

theorem ofNat_ne_nil (n : Nat) : Text.ofNat n ≠ [] := Nat.toDigits_ne_nil

theorem isGroup_ofNat (n : Nat) : isGroup (Text.ofNat n) := by
  simp only [isGroup, Bool.and_eq_true, List.all_eq_true, Bool.not_eq_true',
    List.isEmpty_eq_false_iff]
  exact ⟨ofNat_ne_nil n, fun c hc => isDigit_ofNat hc⟩

/-- No digit is white space. -/
theorem isSpace_of_isDigit {c : Char} (h : c.isDigit) : Text.isSpace c = false := by
  simp only [Char.isDigit, Bool.and_eq_true, decide_eq_true_eq, ge_iff_le,
    UInt32.le_iff_toNat_le] at h
  have low : 48 ≤ c.toNat := h.1
  have high : c.toNat ≤ 57 := h.2
  simp only [Text.isSpace, Bool.or_eq_false_iff, Bool.and_eq_false_iff, decide_eq_false_iff_not,
    beq_eq_false_iff_ne]
  omega

theorem hasBodyChars_group (h : isGroup w) : hasBodyChars w := by
  simp only [isGroup, Bool.and_eq_true, List.all_eq_true] at h
  exact hasBodyChars_iff.2 fun c hc =>
    ⟨by rintro rfl; exact absurd (h.2 _ hc) (by decide), isSpace_of_isDigit (h.2 c hc)⟩

theorem colon_not_mem_group (h : isGroup w) : ':' ∉ w := by
  simp only [isGroup, Bool.and_eq_true, List.all_eq_true] at h
  exact fun mem => absurd (h.2 _ mem) (by decide)

theorem cut?_of_not_mem {mark : Char} (h : mark ∉ b) : Text.cut? mark b = none := by
  induction b with
  | nil => rfl
  | cons c b ih =>
    simp only [List.mem_cons, not_or] at h
    simp [Text.cut?, Ne.symm h.1, ih h.2]

theorem cut?_append {mark : Char} (h : mark ∉ b) (w : Text) :
    Text.cut? mark (b ++ mark :: w) = some (b, w) := by
  induction b with
  | nil => simp [Text.cut?]
  | cons c b ih =>
    simp only [List.mem_cons, not_or] at h
    simp [Text.cut?, Ne.symm h.1, ih h.2]

theorem body_of_unknown (tag : t.tag = .unknown) (modifier : t.modifier = .single)
    (stop : t.stop = none) : body v t = t.kind.name := by
  simp [body, tag, runSuffix, stop, modifier, Modifier.sign?]

theorem body_of_group (h : v.Regular) (tag : t.tag = v.regextime) {g : Text}
    (group : t.group = some g) : body v t = Vocabulary.regextimeName ++ ':' :: g := by
  obtain ⟨name, known⟩ := Vocabulary.name?_of_tag? h.name
  simp [body, tag, known, group, name]

/-- A tag without suffixes is written as its name. -/
theorem body_of_name {name : Text} {tag : Tag} (h : v.tag? name = some tag) (value : Text) :
    body v { value, kind := v.kindOf tag, tag } = name := by
  obtain ⟨known, ne⟩ := Vocabulary.name?_of_tag? h
  simp [body, ne, known, body.suffixes, runSuffix, Modifier.sign?]

theorem isBody_body (h : v.Regular) (ht : t.IsValue v) : IsBody (body v t) := by
  rcases ht.meaning with ⟨tag, -⟩ | ⟨tag, -, n, group⟩
  · rw [body_of_unknown tag ht.modifier ht.stop]
    exact (isBody_name t.kind).1
  · have chars : hasBodyChars Vocabulary.regextimeName := by decide
    have name : IsBody Vocabulary.regextimeName := ⟨by decide, hasBodyChars_iff.1 chars⟩
    rw [body_of_group h tag group]
    refine name.append ?_
    rw [show ':' :: Text.ofNat n = ":".toList ++ Text.ofNat n from rfl, hasBodyChars_append,
      hasBodyChars_group (isGroup_ofNat n)]
    rfl

/-- The body of a value is read as a placeholder that is written in the same way. -/
theorem parse?_body (h : v.Regular) (ht : t.IsValue v) :
    ∃ t', parse? v (body v t) = some t' ∧ t'.isPlaceholder ∧ print v t' = print v t ∧
      (t'.kind = t.kind ∨ ∃ tag, v.tag? t.kind.name = some tag ∧ t'.kind = v.kindOf tag) := by
  rcases ht.meaning with ⟨tag, kind⟩ | ⟨tag, kind, n, group⟩
  · have body : body v t = t.kind.name := body_of_unknown tag ht.modifier ht.stop
    rw [print, body]
    simp only [parse?, cut?_of_not_mem (isBody_name t.kind).2]
    cases known : v.tag? t.kind.name with
    | some tag =>
      refine ⟨{ value := '%' :: t.kind.name ++ ['%'], kind := v.kindOf tag, tag },
        by simp [subject?, known], ?_, ?_, Or.inr ⟨tag, rfl, rfl⟩⟩
      · simp [Token.isPlaceholder, (Vocabulary.name?_of_tag? known).2]
      · rw [print, body_of_name known]
    | none =>
      refine ⟨{ value := '%' :: t.kind.name ++ ['%'], kind := t.kind },
        by simp [subject?, known, Kind.ofName?_name, Option.filter, kind, Tag.unknown], ?_, ?_,
        Or.inl rfl⟩
      · simp [Token.isPlaceholder, kind]
      · rw [print, body_of_unknown rfl rfl rfl]
  · have body : body v t = Vocabulary.regextimeName ++ ':' :: Text.ofNat n :=
      body_of_group h tag group
    have name : ':' ∉ Vocabulary.regextimeName := by decide
    have digits : ':' ∉ Text.ofNat n := colon_not_mem_group (isGroup_ofNat n)
    have regextime : v.regextime ≠ .unknown := (Vocabulary.name?_of_tag? h.name).2
    rw [print, body]
    simp only [parse?, cut?_append name, subject?, h.name, cut?_of_not_mem digits, withSuffix?,
      isGroup_ofNat, Bool.and_true, if_true, decide_true]
    refine ⟨_, rfl, ?_, ?_, Or.inl (h.kind.trans kind.symm)⟩
    · simp [Token.isPlaceholder, regextime]
    · rw [print, body_of_group h rfl rfl]

/-- A value can be read. -/
theorem isReadable_of_isValue (h : v.Regular) (ht : t.IsValue v) : IsReadable v t := by
  obtain ⟨t', parsed, -⟩ := parse?_body h ht
  exact ⟨isBody_body h ht, by rw [parsed]; rfl⟩

/-- What is written for the placeholder `t` is read as the placeholder `u`, which is written in the
same way. -/
structure Restores (v : Vocabulary) (t u : Token) : Prop where
  placeholder : t.isPlaceholder
  body : IsBody (body v t)
  parse : parse? v (Placeholder.body v t) = some u
  restored : u.isPlaceholder
  print : print v u = print v t

theorem Restores.isReadable {u : Token} (h : Restores v t u) : IsReadable v t :=
  ⟨h.body, by rw [h.parse]; rfl⟩

/-- A value is read as one of its kind, or of the tag that has the name of its kind. -/
theorem exists_restores (h : v.Regular) (ht : t.IsValue v) (placeholder : t.isPlaceholder) :
    ∃ u, Restores v t u ∧
      (u.kind = t.kind ∨ ∃ tag, v.tag? t.kind.name = some tag ∧ u.kind = v.kindOf tag) := by
  obtain ⟨u, parsed, restored, print, kind⟩ := parse?_body h ht
  exact ⟨u, ⟨placeholder, isBody_body h ht, parsed, restored, print⟩, kind⟩

end Placeholder

end LogTemplate
