import LogTemplate.Proofs.Slice
import LogTemplate.Proofs.Vocabulary

/-!
# What is written for a placeholder

* `Placeholder.IsWritable` describes the tokens that have a written form, with hinted tags,
  overridden kinds, runs, stop words and timestamp groups;
* `Placeholder.parse?_runSuffix`, `parse?_override` and `parse?_group` tell what is read from each
  written form, and `Placeholder.isReadable` that the body of such a token is one and is read as a
  placeholder;
* `Placeholder.isWritable_of_parse?` says that what is read has a written form.
-/

namespace LogTemplate.Placeholder

open Vocabulary

variable {v : Vocabulary} {t u : Token} {name b w first : Text} {tag : Tag} {kind : Kind}

/-- The token has a written form: its kind is that of its tag or one of placeholders, its stop word
has the characters of a body, and the group of a verified timestamp is a number. -/
structure IsWritable (v : Vocabulary) (t : Token) : Prop where
  meaning : (t.tag = .unknown ∧ t.kind.isPlaceholder) ∨
    (v.Knows t.tag ∧ (t.kind = v.kindOf t.tag ∨ t.kind.isPlaceholder))
  stop : ∀ word ∈ t.stop, IsBody word
  group : t.tag = v.regextime → ∀ g ∈ t.group, isGroup g

/-- A written form is that of the slot. -/
theorem IsWritable.congr (h : IsWritable v t) (same : Slot.ofToken t = Slot.ofToken u) :
    IsWritable v u := by
  obtain ⟨tag, kind, -, stop, group⟩ := Slot.mk.inj same
  exact ⟨by rw [← tag, ← kind]; exact h.meaning, by rw [← stop]; exact h.stop,
    by rw [← tag, ← group]; exact h.group⟩

/-- The name stands for this tag and this kind, and ends where a suffix begins. -/
structure IsSubject (v : Vocabulary) (name : Text) (tag : Tag) (kind : Kind) : Prop where
  body : IsBody name
  colon : ':' ∉ name
  read : subject? v name = some (tag, kind)

/-- The forms of what is written for a token: behind a name, which may be that of a timestamp with
its group, stand an overriding kind and the suffix of a run. -/
inductive IsForm (v : Vocabulary) (t : Token) : Text → Prop
  | run {name : Text} {tag : Tag} {kind : Kind} (subject : IsSubject v name tag kind)
      (bare : Bool) : IsForm v t (name ++ runSuffix t bare)
  | override {name : Text} {tag : Tag} {kind : Kind} (subject : IsSubject v name tag kind)
      (ne : tag ≠ .unknown) (placeholder : t.kind.isPlaceholder) (stop : t.stop = none) :
      IsForm v t (name ++ (":".toList ++ t.kind.name ++ runSuffix t false))
  | group {name group : Text} {kind : Kind} (subject : IsSubject v name v.regextime kind)
      (isGroup : isGroup group) : IsForm v t (name ++ (":".toList ++ group))

/-! ### Names -/

/-- The numbers of letters and digits. -/
theorem toNat_of_isAlphanum {c : Char} (h : c.isAlphanum) :
    (65 ≤ c.toNat ∧ c.toNat ≤ 90) ∨ (97 ≤ c.toNat ∧ c.toNat ≤ 122) ∨
      (48 ≤ c.toNat ∧ c.toNat ≤ 57) := by
  rcases Bool.or_eq_true_iff.1 h with letter | digit
  · rcases Bool.or_eq_true_iff.1 letter with upper | lower
    · obtain ⟨low, high⟩ := of_decide_eq_true upper
      exact .inl ⟨UInt32.le_iff_toNat_le.1 low, UInt32.le_iff_toNat_le.1 high⟩
    · obtain ⟨low, high⟩ := Bool.and_eq_true_iff.1 lower
      exact .inr (.inl ⟨UInt32.le_iff_toNat_le.1 (of_decide_eq_true low),
        UInt32.le_iff_toNat_le.1 (of_decide_eq_true high)⟩)
  · obtain ⟨low, high⟩ := Bool.and_eq_true_iff.1 digit
    exact .inr (.inr ⟨UInt32.le_iff_toNat_le.1 (of_decide_eq_true low),
      UInt32.le_iff_toNat_le.1 (of_decide_eq_true high)⟩)

/-- No character of a tag's name is a mark or white space. -/
theorem isBody_of_isTagName (h : IsTagName name) : IsBody name ∧ ':' ∉ name := by
  have marks : ∀ c : Char, c.isAlphanum ∨ c = '_' → c ≠ '%' ∧ c ≠ ':' ∧ Text.isSpace c = false := by
    rintro c (h | rfl)
    · have number := toNat_of_isAlphanum h
      refine ⟨by rintro rfl; revert h; decide, by rintro rfl; revert h; decide, ?_⟩
      simp only [Text.isSpace, Bool.or_eq_false_iff, Bool.and_eq_false_iff,
        decide_eq_false_iff_not, beq_eq_false_iff_ne]
      omega
    · decide
  exact ⟨⟨h.1, fun c hc => ⟨(marks c (h.2 c hc)).1, (marks c (h.2 c hc)).2.2⟩⟩,
    fun mem => (marks ':' (h.2 ':' mem)).2.1 rfl⟩

theorem isSubject_of_tag? (h : v.Proper) (known : v.tag? name = some tag) :
    IsSubject v name tag (v.kindOf tag) := by
  obtain ⟨body, colon⟩ := isBody_of_isTagName (h.isTagName known)
  exact ⟨body, colon, by simp [subject?, known]⟩

/-- The name of a kind is one of a placeholder, be it as a tag's name. -/
theorem exists_isSubject (v : Vocabulary) (h : kind.isPlaceholder) :
    ∃ tag kind', IsSubject v kind.name tag kind' := by
  obtain ⟨body, colon⟩ := isBody_name kind
  cases known : v.tag? kind.name with
  | some tag => exact ⟨tag, v.kindOf tag, body, colon, by simp [subject?, known]⟩
  | none =>
    exact ⟨.unknown, kind, body, colon, by
      simp [subject?, known, Kind.ofName?_name, Option.filter, h]⟩

theorem override?_name (h : kind.isPlaceholder) (ne : tag ≠ .unknown) :
    override? kind.name tag = some kind := by
  simp [override?, ne, Kind.ofName?_name, Option.filter, h]

/-! ### Suffixes -/

theorem parse?_name (h : IsSubject v name tag kind) :
    parse? v name = some { value := run name, kind, tag } := by
  simp only [parse?, cut?_of_not_mem h.colon, h.read]
  rfl

theorem parse?_suffix (h : IsSubject v name tag kind) (colon : ':' ∉ w) :
    parse? v (name ++ ':' :: w) =
      withSuffix? v { value := run (name ++ ':' :: w), kind, tag } w := by
  simp only [parse?, cut?_append h.colon, h.read, cut?_of_not_mem colon]
  rfl

theorem parse?_suffixes (h : IsSubject v name tag kind) (colon : ':' ∉ first) (second : Text) :
    parse? v (name ++ ':' :: (first ++ ':' :: second)) =
      withSuffixes? { value := run (name ++ ':' :: (first ++ ':' :: second)), kind, tag }
        first second := by
  simp only [parse?, cut?_append h.colon, h.read, cut?_append colon]
  rfl

theorem colon_not_mem_sign {m : Modifier} (h : m.sign? = some w) : ':' ∉ w := by
  cases m <;> simp [Modifier.sign?] at h <;> subst h <;> decide

/-- No sign is a number. -/
theorem not_isGroup_sign {m : Modifier} (h : m.sign? = some w) : isGroup w = false := by
  cases m <;> simp [Modifier.sign?] at h <;> subst h <;> decide

/-- Behind a name, whatever is written for a run is read, as a run up to its stop word if it has
one. -/
theorem parse?_runSuffix (h : IsSubject v name tag kind) (stop : ∀ word ∈ t.stop, IsBody word)
    (bare : Bool) :
    parse? v (name ++ runSuffix t bare) =
      some { value := run (name ++ runSuffix t bare), kind, tag, stop := t.stop
             modifier := if t.stop.isSome then .minus else t.modifier } := by
  cases eq : t.stop with
  | some word =>
    have ne : word ≠ [] := (stop word eq).1
    have suffix : runSuffix t bare = ':' :: (['-'] ++ ':' :: word) := by simp [runSuffix, eq]
    rw [suffix, parse?_suffixes h (show ':' ∉ ['-'] by decide) word]
    simp [withSuffixes?, ne]
  | none =>
    cases signed : t.modifier.sign? with
    | some sign =>
      have read := Modifier.ofSign?_eq_some_iff.2 signed
      cases bare with
      | true =>
        have suffix : runSuffix t true = ':' :: ([] ++ ':' :: sign) := by
          simp [runSuffix, eq, signed]
        rw [suffix, parse?_suffixes h (show ':' ∉ [] by simp) sign]
        simp [withSuffixes?, read]
      | false =>
        have suffix : runSuffix t false = ':' :: sign := by simp [runSuffix, eq, signed]
        rw [suffix, parse?_suffix h (colon_not_mem_sign signed)]
        simp [withSuffix?, not_isGroup_sign signed, read]
    | none =>
      have single : t.modifier = .single := by cases m : t.modifier <;> simp_all [Modifier.sign?]
      have suffix : runSuffix t bare = [] := by simp [runSuffix, eq, signed]
      rw [suffix, List.append_nil, parse?_name h]
      simp [single]

/-- Behind a name, a kind is read as one that overrides, if there is such an override. -/
theorem parse?_override_eq (k : Kind) (h : IsSubject v name tag kind) (stop : t.stop = none) :
    parse? v (name ++ (":".toList ++ k.name ++ runSuffix t false)) =
      (override? k.name tag).map fun kind =>
        { value := run (name ++ (":".toList ++ k.name ++ runSuffix t false)), kind, tag
          modifier := t.modifier } := by
  have nonempty : k.name ≠ [] := (isBody_name k).1.1
  cases signed : t.modifier.sign? with
  | some m =>
    have sign : k.name ≠ ['-'] := by cases k <;> decide
    have read := Modifier.ofSign?_eq_some_iff.2 signed
    have suffixes : ":".toList ++ k.name ++ runSuffix t false = ':' :: (k.name ++ ':' :: m) := by
      simp [runSuffix, stop, signed]
    rw [suffixes, parse?_suffixes h (isBody_name k).2 m]
    cases found : override? k.name tag with
    | none => simp [withSuffixes?, nonempty, sign, found]
    | some kind => simp [withSuffixes?, nonempty, sign, found, read]
  | none =>
    have single : t.modifier = .single := by cases m : t.modifier <;> simp_all [Modifier.sign?]
    have suffix : ":".toList ++ k.name ++ runSuffix t false = ':' :: k.name := by
      simp [runSuffix, stop, signed]
    have digits : isGroup k.name = false := by cases k <;> decide
    have sign : Modifier.ofSign? k.name = none := by cases k <;> decide
    rw [suffix, parse?_suffix h (isBody_name k).2]
    simp [withSuffix?, digits, sign, nonempty, single]

/-- Behind the name of a tag, a kind of placeholders is read as the one that overrides the tag's. -/
theorem parse?_override {k : Kind} (h : IsSubject v name tag kind) (ne : tag ≠ .unknown)
    (hk : k.isPlaceholder) (stop : t.stop = none) :
    parse? v (name ++ (":".toList ++ k.name ++ runSuffix t false)) =
      some { value := run (name ++ (":".toList ++ k.name ++ runSuffix t false)), kind := k, tag
             modifier := t.modifier } := by
  rw [parse?_override_eq k h stop, override?_name hk ne]
  rfl

/-- Behind the name of timestamps, a number is read as a group. -/
theorem parse?_group {g : Text} (h : IsSubject v name v.regextime kind) (hg : isGroup g) :
    parse? v (name ++ (":".toList ++ g)) =
      some { value := run (name ++ (":".toList ++ g)), kind, tag := v.regextime
             group := some g } := by
  rw [show ":".toList ++ g = ':' :: g from rfl, parse?_suffix h (colon_not_mem_group hg)]
  simp [withSuffix?, hg]

/-! ### Characters -/

theorem hasBodyChars_sign {m : Modifier} (h : m.sign? = some w) : hasBodyChars w := by
  cases m <;> simp [Modifier.sign?] at h <;> subst h <;> decide

theorem hasBodyChars_runSuffix (stop : ∀ word ∈ t.stop, IsBody word) (bare : Bool) :
    hasBodyChars (runSuffix t bare) := by
  unfold runSuffix
  split
  · next word eq =>
    rw [hasBodyChars_append, hasBodyChars_of_isBody (stop word eq)]
    decide
  · split
    · next sign eq =>
      rw [hasBodyChars_append, hasBodyChars_sign eq]
      cases bare <;> decide
    · rfl

/-! ### Bodies -/

/-- What has a form is a body. -/
theorem IsForm.isBody (h : IsForm v t b) (stop : ∀ word ∈ t.stop, IsBody word) : IsBody b := by
  cases h with
  | run subject bare => exact subject.body.append (hasBodyChars_runSuffix stop bare)
  | override subject ne placeholder alone =>
    refine subject.body.append ?_
    rw [hasBodyChars_append, hasBodyChars_append, hasBodyChars_of_isBody (isBody_name t.kind).1,
      hasBodyChars_runSuffix stop]
    decide
  | group subject isGroup =>
    refine subject.body.append ?_
    rw [hasBodyChars_append, hasBodyChars_group isGroup]
    decide

/-- What has a form is read as a placeholder. -/
theorem IsForm.isSome_parse? (h : IsForm v t b) (stop : ∀ word ∈ t.stop, IsBody word) :
    (parse? v b).isSome := by
  cases h with
  | run subject bare => rw [parse?_runSuffix subject stop bare]; rfl
  | override subject ne placeholder alone =>
    rw [parse?_override subject ne placeholder alone]; rfl
  | group subject isGroup => rw [parse?_group subject isGroup]; rfl

/-- The suffixes of a tagged placeholder are those of a run, or an overriding kind stands before
them. In front of a stop word, and for the kind of the tag, there is none. -/
theorem suffixes_cases (v : Vocabulary) (t : Token) :
    ((t.kind = v.kindOf t.tag ∨ t.stop.isSome) ∧
      ∃ bare, body.suffixes v t = runSuffix t bare) ∨
    (t.kind ≠ v.kindOf t.tag ∧ t.stop = none ∧
      body.suffixes v t = ":".toList ++ t.kind.name ++ runSuffix t false) := by
  unfold body.suffixes
  dsimp only
  by_cases kind : t.kind = v.kindOf t.tag
  · exact .inl ⟨.inl kind, true, by simp [kind]⟩
  · have overridden : (t.kind != v.kindOf t.tag) = true := by simpa using kind
    rw [overridden]
    cases stop : t.stop with
    | some word => exact .inl ⟨.inr rfl, false, rfl⟩
    | none => exact .inr ⟨kind, rfl, rfl⟩

/-- A tagged placeholder is written by the name of its tag, with suffixes or with its group. -/
theorem body_of_tagged (tagged : t.tag ≠ .unknown) :
    body v t = (v.name? t.tag).getD unknownName ++ body.suffixes v t ∨
      t.tag = v.regextime ∧ ∃ g ∈ t.group,
        body v t = (v.name? t.tag).getD unknownName ++ (":".toList ++ g) := by
  unfold body
  rw [if_neg tagged]
  cases group : t.group with
  | none => exact .inl rfl
  | some g =>
    dsimp only
    split
    · next tag => exact .inr ⟨tag, g, rfl, rfl⟩
    · exact .inl rfl

/-- The body of a token that has a written form is of one of the forms. -/
theorem isForm_body (h : v.Proper) (ht : IsWritable v t) : IsForm v t (body v t) := by
  rcases ht.meaning with ⟨tag, kind⟩ | ⟨⟨name, known⟩, kind⟩
  · obtain ⟨tag', kind', subject⟩ := exists_isSubject v kind
    have eq : body v t = t.kind.name ++ runSuffix t false := by simp [body, tag]
    rw [eq]
    exact .run subject false
  · obtain ⟨named, ne⟩ := name?_of_tag? known
    have subject := isSubject_of_tag? h known
    have tagged := body_of_tagged (v := v) ne
    rw [named, Option.getD_some] at tagged
    rcases tagged with eq | ⟨tag, g, hg, eq⟩
    · rcases suffixes_cases v t with ⟨-, bare, eq'⟩ | ⟨overridden, stop, eq'⟩
      · rw [eq, eq']
        exact .run subject bare
      · rw [eq, eq']
        exact .override subject ne (kind.resolve_left overridden) stop
    · rw [eq]
      rw [tag] at subject
      exact .group subject (ht.group tag g hg)

/-- The body of a token that has a written form is one, and is read as a placeholder. -/
theorem isReadable (h : v.Proper) (ht : IsWritable v t) : IsReadable v t :=
  ⟨(isForm_body h ht).isBody ht.stop, (isForm_body h ht).isSome_parse? ht.stop⟩

/-! ### What is read -/

theorem eq_of_cut? {mark : Char} (h : Text.cut? mark b = some (first, w)) :
    b = first ++ mark :: w := by
  induction b generalizing first with
  | nil => cases h
  | cons c b ih =>
    rw [Text.cut?] at h
    split at h
    · next same =>
      cases h
      rw [same]
      rfl
    · obtain ⟨⟨x, y⟩, found, eq⟩ := Option.map_eq_some_iff.1 h
      cases eq
      rw [ih found]
      rfl

theorem meaning_of_subject? (h : subject? v name = some (tag, kind)) :
    (tag = .unknown ∧ kind.isPlaceholder) ∨ (v.Knows tag ∧ kind = v.kindOf tag) := by
  unfold subject? at h
  split at h
  · next known =>
    cases h
    exact .inr ⟨⟨name, known⟩, rfl⟩
  · obtain ⟨k, found, eq⟩ := Option.map_eq_some_iff.1 h
    cases eq
    exact .inl ⟨rfl, (Option.filter_eq_some_iff.1 found).2⟩

/-- A token whose kind is overridden keeps a written form. -/
theorem IsWritable.override (h : IsWritable v t) (found : override? name t.tag = some kind) :
    IsWritable v { t with kind } := by
  unfold override? at found
  split at found
  · cases found
  · next ne =>
    obtain ⟨known, -⟩ := h.meaning.resolve_left fun unknown => ne unknown.1
    exact ⟨.inr ⟨known, .inr (Option.filter_eq_some_iff.1 found).2⟩, h.stop, h.group⟩

theorem IsWritable.withSuffix? (h : IsWritable v t) (read : withSuffix? v t w = some u) :
    IsWritable v u := by
  unfold Placeholder.withSuffix? at read
  split at read
  · next verified =>
    cases read
    simp only [Bool.and_eq_true, decide_eq_true_eq] at verified
    refine ⟨h.meaning, h.stop, fun _ g hg => ?_⟩
    cases hg
    exact verified.2
  · split at read
    · cases read
      exact ⟨h.meaning, h.stop, h.group⟩
    · split at read
      · cases read
      · obtain ⟨kind, found, rfl⟩ := Option.map_eq_some_iff.1 read
        exact h.override found

theorem IsWritable.withSuffixes? (h : IsWritable v t) (chars : hasBodyChars w)
    (read : withSuffixes? t first w = some u) : IsWritable v u := by
  unfold Placeholder.withSuffixes? at read
  split at read
  · split at read
    · cases read
    · next nonempty =>
      cases read
      refine ⟨h.meaning, fun word hw => ?_, h.group⟩
      cases hw
      exact ⟨by simpa using nonempty, hasBodyChars_iff.1 chars⟩
  · split at read
    · cases read
    · next kind found =>
      obtain ⟨m, -, rfl⟩ := Option.map_eq_some_iff.1 read
      split at found
      · cases found
        exact ⟨h.meaning, h.stop, h.group⟩
      · have := h.override found
        exact ⟨this.meaning, this.stop, this.group⟩

/-- What is read as a placeholder has a written form. -/
theorem isWritable_of_parse? (hb : IsBody b) (read : parse? v b = some t) : IsWritable v t := by
  have bare : ∀ {name tag kind} (value : Text), subject? v name = some (tag, kind) →
      IsWritable v { value, kind, tag } := fun value subject =>
    ⟨(meaning_of_subject? subject).imp_right fun ⟨known, kind⟩ => ⟨known, .inl kind⟩,
      by simp, by simp⟩
  have chars := hasBodyChars_of_isBody hb
  unfold parse? at read
  cases suffix : Text.cut? ':' b with
  | none =>
    rw [suffix] at read
    dsimp only at read
    split at read
    · cases read
    · next subject =>
      cases read
      exact bare _ subject
  | some parts =>
    obtain ⟨name, rest⟩ := parts
    rw [suffix] at read
    dsimp only at read
    split at read
    · cases read
    · next subject =>
      cases second : Text.cut? ':' rest with
      | none =>
        rw [second] at read
        exact (bare _ subject).withSuffix? read
      | some parts =>
        obtain ⟨first, w⟩ := parts
        rw [second] at read
        refine (bare _ subject).withSuffixes? ?_ read
        -- A stop word is the end of the body.
        rw [eq_of_cut? suffix, eq_of_cut? second] at chars
        simp only [hasBodyChars, List.all_append, List.all_cons, Bool.and_eq_true] at chars
        exact chars.2.2.2.2

end LogTemplate.Placeholder
