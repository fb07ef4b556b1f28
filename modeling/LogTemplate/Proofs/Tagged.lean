import LogTemplate.Proofs.Meaning
import LogTemplate.Proofs.Retag

/-!
# Printing tagged lines

A match puts the tags of slots on tokens whose kinds the slots accept, which need not be the kinds
of the tags. So a tagged line has pairs of tag and kind that neither scans nor the notation know,
and not all that is printed for them can be read.

* `Token.HasReading` tells the tokens that can be read, `Placeholder.isSome_parse?_iff` says so;
* `Line.exists_offset` finds the offset of each placeholder, `Scan.anchors_eq_ok_iff` says when
  announced positions are accepted;
* `Catalog.pattern_print_match?_iff` puts these together for the lines of matches.
-/

namespace LogTemplate

open Placeholder Vocabulary

variable {v : Vocabulary} {t : Token} {line : Line} {text : Text}

/-! ### Bodies -/

/-- The name that is written for a tag. -/
def Vocabulary.shown (v : Vocabulary) (tag : Tag) : Text := (v.name? tag).getD unknownName

namespace Token

/-- What scans leave to the notation: stop words have the characters of bodies, and groups are
numbers and stand with kinds of placeholders. -/
structure IsClean (t : Token) : Prop where
  stop : ∀ word ∈ t.stop, IsBody word
  group : ∀ g ∈ t.group, isGroup g ∧ t.kind.isPlaceholder

/-- What is written for the token can be read: a tag is written by the name of a tag, and the kind
is the tag's own or may override it, unless a stop word is written instead of it. -/
def HasReading (v : Vocabulary) (t : Token) : Prop :=
  t.tag ≠ .unknown → (v.tag? (v.shown t.tag)).isSome ∧
    (t.kind.isPlaceholder ∨ t.kind = v.kindOf t.tag ∨ t.stop.isSome)

instance (v : Vocabulary) (t : Token) : Decidable (t.HasReading v) :=
  inferInstanceAs (Decidable (_ → _))

end Token

namespace Placeholder

variable {name : Text} {tag : Tag} {kind : Kind}

/-- A name that stands for nothing is read as nothing, whatever stands behind it. -/
theorem parse?_of_subject?_none (colon : ':' ∉ name) (nothing : subject? v name = none) {w : Text}
    (suffix : w = [] ∨ ∃ u, w = ':' :: u) : parse? v (name ++ w) = none := by
  rcases suffix with rfl | ⟨u, rfl⟩
  · simp only [parse?, List.append_nil, cut?_of_not_mem colon, nothing]
  · simp only [parse?, cut?_append colon, nothing]

/-- A kind that placeholders do not have overrides nothing. -/
theorem override?_name_none (h : kind.isPlaceholder = false) : override? kind.name tag = none := by
  simp [override?, Kind.ofName?_name, Option.filter, h]

/-- A tag is shown by the name of a tag, or by that of the unknown one. -/
theorem shown_cases (v : Vocabulary) (tag : Tag) :
    (∃ entry ∈ v.tags, v.shown tag = entry.1) ∨ v.shown tag = unknownName := by
  unfold shown name?
  split
  · exact .inr rfl
  · next i _ =>
    cases found : v.tags[i]? with
    | none => exact .inr rfl
    | some entry => exact .inl ⟨entry, List.mem_of_getElem? found, rfl⟩

theorem isTagName_shown (h : v.Proper) (tag : Tag) : IsTagName (v.shown tag) := by
  rcases shown_cases v tag with ⟨entry, mem, eq⟩ | eq
  · exact eq ▸ h.names entry mem
  · exact eq ▸ isTagName_iff.2 rfl

/-- What is shown for a tag and is no tag's name is no kind's name either. -/
theorem subject?_shown (unnamed : v.tag? (v.shown tag) = none) :
    subject? v (v.shown tag) = none := by
  rcases shown_cases v tag with ⟨entry, mem, eq⟩ | eq
  · have nothing := List.findIdx?_eq_none_iff.1 (Option.map_eq_none_iff.1 unnamed) entry mem
    simp [eq] at nothing
  · have noKind : Kind.ofName? unknownName = none := by decide
    rw [subject?, unnamed, eq, noKind]
    rfl

/-- What stands behind the name of the tag: the suffix of a run, an overriding kind in front of it,
or the group of a timestamp. -/
inductive IsSuffix (v : Vocabulary) (t : Token) : Text → Prop
  | run (bare : Bool) (own : t.kind = v.kindOf t.tag ∨ t.stop.isSome) :
      IsSuffix v t (runSuffix t bare)
  | override (other : t.kind ≠ v.kindOf t.tag) (unstopped : t.stop = none) :
      IsSuffix v t (":".toList ++ t.kind.name ++ runSuffix t false)
  | group {g : Text} (time : t.tag = v.regextime) (mem : g ∈ t.group) :
      IsSuffix v t (":".toList ++ g)

theorem exists_isSuffix (tagged : t.tag ≠ .unknown) :
    ∃ w, body v t = v.shown t.tag ++ w ∧ IsSuffix v t w := by
  rcases body_of_tagged tagged with eq | ⟨time, g, mem, eq⟩
  · rcases suffixes_cases v t with ⟨own, bare, eq'⟩ | ⟨other, unstopped, eq'⟩
    · exact ⟨_, eq, eq' ▸ .run bare own⟩
    · exact ⟨_, eq, eq' ▸ .override other unstopped⟩
  · exact ⟨_, eq, .group time mem⟩

namespace IsSuffix

variable {w : Text}

theorem hasBodyChars (h : IsSuffix v t w) (clean : t.IsClean) : Placeholder.hasBodyChars w := by
  cases h with
  | run bare => exact hasBodyChars_runSuffix clean.stop bare
  | override =>
    rw [hasBodyChars_append, hasBodyChars_append, hasBodyChars_of_isBody (isBody_name t.kind).1,
      hasBodyChars_runSuffix clean.stop]
    decide
  | group time mem =>
    rw [hasBodyChars_append, hasBodyChars_group (clean.group _ mem).1]
    decide

theorem colon (h : IsSuffix v t w) : w = [] ∨ ∃ u, w = ':' :: u := by
  cases h with
  | run bare =>
    unfold runSuffix
    split
    · exact .inr ⟨_, rfl⟩
    · split
      · cases bare <;> exact .inr ⟨_, rfl⟩
      · exact .inl rfl
  | override => exact .inr ⟨_, rfl⟩
  | group => exact .inr ⟨_, rfl⟩

/-- Behind the name of a tag, a suffix is read unless it overrides by a kind that placeholders do
not have. -/
theorem isSome_parse?_iff (h : IsSuffix v t w) (clean : t.IsClean) {known : Tag}
    (subject : IsSubject v name known kind) (ne : known ≠ .unknown)
    (time : t.tag = v.regextime → known = v.regextime) :
    (parse? v (name ++ w)).isSome ↔
      t.kind.isPlaceholder ∨ t.kind = v.kindOf t.tag ∨ t.stop.isSome := by
  cases h with
  | run bare own =>
    rw [parse?_runSuffix subject clean.stop]
    exact iff_of_true rfl (.inr own)
  | override other unstopped =>
    cases placeholder : t.kind.isPlaceholder with
    | true =>
      rw [parse?_override subject ne placeholder unstopped]
      exact iff_of_true rfl (.inl rfl)
    | false =>
      rw [parse?_override_eq t.kind subject unstopped, override?_name_none placeholder]
      simp [other, unstopped]
  | group tag mem =>
    obtain ⟨isGroup, placeholder⟩ := clean.group _ mem
    rw [time tag] at subject
    rw [parse?_group subject isGroup]
    exact iff_of_true rfl (.inl placeholder)

end IsSuffix

/-- A clean placeholder without a tag has a written form. -/
theorem isForm_of_isClean (h : v.Proper) (clean : t.IsClean) (placeholder : t.isPlaceholder)
    (unknown : t.tag = .unknown) : IsForm v t (body v t) := by
  have kind : t.kind.isPlaceholder := by simpa [Token.isPlaceholder, unknown] using placeholder
  exact isForm_body h ⟨.inl ⟨unknown, kind⟩, clean.stop, fun _ g hg => (clean.group g hg).1⟩

/-- What is written for a clean placeholder is a body. -/
theorem isBody_of_isClean (h : v.Proper) (clean : t.IsClean) (placeholder : t.isPlaceholder) :
    IsBody (body v t) := by
  by_cases tagged : t.tag = .unknown
  · exact (isForm_of_isClean h clean placeholder tagged).isBody clean.stop
  · obtain ⟨w, eq, suffix⟩ := exists_isSuffix (v := v) tagged
    rw [eq]
    exact (isBody_of_isTagName (isTagName_shown h t.tag)).1.append (suffix.hasBodyChars clean)

/-- What is written for a clean placeholder is read just when the token has a reading. -/
theorem isSome_parse?_iff (h : v.Proper) (clean : t.IsClean) (placeholder : t.isPlaceholder) :
    (parse? v (body v t)).isSome ↔ t.HasReading v := by
  by_cases tagged : t.tag = .unknown
  · have form := isForm_of_isClean h clean placeholder tagged
    exact iff_of_true (form.isSome_parse? clean.stop) fun ne => absurd tagged ne
  · obtain ⟨w, eq, suffix⟩ := exists_isSuffix (v := v) tagged
    have colon := (isBody_of_isTagName (isTagName_shown h t.tag)).2
    rw [eq, Token.HasReading, imp_iff_right tagged]
    cases known : v.tag? (v.shown t.tag) with
    | none =>
      rw [parse?_of_subject?_none colon (subject?_shown known) suffix.colon]
      simp
    | some tag =>
      have ne := (name?_of_tag? known).2
      have time : t.tag = v.regextime → tag = v.regextime := fun eq => by
        have name : v.shown t.tag = regextimeName := by
          rw [eq, shown, (name?_of_tag? h.name).1]
          rfl
        rw [name, h.name] at known
        exact (Option.some.inj known).symm
      rw [suffix.isSome_parse?_iff clean (isSubject_of_tag? h known) ne time]
      simp

end Placeholder

/-! ### Announced positions -/

namespace Scan

/-- Announced positions are refused just when one of them begins a run that is not read. -/
theorem anchors_eq_ok_iff {offsets : List Nat} : (∃ r, anchors v text offsets = .ok r) ↔
    ∀ o ∈ offsets, ∀ b, bodyAt? text o = some b → (parse? v b).isSome := by
  induction offsets with
  | nil => simp [anchors]
  | cons o offsets ih =>
    have mapped {f : List Nat × Bool → List Nat × Bool} :
        (∃ r, (anchors v text offsets).map f = .ok r) ↔ ∃ r, anchors v text offsets = .ok r := by
      cases anchors v text offsets <;> simp [Except.map]
    rw [List.forall_mem_cons, ← ih, anchors]
    cases found : bodyAt? text o with
    | none => simp [mapped]
    | some b => cases read : parse? v b <;> simp [read, mapped]

/-- Pattern text is refused just when its announced positions are. -/
theorem exists_pattern_iff {offsets : List Nat} : (∃ line, pattern v text offsets = .ok line) ↔
    ∀ o ∈ offsets, ∀ b, bodyAt? text o = some b → (parse? v b).isSome := by
  rw [← anchors_eq_ok_iff]
  unfold pattern patternMode
  cases anchors v text offsets <;> simp [Except.map]

/-! ### Scans -/

theorem isClean_of_isPlain (h : t.IsPlain v) : t.IsClean where
  stop := by simp [h.stop]
  group g hg := by
    rcases h.meaning with ⟨-, none⟩ | ⟨kind, -, n, group⟩
    · cases none.symm.trans hg
    · obtain rfl := Option.some.inj (group.symm.trans hg)
      exact ⟨isGroup_ofNat n, by rw [kind]; rfl⟩

theorem isClean_of_isExpressible (h : v.Regular) (ht : IsExpressible v t) : t.IsClean where
  stop := ht.stop
  group g hg := by
    obtain ⟨time, kind, -⟩ := ht.timestamp g hg
    exact ⟨ht.group time g hg, by rw [kind, time, h.kind]; rfl⟩

theorem isClean_of_mem_tokens {mode : Mode} {cursor : Cursor} (h : v.Regular)
    (ht : t ∈ tokens v mode cursor text) : t.IsClean := by
  rcases mem_tokens ht with ⟨gap, rfl⟩ | ⟨w, rfl⟩ | ⟨cursor, place, c, w, space, rfl⟩
  · exact ⟨by simp [Token.literal], by simp [Token.literal]⟩
  · exact ⟨by simp, by simp⟩
  · unfold found
    cases run : placeholder? v mode cursor place (c :: w) with
    | some g =>
      obtain ⟨-, body, after, u, isBody, -, read, rfl⟩ := placeholder?_eq_some_iff.1 run
      have clean := isClean_of_isExpressible h (isExpressible_of_parse? h isBody read).1
      exact ⟨clean.stop, clean.group⟩
    | none =>
      have clean := isClean_of_isPlain (isPlain_next (v := v) cursor.quotation cursor.last
        (window mode place c w).2 c (window mode place c w).1 [] space)
      exact ⟨clean.stop, clean.group⟩

end Scan

/-- The line is a scan of a message, of JSON or of pattern text. -/
inductive Line.IsScan (v : Vocabulary) : Line → Prop
  | message (text : Text) : IsScan v (Scan.message v text)
  | json {text : Text} {line : Line} (scan : Scan.json v text = .ok line) : IsScan v line
  | pattern {text : Text} {offsets : List Nat} {line : Line}
      (scan : Scan.pattern v text offsets = .ok line) : IsScan v line

theorem Line.IsScan.isClean (h : v.Regular) (hl : IsScan v line) (ht : t ∈ line) :
    t.IsClean := by
  cases hl with
  | message text => exact Scan.isClean_of_mem_tokens h ht
  | json scan =>
    rcases Scan.mem_json scan ht with ⟨w, rfl⟩ | ⟨w, rfl⟩ | ⟨w, u, mem, rfl⟩
    · exact ⟨by simp [Token.literal], by simp [Token.literal]⟩
    · exact ⟨by simp, by simp⟩
    · have clean := Scan.isClean_of_mem_tokens h mem
      exact ⟨clean.stop, clean.group⟩
  | pattern scan =>
    obtain ⟨mode, -, rfl⟩ := Scan.pattern_eq_ok_iff.1 scan
    exact Scan.isClean_of_mem_tokens h ht

/-! ### Printed lines -/

namespace Line

/-- Each offset of a printed line begins the run of a placeholder. -/
theorem exists_bodyAt? (h : v.Proper) (clean : ∀ t ∈ line, t.IsClean) {o : Nat}
    (ho : o ∈ (print v line).offsets) :
    ∃ t ∈ line, t.isPlaceholder ∧ bodyAt? (print v line).text o = some (body v t) := by
  obtain ⟨t, ht, placeholder, place⟩ := place_of_mem_offsets ho
  exact ⟨t, ht, placeholder, bodyAt?_of_place (isBody_of_isClean h (clean t ht) placeholder) place⟩

/-- The runs at the offsets are read just when all tokens have readings. -/
theorem forall_offsets_iff (h : v.Proper) (clean : ∀ t ∈ line, t.IsClean) :
    (∀ o ∈ (print v line).offsets, ∀ b, bodyAt? (print v line).text o = some b →
      (parse? v b).isSome) ↔ ∀ t ∈ line, t.HasReading v := by
  constructor
  · intro read t ht tagged
    have placeholder : t.isPlaceholder := by simp [Token.isPlaceholder, tagged]
    obtain ⟨o, ho, place⟩ : ∃ o ∈ (print v line).offsets, ∃ before behind,
        (print v line).text = before ++ Placeholder.print v t ++ behind ∧ o = 0 + before.bytes :=
      exists_offset ht placeholder
    have at_ := bodyAt?_of_place (isBody_of_isClean h (clean t ht) placeholder) place
    exact (isSome_parse?_iff h (clean t ht) placeholder).1 (read o ho _ at_) tagged
  · intro readings o ho b hb
    obtain ⟨t, ht, placeholder, at_⟩ := exists_bodyAt? h clean ho
    obtain rfl := Option.some.inj (at_.symm.trans hb)
    exact (isSome_parse?_iff h (clean t ht) placeholder).2 (readings t ht)

end Line

/-! ### Tagged lines -/

namespace Catalog

variable {c : Catalog} {m : Match}

/-- Tags leave tokens clean. -/
theorem isClean_of_match? (h : v.Regular) (hl : line.IsScan v)
    (hm : c.match? v line = some m) (ht : t ∈ m.line) : t.IsClean := by
  obtain ⟨cover, T, -, -, rfl⟩ := exists_cover_of_match? hm
  obtain ⟨i, lt, rfl⟩ := List.getElem_of_mem ht
  rw [List.getElem_zipWith]
  have clean := hl.isClean h (List.getElem_mem (List.lt_length_left_of_zipWith lt))
  unfold retag
  split
  · exact ⟨clean.stop, clean.group⟩
  · exact clean

/-- In the printed text of a tagged line each offset begins the run of a placeholder. All of these
runs are read, so that the text can be scanned with its offsets, if and only if each tagged token
has a reading: its tag is one of the vocabulary's, and its kind is one of placeholders, or that of
the tag, or not written because of a stop word. -/
theorem exists_pattern_match?_iff (h : v.Proper) (hl : line.IsScan v)
    (hm : c.match? v line = some m) :
    let p := Line.print v m.line
    (∀ o ∈ p.offsets, ∃ t ∈ m.line, t.isPlaceholder ∧ bodyAt? p.text o = some (body v t)) ∧
    ((∀ o ∈ p.offsets, ∃ b t, bodyAt? p.text o = some b ∧ parse? v b = some t) ↔
      ∀ t ∈ m.line, t.HasReading v) ∧
    ((∃ again, Scan.pattern v p.text p.offsets = .ok again) ↔ ∀ t ∈ m.line, t.HasReading v) := by
  intro p
  have clean : ∀ t ∈ m.line, t.IsClean := fun t ht => isClean_of_match? h.toRegular hl hm ht
  have runs : ∀ o ∈ p.offsets, ∃ t ∈ m.line, t.isPlaceholder ∧
      bodyAt? p.text o = some (body v t) := fun o ho => Line.exists_bodyAt? h clean ho
  refine ⟨runs, ?_, Scan.exists_pattern_iff.trans (Line.forall_offsets_iff h clean)⟩
  rw [← Line.forall_offsets_iff h clean]
  constructor
  · intro read o ho b hb
    obtain ⟨b', t, hb', parsed⟩ := read o ho
    obtain rfl := Option.some.inj (hb'.symm.trans hb)
    rw [parsed]
    rfl
  · intro read o ho
    obtain ⟨t, -, -, hb⟩ := runs o ho
    obtain ⟨t', parsed⟩ := Option.isSome_iff_exists.1 (read o ho _ hb)
    exact ⟨_, t', hb, parsed⟩

/-- In the vocabulary of any settings, the printed text of a tagged line can be scanned with its
offsets, each of which begins the run of a placeholder, if and only if each tagged token has a
reading. -/
theorem pattern_print_match?_iff {compile : Compiler} {s : Settings} (h : build compile s = .ok v)
    (hl : line.IsScan v) (hm : c.match? v line = some m) :
    let p := Line.print v m.line
    (∀ o ∈ p.offsets, ∃ t ∈ m.line, t.isPlaceholder ∧ bodyAt? p.text o = some (body v t)) ∧
    ((∀ o ∈ p.offsets, ∃ b t, bodyAt? p.text o = some b ∧ parse? v b = some t) ↔
      ∀ t ∈ m.line, t.HasReading v) ∧
    ((∃ again, Scan.pattern v p.text p.offsets = .ok again) ↔ ∀ t ∈ m.line, t.HasReading v) :=
  exists_pattern_match?_iff (proper_build h) hl hm

/-- A number that is tagged as a text is printed with its kind, and can be read. -/
theorem pattern_print_match?_iff_up :
    ∃ v, Vocabulary.ofSettings { tags := ["reason:string".toList] } = .ok v ∧
    let c := ofRequests v [.text "x %reason%".toList [2]]
    ∃ m, c.match? v (Scan.message v "x 5".toList) = some m ∧
      Line.print v m.line = ⟨"x %reason:integer%".toList, [2]⟩ ∧
      ∃ again, Scan.pattern v "x %reason:integer%".toList [2] = .ok again := by
  let v : Vocabulary := {
    tags := [("reason".toList, .string), ("regextime".toList, .time),
      ("multiline".toList, .multiline)]
    regextime := ⟨2⟩
    multiline := ⟨3⟩ }
  have h : Vocabulary.ofSettings { tags := ["reason:string".toList] } = .ok v := rfl
  refine ⟨v, h, ?_⟩
  intro c
  have found : (c.match? v (Scan.message v "x 5".toList)).any fun m =>
      Line.print v m.line = ⟨"x %reason:integer%".toList, [2]⟩ ∧ ∀ t ∈ m.line, t.HasReading v := by
    decide +kernel
  obtain ⟨m, hm, tagged⟩ := (Option.any_eq_true _ _).1 found
  obtain ⟨printed, readings⟩ := of_decide_eq_true tagged
  have again := (pattern_print_match?_iff h (.message _) hm).2.2.2 readings
  rw [printed] at again
  exact ⟨m, hm, printed, again⟩

/-- A word that is tagged as a text is printed with a kind that cannot be read. -/
theorem pattern_print_match?_word :
    ∃ v, Vocabulary.ofSettings { tags := ["reason:string".toList] } = .ok v ∧
    let c := ofRequests v [.text "x %reason%".toList [2]]
    ((c.match? v (Scan.message v "x foo".toList)).map fun m => Line.print v m.line) =
      some ⟨"x %reason:literal%".toList, [2]⟩ ∧
    bodyAt? "x %reason:literal%".toList 2 = some "reason:literal".toList ∧
    parse? v "reason:literal".toList = none ∧
    Scan.pattern v "x %reason:literal%".toList [2] =
      .error (.badPlaceholder "reason:literal".toList 2) := by
  refine ⟨{
    tags := [("reason".toList, .string), ("regextime".toList, .time),
      ("multiline".toList, .multiline)]
    regextime := ⟨2⟩
    multiline := ⟨3⟩ }, rfl, ?_⟩
  decide +kernel

end Catalog

end LogTemplate
