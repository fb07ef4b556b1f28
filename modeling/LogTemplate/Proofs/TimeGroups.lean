import LogTemplate.Proofs.Produced
import LogTemplate.Proofs.Shape

/-!
# Groups of timestamps

The keys of the layouts are texts, and a regular expression is found by the text of its key. But the
groups that the keys become are told apart by their numbers only.

* `Settings.number?_eq_iff` tells which keys are one number: those that differ in a plus sign and in
  zeros at their beginning;
* `Settings.pattern?` is the regular expression that a number ends up with, and
  `Vocabulary.check?_ofGroups` says that it is what a vocabulary demands of its timestamps,
  whatever compiles the regular expressions;
* `Vocabulary.mem_candidates_build` tells all timestamps key by key, and `Vocabulary.groups_build`
  what a key has of its own.
-/

namespace LogTemplate

/-! ### Numbers -/

namespace Text

variable {t ds : Text} {limit n : Nat}

theorem digitsValue_concat (ds : Text) (c : Char) :
    digitsValue (ds ++ [c]) = 10 * digitsValue ds + (c.toNat - '0'.toNat) := by
  simp [digitsValue]

/-- A digit stands for a number below ten, and is what is written for it. -/
theorem ofNat_digit {c : Char} (digit : c.isDigit) :
    c.toNat - '0'.toNat < 10 ∧ ofNat (c.toNat - '0'.toNat) = [c] := by
  have bounds : 48 ≤ c.toNat ∧ c.toNat ≤ 57 := Char.isDigit_iff_toNat.1 digit
  have below : c.toNat - 48 < 10 := by omega
  refine ⟨below, (Nat.toDigits_of_lt_base below).trans (congrArg (fun d => [d]) ?_)⟩
  refine Char.toNat_inj.1 ?_
  rw [Nat.toNat_digitChar_of_lt_ten below]
  omega

/-- A row of digits without the zeros at its beginning is what is written for its number, or nothing
for zero. -/
theorem dropZeros_eq (digits : ∀ c ∈ ds, c.isDigit) :
    ds.dropWhile (· = '0') = if digitsValue ds = 0 then [] else ofNat (digitsValue ds) := by
  induction ds using List.reverseRecOn with
  | nil => rfl
  | append_singleton ds c ih =>
    obtain ⟨below, written⟩ := ofNat_digit (digits c (by simp))
    have ih := ih fun d hd => digits d (List.mem_append_left _ hd)
    rw [digitsValue_concat, List.dropWhile_append, ih]
    -- Behind zeros the last digit is all that may be left; else it is written behind the others.
    by_cases zero : digitsValue ds = 0
    · rw [zero, Nat.mul_zero, Nat.zero_add, written]
      have first : c.toNat - '0'.toNat = 0 ↔ c = '0' := by
        rw [← ofNat_inj, written]
        exact ⟨fun eq => List.head_eq_of_cons_eq eq, fun eq => eq ▸ rfl⟩
      by_cases isZero : c = '0'
      · simp [isZero]
      · rw [if_neg fun eq => isZero (first.1 eq)]
        simp [isZero]
    · have written' := Nat.toDigits_append_toDigits (b := 10) (by decide)
        (Nat.pos_of_ne_zero zero) below
      have ne : (ofNat (digitsValue ds)).isEmpty = false :=
        List.isEmpty_eq_false_iff.2 (Placeholder.ofNat_ne_nil _)
      have nonzero : 10 * digitsValue ds + (c.toNat - '0'.toNat) ≠ 0 := by omega
      rw [if_neg zero, ne, if_neg nonzero, if_neg (by decide), ← written]
      exact written'

/-- A number that is read, without its plus sign. -/
def unsigned (t : Text) : Text :=
  match t with
  | '+' :: rest => rest
  | _ => t

/-- A number that is read, without its plus sign and the zeros at its beginning. -/
def bare (t : Text) : Text := (unsigned t).dropWhile (· = '0')

theorem toNatBelow?_eq (limit : Nat) (t : Text) : toNatBelow? limit t =
    if (unsigned t).isEmpty || !(unsigned t).all Char.isDigit then none
    else if digitsValue (unsigned t) < limit then some (digitsValue (unsigned t)) else none :=
  rfl

theorem bare_eq (h : toNatBelow? limit t = some n) : bare t = if n = 0 then [] else ofNat n := by
  rw [toNatBelow?_eq] at h
  split at h
  · cases h
  · next row =>
    obtain ⟨-, h⟩ := Option.ite_none_right_eq_some.1 h
    cases h
    simp only [Bool.or_eq_true, Bool.not_eq_true', not_or, Bool.not_eq_false,
      List.all_eq_true] at row
    exact dropZeros_eq row.2

end Text

/-! ### Keys -/

namespace Settings

variable {s : Settings} {key other : Text} {n m : Nat}

/-- The number of the group of a key. -/
def number? (key : Text) : Option Nat := Text.toNatBelow? groupLimit key

/-- Keys are one number just when they differ in a plus sign and zeros at their beginning only. -/
theorem number?_eq_iff (h : number? key = some n) (h' : number? other = some m) :
    m = n ↔ Text.bare other = Text.bare key := by
  rw [Text.bare_eq h, Text.bare_eq h']
  constructor
  · rintro rfl
    rfl
  · intro same
    by_cases zero : n = 0 <;> by_cases zero' : m = 0
    · rw [zero, zero']
    · rw [if_pos zero, if_neg zero'] at same
      exact absurd same (Placeholder.ofNat_ne_nil m)
    · rw [if_neg zero, if_pos zero'] at same
      exact absurd same.symm (Placeholder.ofNat_ne_nil n)
    · rw [if_neg zero, if_neg zero'] at same
      exact Text.ofNat_inj.1 same

/-- The regular expression of a number: that of its last key that has one. -/
def pattern? (s : Settings) (n : Nat) : Option Text :=
  s.formats.reverse.findSome? fun entry =>
    if number? entry.1 = some n then s.regexes.get? entry.1 else none

/-- A key that is alone with its number keeps its regular expression. -/
theorem pattern?_of_alone {layouts : List Text} (mem : (key, layouts) ∈ s.formats)
    (number : number? key = some n)
    (alone : ∀ entry ∈ s.formats, number? entry.1 = some n → entry.1 = key) :
    s.pattern? n = s.regexes.get? key := by
  have mem := List.mem_reverse.2 mem
  cases found : s.pattern? n with
  | some pattern =>
    obtain ⟨entry, hentry, here⟩ := List.exists_of_findSome?_eq_some found
    obtain ⟨same, here⟩ := Option.ite_none_right_eq_some.1 here
    rw [← alone entry (List.mem_reverse.1 hentry) same, here]
  | none =>
    have none := List.findSome?_eq_none_iff.1 found _ mem
    rw [if_pos number] at none
    exact none.symm

end Settings

/-- What the compiler makes of the regular expression between anchors finds a match in the text. -/
def Vocabulary.Compiler.Accepts (compile : Compiler) (pattern stamp : Text) : Prop :=
  ∃ isMatch, compile (anchored pattern) = some isMatch ∧ isMatch stamp

namespace LayoutClass

instance (classes : List LayoutClass) (stamp : Text) : Decidable (Fits classes stamp) :=
  inferInstanceAs (Decidable (List.Forall₂ _ _ _))

/-- The text fits one of the layouts, which is not empty. -/
def FitsSome (layouts : List Text) (stamp : Text) : Prop :=
  ∃ layout ∈ layouts, layout ≠ [] ∧ Fits (layout.map .of) stamp

instance (layouts : List Text) (stamp : Text) : Decidable (FitsSome layouts stamp) :=
  inferInstanceAs (Decidable (∃ layout ∈ layouts, _))

end LayoutClass

namespace Vocabulary

variable {compile : Compiler} {s : Settings} {v : Vocabulary} {n i : Nat} {text : Text}

/-! ### Demands -/

/-- The first demand among groups is the first regular expression among their keys. -/
theorem findSome?_check {regexes : Table Text} {formats : Table (List Text)}
    {groups : List TimeGroup} (of : List.Forall₂ (TimeGroup.IsOf compile regexes) formats groups)
    (n : Nat) :
    (groups.findSome? fun g => if n = g.id then g.check else none) =
      (formats.findSome? fun entry =>
        if Settings.number? entry.1 = some n then regexes.get? entry.1 else none).bind
          fun pattern => compile (anchored pattern) := by
  induction of with
  | nil => rfl
  | @cons entry g formats groups of _ ih =>
    rw [List.findSome?_cons, List.findSome?_cons, ih, of.check]
    by_cases same : g.id = n
    · have number : Settings.number? entry.1 = some n := same ▸ of.number
      rw [if_pos same.symm, if_pos number]
      cases found : regexes.get? entry.1 with
      | none => rfl
      | some pattern =>
        obtain ⟨isMatch, compiled⟩ := Option.isSome_iff_exists.1 (of.valid pattern found)
        simp [compiled]
    · have number : Settings.number? entry.1 ≠ some n := fun eq =>
        same (Option.some_inj.1 (of.number.symm.trans eq))
      rw [if_neg (Ne.symm same), if_neg number]

/-- What is demanded of the timestamps of a number is its regular expression. -/
theorem check?_ofGroups {groups : List TimeGroup}
    (of : List.Forall₂ (TimeGroup.IsOf compile s.regexes) s.formats groups) (n : Nat) :
    (TimeMatcher.ofGroups groups).check? n =
      (s.pattern? n).bind fun pattern => compile (anchored pattern) := by
  rw [TimeMatcher.check?_ofGroups_eq]
  exact findSome?_check (List.forall₂_reverse_iff.2 of) n

/-- The demand of a number is that the regular expression accepts. -/
theorem forall_check_iff {groups : List TimeGroup}
    (of : List.Forall₂ (TimeGroup.IsOf compile s.regexes) s.formats groups) {stamp : Text} :
    (∀ check ∈ (TimeMatcher.ofGroups groups).check? n, check stamp) ↔
      ∀ pattern ∈ s.pattern? n, compile.Accepts pattern stamp := by
  rw [check?_ofGroups of]
  cases found : s.pattern? n with
  | none => simp
  | some pattern =>
    obtain ⟨entry, mem, here⟩ := List.exists_of_findSome?_eq_some found
    obtain ⟨-, here⟩ := Option.ite_none_right_eq_some.1 here
    obtain ⟨g, -, of⟩ := (exists_of_forall₂ of).1 entry (List.mem_reverse.1 mem)
    obtain ⟨isMatch, compiled⟩ := Option.isSome_iff_exists.1 (of.valid pattern here)
    simp [Compiler.Accepts, compiled]

/-! ### Timestamps -/

/-- The timestamps of settings, key by key: what fits a layout of a key and is accepted by the
regular expression of the key's number. -/
theorem mem_candidates_build (h : build compile s = .ok v) :
    (i, n) ∈ v.time.candidates text ↔ ∃ key layouts stamp, (key, layouts) ∈ s.formats ∧
      Settings.number? key = some n ∧ stamp <+: text ∧ LayoutClass.FitsSome layouts stamp ∧
      (∀ pattern ∈ s.pattern? n, compile.Accepts pattern stamp) ∧ i = stamp.length := by
  obtain ⟨_, _, _, _, _, groups, -, -, -, timed, rfl⟩ := build_eq_ok h
  have of := forall₂_timeGroups timed
  rw [TimeMatcher.mem_candidates_iff]
  constructor
  · rintro ⟨g, hg, stamp, begins, layout, admitted, rfl, rfl⟩
    obtain ⟨⟨key, layouts⟩, mem, is⟩ := (exists_of_forall₂ of).2 g hg
    rw [is.layouts] at layout
    have accepted := (forall_check_iff of).1 admitted
    exact ⟨key, layouts, stamp, mem, is.number, begins, layout, accepted, rfl⟩
  · rintro ⟨key, layouts, stamp, mem, number, begins, layout, accepted, rfl⟩
    obtain ⟨g, hg, is⟩ := (exists_of_forall₂ of).1 _ mem
    obtain rfl := Option.some_inj.1 (is.number.symm.trans number)
    exact ⟨g, hg, stamp, begins, is.layouts ▸ layout, (forall_check_iff of).2 accepted, rfl, rfl⟩

/-- The group of a token of a message is a number with a regular expression. -/
theorem verifies_of_mem_auto (h : build compile s = .ok v) {line : Line}
    (scan : Scan.auto v text = .ok line) {t : Token} (mem : t ∈ line) {group : Text}
    (hg : t.group = some group) : ∃ n, group = Text.ofNat n ∧ s.Verifies n := by
  have sound {w : Text} {u : Token} (hu : u ∈ Scan.message v w) (hg : u.group = some group) :
      ∃ n, group = Text.ofNat n ∧ s.Verifies n := by
    rcases (Scan.isSound_of_mem_tokens h hu).meaning with ⟨-, none⟩ | ⟨-, -, n, some, verifies⟩
    · cases none.symm.trans hg
    · exact ⟨n, Option.some_inj.1 (hg.symm.trans some), verifies⟩
  unfold Scan.auto at scan
  split at scan
  · rcases Scan.mem_json scan mem with ⟨w, rfl⟩ | ⟨w, rfl⟩ | ⟨w, u, hu, rfl⟩
    · cases hg
    · cases hg
    · exact sound hu hg
  · cases scan
    exact sound mem hg

theorem exists_number (h : build compile s = .ok v) {entry : Text × List Text}
    (mem : entry ∈ s.formats) : ∃ n, Settings.number? entry.1 = some n := by
  obtain ⟨_, _, _, _, _, groups, -, -, -, timed, rfl⟩ := build_eq_ok h
  obtain ⟨g, -, is⟩ := (exists_of_forall₂ (forall₂_timeGroups timed)).1 entry mem
  exact ⟨g.id, is.number⟩

/-- Keys of layouts become groups by their numbers, so that two keys become one group just when they
differ in a plus sign and zeros at their beginning only. What fits a layout of a key is a timestamp
of its group if and only if the regular expression of the number, where there is one, accepts it.
This is the key's own one when the key shares its number with no other. The group of a token names a
key that has a regular expression, and all keys that share their number with this one. -/
theorem groups_build (h : build compile s = .ok v) :
    (∀ key layouts, (key, layouts) ∈ s.formats → ∃ n, Settings.number? key = some n ∧
      (∀ other ∈ s.formats, Settings.number? other.1 = some n ↔ Text.bare other.1 = Text.bare key) ∧
      (∀ text stamp, stamp <+: text → LayoutClass.FitsSome layouts stamp →
        ((stamp.length, n) ∈ v.time.candidates text ↔
          ∀ pattern ∈ s.pattern? n, compile.Accepts pattern stamp)) ∧
      ((∀ other ∈ s.formats, Text.bare other.1 = Text.bare key → other.1 = key) →
        s.pattern? n = s.regexes.get? key)) ∧
    ∀ text line, Scan.auto v text = .ok line → ∀ t ∈ line, ∀ group ∈ t.group,
      ∃ key ∈ s.formats.map (·.1), (s.regexes.get? key).isSome ∧ ∀ other ∈ s.formats,
        (Settings.number? other.1).map Text.ofNat = some group ↔
          Text.bare other.1 = Text.bare key := by
  constructor
  · intro key layouts mem
    obtain ⟨n, number⟩ := exists_number h mem
    have same : ∀ other ∈ s.formats,
        Settings.number? other.1 = some n ↔ Text.bare other.1 = Text.bare key := by
      intro other hother
      obtain ⟨m, number'⟩ := exists_number h hother
      rw [number', Option.some_inj, Settings.number?_eq_iff number number']
    refine ⟨n, number, same, fun text stamp begins fits => ?_, fun alone => ?_⟩
    · rw [mem_candidates_build h]
      constructor
      · rintro ⟨_, _, stamp', -, -, begins', -, accepted, length⟩
        -- Both are beginnings of the text, and equally long.
        rwa [List.prefix_iff_eq_take.1 begins, length, ← List.prefix_iff_eq_take.1 begins']
      · exact fun accepted => ⟨key, layouts, stamp, mem, number, begins, fits, accepted, rfl⟩
    · exact Settings.pattern?_of_alone mem number fun other hother number' =>
        alone other hother ((same other hother).1 number')
  · intro text line scan t ht group hg
    obtain ⟨n, rfl, key, layouts, regex, mem, number, found⟩ := verifies_of_mem_auto h scan ht hg
    refine ⟨key, List.mem_map_of_mem mem, by rw [found]; rfl, fun other hother => ?_⟩
    obtain ⟨m, number'⟩ := exists_number h hother
    rw [number', Option.map_some, Option.some_inj, Text.ofNat_inj,
      Settings.number?_eq_iff number number']

/-- Two keys of one number, of which the second has a regular expression, which is demanded of the
timestamps of the first. -/
theorem groups_build_up :
    let s : Settings := {
      formats := [("03".toList, ["01:02".toList]), ("3".toList, ["2006-01-02".toList])]
      regexes := [("3".toList, "2.*".toList)] }
    ∃ v, build Regex.compile s = .ok v ∧
      ((5, 3) ∈ v.time.candidates "22:34 x".toList ↔
        Compiler.Accepts Regex.compile "2.*".toList "22:34".toList) := by
  intro s
  have built : (build Regex.compile s).isOk := by decide +kernel
  cases h : build Regex.compile s with
  | error e => simp [h, Except.isOk, Except.toBool] at built
  | ok v =>
    have pattern : s.pattern? 3 = some "2.*".toList := by decide
    obtain ⟨n, number, -, admission, -⟩ :=
      (groups_build h).1 "03".toList ["01:02".toList] List.mem_cons_self
    obtain rfl : 3 = n := Option.some_inj.1 number
    have admission := admission "22:34 x".toList "22:34".toList (by decide) (by decide)
    rw [pattern] at admission
    exact ⟨v, rfl, by simpa using admission⟩

/-- The regular expression of another key refuses a timestamp of a key that has none. What it
accepts is of a group that is two keys. -/
theorem groups_build_mixed :
    let s : Settings := {
      formats := [("03".toList, ["01:02".toList]), ("3".toList, ["2006-01-02".toList])]
      regexes := [("3".toList, "2.*".toList)] }
    s.formats.map (Settings.number? ·.1) = [some 3, some 3] ∧
      s.regexes.get? "03".toList = none ∧ LayoutClass.FitsSome ["01:02".toList] "12:34".toList ∧
      ((Vocabulary.ofSettings s).toOption.map fun v =>
        (v.time.candidates "12:34".toList, (Scan.message v "12:34".toList).map (·.kind),
          (Scan.message v "22:34".toList).map (·.group))) =
        some ([], [.integer, .literal, .integer], [some "3".toList]) := by
  decide +kernel

end Vocabulary

end LogTemplate
