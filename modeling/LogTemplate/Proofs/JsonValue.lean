import LogTemplate.Proofs.Json
import LogTemplate.Flatten

/-!
# JSON without a value

A message that looks like a JSON object is read twice. The first reading only asks whether it is
well formed; the second one takes its value, which not all well-formed text has.

* `Json.Paired` and `Json.isSome_decodeString?_iff`: strings without half of a surrogate pair;
* `Json.Tree.At` are the parts of a tree with their levels, `Json.Tree.Readable` demands of each of
  them what its own symbol needs, and `Json.Tree.isSome_value?_iff` says that this is all it takes;
* `Json.Tree.InObject` is kept while an object is read, so that what begins like an object is one;
* `Scan.auto_cases` says how a message is scanned.
-/

namespace LogTemplate

namespace Json

/-! ### Strings -/

/-- The halves of surrogate pairs stand side by side. -/
inductive Paired : List StringUnit → Prop
  | nil : Paired []
  | char {units : List StringUnit} (c : Char) (h : Paired units) : Paired (.char c :: units)
  | code {n : Nat} {units : List StringUnit} (low : isLowSurrogate n = false)
      (high : isHighSurrogate n = false) (h : Paired units) : Paired (.code n :: units)
  | pair {n m : Nat} {units : List StringUnit} (high : isHighSurrogate n = true)
      (low : isLowSurrogate m = true) (h : Paired units) : Paired (.code n :: .code m :: units)

theorem not_isLowSurrogate {n : Nat} (high : isHighSurrogate n = true) :
    isLowSurrogate n = false := by
  simp only [isHighSurrogate, isLowSurrogate, Bool.and_eq_true, Bool.and_eq_false_iff,
    decide_eq_true_eq, decide_eq_false_iff_not] at *
  omega

/-- A string has a text when no half of a surrogate pair stands alone. -/
theorem isSome_decodeString?_iff {units : List StringUnit} :
    (decodeString? units).isSome ↔ Paired units := by
  constructor
  · intro h
    fun_induction decodeString? units with
    | case1 => exact .nil
    | case2 c rest ih => exact .char c (ih (by simpa using h))
    | case3 => cases h
    | case4 n _ high m rest low ih => exact .pair high low (ih (by simpa using h))
    | case5 => cases h
    | case6 => cases h
    | case7 n rest low high ih =>
      exact .code (by simpa using low) (by simpa using high) (ih (by simpa using h))
  · intro h
    induction h with
    | nil => rfl
    | char c _ ih => simpa [decodeString?] using ih
    | code low high _ ih =>
      rw [decodeString?.eq_def]
      simpa [low, high] using ih
    | pair high low _ ih => simpa [decodeString?, not_isLowSurrogate high, high, low] using ih

/-! ### Trees -/

namespace Tree

variable {t s : Tree} {depth n room : Nat} {items : List Tree}
  {members : List (List StringUnit × Tree)}

/-- The second tree is part of the first one, inside of `n` arrays and objects. -/
inductive At : Tree → Nat → Tree → Prop
  | root (t : Tree) : At t 0 t
  | item {t s : Tree} {items : List Tree} {n : Nat} (mem : t ∈ items) (h : At t n s) :
      At (.array items) (n + 1) s
  | member {t s : Tree} {members : List (List StringUnit × Tree)} {key : List StringUnit} {n : Nat}
      (mem : (key, t) ∈ members) (h : At t n s) : At (.object members) (n + 1) s

/-- What a part needs of its own to have a value where `room` further levels are left: its number is
not too large, and its string or its keys are texts. -/
def Fits (room : Nat) : Tree → Prop
  | .null | .bool _ => True
  | .number x => (Number.ofNumeral? x).isSome
  | .string units => Paired units
  | .array _ => 0 < room
  | .object members => 0 < room ∧ ∀ m ∈ members, Paired m.1

/-- All parts of a tree have what they need. -/
def Readable (depth : Nat) (t : Tree) : Prop := ∀ n s, t.At n s → s.Fits (depth - n)

theorem readable_leaf (alone : ∀ n s, t.At n s → n = 0 ∧ s = t) :
    t.Readable depth ↔ t.Fits depth := by
  constructor
  · exact fun h => h 0 t (.root t)
  · intro h n s part
    obtain ⟨rfl, rfl⟩ := alone n s part
    exact h

theorem readable_array :
    (array items).Readable depth ↔ 0 < depth ∧ ∀ t ∈ items, t.Readable (depth - 1) := by
  constructor
  · intro h
    refine ⟨h 0 _ (.root _), fun t mem n s part => ?_⟩
    rw [Nat.sub_sub, Nat.add_comm]
    exact h (n + 1) s (.item mem part)
  · rintro ⟨pos, h⟩ n s (_ | ⟨mem, part⟩)
    · exact pos
    · rw [Nat.add_comm, ← Nat.sub_sub]
      exact h _ mem _ s part

theorem readable_object :
    (object members).Readable depth ↔
      0 < depth ∧ ∀ m ∈ members, Paired m.1 ∧ m.2.Readable (depth - 1) := by
  constructor
  · intro h
    obtain ⟨pos, keys⟩ := h 0 _ (.root _)
    refine ⟨pos, fun m mem => ⟨keys m mem, fun n s part => ?_⟩⟩
    rw [Nat.sub_sub, Nat.add_comm]
    exact h (n + 1) s (.member mem part)
  · rintro ⟨pos, h⟩ n s (_ | _ | ⟨mem, part⟩)
    · exact ⟨pos, fun m mem => (h m mem).1⟩
    · rw [Nat.add_comm, ← Nat.sub_sub]
      exact (h _ mem).2 _ s part

theorem isSome_itemValues?_iff :
    (itemValues? depth items).isSome ↔ ∀ t ∈ items, (t.value? depth).isSome := by
  induction items with
  | nil => simp [itemValues?]
  | cons t items ih =>
    rw [itemValues?, List.forall_mem_cons, ← ih]
    cases t.value? depth <;> cases itemValues? depth items <;> simp

theorem isSome_memberValues?_iff :
    (memberValues? depth members).isSome ↔
      ∀ m ∈ members, Paired m.1 ∧ (m.2.value? depth).isSome := by
  induction members with
  | nil => simp [memberValues?]
  | cons m members ih =>
    obtain ⟨key, t⟩ := m
    rw [memberValues?, List.forall_mem_cons, ← ih, ← isSome_decodeString?_iff]
    cases decodeString? key <;> cases t.value? depth <;> cases memberValues? depth members <;> simp

/-- A tree has a value when each of its parts has what it needs. -/
theorem isSome_value?_iff (t : Tree) (depth : Nat) :
    (t.value? depth).isSome ↔ t.Readable depth := by
  -- The recursion is on the depth: what an array or an object holds is read with one level less.
  cases t with
  | null | bool b =>
    rw [readable_leaf (by rintro n s ⟨⟩; exact ⟨rfl, rfl⟩)]
    simp [value?, Fits]
  | number x =>
    rw [readable_leaf (by rintro n s ⟨⟩; exact ⟨rfl, rfl⟩)]
    simp [value?, Fits]
  | string units =>
    rw [readable_leaf (by rintro n s ⟨⟩; exact ⟨rfl, rfl⟩)]
    simp [value?, Fits, isSome_decodeString?_iff]
  | array items =>
    rw [readable_array]
    cases depth with
    | zero => simp [value?]
    | succ depth => simp [value?, isSome_itemValues?_iff, fun t => isSome_value?_iff t depth]
  | object members =>
    rw [readable_object]
    cases depth with
    | zero => simp [value?]
    | succ depth => simp [value?, isSome_memberValues?_iff, fun t => isSome_value?_iff t depth]

theorem isSome_value?_object {members : List (List StringUnit × Tree)} {value : Value}
    (h : (object members).value? depth = some value) : ∃ values, value = .object values := by
  cases depth with
  | zero => cases h
  | succ depth =>
    obtain ⟨found, -, rfl⟩ := Option.map_eq_some_iff.1 h
    exact ⟨_, rfl⟩

/-! ### Objects -/

/-- The outermost tree that is being read is an object. -/
inductive InObject : Place → List Frame → Prop
  | firstKey : InObject .firstKey []
  | key (members : List (List StringUnit × Tree)) : InObject (.key members) []
  | colon (members : List (List StringUnit × Tree)) (key : List StringUnit) :
      InObject (.colon members key) []
  | after (members : List (List StringUnit × Tree)) : InObject (.after (.object members)) []
  | inner {place : Place} {frames : List Frame} {members : List (List StringUnit × Tree)}
      {key : List StringUnit} (outermost : frames.getLast? = some (.object members key)) :
      InObject place frames

variable {place place' : Place} {frames frames' : List Frame} {symbol : Symbol}

theorem getLast?_of_cons {α : Type} {a b : α} {l : List α} (h : (a :: l).getLast? = some b) :
    l = [] ∧ a = b ∨ l.getLast? = some b := by
  cases l with
  | nil => exact .inl ⟨rfl, Option.some.inj h⟩
  | cons c l => exact .inr (by rwa [List.getLast?_cons_cons] at h)

/-- Inside of an object, further arrays and objects are opened and closed, until the object is. -/
theorem InObject.step_inner {key : List StringUnit}
    (outermost : frames.getLast? = some (.object members key))
    (step : step? place frames symbol = some (place', frames')) : InObject place' frames' := by
  have deeper {outer : List Frame} (h : outer.getLast? = some (.object members key)) (f : Frame) :
      InObject place' (f :: outer) := by
    have last : (f :: outer).getLast? = some (.object members key) := by
      rw [List.getLast?_cons, h]
      rfl
    exact .inner last
  cases place with
  | value =>
    obtain ⟨_, -, eq⟩ := Option.map_eq_some_iff.1 step
    cases eq
    exact .inner outermost
  | firstItem =>
    simp only [step?] at step
    split at step
    · cases step
      exact .inner outermost
    · obtain ⟨_, -, eq⟩ := Option.map_eq_some_iff.1 step
      cases eq
      exact deeper outermost _
  | firstKey | key =>
    simp only [step?] at step
    split at step <;> cases step <;> exact .inner outermost
  | colon =>
    simp only [step?] at step
    split at step <;> cases step
    exact deeper outermost _
  | after t =>
    simp only [step?] at step
    split at step <;> cases step <;> rcases getLast?_of_cons outermost with ⟨rfl, eq⟩ | outermost
    · cases eq
    · exact deeper outermost _
    · cases eq
    · exact .inner outermost
    · exact .key _
    · exact .inner outermost
    · exact .after _
    · exact .inner outermost

theorem InObject.step (h : InObject place frames)
    (step : step? place frames symbol = some (place', frames')) : InObject place' frames' := by
  cases h with
  | firstKey =>
    simp only [step?] at step
    split at step <;> cases step
    · exact .after []
    · exact .colon [] _
  | key members =>
    simp only [step?] at step
    split at step <;> cases step
    exact .colon members _
  | colon members key =>
    simp only [step?] at step
    split at step <;> cases step
    exact .inner rfl
  | after members => cases step
  | inner outermost => exact step_inner outermost step

/-- What begins like an object is one. -/
theorem InObject.build? {place : Place} {frames : List Frame} {symbols : List Symbol}
    (h : InObject place frames) (built : Tree.build? place frames symbols = some t) :
    ∃ members, t = .object members := by
  induction symbols generalizing place frames with
  | nil =>
    cases h with
    | after members =>
      cases built
      exact ⟨members, rfl⟩
    | inner outermost =>
      cases frames with
      | nil => cases outermost
      | cons f frames => cases place <;> cases built
    | _ => cases built
  | cons symbol symbols ih =>
    rw [Tree.build?] at built
    split at built
    · next next_ => exact ih (h.step next_) built
    · cases built

/-- Text that looks like an object is one. -/
theorem exists_object_of_looksLikeObject {text : Text} (looks : looksLikeObject text = true) :
    ∃ members, parse? text.trim = some (.object members) := by
  simp only [looksLikeObject, Bool.and_eq_true, beq_iff_eq] at looks
  obtain ⟨⟨first, -⟩, formed⟩ := looks
  obtain ⟨t, ht⟩ := Option.isSome_iff_exists.1 formed
  obtain ⟨rest, eq⟩ : ∃ rest, text.trim = '\x7b' :: rest := List.head?_eq_some_iff.1 first
  have begins : Begins text.trim .beginObject rest := ⟨⟨_, rest, eq, by decide⟩, by rw [eq]; rfl⟩
  have built : resume .firstKey [] rest = some t := by
    have read := resume_of_begins begins .value []
    rw [step?, begin?, Option.map_some, Option.bind_some] at read
    exact read.symm.trans ht
  obtain ⟨symbols, -, built⟩ := Option.bind_eq_some_iff.1 built
  obtain ⟨members, rfl⟩ := InObject.firstKey.build? built
  exact ⟨members, ht⟩

end Tree

end Json

/-! ### Messages -/

namespace Scan

open Json

/-- Any message can be scanned, except for one that looks like a JSON object with a part that has no
value: it is nested too deeply, its string or a key of it holds half of a surrogate pair, or its
number is too large. Such a message is an error and not scanned as a text. -/
theorem auto_cases (v : Vocabulary) (text : Text) :
    (looksLikeObject text = false ∧ auto v text = .ok (message v text)) ∨
    (∃ members values, looksLikeObject text = true ∧
      Tree.parse? text.trim = some (.object members) ∧
      (Tree.object members).Readable (depthLimit - 1) ∧
      (Tree.object members).value? (depthLimit - 1) = some (.object values) ∧
      auto v text = .ok (Flatten.tokens v none (.object values))) ∨
    (∃ members, looksLikeObject text = true ∧ Tree.parse? text.trim = some (.object members) ∧
      ¬(Tree.object members).Readable (depthLimit - 1) ∧ auto v text = .error .malformedJson) := by
  cases looks : looksLikeObject text with
  | false => exact .inl ⟨rfl, by simp [auto, looks]⟩
  | true =>
    obtain ⟨members, parsed⟩ := Tree.exists_object_of_looksLikeObject looks
    have value : Value.parse? text.trim = (Tree.object members).value? (depthLimit - 1) := by
      rw [Value.parse?, parsed, Option.bind_some]
    refine .inr ?_
    cases read : (Tree.object members).value? (depthLimit - 1) with
    | none =>
      refine .inr ⟨members, rfl, parsed, fun readable => ?_, ?_⟩
      · have := (Tree.isSome_value?_iff _ _).2 readable
        simp [read] at this
      · simp [auto, looks, json, value, read]
    | some value' =>
      obtain ⟨values, rfl⟩ := Tree.isSome_value?_object read
      refine .inl ⟨members, values, rfl, parsed, (Tree.isSome_value?_iff _ _).1 (by simp [read]),
        read, ?_⟩
      simp [auto, looks, json, value, read]

/-- An object that holds 127 arrays inside of each other is well formed, but it has no value. -/
theorem auto_nested :
    ∃ v, Vocabulary.ofSettings {} = .ok v ∧
      let text : Text := '\x7b' :: "\"a\":".toList ++ List.replicate 127 '[' ++
        List.replicate 127 ']' ++ ['\x7d']
      looksLikeObject text = true ∧ auto v text = .error .malformedJson := by
  refine ⟨_, rfl, ?_⟩
  intro text
  have looks : looksLikeObject text = true := by decide +kernel
  have none : (Value.parse? text.trim).isNone = true := by decide +kernel
  refine ⟨looks, ?_⟩
  simp [auto, looks, json, Option.isNone_iff_eq_none.1 none]

end Scan

end LogTemplate
