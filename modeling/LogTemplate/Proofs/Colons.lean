import LogTemplate.Proofs.Address
import Mathlib.Data.List.DropRight
import Mathlib.Data.List.Induction

/-!
# The grammar of colon-separated addresses

Whether a text begins with an address, and of which kind it is, told by the shape of its longest
beginning of hexadecimal digits and colons and by the character behind it.

* `IsAddress` is the grammar, with `RowsUpTo` for rows of digits that are too long, and
  `addressKind` the kind by the number of colons and of double colons;
* `ColonRun.Counts` says what the counters of a run mean for the text that was read, and
  `ColonRun.counts_of_along?` that reading keeps them so;
* `ColonRun.exists_along?_iff` says which texts can be read to their end;
* `address?_eq_some_iff_isAddress` says that the addresses are those of the grammar.
-/

namespace LogTemplate

/-! ### The grammar -/

/-- A character of a run of hexadecimal digits and colons. -/
def isRunChar (c : Char) : Bool := isHexDigit c || c == ':'

/-- No row of more than `k` characters of the class stands in the text. -/
def RowsUpTo (p : Char → Bool) (k : Nat) (x : Text) : Prop :=
  ∀ y, y <:+: x → (∀ c ∈ y, p c) → y.length ≤ k

/-- How many double colons stand in the text. -/
def doubleColons (x : Text) : Nat := (x.zip x.tail).count (':', ':')

/-- The shape of a run that is an address: two colons at least, at most four digits in a row, and no
three adjacent colons. -/
structure IsAddress (x : Text) : Prop where
  colons : 2 ≤ x.count ':'
  digits : RowsUpTo isHexDigit 4 x
  apart : ¬[':', ':', ':'] <:+: x

/-- The kind of an address. A MAC address has six parts. An IPv6 address has eight, of which one
double colon may leave out some. -/
def addressKind (x : Text) : Kind :=
  if x.count ':' = 5 ∧ doubleColons x = 0 then .mac
  else if (doubleColons x = 1 ∧ x.count ':' ≤ 7) ∨ (x.count ':' = 7 ∧ doubleColons x = 0) then .ipv6
  else .literal

variable {p : Char → Bool} {k : Nat} {x y : Text} {c : Char}

theorem isHexDigit_colon : isHexDigit ':' = false := by decide

theorem ne_colon_of_isHexDigit (h : isHexDigit c = true) : c ≠ ':' := by
  rintro rfl
  cases h

/-! ### Rows of characters -/

/-- A row at the end of a text is part of the longest one there. -/
theorem length_le_rtakeWhile (ends : y <:+ x) (hy : ∀ c ∈ y, p c) :
    y.length ≤ (x.rtakeWhile p).length := by
  obtain ⟨w, rfl⟩ := ends
  have all : ∀ c ∈ y.reverse, p c := fun c hc => hy c (List.mem_reverse.1 hc)
  rw [List.rtakeWhile, List.reverse_append, List.takeWhile_append_of_pos all]
  simp

theorem rowsUpTo_nil : RowsUpTo p k [] := by
  rintro y sub -
  simp [List.infix_nil.1 sub]

/-- A new row can only arise at the end. -/
theorem rowsUpTo_concat :
    RowsUpTo p k (x ++ [c]) ↔ RowsUpTo p k x ∧ ((x ++ [c]).rtakeWhile p).length ≤ k := by
  constructor
  · intro h
    exact ⟨fun y sub => h y (sub.trans (List.infix_append' [] x [c])),
      h _ (List.rtakeWhile_suffix p _).isInfix fun d hd => List.mem_rtakeWhile_imp hd⟩
  · rintro ⟨h, le⟩ y sub hy
    rcases List.infix_concat_iff.1 sub with ends | sub
    · exact (length_le_rtakeWhile ends hy).trans le
    · exact h y sub hy

theorem rowsUpTo_colons : RowsUpTo (· == ':') 2 x ↔ ¬[':', ':', ':'] <:+: x := by
  constructor
  · intro h sub
    have := h _ sub (by simp)
    simp at this
  · intro none y sub hy
    obtain same : y = List.replicate y.length ':' :=
      List.eq_replicate_iff.2 ⟨rfl, fun c hc => by simpa using hy c hc⟩
    by_contra long
    refine none (List.IsInfix.trans ⟨[], List.replicate (y.length - 3) ':', ?_⟩ sub)
    calc [] ++ [':', ':', ':'] ++ List.replicate (y.length - 3) ':'
      _ = List.replicate (3 + (y.length - 3)) ':' := by rw [List.replicate_add]; rfl
      _ = y := by rw [Nat.add_sub_cancel' (by omega)]; exact same.symm

/-! ### Double colons -/

theorem zip_tail_concat {α : Type} (x : List α) (c d : α) :
    (x ++ [d] ++ [c]).zip (x ++ [d] ++ [c]).tail = (x ++ [d]).zip (x ++ [d]).tail ++ [(d, c)] := by
  induction x with
  | nil => rfl
  | cons a x ih =>
    cases x with
    | nil => rfl
    | cons b x => simpa using ih

/-- A colon behind a colon makes a double colon. -/
theorem doubleColons_concat (x : Text) (c : Char) :
    doubleColons (x ++ [c]) =
      doubleColons x + if 0 < (x.rtakeWhile (· == ':')).length ∧ c = ':' then 1 else 0 := by
  rcases List.eq_nil_or_concat x with rfl | ⟨y, d, rfl⟩
  · simp [doubleColons]
  · rw [List.concat_eq_append, doubleColons, zip_tail_concat, List.count_append, ← doubleColons,
      List.rtakeWhile_concat]
    by_cases hd : d = ':' <;> by_cases hc : c = ':' <;> simp [hd, hc]

theorem doubleColons_le (x : Text) : doubleColons x ≤ x.count ':' := by
  induction x using List.reverseRecOn with
  | nil => simp [doubleColons]
  | append_singleton x c ih =>
    rw [doubleColons_concat, List.count_append, List.count_singleton]
    by_cases hc : c = ':'
    · simp only [hc, and_true, beq_self_eq_true, if_true]
      split <;> omega
    · simp [hc, ih]

/-! ### What the counters count -/

namespace ColonRun

variable {r s : ColonRun}

/-- What the counters of a run mean for the text that was read. -/
structure Counts (x : Text) (r : ColonRun) : Prop where
  digits : r.digits = (x.rtakeWhile isHexDigit).length
  streak : r.streak = (x.rtakeWhile (· == ':')).length
  colons : r.colons = x.count ':'
  doubles : r.doubles = doubleColons x
  /-- There are no longer rows of colons than double ones. -/
  longest : r.longest = min 1 r.colons + min 1 r.doubles

theorem along?_append (r : ColonRun) (x y : Text) :
    r.along? (x ++ y) = (r.along? x).bind (along? · y) := by
  induction x generalizing r with
  | nil => rfl
  | cons c x ih =>
    simp only [List.cons_append, along?, ih]
    split
    · exact (Option.bind_assoc ..).symm
    · split
      · exact (Option.bind_assoc ..).symm
      · rfl

theorem along?_singleton (r : ColonRun) (c : Char) :
    r.along? [c] = if isHexDigit c then r.digit? else if c = ':' then r.colon? else none := by
  simp [along?]

theorem Counts.nil : Counts [] {} where
  digits := rfl
  streak := rfl
  colons := rfl
  doubles := rfl
  longest := rfl

/-- One more digit. -/
theorem Counts.digit (h : Counts x r) (hex : isHexDigit c = true) (step : r.digit? = some s) :
    Counts (x ++ [c]) s := by
  have other := ne_colon_of_isHexDigit hex
  unfold digit? at step
  split at step
  · cases step
    exact {
      digits := by simp [hex, h.digits]
      streak := by simp [other]
      colons := by simp [other, h.colons]
      doubles := by simp [doubleColons_concat, other, h.doubles]
      longest := h.longest }
  · cases step

/-- One more colon. -/
theorem Counts.colon (h : Counts x r) (step : r.colon? = some s) : Counts (x ++ [':']) s := by
  have few := doubleColons_le x
  rw [← h.colons, ← h.doubles] at few
  unfold colon? at step
  split at step
  · next room =>
    cases step
    exact {
      digits := by simp [isHexDigit_colon]
      streak := by simp [h.streak]
      colons := by simp [h.colons]
      doubles := by
        rw [doubleColons_concat, ← h.streak, ← h.doubles]
        simp only [and_true]
        split <;> split <;> omega
      longest := by
        simp only [h.longest]
        split <;> omega }
  · cases step

theorem Counts.step (h : Counts x r) (step : r.along? [c] = some s) : Counts (x ++ [c]) s := by
  rw [along?_singleton] at step
  split at step
  · next hex => exact h.digit hex step
  · split at step
    · next colon =>
      subst colon
      exact h.colon step
    · cases step

/-- Reading keeps the counters right. -/
theorem counts_of_along? (h : along? {} x = some r) : Counts x r := by
  -- The counters speak of the end of the text, so that is where it grows.
  induction x using List.reverseRecOn generalizing r with
  | nil =>
    cases h
    exact .nil
  | append_singleton x c ih =>
    rw [along?_append] at h
    obtain ⟨r', before, step⟩ := Option.bind_eq_some_iff.1 h
    exact (ih before).step step

theorem exists_digit?_iff : (∃ s, r.digit? = some s) ↔ r.digits < 4 := by
  unfold digit?
  split <;> simp [*]

theorem exists_colon?_iff : (∃ s, r.colon? = some s) ↔ r.streak < 2 := by
  unfold colon?
  split <;> simp [*]

/-- One more character can be read unless it makes a row too long. -/
theorem Counts.exists_step_iff (h : Counts x r) :
    (∃ s, r.along? [c] = some s) ↔ isRunChar c ∧
      ((x ++ [c]).rtakeWhile isHexDigit).length ≤ 4 ∧
      ((x ++ [c]).rtakeWhile (· == ':')).length ≤ 2 := by
  rw [along?_singleton, List.rtakeWhile_concat, List.rtakeWhile_concat]
  by_cases hex : isHexDigit c = true
  · have other : ¬(c == ':') = true := by simpa using ne_colon_of_isHexDigit hex
    have run : isRunChar c = true := by rw [isRunChar, hex, Bool.true_or]
    rw [if_pos hex, if_pos hex, if_neg other, exists_digit?_iff, h.digits, List.length_append]
    simp only [run, true_and, List.length_nil, Nat.zero_le, and_true]
    exact Iff.rfl
  · by_cases colon : c = ':'
    · have same : (c == ':') = true := by simpa using colon
      have run : isRunChar c = true := by rw [isRunChar, same, Bool.or_true]
      rw [if_neg hex, if_neg hex, if_pos colon, if_pos same, exists_colon?_iff, h.streak,
        List.length_append]
      simp only [run, true_and, List.length_nil, Nat.zero_le]
      exact Iff.rfl
    · simp [isRunChar, hex, colon]

theorem exists_along?_concat :
    (∃ s, along? {} (x ++ [c]) = some s) ↔
      (∃ r, along? {} x = some r) ∧ isRunChar c ∧
        ((x ++ [c]).rtakeWhile isHexDigit).length ≤ 4 ∧
        ((x ++ [c]).rtakeWhile (· == ':')).length ≤ 2 := by
  rw [along?_append]
  constructor
  · rintro ⟨s, h⟩
    obtain ⟨r, before, step⟩ := Option.bind_eq_some_iff.1 h
    exact ⟨⟨r, before⟩, (counts_of_along? before).exists_step_iff.1 ⟨s, step⟩⟩
  · rintro ⟨⟨r, before⟩, fits⟩
    obtain ⟨s, step⟩ := (counts_of_along? before).exists_step_iff.2 fits
    exact ⟨s, Option.bind_eq_some_iff.2 ⟨r, before, step⟩⟩

/-- A text can be read when it is a run without a row that is too long. -/
theorem exists_along?_iff :
    (∃ r, along? {} x = some r) ↔
      (∀ c ∈ x, isRunChar c) ∧ RowsUpTo isHexDigit 4 x ∧ RowsUpTo (· == ':') 2 x := by
  induction x using List.reverseRecOn with
  | nil => simp [along?, rowsUpTo_nil]
  | append_singleton x c ih =>
    rw [exists_along?_concat, ih, rowsUpTo_concat, rowsUpTo_concat]
    simp only [List.forall_mem_append, List.forall_mem_singleton]
    tauto

/-- What a run is, by its text. -/
theorem Counts.kind?_eq (h : Counts x r) :
    r.kind? = if 2 ≤ x.count ':' then some (addressKind x) else none := by
  have single : r.colons = 5 → (r.longest = 1 ↔ r.doubles = 0) := by
    intro five
    rw [h.longest]
    omega
  unfold kind? addressKind
  rw [← h.colons, ← h.doubles]
  by_cases few : r.colons ≤ 1
  · rw [if_pos few, if_neg (show ¬2 ≤ r.colons by omega)]
  · have mac : (r.colons = 5 ∧ r.longest = 1) ↔ (r.colons = 5 ∧ r.doubles = 0) :=
      and_congr_right single
    rw [if_neg few, if_pos (show 2 ≤ r.colons by omega)]
    simp only [Bool.and_eq_true, Bool.or_eq_true, decide_eq_true_eq, mac]
    split
    · rfl
    · split <;> rfl

end ColonRun

/-! ### Addresses -/

/-- The longest beginning of hexadecimal digits and colons. -/
def hexRun (t : Text) : Text := t.takeWhile isRunChar

/-- A run ends where neither it nor a word goes on. -/
theorem endsRun_iff {w : Text} :
    EndsRun w ↔ ∀ c ∈ w.head?, isRunChar c = false ∧ isWordChar c = false := by
  simp [EndsRun, isRunChar, and_assoc]

theorem hexRun_append {w : Text} (hx : ∀ c ∈ x, isRunChar c) (hw : EndsRun w) :
    hexRun (x ++ w) = x := by
  rw [hexRun, List.takeWhile_append_of_pos hx]
  cases w with
  | nil => simp
  | cons c w => simp [(endsRun_iff.1 hw c rfl).1]

/-- Digits and colons take one byte each. -/
theorem utf8Size_of_isRunChar (h : isRunChar c) : c.utf8Size = 1 := by
  refine Char.utf8Size_eq_one_iff.2 ?_
  simp only [isRunChar, isHexDigit, Char.isDigit, Bool.or_eq_true, Bool.and_eq_true,
    decide_eq_true_eq, beq_iff_eq, ge_iff_le] at h
  rcases h with ((⟨-, le⟩ | ⟨-, le⟩) | ⟨-, le⟩) | rfl
  · exact UInt32.le_trans le (show '9'.val ≤ 127 by decide)
  · exact UInt32.le_trans le (show 'f'.val ≤ 127 by decide)
  · exact UInt32.le_trans le (show 'F'.val ≤ 127 by decide)
  · decide

theorem bytes_of_run (h : ∀ c ∈ x, isRunChar c) : x.bytes = x.length := by
  induction x with
  | nil => rfl
  | cons c x ih =>
    rw [List.forall_mem_cons] at h
    rw [Text.bytes_cons, utf8Size_of_isRunChar h.1, ih h.2, List.length_cons, Nat.add_comm]

/-- A text begins with an address when its longest beginning of hexadecimal digits and colons is of
the shape of one and the character behind it does not continue a word. This beginning is the
address, and it is as long in bytes as in characters. -/
theorem address?_eq_some_iff_isAddress (t : Text) (n : Nat) (k : Kind) :
    (address? t = some (n, k) ↔
      IsAddress (hexRun t) ∧ (∀ c ∈ (t.dropWhile isRunChar).head?, isWordChar c = false) ∧
        n = (hexRun t).length ∧ k = addressKind (hexRun t)) ∧
    (hexRun t).bytes = (hexRun t).length := by
  refine ⟨?_, bytes_of_run fun c hc => List.mem_takeWhile_imp hc⟩
  rw [address?_eq_some_iff]
  constructor
  · rintro ⟨x, w, r, rfl, rfl, ends, along, kind⟩
    obtain ⟨run, digits, apart⟩ := ColonRun.exists_along?_iff.1 ⟨r, along⟩
    rw [(ColonRun.counts_of_along? along).kind?_eq] at kind
    obtain ⟨colons, kind⟩ := Option.ite_none_right_eq_some.1 kind
    have behind : (x ++ w).dropWhile isRunChar = w := by
      have whole := List.takeWhile_append_dropWhile (p := isRunChar) (l := x ++ w)
      rw [← hexRun, hexRun_append run ends] at whole
      exact List.append_cancel_left whole
    rw [hexRun_append run ends, behind]
    exact ⟨⟨colons, digits, rowsUpTo_colons.1 apart⟩,
      fun c hc => (endsRun_iff.1 ends c hc).2, rfl, (Option.some.inj kind).symm⟩
  · rintro ⟨⟨colons, digits, apart⟩, word, rfl, rfl⟩
    have run : ∀ c ∈ hexRun t, isRunChar c := fun c hc => List.mem_takeWhile_imp hc
    obtain ⟨r, along⟩ := ColonRun.exists_along?_iff.2 ⟨run, digits, rowsUpTo_colons.2 apart⟩
    refine ⟨hexRun t, t.dropWhile isRunChar, r, List.takeWhile_append_dropWhile.symm, rfl,
      endsRun_iff.2 fun c hc => ⟨?_, word c hc⟩, along, ?_⟩
    · have stop := List.head?_dropWhile_not isRunChar t
      rw [Option.mem_def.1 hc] at stop
      simpa using stop
    · rw [(ColonRun.counts_of_along? along).kind?_eq, if_pos colons]

end LogTemplate
