import LogTemplate.Text.Basic
import Mathlib.Tactic.SplitIfs

/-!
# Texts

* `Text.before_trans` and `Text.before_of_not` say that texts are in a linear order;
  `Text.utf8_lt_of_before` that it is the order of their bytes;
* `Text.trimEnd_append` and `Text.exists_trimEnd_append` say what trimming takes away.
-/

namespace LogTemplate.Text

/-! ### The order of texts -/

theorem before_irrefl (t : Text) : before t t = false := by
  induction t with
  | nil => rfl
  | cons c t ih => simp [before, ih]

theorem before_trans {s t u : Text} (hst : before s t) (htu : before t u) : before s u := by
  induction s generalizing t u with
  | nil =>
    cases u with
    | nil => cases t <;> simp [before] at hst htu
    | cons => rfl
  | cons a s ih =>
    rcases t with _ | ⟨b, t⟩
    · simp [before] at hst
    rcases u with _ | ⟨c, u⟩
    · simp [before] at htu
    unfold before at hst htu ⊢
    by_cases hab : a = b
    · subst hab
      by_cases hac : a = c
      · simp only [hac, if_true] at hst htu ⊢
        exact ih hst htu
      · simpa [hac] using htu
    · by_cases hbc : b = c
      · subst hbc
        simpa [hab] using hst
      · simp only [hab, hbc, if_false, decide_eq_true_eq] at hst htu
        have hac : a < c := Char.lt_trans hst htu
        simp [Char.ne_of_lt hac, hac]

/-- Of two texts that differ, one stands before the other. -/
theorem before_of_not {s t : Text} (hne : s ≠ t) (h : before s t = false) : before t s := by
  induction s generalizing t with
  | nil =>
    cases t with
    | nil => exact absurd rfl hne
    | cons => simp [before] at h
  | cons a s ih =>
    rcases t with _ | ⟨b, t⟩
    · rfl
    unfold before at h ⊢
    by_cases hab : a = b
    · subst hab
      simp only [if_true] at h ⊢
      exact ih (fun e => hne (by rw [e])) h
    · simp only [hab, Ne.symm hab, if_false, decide_eq_false_iff_not, decide_eq_true_eq] at h ⊢
      exact Char.not_le.1 fun le => hab (Char.le_antisymm le (Char.not_lt.1 h))

theorem before_asymm {s t : Text} (h : before s t) : before t s = false := by
  cases back : before t s with
  | false => rfl
  | true => exact (before_trans h back).symm.trans (before_irrefl s)

/-- The order is total, so what does not stand before a text stands behind all that is before it. -/
theorem not_before_trans {s t u : Text} (h : before t s = false) (h' : before u t = false) :
    before u s = false := by
  cases back : before u s with
  | false => rfl
  | true =>
    by_cases same : u = t
    · rw [same] at back
      exact back.symm.trans h
    · exact (before_trans (before_of_not same h') back).symm.trans h

/-! ### The order of bytes -/

theorem cons_lt_cons_iff_of_lt {a b : Nat} (ha : a < 256) (hb : b < 256) {r r' : List UInt8} :
    UInt8.ofNat a :: r < UInt8.ofNat b :: r' ↔ a < b ∨ a = b ∧ r < r' := by
  have lt_iff : UInt8.ofNat a < UInt8.ofNat b ↔ a < b := by
    rw [UInt8.lt_iff_toNat_lt, UInt8.toNat_ofNat_of_lt' ha, UInt8.toNat_ofNat_of_lt' hb]
  have eq_iff : UInt8.ofNat a = UInt8.ofNat b ↔ a = b := by
    rw [← UInt8.toNat_inj, UInt8.toNat_ofNat_of_lt' ha, UInt8.toNat_ofNat_of_lt' hb]
  rw [List.cons_lt_cons_iff, lt_iff, eq_iff]

/-- The bytes of a smaller character are smaller, whatever follows. -/
theorem utf8EncodeChar_append_lt {c d : Char} (h : c < d) (r r' : List UInt8) :
    String.utf8EncodeChar c ++ r < String.utf8EncodeChar d ++ r' := by
  have lt : c.toNat < d.toNat := h
  have bound : d.toNat < 0x110000 := by
    have := d.valid
    simp only [UInt32.isValidChar, Nat.isValidChar, Char.toNat_val] at this
    omega
  -- The bytes are the digits to the base 64, behind a mark that tells their number.
  have second (n : Nat) : n / 4096 = n / 64 / 64 := by omega
  have third (n : Nat) : n / 262144 = n / 64 / 64 / 64 := by omega
  simp only [String.utf8EncodeChar, Char.toNat_val, second, third]
  by_cases behind : r < r' <;> split_ifs <;> simp only [List.cons_append, List.nil_append] <;>
    simp (disch := omega) only [cons_lt_cons_iff_of_lt, behind, and_true, and_false, or_false]
  all_goals omega

/-- Texts are in the order of their bytes. -/
theorem utf8_lt_of_before {s t : Text} (h : before s t) : s.utf8 < t.utf8 := by
  induction s generalizing t with
  | nil =>
    rcases t with _ | ⟨d, t⟩
    · cases h
    obtain ⟨b, more, eq⟩ := List.exists_cons_of_length_pos (l := String.utf8EncodeChar d)
      (by rw [String.length_utf8EncodeChar]; exact d.utf8Size_pos)
    simp [utf8, eq, List.nil_lt_cons]
  | cons c s ih =>
    rcases t with _ | ⟨d, t⟩
    · cases h
    unfold before at h
    split at h
    · next same =>
      subst same
      exact List.append_left_lt (ih h)
    · exact utf8EncodeChar_append_lt (of_decide_eq_true h) _ _

/-! ### White space -/

/-- The code points of white space. -/
def spaceCodes : List Nat :=
  [9, 10, 11, 12, 13, 0x20, 0x85, 0xA0, 0x1680, 0x2000, 0x2001, 0x2002, 0x2003, 0x2004, 0x2005,
    0x2006, 0x2007, 0x2008, 0x2009, 0x200A, 0x2028, 0x2029, 0x202F, 0x205F, 0x3000]

/-- There are finitely many characters that are white space. -/
theorem mem_of_isSpace {c : Char} (h : isSpace c) : c ∈ spaceCodes.map Char.ofNat := by
  have code : c.toNat ∈ spaceCodes := by
    simp only [isSpace, Bool.or_eq_true, Bool.and_eq_true, decide_eq_true_eq, beq_iff_eq] at h
    simp only [spaceCodes, List.mem_cons, List.not_mem_nil, or_false]
    omega
  rw [← Char.ofNat_toNat c]
  exact List.mem_map.2 ⟨_, code, rfl⟩

theorem trimEnd_blank {b : Text} (h : ∀ c ∈ b, isSpace c) : trimEnd b = [] := by
  induction b with
  | nil => rfl
  | cons c b ih =>
    simp [trimEnd, ih fun d hd => h d (List.mem_cons_of_mem _ hd), h c List.mem_cons_self]

/-- White space at the end is trimmed. -/
theorem trimEnd_append {b : Text} (h : ∀ c ∈ b, isSpace c) (x : Text) :
    trimEnd (x ++ b) = trimEnd x := by
  induction x with
  | nil => simpa [trimEnd] using trimEnd_blank h
  | cons c x ih => simp [trimEnd, ih]

theorem isSpace_blank : ∀ c ∈ [' '], isSpace c := fun c hc => by
  rw [List.mem_singleton.1 hc]
  decide

theorem trimEnd_append_blank (x : Text) : trimEnd (x ++ [' ']) = trimEnd x :=
  trimEnd_append isSpace_blank x

/-- Nothing but white space is trimmed. -/
theorem exists_trimEnd_append (x : Text) : ∃ b, x = trimEnd x ++ b ∧ ∀ c ∈ b, isSpace c := by
  induction x with
  | nil => exact ⟨[], rfl, by simp⟩
  | cons c x ih =>
    obtain ⟨b, eq, blank⟩ := ih
    rw [trimEnd]
    cases kept : trimEnd x with
    | nil =>
      rw [kept, List.nil_append] at eq
      subst eq
      by_cases hc : isSpace c
      · refine ⟨c :: x, by simp [hc], fun d hd => ?_⟩
        rcases List.mem_cons.1 hd with rfl | hd
        · exact hc
        · exact blank d hd
      · exact ⟨x, by simp [hc], blank⟩
    | cons d kept' =>
      rw [kept] at eq
      exact ⟨b, by simp [← eq], blank⟩

theorem trimEnd_of_getLast {x : Text} (h : ∀ c ∈ x.getLast?, isSpace c = false) :
    trimEnd x = x := by
  obtain ⟨b, eq, blank⟩ := exists_trimEnd_append x
  cases last : b.getLast? with
  | none =>
    rw [List.getLast?_eq_none_iff.1 last, List.append_nil] at eq
    exact eq.symm
  | some c =>
    have := h c (by rw [eq, List.getLast?_append, last]; rfl)
    rw [blank c (List.mem_of_getLast? last)] at this
    cases this

theorem getLast_trimEnd (x : Text) : ∀ c ∈ (trimEnd x).getLast?, isSpace c = false := by
  induction x with
  | nil => simp [trimEnd]
  | cons d x ih =>
    rw [trimEnd]
    cases kept : trimEnd x with
    | nil =>
      by_cases hd : isSpace d
      · simp [hd]
      · simp [hd]
    | cons e kept' =>
      rw [kept] at ih
      simpa [List.getLast?_cons_cons] using ih

theorem trimEnd_trimEnd (x : Text) : trimEnd (trimEnd x) = trimEnd x :=
  trimEnd_of_getLast (getLast_trimEnd x)

theorem trimEnd_cons {c : Char} (h : isSpace c = false) (t : Text) :
    ∃ t', trimEnd (c :: t) = c :: t' := by
  rw [trimEnd]
  split
  · exact ⟨[], by simp [h]⟩
  · exact ⟨_, rfl⟩

/-! ### Numbers -/

theorem digitsValue_ofNat (n : Nat) : digitsValue (ofNat n) = n :=
  Nat.ofDigitChars_toDigits (by decide) (by decide)

theorem ofNat_inj {n m : Nat} : ofNat n = ofNat m ↔ n = m :=
  ⟨fun h => by rw [← digitsValue_ofNat n, h, digitsValue_ofNat], congrArg ofNat⟩

end LogTemplate.Text
