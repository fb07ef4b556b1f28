import LogTemplate.Json.Value
import LogTemplate.Proofs.Placeholder
import Mathlib.Algebra.Ring.Nat

/-!
# Written numbers

* `Json.Numeral.text` writes a numeral, `Json.Numeral.Proper` says that it may be written;
* `Json.symbol?_numeral` reads it back in front of a text that cannot belong to it;
* `Json.exists_numeral_print` says that numbers are written as numerals.
-/

namespace LogTemplate.Json

variable {ds rest : Text} {n : Numeral}

/-! ### Numerals -/

/-- The text begins with no character of a number. -/
def Follows (rest : Text) : Prop :=
  ∀ c after, rest = c :: after → c.isDigit = false ∧ c ≠ '.' ∧ c ≠ 'e' ∧ c ≠ 'E'

/-- A row of digits. -/
def AreDigits (ds : Text) : Prop := ∀ c ∈ ds, c.isDigit

namespace Numeral

/-- The fraction as it is written. -/
def fractionText (n : Numeral) : Text := if n.fraction = [] then [] else '.' :: n.fraction

/-- The exponent as it is written. -/
def exponentText (n : Numeral) : Text :=
  match n.exponent with
  | none => []
  | some (negative, ds) => 'e' :: (if negative then '-' else '+') :: ds

/-- The numeral without its sign. -/
def unsigned (n : Numeral) : Text := n.whole ++ n.fractionText ++ n.exponentText

/-- The numeral as it is written. -/
def text (n : Numeral) : Text := (if n.negative then ['-'] else []) ++ n.unsigned

/-- The parts of a numeral are digits; there are some in front of the point, and a zero in front of
it stands alone. -/
structure Proper (n : Numeral) : Prop where
  whole : AreDigits n.whole
  lead : n.whole = ['0'] ∨ ∃ c ds, n.whole = c :: ds ∧ c ≠ '0'
  fraction : AreDigits n.fraction
  exponent : ∀ negative ds, n.exponent = some (negative, ds) → AreDigits ds ∧ ds ≠ []

end Numeral

/-! ### Reading -/

/-- The text begins with no digit. -/
def NoDigit (rest : Text) : Prop := ∀ c after, rest = c :: after → c.isDigit = false

theorem Follows.noDigit (h : Follows rest) : NoDigit rest := fun c after eq => (h c after eq).1

theorem digits_append (h : AreDigits ds) (stop : NoDigit rest) :
    digits (ds ++ rest) = (ds, rest) := by
  have none : rest.takeWhile Char.isDigit = [] ∧ rest.dropWhile Char.isDigit = rest := by
    cases rest with
    | nil => exact ⟨rfl, rfl⟩
    | cons c after => simp [stop c after rfl]
  rw [digits, List.takeWhile_append_of_pos h, List.dropWhile_append_of_pos h, none.1, none.2,
    List.append_nil]

namespace Numeral.Proper

theorem whole_append (h : n.Proper) (stop : NoDigit rest) :
    Json.whole (n.whole ++ rest) = (n.whole, rest) := by
  rcases h.lead with zero | ⟨c, ds, eq, nonzero⟩
  · rw [zero]
    rfl
  · have all := digits_append h.whole stop
    rw [eq, List.cons_append] at all ⊢
    unfold Json.whole
    split
    · next same =>
      rw [List.cons.injEq] at same
      exact absurd same.1 nonzero
    · exact all

theorem fraction?_append (h : n.Proper) (stop : NoDigit rest)
    (point : ∀ after, rest ≠ '.' :: after) :
    fraction? (n.fractionText ++ rest) = some (n.fraction, rest) := by
  unfold fractionText
  split
  · next none =>
    rw [none, List.nil_append, fraction?]
    exact point
  · next some =>
    rw [List.cons_append, fraction?, digits_append h.fraction stop]
    split
    · next eq => exact absurd (Prod.ext_iff.1 eq).1 some
    · rfl

theorem exponent?_append (h : n.Proper) (follows : Follows rest) :
    exponent? (n.exponentText ++ rest) = some (n.exponent, rest) := by
  unfold exponentText
  cases eq : n.exponent with
  | none =>
    cases rest with
    | nil => rfl
    | cons c after =>
      obtain ⟨-, -, e, E⟩ := follows c after rfl
      simp [exponent?, e, E]
  | some found =>
    obtain ⟨negative, ds⟩ := found
    obtain ⟨all, ne⟩ := h.exponent negative ds eq
    have unsign : unsignExponent ((if negative then '-' else '+') :: (ds ++ rest)) =
        (negative, ds ++ rest) := by
      cases negative <;> rfl
    simp [exponent?, unsign, digits_append all follows.noDigit]

/-- What follows the digits in front of the point. -/
theorem noDigit_exponentText (n : Numeral) (follows : Follows rest) :
    NoDigit (n.exponentText ++ rest) ∧ ∀ after, n.exponentText ++ rest ≠ '.' :: after := by
  unfold exponentText
  cases n.exponent with
  | none => exact ⟨follows.noDigit, fun after eq => (follows '.' after eq).2.1 rfl⟩
  | some found =>
    refine ⟨fun c after eq => ?_, fun after eq => ?_⟩
    · rw [List.cons_append, List.cons.injEq] at eq
      rw [← eq.1]
      decide
    · rw [List.cons_append, List.cons.injEq] at eq
      exact absurd eq.1 (by decide)

theorem noDigit_fractionText (n : Numeral) (follows : Follows rest) :
    NoDigit (n.fractionText ++ (n.exponentText ++ rest)) := by
  unfold fractionText
  split
  · exact (noDigit_exponentText n follows).1
  · intro c after eq
    rw [List.cons_append, List.cons.injEq] at eq
    rw [← eq.1]
    decide

theorem whole_ne_nil (h : n.Proper) : n.whole ≠ [] := by
  rcases h.lead with eq | ⟨c, ds, eq, -⟩ <;> simp [eq]

theorem numeral?_append (h : n.Proper) (follows : Follows rest) :
    numeral? n.negative (n.unsigned ++ rest) = some (n, rest) := by
  have ne : n.whole.isEmpty = false := by simpa using h.whole_ne_nil
  have whole := h.whole_append (noDigit_fractionText n follows)
  obtain ⟨stop, point⟩ := noDigit_exponentText n follows
  rw [unsigned, List.append_assoc, List.append_assoc, numeral?, whole]
  simp only [ne, Bool.false_eq_true, if_false, h.fraction?_append stop point,
    h.exponent?_append follows, Option.bind_eq_bind, Option.bind_some]
  rfl

theorem unsigned_head (h : n.Proper) : ∃ c more, n.unsigned = c :: more ∧ c.isDigit := by
  obtain ⟨c, ds, eq⟩ := List.exists_cons_of_ne_nil h.whole_ne_nil
  exact ⟨c, ds ++ n.fractionText ++ n.exponentText, by simp [unsigned, eq],
    h.whole c (eq ▸ List.mem_cons_self)⟩

/-- A numeral begins with a digit or a minus sign. -/
theorem exists_head (h : n.Proper) : ∃ c more, n.text = c :: more ∧ isBlank c = false := by
  unfold Numeral.text
  split
  · exact ⟨'-', _, rfl, by decide⟩
  · obtain ⟨c, more, eq, digit⟩ := h.unsigned_head
    refine ⟨c, more, eq, ?_⟩
    cases blank : isBlank c with
    | false => rfl
    | true =>
      simp only [isBlank, Bool.or_eq_true, beq_iff_eq] at blank
      rcases blank with ((rfl | rfl) | rfl) | rfl <;> exact absurd digit (by decide)

end Numeral.Proper

/-- A digit begins a number. -/
theorem symbol?_of_digit {c : Char} {more : Text} (digit : c.isDigit) :
    symbol? (c :: more) =
      (numeral? false (c :: more)).map fun (n, after) => (.number n, after) := by
  unfold symbol?
  split
  case h_12 => rfl
  all_goals
    next same =>
      rw [(List.cons.inj same).1] at digit
      exact absurd digit (by decide)

/-- A numeral is read back in front of a text that cannot belong to it. -/
theorem symbol?_numeral (h : n.Proper) (follows : Follows rest) :
    symbol? (n.text ++ rest) = some (.number n, rest) := by
  have read := h.numeral?_append follows
  unfold Numeral.text
  cases negative : n.negative with
  | true =>
    rw [negative] at read
    simp [symbol?, read]
  | false =>
    rw [negative] at read
    obtain ⟨c, more, eq, digit⟩ := h.unsigned_head
    simp only [Bool.false_eq_true, if_false, List.nil_append]
    rw [eq, List.cons_append] at read ⊢
    rw [symbol?_of_digit digit, read]
    rfl

/-! ### Writing integers -/

theorem AreDigits.append {es : Text} (h : AreDigits ds) (h' : AreDigits es) :
    AreDigits (ds ++ es) :=
  List.forall_mem_append.2 ⟨h, h'⟩

theorem AreDigits.mono {es : Text} (h : AreDigits ds) (sub : es ⊆ ds) : AreDigits es :=
  fun c hc => h c (sub hc)

theorem areDigits_ofNat (k : Nat) : AreDigits (Text.ofNat k) :=
  fun _ hc => Placeholder.isDigit_ofNat hc

theorem areDigits_replicate (k : Nat) : AreDigits (List.replicate k '0') := by
  intro c hc
  rw [(List.mem_replicate.1 hc).2]
  decide

/-- Only zero begins with a zero. -/
theorem ofNat_lead {k : Nat} (h : k ≠ 0) : ∃ c ds, Text.ofNat k = c :: ds ∧ c ≠ '0' := by
  induction k using Nat.strongRecOn with
  | ind k ih =>
    by_cases small : k < 10
    · have digit : ∀ k < 10, k ≠ 0 → k.digitChar ≠ '0' := by decide
      exact ⟨k.digitChar, [], Nat.toDigits_of_lt_base small, digit k small h⟩
    · obtain ⟨c, ds, eq, nonzero⟩ := ih (k / 10) (by omega) (by omega)
      refine ⟨c, ds ++ [(k % 10).digitChar], ?_, nonzero⟩
      rw [Text.ofNat, Nat.toDigits_of_base_le (by decide) (by omega)]
      exact congrArg (· ++ _) eq

theorem exists_numeral_ofNat (k : Nat) : ∃ n : Numeral, n.Proper ∧ Text.ofNat k = n.text :=
  ⟨⟨false, Text.ofNat k, [], none⟩,
    { whole := areDigits_ofNat k
      lead := by
        by_cases zero : k = 0
        · exact .inl (by rw [zero]; rfl)
        · exact .inr (ofNat_lead zero)
      fraction := fun _ hc => by simp at hc
      exponent := fun _ _ h => by cases h },
    by simp [Numeral.text, Numeral.unsigned, Numeral.fractionText, Numeral.exponentText]⟩

end LogTemplate.Json

/-! ### Writing doubles -/

namespace LogTemplate.Decimal

open Json (Numeral AreDigits areDigits_replicate)

namespace Binary

/-- The first place of a positive fraction is found, if it is not too far behind the point. -/
theorem le_mul_pow_below (n d : Nat) (fuel j : Nat) :
    d ≤ n * 10 ^ firstPlace.below n d fuel j ∨ firstPlace.below n d fuel j = j + fuel := by
  induction fuel generalizing j with
  | zero => exact .inr rfl
  | succ fuel ih =>
    unfold firstPlace.below
    split
    · next found => exact .inl (by simpa using found)
    · rcases ih (j + 1) with found | last
      · exact .inl found
      · exact .inr (by omega)

variable {b : Binary}

theorem scale_pos (b : Binary) : 0 < b.scale := Nat.pow_pos (by decide)

theorem denominator_pos (b : Binary) : 0 < b.denominator := Nat.pow_pos (by decide)

theorem low_pos (h : b.mantissa ≠ 0) : 0 < b.low := by
  refine Nat.mul_pos ?_ (scale_pos b)
  split <;> omega

/-- Zero is not in the interval of a positive number. -/
theorem onGrid?_ne_zero (h : b.mantissa ≠ 0) {k : Int} {c : Nat} (found : b.onGrid? k = some c) :
    c ≠ 0 := by
  have down : 0 < Nat.pow 10 (-k).toNat := Nat.pow_pos (by decide)
  have low : b.low * Nat.pow 10 (-k).toNat ≠ 0 := Nat.ne_of_gt (Nat.mul_pos (low_pos h) down)
  rintro rfl
  unfold onGrid? at found
  extract_lets up dn step value inside floor left right at found
  have outside : inside 0 = false := by
    have ends : b.low * dn ≠ 0 := low
    simp only [inside, Nat.zero_mul]
    split <;> simp [ends]
  have positive : inside floor = true → floor ≠ 0 := by
    intro within zero
    rw [zero, outside] at within
    cases within
  clear_value inside floor left right
  cases lower : inside floor <;> cases upper : inside (floor + 1) <;>
    simp only [lower, upper] at found
  · cases found
  · simp at found
  · exact positive lower (Option.some.inj found)
  · have nonzero := positive lower
    split at found
    · exact nonzero (Option.some.inj found)
    · split at found
      · simp at found
      · have := Option.some.inj found
        split at this <;> omega

theorem le_mul_pow {n d j k : Nat} (h : d ≤ n * 10 ^ j) (le : j ≤ k) : d ≤ n * 10 ^ k :=
  Nat.le_trans h (Nat.mul_le_mul_left n (Nat.pow_le_pow_right (by decide) le))

/-- Three binary places are less than one decimal place. -/
theorem two_pow_le_mul_ten_pow {v e j k : Nat} (value : 4 ≤ v) (le : e ≤ 2 + 3 * j) (le' : j ≤ k) :
    2 ^ e ≤ v * 10 ^ k :=
  calc 2 ^ e
    _ ≤ 2 ^ (2 + 3 * j) := Nat.pow_le_pow_right (by decide) le
    _ = 4 * 8 ^ j := by rw [Nat.pow_add, Nat.pow_mul]
    _ ≤ v * 10 ^ k := Nat.mul_le_mul value
      (Nat.le_trans (Nat.pow_le_pow_left (by decide) j) (Nat.pow_le_pow_right (by decide) le'))

theorem four_le_value (h : b.mantissa ≠ 0) : 4 ≤ b.value := by
  have : 1 ≤ b.mantissa * b.scale := Nat.mul_pos (Nat.pos_of_ne_zero h) (scale_pos b)
  rw [value, Nat.mul_assoc]
  omega

/-- Seventeen places hold a digit of a positive number. -/
theorem denominator_le (h : b.mantissa ≠ 0) (least : -1074 ≤ b.exponent) :
    b.denominator ≤ b.value * 10 ^ (16 - firstPlace b.value b.denominator).toNat := by
  unfold firstPlace
  split
  · next le => exact le_mul_pow (j := 0) (by simpa using le) (Nat.zero_le _)
  · have places : (16 - -((firstPlace.below b.value b.denominator 400 1 : Nat) : Int)).toNat =
        16 + firstPlace.below b.value b.denominator 400 1 := by omega
    rw [places]
    rcases le_mul_pow_below b.value b.denominator 400 1 with found | far
    · exact le_mul_pow found (by omega)
    · exact two_pow_le_mul_ten_pow (j := 358) (four_le_value h) (by omega) (by omega)

/-- A positive number has a digit. -/
theorem digits_shortest_ne_zero (h : b.mantissa ≠ 0) (least : -1074 ≤ b.exponent) :
    b.shortest.digits ≠ 0 := by
  have run : ∀ fuel, (b.shortestFrom (firstPlace b.value b.denominator) fuel).digits ≠ 0 := by
    intro fuel
    induction fuel with
    | zero =>
      have last := denominator_le h least
      exact Nat.ne_of_gt (Nat.div_pos (by simpa using last) (denominator_pos b))
    | succ fuel ih =>
      unfold shortestFrom
      dsimp only
      split
      · next found => exact onGrid?_ne_zero h found
      · exact ih
  exact run 17

end Binary

/-! ### Layout -/

theorem mem_of_mem_dropZeros {digits : Text} {c : Char} (h : c ∈ (dropZeros digits).1) :
    c ∈ digits := by
  induction digits with
  | nil => exact h
  | cons d digits ih =>
    unfold dropZeros at h
    split at h
    · split at h
      · cases h
      · rw [List.mem_singleton.1 h]
        exact List.mem_cons_self
    · next kept n eq =>
      rw [eq] at ih
      rcases List.mem_cons.1 h with rfl | h
      · exact List.mem_cons_self
      · exact List.mem_cons_of_mem _ (ih h)

theorem dropZeros_cons {c : Char} (nonzero : c ≠ '0') (digits : Text) :
    ∃ kept, (dropZeros (c :: digits)).1 = c :: kept := by
  unfold dropZeros
  split
  · exact ⟨[], by simp [nonzero]⟩
  · exact ⟨_, rfl⟩

/-- Digits without a leading zero are laid out as a numeral. -/
theorem exists_numeral_layout (style : Style) {c : Char} {ds : Text} (digits : AreDigits (c :: ds))
    (nonzero : c ≠ '0') (e : Int) (negative : Bool) :
    ∃ n : Numeral, n.Proper ∧ n.negative = negative ∧ style.layout (c :: ds) e = n.unsigned := by
  have noExponent : ∀ (m : Bool) (more : Text), (none : Option (Bool × Text)) = some (m, more) →
      AreDigits more ∧ more ≠ [] := fun _ _ h => by cases h
  unfold Style.layout
  split
  · split
    · -- The digits stand behind the point.
      refine ⟨⟨negative, ['0'], List.replicate ((-e).toNat - 1) '0' ++ c :: ds, none⟩,
        ⟨areDigits_replicate 1, .inl rfl, (areDigits_replicate _).append digits, noExponent⟩,
        rfl, ?_⟩
      simp [Numeral.unsigned, Numeral.fractionText, Numeral.exponentText]
    · -- The point stands behind a digit.
      obtain ⟨fraction, all, ne, eq⟩ : ∃ fraction, AreDigits fraction ∧ fraction ≠ [] ∧
          (if ((c :: ds).drop (e.toNat + 1)).isEmpty then ['0'] else (c :: ds).drop (e.toNat + 1)) =
            fraction := by
        split
        · exact ⟨_, areDigits_replicate 1, by simp, rfl⟩
        · next some => exact ⟨_, digits.mono (List.drop_subset _ _), by simpa using some, rfl⟩
      refine ⟨⟨negative, (c :: ds).take (e.toNat + 1) ++
          List.replicate (e.toNat + 1 - (c :: ds).length) '0', fraction, none⟩,
        ⟨(digits.mono (List.take_subset _ _)).append (areDigits_replicate _),
          .inr ⟨c, _, rfl, nonzero⟩, all, noExponent⟩, rfl, ?_⟩
      dsimp only
      rw [eq]
      simp [Numeral.unsigned, Numeral.fractionText, Numeral.exponentText, ne]
  · -- The point stands behind the first digit, and an exponent follows.
    refine ⟨⟨negative, [c], ds, some (decide (e < 0), Text.ofNat e.natAbs)⟩,
      ⟨digits.mono (by simp), .inr ⟨c, [], rfl, nonzero⟩, digits.mono (by simp), ?_⟩, rfl, ?_⟩
    · intro m more h
      cases h
      exact ⟨Json.areDigits_ofNat _, Placeholder.ofNat_ne_nil _⟩
    · cases ds <;> simp [Numeral.unsigned, Numeral.fractionText, Numeral.exponentText]

theorem mantissa_ofBits_ne_zero {bits : Nat} (h : bits % Nat.pow 2 63 ≠ 0) :
    (Binary.ofBits bits).mantissa ≠ 0 := by
  have large : Nat.pow 2 63 = 9223372036854775808 := by decide
  have small : Nat.pow 2 52 = 4503599627370496 := by decide
  have field : Nat.pow 2 11 = 2048 := by decide
  unfold Binary.ofBits
  rw [large] at h
  simp only [small, field]
  split <;> simp only <;> omega

theorem least_exponent_ofBits (bits : Nat) : -1074 ≤ (Binary.ofBits bits).exponent := by
  unfold Binary.ofBits
  simp only
  split <;> simp only <;> omega

/-- A double is written as a numeral. -/
theorem exists_numeral_print (style : Style) (bits : Nat) :
    ∃ n : Numeral, n.Proper ∧ style.print bits = n.text := by
  have signed : ∀ n : Numeral, n.negative = decide (bits / Nat.pow 2 63 % 2 = 1) →
      (if bits / Nat.pow 2 63 % 2 = 1 then ['-'] else []) ++ n.unsigned = n.text := by
    intro n sign
    rw [Numeral.text, sign]
    simp
  unfold Style.print
  simp only
  split
  · refine ⟨⟨decide (bits / Nat.pow 2 63 % 2 = 1), ['0'], ['0'], none⟩,
      ⟨areDigits_replicate 1, .inl rfl, areDigits_replicate 1, fun _ _ h => by cases h⟩, ?_⟩
    exact signed ⟨_, ['0'], ['0'], none⟩ rfl
  · next nonzero =>
    have positive := mantissa_ofBits_ne_zero nonzero
    obtain ⟨c, ds, eq, lead⟩ := Json.ofNat_lead
      (Binary.digits_shortest_ne_zero positive (least_exponent_ofBits bits))
    obtain ⟨kept, eq'⟩ := dropZeros_cons lead ds
    have digits : AreDigits (c :: kept) := by
      intro d hd
      rw [← eq'] at hd
      refine Json.areDigits_ofNat (Binary.ofBits bits).shortest.digits d ?_
      rw [eq]
      exact mem_of_mem_dropZeros hd
    obtain ⟨n, proper, sign, text⟩ := exists_numeral_layout style digits lead
      ((Binary.ofBits bits).shortest.exponent + (c :: ds).length - 1)
      (decide (bits / Nat.pow 2 63 % 2 = 1))
    refine ⟨n, proper, ?_⟩
    rw [eq, eq', text]
    exact signed n sign

end LogTemplate.Decimal
