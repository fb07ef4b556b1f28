import LogTemplate.Address

/-!
# Colon-separated addresses and what follows them

* `ColonRun.along?` is the state of a run behind a text of hexadecimal digits and colons;
* `address?_eq_some_iff` takes an address apart into such a text and what ends it;
* `address?_of_dot` says that there is no address where a dotted number begins.
-/

namespace LogTemplate

/-- What ends a run: nothing, or a character that continues neither a run nor a word. -/
def EndsRun (w : Text) : Prop :=
  ∀ c ∈ w.head?, isHexDigit c = false ∧ c ≠ ':' ∧ isWordChar c = false

namespace ColonRun

variable {r s : ColonRun} {n m : Nat} {k : Kind} {t x w : Text}

/-- The run behind a text of hexadecimal digits and colons that continues it. -/
def along? (r : ColonRun) : Text → Option ColonRun
  | [] => some r
  | c :: rest =>
    if isHexDigit c then r.digit?.bind (along? · rest)
    else if c = ':' then r.colon?.bind (along? · rest)
    else none

theorem read?_append (h : r.along? x = some s) (hw : EndsRun w) :
    r.read? n (x ++ w) = s.kind?.map (n + x.length, ·) := by
  induction x generalizing r n with
  | nil =>
    obtain rfl : r = s := by simpa [along?] using h
    cases w with
    | nil => simp [read?]
    | cons c w =>
      obtain ⟨hex, colon, word⟩ := hw c rfl
      simp [read?, hex, colon, word]
  | cons c x ih =>
    rw [List.cons_append, read?]
    rw [along?] at h
    split
    · next hex =>
      rw [if_pos hex] at h
      obtain ⟨next, digit, h⟩ := Option.bind_eq_some_iff.1 h
      rw [digit]
      simp only
      rw [ih h, List.length_cons, Nat.add_right_comm]
      rfl
    · next hex =>
      rw [if_neg hex] at h
      split
      · next colon =>
        rw [if_pos colon] at h
        obtain ⟨next, digit, h⟩ := Option.bind_eq_some_iff.1 h
        rw [digit]
        simp only
        rw [ih h, List.length_cons, Nat.add_right_comm]
        rfl
      · next colon =>
        rw [if_neg colon] at h
        cases h

theorem of_read? (h : r.read? n t = some (m, k)) :
    ∃ x w s, t = x ++ w ∧ m = n + x.length ∧ EndsRun w ∧ r.along? x = some s ∧
      s.kind? = some k := by
  induction t generalizing r n with
  | nil =>
    obtain ⟨kind, hk, eq⟩ := Option.map_eq_some_iff.1 h
    cases eq
    exact ⟨[], [], r, rfl, rfl, by simp [EndsRun], rfl, hk⟩
  | cons c t ih =>
    rw [read?] at h
    split at h
    · next hex =>
      cases digit : r.digit? with
      | none => rw [digit] at h; cases h
      | some next =>
        rw [digit] at h
        obtain ⟨x, w, s, rfl, rfl, ends, along, kind⟩ := ih h
        refine ⟨c :: x, w, s, rfl, by simp; omega, ends, ?_, kind⟩
        rw [along?, if_pos hex, digit]
        exact along
    · next hex =>
      split at h
      · next colon =>
        cases step : r.colon? with
        | none => rw [step] at h; cases h
        | some next =>
          rw [step] at h
          obtain ⟨x, w, s, rfl, rfl, ends, along, kind⟩ := ih h
          refine ⟨c :: x, w, s, rfl, by simp; omega, ends, ?_, kind⟩
          rw [along?, if_neg hex, if_pos colon, step]
          exact along
      · next colon =>
        split at h
        · cases h
        · next word =>
          obtain ⟨kind, hk, eq⟩ := Option.map_eq_some_iff.1 h
          cases eq
          refine ⟨[], c :: t, r, rfl, rfl, ?_, rfl, hk⟩
          rintro d ⟨⟩
          exact ⟨by simpa using hex, colon, by simpa using word⟩

/-- The colons of a run are some of its characters. -/
theorem colons_le (h : r.along? x = some s) : s.colons ≤ r.colons + x.length := by
  induction x generalizing r with
  | nil =>
    obtain rfl : r = s := by simpa [along?] using h
    simp
  | cons c x ih =>
    rw [along?] at h
    split at h
    · obtain ⟨next, step, h⟩ := Option.bind_eq_some_iff.1 h
      have := ih h
      unfold digit? at step
      split at step
      · cases step
        simp only [List.length_cons]
        simp only at this
        omega
      · cases step
    · split at h
      · obtain ⟨next, step, h⟩ := Option.bind_eq_some_iff.1 h
        have := ih h
        unfold colon? at step
        split at step
        · cases step
          simp only [List.length_cons]
          simp only at this
          omega
        · cases step
      · cases h

/-- Digits and dots are no run. -/
theorem read?_of_dot (h : ∀ c ∈ x, c.isDigit ∨ c = '.') (dot : '.' ∈ x) :
    r.read? n (x ++ w) = none := by
  induction x generalizing r n with
  | nil => cases dot
  | cons c x ih =>
    rw [List.cons_append, read?]
    by_cases hc : c = '.'
    · subst hc
      have hex : isHexDigit '.' = false := by decide
      have word : isWordChar '.' = true := by decide
      simp [hex, word]
    · have digit : c.isDigit := (h c List.mem_cons_self).resolve_right hc
      have hex : isHexDigit c = true := by simp [isHexDigit, digit]
      have dot : '.' ∈ x := (List.mem_cons.1 dot).resolve_left fun e => hc e.symm
      rw [if_pos hex]
      cases r.digit? with
      | none => rfl
      | some next => exact ih (fun d hd => h d (List.mem_cons_of_mem _ hd)) dot

end ColonRun

/-- An address is a run that something ends. -/
theorem address?_eq_some_iff {t : Text} {n : Nat} {k : Kind} :
    address? t = some (n, k) ↔
      ∃ x w s, t = x ++ w ∧ n = x.length ∧ EndsRun w ∧ ColonRun.along? {} x = some s ∧
        s.kind? = some k := by
  constructor
  · intro h
    simpa using ColonRun.of_read? h
  · rintro ⟨x, w, s, rfl, rfl, ends, along, kind⟩
    simp [address?, ColonRun.read?_append along ends, kind]

/-- An address has two colons at least. -/
theorem two_le_of_address? {t : Text} {n : Nat} {k : Kind} (h : address? t = some (n, k)) :
    2 ≤ n := by
  obtain ⟨x, w, s, -, rfl, -, along, kind⟩ := address?_eq_some_iff.1 h
  have := ColonRun.colons_le along
  unfold ColonRun.kind? at kind
  split at kind
  · cases kind
  · simp only [Nat.zero_add] at this
    omega

/-- There is no address where a dotted number begins. -/
theorem address?_of_dot {x : Text} (h : ∀ c ∈ x, c.isDigit ∨ c = '.') (dot : '.' ∈ x) (w : Text) :
    address? (x ++ w) = none := ColonRun.read?_of_dot h dot

/-- There is no address where a character stands that is no part of one. -/
theorem address?_cons {c : Char} (hex : isHexDigit c = false) (colon : c ≠ ':') (t : Text) :
    address? (c :: t) = none := by
  simp [address?, ColonRun.read?, hex, colon, ColonRun.kind?]

end LogTemplate
