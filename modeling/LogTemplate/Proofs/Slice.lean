import LogTemplate.Proofs.Line

/-!
# Slices

* `Text.IsSlice` says that a text holds another one between two byte positions, neither of which is
  inside of a character;
* `Placeholder.RunAt` says that a `%…%` run stands at a byte position, which is what
  `Placeholder.bodyAt?_eq_some_iff` finds.
-/

namespace LogTemplate

namespace Text

variable {t s x y x' y' : Text} {a b n : Nat}

/-- The text holds `s` from byte `a` up to byte `b`. Neither of the two is inside of a character. -/
def IsSlice (t : Text) (a b : Nat) (s : Text) : Prop :=
  ∃ x y, t = x ++ (s ++ y) ∧ a = x.bytes ∧ b = a + s.bytes

/-- What stands at the end of a text is a slice up to the end. -/
theorem isSlice_end (h : t = x ++ s) : IsSlice t x.bytes t.bytes s :=
  ⟨x, [], by simpa using h, rfl, by rw [h, bytes_append]⟩

/-- The byte position is not inside of a character. -/
def IsPlace (t : Text) (n : Nat) : Prop := ∃ x y, t = x ++ y ∧ n = x.bytes

theorem IsSlice.lt (h : IsSlice t a b s) (ne : s ≠ []) : a < b := by
  obtain ⟨x, y, -, -, rfl⟩ := h
  have := bytes_pos ne
  omega

/-- The beginning of a slice is a slice. -/
theorem IsSlice.left (h : IsSlice t a b (x ++ y)) : IsSlice t a (a + x.bytes) x := by
  obtain ⟨front, back, rfl, rfl, -⟩ := h
  exact ⟨front, y ++ back, by simp, rfl, rfl⟩

/-- Of two beginnings of a text the shorter one begins the other. -/
theorem append_eq_append_of_le (h : x ++ y = x' ++ y') (le : x.bytes ≤ x'.bytes) :
    ∃ z, x' = x ++ z ∧ y = z ++ y' := by
  rcases List.append_eq_append_iff.1 h with ⟨z, hx, hy⟩ | ⟨z, rfl, rfl⟩
  · exact ⟨z, hx, hy⟩
  · cases z with
    | nil => exact ⟨[], by simp, by simp⟩
    | cons c z =>
      have := bytes_pos (List.cons_ne_nil c z)
      rw [bytes_append] at le
      omega

/-- A character of a text that is put together stands in one of the parts. -/
theorem append_cons_eq_append {d : Char} (h : x ++ d :: y = x' ++ y') :
    (∃ z, x' = x ++ d :: z) ∨ ∃ z, x = x' ++ z ∧ y' = z ++ d :: y := by
  rcases List.append_eq_append_iff.1 h with ⟨z, rfl, hy⟩ | ⟨z, rfl, rfl⟩
  · cases z with
    | nil => exact .inr ⟨[], by simp, by simpa using hy.symm⟩
    | cons e z =>
      cases hy
      exact .inl ⟨z, rfl⟩
  · exact .inr ⟨z, rfl, rfl⟩

theorem takeBytes_prefix (t : Text) (n : Nat) : t.takeBytes n <+: t := by
  induction t generalizing n with
  | nil => exact List.prefix_rfl
  | cons c t ih =>
    rw [takeBytes]
    split
    · exact (List.prefix_cons_inj c).2 (ih _)
    · exact List.nil_prefix

theorem dropBytes?_eq_some_iff : t.dropBytes? n = some s ↔ ∃ x, t = x ++ s ∧ n = x.bytes := by
  constructor
  · intro h
    induction t generalizing n with
    | nil =>
      cases n with
      | zero => exact ⟨[], by simpa [dropBytes?] using h, rfl⟩
      | succ n => simp [dropBytes?] at h
    | cons c t ih =>
      cases n with
      | zero => exact ⟨[], by simpa [dropBytes?] using h, rfl⟩
      | succ n =>
        rw [dropBytes?] at h
        split at h
        · next le =>
          obtain ⟨x, rfl, bytes⟩ := ih h
          refine ⟨c :: x, rfl, ?_⟩
          rw [bytes_cons]
          omega
        · cases h
  · rintro ⟨x, rfl, rfl⟩
    exact dropBytes?_bytes_append x s

end Text

namespace Placeholder

variable {v : Vocabulary} {t b w : Text} {o : Nat}

theorem body?_eq_some_iff :
    body? t = some (b, w) ↔ (∀ c ∈ b, c ≠ '%' ∧ Text.isSpace c = false) ∧ t = b ++ '%' :: w := by
  constructor
  · intro h
    induction t generalizing b with
    | nil => cases h
    | cons c t ih =>
      rw [body?] at h
      split at h
      · next percent =>
        cases h
        exact ⟨by simp, by rw [percent]; rfl⟩
      · next percent =>
        split at h
        · cases h
        · next space =>
          obtain ⟨⟨b', w'⟩, found, eq⟩ := Option.map_eq_some_iff.1 h
          cases eq
          obtain ⟨chars, rfl⟩ := ih found
          refine ⟨fun d hd => ?_, rfl⟩
          rcases List.mem_cons.1 hd with rfl | hd
          · exact ⟨percent, by simpa using space⟩
          · exact chars d hd
  · rintro ⟨chars, rfl⟩
    exact body?_append chars w

/-- A run is a body between two marks. -/
theorem run?_eq_some_iff : run? t = some (b, w) ↔ IsBody b ∧ t = '%' :: b ++ '%' :: w := by
  constructor
  · intro h
    unfold run? at h
    split at h
    · next rest =>
      split at h
      · cases h
      · next nonempty =>
        obtain ⟨chars, rfl⟩ := body?_eq_some_iff.1 h
        refine ⟨⟨?_, chars⟩, rfl⟩
        rintro rfl
        exact nonempty w h
    · cases h
  · rintro ⟨body, rfl⟩
    exact run?_append body w

/-- The text of the run of a body. -/
def run (b : Text) : Text := '%' :: b ++ ['%']

theorem bytes_run (b : Text) : (run b).bytes = b.bytes + 2 := by
  have : ('%' : Char).utf8Size = 1 := rfl
  simp only [run, List.cons_append, Text.bytes_cons, Text.bytes_append, Text.bytes_nil, this]
  omega

/-- A run at the beginning of a text is the first character and some of the rest. -/
theorem take_of_run {c : Char} {rest z : Text} (h : c :: rest = run b ++ z) :
    c :: rest.take (b.length + 1) = run b ∧ b.length + 1 ≤ rest.length := by
  have size : (run b).length = b.length + 2 := by simp [run]
  constructor
  · rw [← List.take_succ_cons, h, ← size, List.take_left]
  · have := congrArg List.length h
    rw [List.length_cons, List.length_append, size] at this
    omega

theorem value_of_withSuffix? {t u : Token} (h : withSuffix? v t w = some u) :
    u.value = t.value ∧ u.spaceBefore = t.spaceBefore := by
  unfold withSuffix? at h
  split at h
  · cases h; exact ⟨rfl, rfl⟩
  · split at h
    · cases h; exact ⟨rfl, rfl⟩
    · split at h
      · cases h
      · obtain ⟨kind, -, rfl⟩ := Option.map_eq_some_iff.1 h
        exact ⟨rfl, rfl⟩

theorem value_of_withSuffixes? {t u : Token} (h : withSuffixes? t w b = some u) :
    u.value = t.value ∧ u.spaceBefore = t.spaceBefore := by
  unfold withSuffixes? at h
  split at h
  · split at h
    · cases h
    · cases h; exact ⟨rfl, rfl⟩
  · split at h
    · cases h
    · obtain ⟨modifier, -, rfl⟩ := Option.map_eq_some_iff.1 h
      exact ⟨rfl, rfl⟩

/-- The value of a placeholder is the text of its run. What stands before it is left open. -/
theorem value_of_parse? {t : Token} (h : parse? v b = some t) :
    t.value = run b ∧ t.spaceBefore = false := by
  unfold parse? at h
  split at h
  next name suffixes _ =>
  split at h
  · cases h
  · split at h
    · cases h; exact ⟨rfl, rfl⟩
    · split at h
      · exact value_of_withSuffix? h
      · exact value_of_withSuffixes? h

/-- At the byte position stands the run of the body. -/
structure RunAt (t : Text) (o : Nat) (b : Text) : Prop where
  body : IsBody b
  slice : t.IsSlice o (o + (run b).bytes) (run b)

theorem RunAt.isPlace (h : RunAt t o b) : t.IsPlace o := by
  obtain ⟨x, y, eq, place, -⟩ := h.slice
  exact ⟨x, _, eq, place⟩

theorem bodyAt?_eq_some_iff : bodyAt? t o = some b ↔ RunAt t o b := by
  unfold bodyAt?
  rw [Option.map_eq_some_iff]
  constructor
  · rintro ⟨⟨b', w⟩, found, rfl⟩
    obtain ⟨rest, drop, begins⟩ := Option.bind_eq_some_iff.1 found
    obtain ⟨x, rfl, rfl⟩ := Text.dropBytes?_eq_some_iff.1 drop
    obtain ⟨body, rfl⟩ := run?_eq_some_iff.1 begins
    exact ⟨body, x, w, by simp [run], rfl, rfl⟩
  · rintro ⟨body, x, w, rfl, rfl, -⟩
    refine ⟨(b, w), ?_, rfl⟩
    rw [Text.dropBytes?_bytes_append, Option.bind_some, run?_eq_some_iff]
    exact ⟨body, by simp [run]⟩

end Placeholder

end LogTemplate
