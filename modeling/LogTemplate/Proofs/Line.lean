import LogTemplate.Proofs.Placeholder

/-!
# Where the tokens of a printed line stand

* `Line.place_of_mem_offsets` finds the placeholder at an offset, `Line.exists_offset` the offset of
  a placeholder, and `Line.pairwise_offsets` says that offsets ascend;
* `Line.stretch` is the text from a literal to the next placeholder, `Line.printFrom_stretch` finds
  it in the printed line.
-/

namespace LogTemplate

namespace Text

theorem bytes_pos {t : Text} (h : t ≠ []) : 0 < t.bytes := by
  obtain ⟨c, t, rfl⟩ := List.exists_cons_of_ne_nil h
  have := Char.utf8Size_pos c
  simp only [bytes_cons]
  omega

end Text

namespace Line

variable {v : Vocabulary} {previous? : Option Token} {start : Nat} {t u : Token} {line rest : Line}

theorem printToken_placeholder (h : t.isPlaceholder) : printToken v t = Placeholder.print v t :=
  if_pos h

theorem printToken_literal (h : t.isLiteral) : printToken v t = t.value := by
  have : t.isPlaceholder = false := by simpa [Token.isLiteral] using h
  simp [printToken, this]

theorem print_ne_nil (v : Vocabulary) (t : Token) : Placeholder.print v t ≠ [] := by
  simp [Placeholder.print]

/-- What is written behind a token. -/
def printBehind (v : Vocabulary) (previous? : Option Token) (start : Nat) (t : Token)
    (rest : Line) : Printed :=
  printFrom v (some t) (start + (separator v previous? t).bytes + (printToken v t).bytes) rest

theorem printFrom_literal (h : t.isLiteral) :
    printFrom v previous? start (t :: rest) =
      ⟨separator v previous? t ++ t.value ++ (printBehind v previous? start t rest).text,
        (printBehind v previous? start t rest).offsets⟩ := by
  have : t.isPlaceholder = false := by simpa [Token.isLiteral] using h
  simp [printFrom, printBehind, this, printToken_literal h]

theorem printFrom_placeholder (h : t.isPlaceholder) :
    printFrom v previous? start (t :: rest) =
      ⟨separator v previous? t ++ Placeholder.print v t ++
          (printBehind v previous? start t rest).text,
        (start + (separator v previous? t).bytes) ::
          (printBehind v previous? start t rest).offsets⟩ := by
  simp [printFrom, printBehind, h, printToken_placeholder h]

/-- What stands behind the first token stands in the whole text. -/
theorem place_behind {x : Text} {o : Nat}
    (h : ∃ before behind, (printBehind v previous? start t rest).text = before ++ x ++ behind ∧
      o = start + (separator v previous? t).bytes + (printToken v t).bytes + before.bytes) :
    ∃ before behind, (printFrom v previous? start (t :: rest)).text = before ++ x ++ behind ∧
      o = start + before.bytes := by
  obtain ⟨before, behind, eq, place⟩ := h
  refine ⟨separator v previous? t ++ printToken v t ++ before, behind, ?_, ?_⟩
  · rw [printBehind] at eq
    simp [printFrom, eq]
  · simp [place, Nat.add_assoc]

/-- At an offset stands the text of a placeholder. -/
theorem place_of_mem_offsets {o : Nat} (h : o ∈ (printFrom v previous? start line).offsets) :
    ∃ t ∈ line, t.isPlaceholder ∧ ∃ before behind,
      (printFrom v previous? start line).text = before ++ Placeholder.print v t ++ behind ∧
      o = start + before.bytes := by
  induction line generalizing previous? start with
  | nil => simp [printFrom] at h
  | cons t line ih =>
    have later : o ∈ (printBehind v previous? start t line).offsets →
        ∃ u ∈ t :: line, u.isPlaceholder ∧ ∃ before behind,
          (printFrom v previous? start (t :: line)).text =
            before ++ Placeholder.print v u ++ behind ∧ o = start + before.bytes := by
      intro h
      obtain ⟨u, hu, placeholder, place⟩ := ih h
      exact ⟨u, List.mem_cons_of_mem _ hu, placeholder, place_behind place⟩
    by_cases ht : t.isPlaceholder
    · rw [printFrom_placeholder ht] at h
      rcases List.mem_cons.1 h with rfl | h
      · exact ⟨t, List.mem_cons_self, ht, separator v previous? t, _,
          by rw [printFrom_placeholder ht], rfl⟩
      · exact later h
    · rw [printFrom_literal (by simpa [Token.isLiteral] using ht)] at h
      exact later h

/-- The offsets behind the first token are offsets of the whole text. -/
theorem offsets_behind (v : Vocabulary) (previous? : Option Token) (start : Nat) (t : Token)
    (rest : Line) : (printBehind v previous? start t rest).offsets ⊆
      (printFrom v previous? start (t :: rest)).offsets := by
  by_cases ht : t.isPlaceholder
  · rw [printFrom_placeholder ht]
    exact List.subset_cons_self _ _
  · rw [printFrom_literal (by simpa [Token.isLiteral] using ht)]
    exact List.Subset.refl _

/-- The text of each placeholder stands at an offset. -/
theorem exists_offset (mem : t ∈ line) (placeholder : t.isPlaceholder) :
    ∃ o ∈ (printFrom v previous? start line).offsets, ∃ before behind,
      (printFrom v previous? start line).text = before ++ Placeholder.print v t ++ behind ∧
      o = start + before.bytes := by
  induction line generalizing previous? start with
  | nil => cases mem
  | cons u line ih =>
    rcases List.mem_cons.1 mem with rfl | mem
    · rw [printFrom_placeholder placeholder]
      exact ⟨_, List.mem_cons_self, separator v previous? t, _, rfl, rfl⟩
    · obtain ⟨o, ho, place⟩ := ih mem
      exact ⟨o, offsets_behind v previous? start u line ho, place_behind place⟩

/-- Where the text of a placeholder stands, its body is found. -/
theorem bodyAt?_of_place {o : Nat} {text : Text} (h : Placeholder.IsBody (Placeholder.body v t))
    (place : ∃ before behind, text = before ++ Placeholder.print v t ++ behind ∧
      o = 0 + before.bytes) : Placeholder.bodyAt? text o = some (Placeholder.body v t) := by
  obtain ⟨before, behind, rfl, rfl⟩ := place
  have run := Placeholder.run?_append h behind
  rw [Nat.zero_add, Placeholder.bodyAt?, List.append_assoc, Text.dropBytes?_bytes_append,
    Option.bind_some, Placeholder.print, List.append_assoc, List.singleton_append, run]
  rfl

theorem start_le_of_mem_offsets {o : Nat} (h : o ∈ (printFrom v previous? start line).offsets) :
    start ≤ o := by
  obtain ⟨_, _, _, before, _, -, rfl⟩ := place_of_mem_offsets h
  omega

/-- Offsets ascend. -/
theorem pairwise_offsets (v : Vocabulary) (previous? : Option Token) (start : Nat) (line : Line) :
    (printFrom v previous? start line).offsets.Pairwise (· < ·) := by
  induction line generalizing previous? start with
  | nil => exact .nil
  | cons t line ih =>
    by_cases ht : t.isPlaceholder
    · rw [printFrom_placeholder ht]
      refine List.pairwise_cons.2 ⟨fun o ho => ?_, ih _ _⟩
      have le := start_le_of_mem_offsets ho
      have pos := Text.bytes_pos (print_ne_nil v t)
      rw [printToken_placeholder ht] at le
      omega
    · rw [printFrom_literal (by simpa [Token.isLiteral] using ht)]
      exact ih _ _

/-! ### Stretches -/

/-- The text of a literal and of what follows it, up to the next placeholder. -/
def stretch (v : Vocabulary) (t : Token) : Line → Text
  | [] => t.value
  | u :: rest =>
    t.value ++ separator v (some t) u ++ if u.isLiteral then stretch v u rest else []

/-- In a printed line a literal begins a stretch. The next offset, if there is one, is at its
end. -/
theorem printFrom_stretch (previous? : Option Token) (start : Nat) (ht : t.isLiteral)
    (rest : Line) :
    ∃ behind, (printFrom v previous? start (t :: rest)).text =
        separator v previous? t ++ stretch v t rest ++ behind ∧
      (((printFrom v previous? start (t :: rest)).offsets = [] ∧ behind = []) ∨
        ∃ others, (printFrom v previous? start (t :: rest)).offsets =
          (start + (separator v previous? t).bytes + (stretch v t rest).bytes) :: others) := by
  induction rest generalizing t previous? start with
  | nil =>
    rw [printFrom_literal ht]
    exact ⟨[], by simp [printBehind, printFrom, stretch], Or.inl ⟨rfl, rfl⟩⟩
  | cons u rest ih =>
    rw [printFrom_literal ht]
    by_cases hu : u.isLiteral
    · obtain ⟨behind, text, offsets⟩ := ih (some t)
        (start + (separator v previous? t).bytes + (printToken v t).bytes) hu
      refine ⟨behind, ?_, ?_⟩
      · simp [printBehind, text, stretch, hu]
      · rcases offsets with offsets | ⟨others, offsets⟩
        · exact Or.inl offsets
        · refine Or.inr ⟨others, offsets.trans ?_⟩
          simp [stretch, hu, printToken_literal ht, Nat.add_assoc]
    · have placeholder : u.isPlaceholder := by simpa [Token.isLiteral] using hu
      let later := printBehind v (some t)
        (start + (separator v previous? t).bytes + (printToken v t).bytes) u rest
      rw [printBehind, printFrom_placeholder placeholder]
      refine ⟨Placeholder.print v u ++ later.text, ?_, Or.inr ⟨later.offsets, ?_⟩⟩
      · simp [stretch, hu, later]
      · simp [stretch, hu, later, printToken_literal ht, Nat.add_assoc]

end Line

end LogTemplate
