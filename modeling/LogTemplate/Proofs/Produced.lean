import LogTemplate.Proofs.Learner
import LogTemplate.Proofs.Leaves
import LogTemplate.Proofs.Piece
import LogTemplate.Proofs.Written

/-!
# Where tokens come from

* `Produced` lists the ways in which tokens come about: scans of messages, of JSON and of pattern
  text, and what is learned from lines of such tokens;
* `Scan.isScanned_of_mem_json`, `Scan.isWritable_of_mem_tokens` and
  `Consensus.isWritable_of_mem_generalize` are the steps, and `Produced.isWritable` says that all
  placeholders that come about have a written form.
-/

namespace LogTemplate

open Placeholder

variable {v : Vocabulary} {t : Token}

/-- The token comes from a scan, or from a template that was learned from lines of such tokens. -/
inductive Produced (v : Vocabulary) : Token → Prop
  | message {text : Text} {t : Token} (mem : t ∈ Scan.message v text) : Produced v t
  | json {text : Text} {line : Line} {t : Token} (scan : Scan.json v text = .ok line)
      (mem : t ∈ line) : Produced v t
  | pattern {text : Text} {offsets : List Nat} {line : Line} {t : Token}
      (scan : Scan.pattern v text offsets = .ok line) (mem : t ∈ line) : Produced v t
  | template {lines templates : List Line} {l : Learner} {T : Line} {t : Token}
      (learned : Mining.Learned v lines l) (rows : ∀ line ∈ lines, ∀ t ∈ line, Produced v t)
      (found : l.templates? = some templates) (hT : T ∈ templates) (mem : t ∈ T) : Produced v t

/-- Text without a hint of its form is a JSON object or a message. -/
theorem Produced.of_mem_auto {text : Text} {line : Line} (scan : Scan.auto v text = .ok line)
    (mem : t ∈ line) : Produced v t := by
  unfold Scan.auto at scan
  split at scan
  · exact .json scan mem
  · cases scan
    exact .message mem

/-! ### Scans -/

namespace Scan

variable {mode : Mode} {cursor : Cursor} {text : Text}

theorem IsScanned.isWritable (h : v.Regular) (ht : IsScanned v t) (placeholder : t.isPlaceholder) :
    IsWritable v t := by
  rcases ht with ⟨tag, kind⟩ | ⟨-, value⟩
  · simp [Token.isPlaceholder, tag, kind, Kind.isPlaceholder] at placeholder
  · have time := Vocabulary.name?_of_tag? h.name
    rcases value.meaning with ⟨tag, kind⟩ | ⟨tag, kind, n, group⟩
    · refine ⟨.inl ⟨tag, kind⟩, by simp [value.stop], fun eq => ?_⟩
      exact absurd (eq.symm.trans tag) time.2
    · refine ⟨.inr ⟨⟨_, tag ▸ h.name⟩, .inr (by rw [kind]; rfl)⟩, by simp [value.stop],
        fun _ g hg => ?_⟩
      rw [group] at hg
      cases hg
      exact isGroup_ofNat n

/-- A placeholder of a scan has a written form. -/
theorem isWritable_of_mem_tokens (h : v.Regular) (ht : t ∈ tokens v mode cursor text)
    (placeholder : t.isPlaceholder) : IsWritable v t := by
  rcases mem_tokens ht with ⟨gap, rfl⟩ | ⟨w, rfl⟩ | ⟨cursor, place, c, w, space, rfl⟩
  · exact (isScanned_literal gap).isWritable h placeholder
  · exact (isScanned_of_kind (by decide) true).isWritable h placeholder
  · unfold found at placeholder ⊢
    cases run : placeholder? v mode cursor place (c :: w) with
    | some g =>
      obtain ⟨-, body, after, u, isBody, -, read, rfl⟩ := placeholder?_eq_some_iff.1 run
      exact (isWritable_of_parse? isBody read).congr rfl
    | none =>
      rw [run] at placeholder
      exact (isScanned_next _ _ _ _ _ _ _).isWritable h placeholder

theorem IsScanned.spaced (h : IsScanned v t) (space : Bool) :
    IsScanned v { t with spaceBefore := space } := by
  rcases h with literal | ⟨placeholder, value⟩
  · exact .inl literal
  · exact .inr ⟨placeholder, value.modifier, value.stop, value.meaning⟩

/-- The token of a text is that of a scan which finds no others, or a string. -/
theorem textToken?_cases (h : Flatten.textToken? v text = some t) :
    t = { value := text, kind := .string, spaceBefore := true } ∨
      ∃ u ∈ message v text, t = { u with spaceBefore := true } := by
  unfold Flatten.textToken? at h
  split at h
  · cases h
  · next u eq =>
    cases h
    exact .inr ⟨u, eq ▸ List.mem_singleton.2 rfl, rfl⟩
  · cases h
    exact .inl rfl

theorem mem_leaf {path? : Option Text} {value : Json.Value} (h : t ∈ Flatten.leaf v path? value) :
    (∃ w, t = .literal w) ∨ ∃ w, Flatten.textToken? v w = some t := by
  unfold Flatten.leaf at h
  split at h
  · cases h
  · rcases List.mem_cons.1 h with rfl | h
    · exact .inl ⟨_, rfl⟩
    rcases List.mem_cons.1 h with rfl | h
    · exact .inl ⟨_, rfl⟩
    have h : Flatten.valueToken? v value = some t := by simpa using h
    unfold Flatten.valueToken? at h
    split at h
    · split at h
      · cases h
      · exact .inr ⟨_, h⟩
    · exact .inr ⟨_, h⟩
    · cases h
      exact .inl ⟨_, rfl⟩
    · cases h

/-- A token of a flattened value is a literal or the token of a text. -/
theorem mem_flatten {path? : Option Text} {value : Json.Value}
    (h : t ∈ Flatten.tokens v path? value) :
    (∃ w, t = .literal w) ∨ ∃ w, Flatten.textToken? v w = some t := by
  rw [Flatten.tokens_eq_leaves] at h
  obtain ⟨l, -, mem⟩ := List.mem_flatMap.1 h
  exact mem_leaf mem

/-- A token of a JSON object is a literal, a string, or that of a message. -/
theorem mem_json {line : Line} (h : json v text = .ok line) (ht : t ∈ line) :
    (∃ w, t = .literal w) ∨ (∃ w, t = { value := w, kind := .string, spaceBefore := true }) ∨
      ∃ w, ∃ u ∈ message v w, t = { u with spaceBefore := true } := by
  have flat : (∃ w, t = .literal w) ∨ ∃ w, Flatten.textToken? v w = some t := by
    unfold json at h
    split at h
    · cases h
    · cases h
      exact mem_flatten ht
    · cases h
  refine flat.imp_right fun ⟨w, token⟩ => ?_
  exact (textToken?_cases token).imp (fun eq => ⟨w, eq⟩) fun found => ⟨w, found⟩

/-- All tokens of a JSON object are literals or values. -/
theorem isScanned_of_mem_json {line : Line} (h : json v text = .ok line) (ht : t ∈ line) :
    IsScanned v t := by
  rcases mem_json h ht with ⟨w, rfl⟩ | ⟨w, rfl⟩ | ⟨w, u, mem, rfl⟩
  · exact isScanned_literal w
  · exact isScanned_of_kind (by decide) true
  · exact (isScanned_of_mem_message mem).spaced true

end Scan

/-! ### Templates -/

namespace Consensus

/-- The token of a column has neither tag nor group, or it is a timestamp with the group that all
tokens of the column have. -/
theorem columnToken_cases (v : Vocabulary) (first : Token) (column : List Token) :
    (columnToken v first column).stop = none ∧
    (((columnToken v first column).tag = .unknown ∧ (columnToken v first column).group = none ∧
        ((columnToken v first column).kind = .literal ∨
          (columnToken v first column).kind.isPlaceholder)) ∨
      ((columnToken v first column).tag = v.regextime ∧ (columnToken v first column).kind = .time ∧
        (columnToken v first column).modifier = .single ∧
        ∃ g, (columnToken v first column).group = some g ∧
          commonGroup? v first column = some g)) := by
  unfold columnToken
  dsimp only
  split
  · exact ⟨rfl, .inl ⟨rfl, rfl, .inl rfl⟩⟩
  · split
    · exact ⟨rfl, .inl ⟨rfl, rfl, .inr rfl⟩⟩
    · split
      · next g found => exact ⟨rfl, .inr ⟨rfl, rfl, rfl, g, rfl, found⟩⟩
      · exact ⟨rfl, .inl ⟨rfl, rfl, .inr rfl⟩⟩
    · next kind _ found => exact ⟨rfl, .inl ⟨rfl, rfl, .inr (columnKind?_spec found).1⟩⟩

/-- The token of a column is a literal, or has a written form if those of the column have one. -/
theorem isWritable_columnToken (h : v.Regular) {column : List Token} {first : Token}
    (hfirst : first ∈ column) (rows : ∀ x ∈ column, x.isPlaceholder → IsWritable v x)
    (placeholder : (columnToken v first column).isPlaceholder) :
    IsWritable v (columnToken v first column) := by
  have time := Vocabulary.name?_of_tag? h.name
  obtain ⟨stop, ⟨tag, group, kind⟩ | ⟨tag, kind, -, g, group, common⟩⟩ :=
    columnToken_cases v first column
  · have kind := kind.resolve_left fun literal => by
      simp [Token.isPlaceholder, tag, literal, Kind.isPlaceholder] at placeholder
    exact ⟨.inl ⟨tag, kind⟩, by simp [stop], by simp [group]⟩
  · obtain ⟨tag', group'⟩ := commonGroup?_spec common first hfirst
    have known := rows first hfirst (by simp [Token.isPlaceholder, tag', time.2])
    refine ⟨.inr ⟨⟨_, tag ▸ h.name⟩, .inr (by rw [kind]; rfl)⟩, by simp [stop], fun _ g' hg => ?_⟩
    exact known.group tag' g' (group'.trans (group.symm.trans hg))

theorem knows_of_hint? (h : v.Proper) {word : Text} {tag : Tag} (found : hint? v word = some tag) :
    v.Knows tag := by
  unfold hint? at found
  cases keyword : v.keyword? word with
  | some tag' =>
    rw [keyword] at found
    cases found
    exact h.knows_of_keyword? keyword
  | none =>
    rw [keyword] at found
    exact h.knows_of_mem_prekey (List.mem_of_mem_head? found)

/-- A hinted tag leaves a written form. -/
theorem isWritable_inferTag (h : v.Proper) (before : Line) (ht : t.isPlaceholder → IsWritable v t)
    (alone : t.tag = .unknown → t.group = none)
    (placeholder : (inferTag v before t).isPlaceholder) : IsWritable v (inferTag v before t) := by
  unfold inferTag at placeholder ⊢
  split at placeholder
  · next fixed =>
    rw [if_pos fixed]
    exact ht placeholder
  · next free =>
    rw [if_neg free]
    simp only [Bool.or_eq_true, bne_iff_ne, not_or, Bool.not_eq_true, not_not,
      Token.isLiteral, Bool.not_eq_false'] at free
    obtain ⟨⟨free, tag⟩, -⟩ := free
    split
    · next tag' found =>
      obtain ⟨word, -, hint⟩ := Option.bind_eq_some_iff.1 found
      have kind : t.kind.isPlaceholder := by simpa [Token.isPlaceholder, tag] using free
      exact ⟨.inr ⟨knows_of_hint? h hint, .inr kind⟩, (ht free).stop, by simp [alone tag]⟩
    · exact ht free

/-- A placeholder of a template has a written form, if those of the rows have one. -/
theorem isWritable_of_mem_generalize (h : v.Proper) {rows : List Line}
    (known : ∀ row ∈ rows, ∀ x ∈ row, x.isPlaceholder → IsWritable v x)
    (ht : t ∈ generalize v rows) (placeholder : t.isPlaceholder) : IsWritable v t := by
  obtain ⟨column, hcolumn, first, hfirst, before, m, rfl, -⟩ := mem_generalize ht
  have members : ∀ x ∈ column, x.isPlaceholder → IsWritable v x := by
    obtain ⟨j, -, rfl⟩ := List.mem_map.1 hcolumn
    intro x hx
    obtain ⟨row, hrow, found⟩ := List.mem_filterMap.1 hx
    exact known row hrow x (List.mem_of_getElem? found)
  have alone : (columnToken v first column).tag = .unknown →
      (columnToken v first column).group = none := fun unknown => by
    obtain ⟨-, ⟨-, group, -⟩ | ⟨tag, -⟩⟩ := columnToken_cases v first column
    · exact group
    · exact absurd (tag.symm.trans unknown) (Vocabulary.name?_of_tag? h.name).2
  have := isWritable_inferTag h before (isWritable_columnToken h.toRegular hfirst members) alone
    placeholder
  exact ⟨this.meaning, this.stop, this.group⟩

end Consensus

/-- All placeholders that come about have a written form. -/
theorem Produced.isWritable (h : v.Proper) (ht : Produced v t) (placeholder : t.isPlaceholder) :
    IsWritable v t := by
  induction ht with
  | message mem => exact Scan.isWritable_of_mem_tokens h.toRegular mem placeholder
  | json scan mem => exact (Scan.isScanned_of_mem_json scan mem).isWritable h.toRegular placeholder
  | pattern scan mem =>
    obtain ⟨mode, -, rfl⟩ := Scan.pattern_eq_ok_iff.1 scan
    exact Scan.isWritable_of_mem_tokens h.toRegular mem placeholder
  | template learned rows found hT mem ih =>
    obtain ⟨key, rfl⟩ := Mining.eq_generalize_of_learned learned found hT
    refine Consensus.isWritable_of_mem_generalize h (fun row hrow x hx => ?_) mem placeholder
    exact ih row (List.mem_filter.1 hrow).1 x hx

end LogTemplate
