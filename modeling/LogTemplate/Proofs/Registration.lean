import LogTemplate.Proofs.Catalog

/-!
# What a registration changes

* `Catalog.answer` is what a catalog answers to a request, `Request.target?` the line that the
  request asks to register;
* `Catalog.Built` are the catalogs that registrations lead to, by all ways to register;
* `Catalog.exists_of_register` finds the template that stands for a registered line;
* `Catalog.match?_isSome_of_answer` tells what a catalog matches behind a granted request. A known
  template of the same text is kept in place of the new line, so that it has to be of the same
  steps.
-/

namespace LogTemplate

/-- The line that a request asks to register; none when its text cannot be scanned. -/
def Request.target? (v : Vocabulary) : Request → Option Line
  | .line asked => some asked
  | .text written offsets => (Scan.pattern v written offsets).toOption

namespace Catalog

variable {v : Vocabulary} {c c' : Catalog} {line q : Line} {id : Text} {request : Request}
  {offsets? : Option (List Nat)}

/-- What a catalog answers to a request. -/
def answer (v : Vocabulary) (c : Catalog) : Request → Except CatalogError (Catalog × Text)
  | .line line => c.add v line
  | .text text offsets => c.addText v text offsets

theorem apply_of_ok (h : c.answer v request = .ok (c', id)) : c.apply v request = c' := by
  cases request <;> simp only [answer] at h <;> simp [apply, h]

theorem apply_of_error {e : CatalogError} (h : c.answer v request = .error e) :
    c.apply v request = c := by
  cases request <;> simp only [answer] at h <;> simp [apply, h]

/-- A line is matched just when some template covers it. -/
theorem isSome_match?_iff (h : Sound v c) (hl : line ≠ []) :
    (c.match? v line).isSome ↔
      ∃ T ∈ c.templates, ∃ slots, Covers v.regextime T.line line slots := by
  constructor
  · intro found
    obtain ⟨m, hm⟩ := Option.isSome_iff_exists.1 found
    obtain ⟨T, slots, best, -⟩ := isBest_of_match? h hm
    exact ⟨T, best.registered, slots, best.covers⟩
  · rintro ⟨T, hT, slots, covers⟩
    exact match?_isSome h hl hT covers

theorem ne_nil_of_match? (h : (c.match? v line).isSome) : line ≠ [] := by
  rintro rfl
  simp [match?] at h

/-- Templates that are known stay known. -/
theorem subset_register (h : Sound v c) (line : Line) (offsets? : Option (List Nat)) :
    c.templates ⊆ (c.register v line offsets?).1.templates := by
  rcases register_cases h line offsets? with ⟨T, -, -, eq⟩ | ⟨-, -, eq⟩
  · rw [eq]
    exact List.Subset.refl _
  · rw [eq, templates_extend]
    exact List.subset_append_left _ _

/-- A template stands for the registered line. It is of the same text or of the same steps, and of
the same steps if the known templates of that text are. -/
theorem exists_of_register (h : Sound v c) (line : Line) (offsets? : Option (List Nat)) :
    ∃ T ∈ (c.register v line offsets?).1.templates, T.id = (c.register v line offsets?).2 ∧
      (T.text = (Line.print v line).text ∨ T.line.steps = line.steps) ∧
      ((∀ S ∈ c.templates, S.text = (Line.print v line).text → S.line.steps = line.steps) →
        T.line.steps = line.steps) := by
  rcases register_cases h line offsets? with ⟨T, hT, same, eq⟩ | ⟨-, -, eq⟩
  · rw [eq]
    exact ⟨T, hT, rfl, same, fun alike => same.elim (alike T hT) fun steps => steps⟩
  · rw [eq, templates_extend]
    exact ⟨newTemplate v c line offsets?, by simp, rfl, .inl rfl, fun _ => rfl⟩

/-! ### Catalogs of one template -/

theorem templates_register_empty (v : Vocabulary) (T : Line) :
    (register v {} T none).1.templates = [newTemplate v {} T none] := by
  rcases register_cases (sound_empty v) T none with ⟨S, hS, -⟩ | ⟨-, -, eq⟩
  · simp at hS
  · rw [eq, templates_extend]
    rfl

/-- A catalog of one template matches the lines that the template covers. -/
theorem isSome_match?_register {T : Line} (hl : line ≠ []) :
    ((register v {} T none).1.match? v line).isSome ↔
      ∃ slots, Covers v.regextime T line slots := by
  rw [isSome_match?_iff (sound_register (sound_empty v) T none) hl, templates_register_empty]
  simp [newTemplate]

/-- A line that a catalog of one template matches is covered by this template. -/
theorem covers_of_match?_register {T : Line}
    (hm : ((register v {} T none).1.match? v line).isSome) :
    ∃ slots, Covers v.regextime T line slots :=
  (isSome_match?_register (ne_nil_of_match? hm)).1 hm

/-! ### Granted requests -/

theorem addAnchored_eq_ok :
    c.addAnchored v line offsets? = .ok (c', id) ↔
      line ≠ [] ∧ (∃ t ∈ line, t.isLiteral) ∧ c.register v line offsets? = (c', id) := by
  unfold addAnchored
  by_cases hl : line = []
  · simp [hl]
  · by_cases anchored : line.any (·.isLiteral)
    · simp [hl, anchored, List.any_eq_true.1 anchored]
    · have none : ¬∃ t ∈ line, t.isLiteral := fun some => anchored (List.any_eq_true.2 some)
      simp [hl, anchored, none]

/-- A request whose text can be scanned is granted just as its line is. -/
theorem answer_of_target (c : Catalog) (target : request.target? v = some q) :
    ∃ offsets?, c.answer v request = c.addAnchored v q offsets? := by
  cases request with
  | line line =>
    cases target
    exact ⟨none, rfl⟩
  | text text offsets =>
    simp only [answer, addText]
    simp only [Request.target?] at target
    cases scan : Scan.pattern v text offsets with
    | error e =>
      rw [scan] at target
      cases target
    | ok line =>
      rw [scan] at target
      cases target
      exact ⟨some offsets, rfl⟩

/-- A granted request has a line. -/
theorem exists_target (granted : c.answer v request = .ok (c', id)) :
    ∃ q, request.target? v = some q := by
  cases request with
  | line line => exact ⟨line, rfl⟩
  | text text offsets =>
    simp only [answer, addText] at granted
    cases scan : Scan.pattern v text offsets with
    | error e =>
      rw [scan] at granted
      cases granted
    | ok line => exact ⟨line, by simp [Request.target?, scan, Except.toOption]⟩

/-! ### All catalogs -/

/-- The catalogs that registrations lead to. -/
inductive Built (v : Vocabulary) : Catalog → Prop
  | start : Built v {}
  | added {c c' : Catalog} {line : Line} {id : Text} (before : Built v c)
      (granted : c.add v line = .ok (c', id)) : Built v c'
  | addedText {c c' : Catalog} {text : Text} {offsets : List Nat} {id : Text} (before : Built v c)
      (granted : c.addText v text offsets = .ok (c', id)) : Built v c'
  | addedUnanchored {c c' : Catalog} {line : Line} {id : Text} (before : Built v c)
      (granted : c.addUnanchored v line = .ok (c', id)) : Built v c'

theorem built_ofRequests (v : Vocabulary) (requests : List Request) :
    Built v (ofRequests v requests) := by
  have run : ∀ c, Built v c → Built v (requests.foldl (apply v) c) := by
    induction requests with
    | nil => exact fun c h => h
    | cons request requests ih =>
      intro c h
      refine ih _ ?_
      cases answer : c.answer v request with
      | error e => rwa [apply_of_error answer]
      | ok granted =>
        rw [apply_of_ok answer]
        cases request with
        | line line => exact h.added answer
        | text text offsets => exact h.addedText answer
  exact run {} .start

/-- What holds at the start and is kept by registration holds of all catalogs. -/
theorem Built.induct {P : Catalog → Prop} (start : P {})
    (register : ∀ c line offsets?, P c → P (c.register v line offsets?).1) (built : Built v c) :
    P c := by
  have anchored {c c' : Catalog} {line : Line} {offsets? : Option (List Nat)} {id : Text}
      (before : P c) (granted : c.addAnchored v line offsets? = .ok (c', id)) : P c' := by
    obtain ⟨-, -, eq⟩ := addAnchored_eq_ok.1 granted
    have after := register c line offsets? before
    rwa [eq] at after
  induction built with
  | start => exact start
  | added _ granted ih => exact anchored ih granted
  | @addedText c c' text offsets id _ granted ih =>
    unfold addText at granted
    cases scanned : Scan.pattern v text offsets with
    | error e =>
      rw [scanned] at granted
      cases granted
    | ok line =>
      rw [scanned] at granted
      exact anchored ih granted
  | @addedUnanchored c c' line id _ granted ih =>
    unfold addUnanchored at granted
    split at granted
    · cases granted
    · have after := register c line none ih
      rwa [Except.ok.inj granted] at after

theorem Built.sound (built : Built v c) : Sound v c :=
  built.induct (sound_empty v) fun _ line offsets? h => sound_register h line offsets?

/-! ### What a granted request changes -/

/-- Behind a granted request a catalog matches all that it matched before. It matches all that a
catalog of nothing but the registered line does, if the known templates that are written like this
line have its steps. The answer is the identifier of a template that is written like the line or has
its steps. -/
theorem match?_isSome_of_answer (v : Vocabulary) (requests : List Request)
    (target : request.target? v = some q)
    (granted : (ofRequests v requests).answer v request = .ok (c', id)) :
    (∀ line, ((ofRequests v requests).match? v line).isSome → (c'.match? v line).isSome) ∧
    (∃ alone id', add v {} q = .ok (alone, id') ∧
      ((∀ S ∈ (ofRequests v requests).templates, S.text = (Line.print v q).text →
          S.line.steps = q.steps) →
        ∀ line, (alone.match? v line).isSome → (c'.match? v line).isSome)) ∧
    ∃ T ∈ c'.templates, T.id = id ∧
      (T.text = (Line.print v q).text ∨ T.line.steps = q.steps) := by
  have sound := sound_ofRequests v requests
  obtain ⟨offsets?, answer⟩ := answer_of_target (ofRequests v requests) target
  obtain ⟨ne, anchored, eq⟩ := addAnchored_eq_ok.1 (answer.symm.trans granted)
  have sound' : Sound v c' := by
    have := sound_register sound q offsets?
    rwa [eq] at this
  obtain ⟨T, hT, identified, alike, steps⟩ := exists_of_register sound q offsets?
  have grows := subset_register sound q offsets?
  rw [eq] at hT identified grows
  refine ⟨fun line found => ?_, ?_, T, hT, identified, alike⟩
  · obtain ⟨S, hS, covered⟩ := (isSome_match?_iff sound (ne_nil_of_match? found)).1 found
    exact (isSome_match?_iff sound' (ne_nil_of_match? found)).2 ⟨S, grows hS, covered⟩
  · refine ⟨_, _, addAnchored_eq_ok.2 ⟨ne, anchored, rfl⟩, fun known line found => ?_⟩
    obtain ⟨slots, covers⟩ := covers_of_match?_register found
    exact (isSome_match?_iff sound' (ne_nil_of_match? found)).2
      ⟨T, hT, slots, covers.congr (steps known)⟩

/-- A catalog that knows a template of this text already, with the same steps, and another one. -/
theorem match?_isSome_of_answer_up : ∃ v, Vocabulary.ofSettings {} = .ok v ∧
    let requests := [Request.text "up %integer% s".toList [3],
      .text "down %integer% s".toList [5]]
    let c := ofRequests v requests
    let request := Request.text "up %integer% s".toList []
    ∃ q c' id, request.target? v = some q ∧ c.answer v request = .ok (c', id) ∧
      (∃ S ∈ c.templates, S.text = (Line.print v q).text) ∧
      (∀ S ∈ c.templates, S.text = (Line.print v q).text → S.line.steps = q.steps) ∧
      ∃ alone id', add v {} q = .ok (alone, id') ∧
        ∀ line, (alone.match? v line).isSome → (c'.match? v line).isSome := by
  let v : Vocabulary := {
    tags := [("regextime".toList, .time), ("multiline".toList, .multiline)]
    regextime := ⟨1⟩
    multiline := ⟨2⟩ }
  refine ⟨v, rfl, ?_⟩
  intro requests c request
  have scanned : (request.target? v).any fun q => q.any (·.isLiteral) &&
      c.templates.any (·.text = (Line.print v q).text) &&
      c.templates.all fun S => S.text ≠ (Line.print v q).text ∨ S.line.steps = q.steps := by
    decide +kernel
  obtain ⟨q, target, ok⟩ := (Option.any_eq_true _ _).1 scanned
  simp only [Bool.and_eq_true, List.any_eq_true, List.all_eq_true, decide_eq_true_eq] at ok
  obtain ⟨⟨⟨t, ht, literal⟩, present⟩, known⟩ := ok
  obtain ⟨offsets?, answer⟩ := answer_of_target c target
  have granted := answer.trans
    (addAnchored_eq_ok.2 ⟨List.ne_nil_of_mem ht, ⟨t, ht, literal⟩, rfl⟩)
  have known : ∀ S ∈ c.templates, S.text = (Line.print v q).text → S.line.steps = q.steps :=
    fun S hS same => (known S hS).resolve_left fun other => other same
  obtain ⟨-, ⟨alone, id', eq, found⟩, -⟩ := match?_isSome_of_answer v requests target granted
  exact ⟨q, _, _, target, granted, present, known, alone, id', eq, found known⟩

/-- A word that is written like a placeholder stands in the way of a placeholder. -/
theorem match?_isSome_of_answer_none : ∃ v, Vocabulary.ofSettings {} = .ok v ∧
    let c := ofRequests v [.line (Scan.message v "x %integer% y".toList)]
    let request := Request.text "x %integer% y".toList [2]
    let line := Scan.message v "x 5 y".toList
    ∃ q c' id alone id', request.target? v = some q ∧ c.answer v request = .ok (c', id) ∧
      add v {} q = .ok (alone, id') ∧ (alone.match? v line).isSome ∧ c'.match? v line = none := by
  let v : Vocabulary := {
    tags := [("regextime".toList, .time), ("multiline".toList, .multiline)]
    regextime := ⟨1⟩
    multiline := ⟨2⟩ }
  refine ⟨v, rfl, ?_⟩
  intro c request line
  have scanned : (request.target? v).any fun q => q.any (·.isLiteral) &&
      ((register v {} q none).1.match? v line).isSome := by decide +kernel
  have unmatched : (c.answer v request).toOption.all fun answer =>
      (answer.1.match? v line).isNone := by decide +kernel
  obtain ⟨q, target, ok⟩ := (Option.any_eq_true _ _).1 scanned
  simp only [Bool.and_eq_true, List.any_eq_true] at ok
  obtain ⟨⟨t, ht, literal⟩, alone⟩ := ok
  obtain ⟨offsets?, answer⟩ := answer_of_target c target
  have ne := List.ne_nil_of_mem ht
  have granted := answer.trans (addAnchored_eq_ok.2 ⟨ne, ⟨t, ht, literal⟩, rfl⟩)
  rw [granted] at unmatched
  exact ⟨q, _, _, _, _, target, granted, addAnchored_eq_ok.2 ⟨ne, ⟨t, ht, literal⟩, rfl⟩, alone,
    Option.isNone_iff_eq_none.1 unmatched⟩

end Catalog

end LogTemplate
