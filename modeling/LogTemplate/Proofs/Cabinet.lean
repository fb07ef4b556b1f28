import LogTemplate.Proofs.Row
import LogTemplate.Proofs.Shelf

/-!
# Stores with indexes

A cabinet is a store whose shelves find their templates by an index of identifiers. The index and
the row of templates are updated hit by hit, and the positions that the index gives are not checked.

* `Drawer.record` counts a message by the index, `Cabinet.save` takes a report in;
* `Drawer.Indexed` says that the index leads from the identifiers to the positions, and
  `Drawer.record_spec` that a hit keeps it and does to the templates what `Shelf.record` does;
* `Store.tells_foldl_save` tells what is kept of a list of reports.
-/

namespace LogTemplate

/-- A shelf with an index. -/
structure Drawer where
  name : Text
  templates : List Statistics := []
  /-- The position of the template of an identifier. -/
  index : Text → Option Nat := fun _ => none

/-- A store whose shelves have indexes. -/
structure Cabinet where
  maxExamples : Nat
  drawers : Text → Option Drawer := fun _ => none

/-! ### Drawers -/

namespace Drawer

variable {maxExamples i : Nat} {d : Drawer} {hit : Text × Hit} {s : Statistics}

/-- Add a template that has covered no message yet. -/
def push (d : Drawer) (h : Hit) : Drawer :=
  { d with
    templates := d.templates ++ [Statistics.ofHit h]
    index := Function.update d.index h.id (some d.templates.length) }

/-- Count a message for the template at a position. There is no value when there is none. -/
def count (maxExamples : Nat) (message : Text) (d : Drawer) (i : Nat) : Option Drawer :=
  if i < d.templates.length then
    some { d with templates := d.templates.modify i (·.record maxExamples message) }
  else none

/-- Count the message of a hit for the template that the index gives, which is added when it is
new. -/
def record (maxExamples : Nat) (d : Drawer) (hit : Text × Hit) : Option Drawer :=
  match d.index hit.2.id with
  | some i => d.count maxExamples hit.1 i
  | none => (d.push hit.2).count maxExamples hit.1 d.templates.length

/-- The index leads from the identifiers of the templates to their positions. -/
def Indexed (d : Drawer) : Prop := Indexes d.index (·.id) d.templates

/-- The drawer as a shelf. -/
def shelf (d : Drawer) : Shelf := ⟨d.name, d.templates⟩

/-- A hit finds the position that the index gives, and does to the templates what it does to those
of a shelf. -/
theorem record_spec (h : d.Indexed) (maxExamples : Nat) (hit : Text × Hit) :
    ∃ d', d.record maxExamples hit = some d' ∧ d'.Indexed ∧
      d'.shelf = ⟨d.name, Shelf.record maxExamples hit.1 hit.2 d.templates⟩ := by
  unfold record
  cases found : d.index hit.2.id with
  | some i =>
    obtain ⟨s, hs, same⟩ := (h _ i).1 found
    have inside := (List.getElem?_eq_some_iff.1 hs).1
    refine ⟨_, if_pos inside, Indexes.modify h i fun _ => rfl, ?_⟩
    rw [Shelf.record_of_getElem? (Indexes.distinct h) hs same]
    rfl
  | none =>
    have fresh := (Indexes.eq_none_iff h _).1 found
    have inside : d.templates.length < (d.push hit.2).templates.length := by
      simp [Drawer.push]
    have pushed : (d.push hit.2).Indexed := Indexes.push (a := Statistics.ofHit hit.2) h fresh
    refine ⟨_, if_pos inside, Indexes.modify pushed _ fun _ => rfl, ?_⟩
    rw [Shelf.record_of_not_mem (by simpa using fresh), ← modify_concat]
    rfl

/-- All hits of a report. -/
theorem foldlM_spec (h : d.Indexed) (maxExamples : Nat) (hits : List (Text × Hit)) :
    ∃ d', hits.foldlM (record maxExamples) d = some d' ∧ d'.Indexed ∧
      d'.shelf = ⟨d.name, Shelf.recordAll maxExamples d.templates hits⟩ := by
  induction hits generalizing d with
  | nil => exact ⟨d, rfl, h, rfl⟩
  | cons hit hits ih =>
    obtain ⟨d', eq, indexed, shelf⟩ := record_spec h maxExamples hit
    obtain ⟨d'', eqs, indexed', shelf'⟩ := ih indexed
    refine ⟨d'', by rw [List.foldlM_cons, eq]; exact eqs, indexed', ?_⟩
    have name : d'.name = d.name := congrArg Shelf.name shelf
    have templates : d'.templates = Shelf.record maxExamples hit.1 hit.2 d.templates :=
      congrArg Shelf.templates shelf
    rw [shelf', name, templates]
    rfl

end Drawer

/-! ### Cabinets -/

namespace Cabinet

variable {c : Cabinet} {s : Store}

/-- Take in a report. The service keeps the name of its first report. -/
def save (c : Cabinet) (r : Report) : Option Cabinet :=
  (r.hits.foldlM (Drawer.record c.maxExamples)
      ((c.drawers r.serviceId).getD { name := r.service })).map fun d =>
    { c with drawers := Function.update c.drawers r.serviceId (some d) }

/-- The cabinet holds what the store holds, and its indexes are right. -/
structure Shows (c : Cabinet) (s : Store) : Prop where
  maxExamples : s.maxExamples = c.maxExamples
  shelves : ∀ id, s.shelves.get? id = (c.drawers id).map (·.shelf)
  indexed : ∀ id d, c.drawers id = some d → d.Indexed

theorem shows_start (maxExamples : Nat) : Shows { maxExamples } { maxExamples } :=
  ⟨rfl, fun _ => rfl, fun _ _ h => by cases h⟩

/-- A report finds the positions that it reads, and the cabinet goes on to hold what the store
holds. -/
theorem save_spec (shows : c.Shows s) (r : Report) :
    ∃ c', c.save r = some c' ∧ c'.Shows (s.save r) := by
  obtain ⟨maxExamples, shelves, indexed⟩ := shows
  have start : ((c.drawers r.serviceId).getD { name := r.service }).Indexed := by
    cases found : c.drawers r.serviceId with
    | none => exact Indexes.start _
    | some d => exact indexed _ d found
  obtain ⟨d, eq, new, shelf⟩ := Drawer.foldlM_spec start c.maxExamples r.hits
  refine ⟨{ c with drawers := Function.update c.drawers r.serviceId (some d) },
    by rw [save, eq]; rfl, maxExamples, fun id => ?_, fun id d' h => ?_⟩
  · by_cases own : id = r.serviceId
    · subst own
      simp only [Store.save, Table.get?_insert_self, Function.update_self, Option.map_some, shelf,
        shelves, maxExamples]
      cases c.drawers r.serviceId <;> rfl
    · simp only [Store.save, Table.get?_insert_of_ne own, Function.update_of_ne own, shelves]
  · dsimp only at h
    by_cases own : id = r.serviceId
    · subst own
      rw [Function.update_self, Option.some.injEq] at h
      exact h ▸ new
    · rw [Function.update_of_ne own] at h
      exact indexed id d' h

theorem foldlM_spec (shows : c.Shows s) (reports : List Report) :
    ∃ c', reports.foldlM save c = some c' ∧ c'.Shows (reports.foldl Store.save s) := by
  induction reports generalizing c s with
  | nil => exact ⟨c, rfl, shows⟩
  | cons r reports ih =>
    obtain ⟨c', eq, shows'⟩ := save_spec shows r
    obtain ⟨c'', eqs, shows''⟩ := ih shows'
    exact ⟨c'', by rw [List.foldlM_cons, eq]; exact eqs, shows''⟩

end Cabinet

/-- What a new store keeps of a list of reports. For each service there is one template for each
identifier in the hits of the reports on it, in the order of the first hits. It is as its first hit
tells, counts its hits, and has the messages of the first of them as its examples. They are loaded
in the same order, and the store counts them all. A store that finds them by its indexes holds the
same, and the indexes lead from the identifiers to the positions. -/
theorem Store.tells_foldl_save (maxExamples : Nat) (reports : List Report) :
    let s := reports.foldl Store.save { maxExamples }
    (∀ id,
      Shelf.Tells maxExamples ((reports.filter (·.serviceId = id)).flatMap (·.hits))
        (s.templates id) ∧
      s.load id = (s.templates id).map fun t => ⟨t.text, t.offsets⟩) ∧
    s.size = ((reports.map (·.serviceId)).eraseDups.map fun id => (s.templates id).length).sum ∧
    ∃ c, reports.foldlM Cabinet.save { maxExamples } = some c ∧ c.Shows s := by
  intro s
  refine ⟨fun id => ⟨?_, rfl⟩, size_foldl_save maxExamples reports,
    Cabinet.foldlM_spec (Cabinet.shows_start maxExamples) reports⟩
  rw [templates_foldl_save_eq]
  exact Shelf.tells_recordAll maxExamples _

end LogTemplate
