import LogTemplate.Proofs.Store

/-!
# Services by themselves

A batch holds the messages of many services, and a store the templates of all. What a service sees
of a run is decided by its own messages.

* `Miner.runBatches` handles batch after batch, `Miner.view` is what a service sees of a batch;
* `Miner.reports_of_service` tells the reports of a batch on a service, and
  `Miner.templates_runBatch` its templates after the batch. Services may be handled at the same
  time, `Miner.gather_of_perm`;
* `Miner.Alike` says that two miners are the same for a service. A batch with the same messages of
  the service keeps them so and shows it the same, `Miner.Alike.runBatch`;
* `Miner.view_runBatches` compares a run with one of the records of the service alone.
-/

namespace LogTemplate.Miner

variable {m m' : Miner} {service : Text} {records records' : List Record}

/-- Handle batches, each with the nanoseconds that it took. -/
def runBatches (m : Miner) : List (List Record × UInt64) → List (List Report × Miner)
  | [] => []
  | (records, nanos) :: rest =>
    let handled := m.runBatch records nanos
    handled :: runBatches handled.2 rest

/-- What a service sees of a batch. -/
structure View where
  /-- The reports on it. -/
  reports : List Report
  /-- Its templates after the batch. -/
  templates : List Statistics

/-- What a service sees of a batch that was handled. -/
def view (service : Text) (handled : List Report × Miner) : View where
  reports := handled.1.filter (·.service = service)
  templates := handled.2.store.templates (Id.ofService service)

/-! ### One batch -/

/-- There is one report on a service that has messages, and none on another. It depends on the
messages and on what the store held for the service before the batch. -/
theorem reports_of_service (m : Miner) (records : List Record) (nanos : UInt64) (service : Text) :
    (m.runBatch records nanos).1.filter (·.service = service) =
      if messagesOf service records = [] then []
      else [Mining.report m.vocabulary service (m.store.load (Id.ofService service))
        (messagesOf service records)] := by
  have groups := (sorted_group records).filter service
  rw [get?_group] at groups
  simp only [runBatch, List.filter_map]
  have own : ((fun r : Report => decide (r.service = service)) ∘ fun entry : Text × List Text =>
      Mining.report m.vocabulary entry.1 (m.store.load (Id.ofService entry.1)) entry.2) =
      fun entry => decide (entry.1 = service) := rfl
  rw [own, groups]
  split <;> rfl

/-- No other service of the batch has the identifier of this one. -/
def Apart (service : Text) (records : List Record) : Prop :=
  ∀ r ∈ records, Id.ofService r.service = Id.ofService service → r.service = service

/-- The reports that a shelf takes in are those on its service. -/
theorem reports_of_serviceId (m : Miner) (nanos : UInt64) (apart : Apart service records) :
    (m.runBatch records nanos).1.filter (·.serviceId = Id.ofService service) =
      (m.runBatch records nanos).1.filter (·.service = service) := by
  refine List.filter_congr fun report h => ?_
  obtain ⟨entry, he, rfl⟩ := List.mem_map.1 h
  obtain ⟨r, hr, named⟩ := exists_record_of_mem_group he
  have own : Id.ofService entry.1 = Id.ofService service ↔ entry.1 = service := by
    constructor
    · intro same
      rw [← named]
      exact apart r hr (by rw [named, same])
    · intro same
      rw [same]
  exact decide_eq_decide.2 own

/-- The templates of a service take in the hits of its report. -/
theorem templates_runBatch (m : Miner) (nanos : UInt64) (apart : Apart service records) :
    (m.runBatch records nanos).2.store.templates (Id.ofService service) =
      Shelf.recordAll m.store.maxExamples (m.store.templates (Id.ofService service))
        (((m.runBatch records nanos).1.filter (·.service = service)).flatMap (·.hits)) := by
  rw [store_runBatch, Store.templates_foldl_save_eq, reports_of_serviceId m nanos apart]

/-- Reports come in the order of the services' names, whatever order they were made in. -/
theorem mergeSort_of_perm (m : Miner) (records : List Record) (nanos : UInt64)
    {made : List Report} (perm : made.Perm (m.runBatch records nanos).1) :
    made.mergeSort (fun a b => !Text.before b.service a.service) =
      (m.runBatch records nanos).1 := by
  have sorted : (m.runBatch records nanos).1.Pairwise fun a b => Text.before a.service b.service :=
    List.pairwise_map.2 (sorted_group records)
  have distinct : ((m.runBatch records nanos).1.map (·.service)).Nodup := by
    have := (sorted_group records).nodup
    simpa [runBatch, Function.comp_def, Mining.report] using this
  refine List.Perm.eq_of_pairwise ?_ (List.pairwise_mergeSort ?_ ?_ made) (sorted.imp ?_)
    ((List.mergeSort_perm made _).trans perm)
  · intro a b ha hb le ge
    refine List.inj_on_of_nodup_map distinct (perm.mem_iff.1 (List.mem_mergeSort.1 ha)) hb ?_
    by_cases same : a.service = b.service
    · exact same
    · rw [Text.before_of_not same (by simpa using ge)] at le
      cases le
  · intro a b c hab hbc
    rw [Bool.not_eq_true'] at hab hbc ⊢
    exact Text.not_before_trans hab hbc
  · intro a b
    cases h : Text.before b.service a.service with
    | false => rfl
    | true => simp [Text.before_asymm h]
  · intro a b before
    simp [Text.before_asymm before]

/-- Take in the reports on a batch, in whatever order the workers that handled its services at the
same time have made them. -/
def gather (m : Miner) (made : List Report) (nanos : UInt64) : List Report × Miner :=
  let reports := made.mergeSort fun a b => !Text.before b.service a.service
  let after := reports.foldl save m
  (reports, { after with counters := after.counters.batch nanos })

/-- The order in which workers finish does not count. -/
theorem gather_of_perm (m : Miner) (records : List Record) (nanos : UInt64) {made : List Report}
    (perm : made.Perm (m.runBatch records nanos).1) :
    m.gather made nanos = m.runBatch records nanos := by
  rw [gather, mergeSort_of_perm m records nanos perm]
  rfl

/-! ### Two miners -/

/-- Two miners are the same for a service. -/
structure Alike (service : Text) (m m' : Miner) : Prop where
  vocabulary : m.vocabulary = m'.vocabulary
  maxExamples : m.store.maxExamples = m'.store.maxExamples
  templates : m.store.templates (Id.ofService service) = m'.store.templates (Id.ofService service)

/-- Of two miners that are the same for a service, batches with the same messages of the service
show it the same, and leave the miners the same for it. -/
theorem Alike.runBatch (alike : Alike service m m') (apart : Apart service records)
    (apart' : Apart service records')
    (same : messagesOf service records = messagesOf service records') (nanos nanos' : UInt64) :
    view service (m.runBatch records nanos) = view service (m'.runBatch records' nanos') ∧
      Alike service (m.runBatch records nanos).2 (m'.runBatch records' nanos').2 := by
  obtain ⟨vocabulary, maxExamples, templates⟩ := alike
  have reports : (m.runBatch records nanos).1.filter (·.service = service) =
      (m'.runBatch records' nanos').1.filter (·.service = service) := by
    rw [reports_of_service, reports_of_service, same, vocabulary, Store.load, Store.load, templates]
  have after : (m.runBatch records nanos).2.store.templates (Id.ofService service) =
      (m'.runBatch records' nanos').2.store.templates (Id.ofService service) := by
    rw [templates_runBatch m nanos apart, templates_runBatch m' nanos' apart', reports, maxExamples,
      templates]
  refine ⟨by rw [view, view, reports, after], ⟨?_, ?_, after⟩⟩
  · simpa using vocabulary
  · simpa using maxExamples

/-- The messages of a service are among its own records. -/
theorem messagesOf_filter (service : Text) (records : List Record) :
    messagesOf service (records.filter (·.service = service)) = messagesOf service records := by
  simp [messagesOf, List.filter_filter]

theorem Apart.filter (service : Text) (records : List Record) :
    Apart service (records.filter (·.service = service)) :=
  fun _ hr _ => by simpa using (List.mem_filter.1 hr).2

theorem messagesOf_eq_nil_iff :
    messagesOf service records = [] ↔ records.any (·.service = service) = false := by
  simp [messagesOf, List.filter_eq_nil_iff]

/-- A service has one report in the batches where it has messages, and none in the others. -/
theorem length_reports_of_service (m : Miner) (records : List Record) (nanos : UInt64)
    (service : Text) :
    (view service (m.runBatch records nanos)).reports.length =
      if records.any (·.service = service) then 1 else 0 := by
  rw [view, reports_of_service]
  by_cases h : messagesOf service records = []
  · simp [h, messagesOf_eq_nil_iff.1 h]
  · simp [h, mt messagesOf_eq_nil_iff.2 h]

/-- A run shows a service what a run of its own records shows it, when the names of the other
services have other identifiers. The two runs may take different times. -/
theorem view_runBatches (m : Miner) (service : Text) {batches alone : List (List Record × UInt64)}
    (apart : ∀ batch ∈ batches, Apart service batch.1)
    (own : alone.map (·.1) = batches.map fun batch => batch.1.filter (·.service = service)) :
    (m.runBatches batches).map (view service) = (m.runBatches alone).map (view service) ∧
      (m.runBatches batches).map (fun handled => (view service handled).reports.length) =
        batches.map fun batch => if batch.1.any (·.service = service) then 1 else 0 := by
  have run : ∀ m', Alike service m m' →
      (m.runBatches batches).map (view service) = (m'.runBatches alone).map (view service) := by
    induction batches generalizing m alone with
    | nil =>
      intro m' _
      obtain rfl : alone = [] := by simpa using own
      rfl
    | cons batch batches ih =>
      intro m' alike
      rcases alone with _ | ⟨⟨records', nanos'⟩, alone⟩
      · simp at own
      · obtain ⟨records, nanos⟩ := batch
        rw [List.map_cons, List.map_cons, List.cons.injEq] at own
        obtain ⟨rfl, own⟩ := own
        obtain ⟨seen, after⟩ := alike.runBatch (apart _ List.mem_cons_self)
          (Apart.filter service records) (messagesOf_filter service records).symm nanos nanos'
        rw [runBatches, runBatches, List.map_cons, List.map_cons, seen]
        exact congrArg _ (ih _ (fun b hb => apart b (List.mem_cons_of_mem _ hb)) own _ after)
  refine ⟨run m ⟨rfl, rfl, rfl⟩, ?_⟩
  clear own apart run
  induction batches generalizing m with
  | nil => rfl
  | cons batch batches ih =>
    rw [runBatches, List.map_cons, List.map_cons, length_reports_of_service, ih]

/-- A service whose messages are mixed with those of another, and which has none in the second
batch. -/
theorem view_runBatches_up :
    let a := "a".toList
    let b := "b".toList
    let m : Miner := ⟨{}, { maxExamples := 3 }, {}⟩
    let batches : List (List Record × UInt64) :=
      [([⟨a, "up 1".toList⟩, ⟨b, "down 2".toList⟩, ⟨a, "up 3".toList⟩], 5),
        ([⟨b, "down 4".toList⟩], 6)]
    let alone : List (List Record × UInt64) :=
      [([⟨a, "up 1".toList⟩, ⟨a, "up 3".toList⟩], 7), ([], 8)]
    (∀ batch ∈ batches, Apart a batch.1) ∧
      alone.map (·.1) = batches.map (fun batch => batch.1.filter (·.service = a)) ∧
      (m.runBatches batches).map (view a) = (m.runBatches alone).map (view a) ∧
      (m.runBatches batches).map (fun handled => (view a handled).reports.length) = [1, 0] := by
  intro a b m batches alone
  have apart : ∀ batch ∈ batches, Apart a batch.1 := by
    unfold Apart
    decide +kernel
  have own : alone.map (·.1) = batches.map fun batch => batch.1.filter (·.service = a) := by
    decide +kernel
  obtain ⟨seen, present⟩ := view_runBatches m a apart own
  exact ⟨apart, own, seen, present⟩

end LogTemplate.Miner
