import CallTrace.Proofs.Data
import CallTrace.Proofs.Instant
import CallTrace.Proofs.Json
import CallTrace.Proofs.Stages.Provenance
import CallTrace.Snapshot.Data

/-!
# Snapshots, written and read

A snapshot is read back from its data (`Snapshot.ofData?_toData`) and from a document of its data
(`Job.snapshot_read_back`). Each kind of part has two lemmas: it is read back from its data, and its
data can be said exactly in a document. Parts that consist of others come after them.

The parts may hold any texts and numbers. Only the points in time at which the entities were first
seen must be proper ones, which they are when assemblers work at proper points in time.
-/

namespace CallTrace

open Data (fields?_object bind_eq_some list?_map)
open Data.Fields (read?_of_lookup readOptional?_of_lookup readD?_of_lookup)

namespace Model

/-! ## Identities -/

theorem OperationRef.ofData?_toData (ref : OperationRef) : ofData? ref.toData = some ref :=
  bind_eq_some (fields?_object false rfl (by decide)) rfl

theorem StorageRef.ofData?_toData (storage : StorageRef) :
    ofData? storage.toData = some storage :=
  bind_eq_some (fields?_object false rfl (by decide)) rfl

/-! ## Types -/

theorem OperationType.ofData?_toData (operation : OperationType) :
    ofData? operation.toData = some operation := by
  refine bind_eq_some (fields?_object false rfl (by decide)) ?_
  refine bind_eq_some (read?_of_lookup rfl rfl) ?_
  refine bind_eq_some (read?_of_lookup rfl rfl) ?_
  refine bind_eq_some
    (readOptional?_of_lookup rfl (Data.optional?_ofText? operation.returnType)) ?_
  exact bind_eq_some (read?_of_lookup rfl (Data.list?_text operation.parameterTypes)) rfl

theorem ComponentType.operationsOfData?_toData (operations : Std.ExtTreeMap String OperationType) :
    operationsOfData? (.object (operations.toList.map fun entry => (entry.1, entry.2.toData)))
      = some operations :=
  bind_eq_some rfl (Data.foldlM_insert OperationType.ofData?_toData operations)

theorem ComponentType.ofData?_toData (component : ComponentType) :
    ofData? component.toData = some component := by
  refine bind_eq_some (fields?_object false rfl (by decide)) ?_
  refine bind_eq_some (read?_of_lookup rfl rfl) ?_
  refine bind_eq_some (read?_of_lookup rfl rfl) ?_
  refine bind_eq_some (readOptional?_of_lookup rfl (Data.optional?_ofText? component.package)) ?_
  exact bind_eq_some (read?_of_lookup rfl (operationsOfData?_toData component.operations)) rfl

/-! ## Edges -/

theorem Statistics.ofData?_toData (s : Statistics) : ofData? s.toData = some s := by
  refine bind_eq_some (fields?_object false rfl (by decide)) ?_
  refine bind_eq_some (read?_of_lookup rfl (Data.word64?_ofWord64 s.count)) ?_
  refine bind_eq_some (readD?_of_lookup rfl (Data.word64?_ofWord64 s.timedCount)) ?_
  refine bind_eq_some (read?_of_lookup rfl (Data.int64?_ofInt64 s.total)) ?_
  refine bind_eq_some (readOptional?_of_lookup rfl (Data.optional?_ofInt? s.min)) ?_
  exact bind_eq_some (readOptional?_of_lookup rfl (Data.optional?_ofInt? s.max)) rfl

theorem Invocation.ofData?_toData (invocation : Invocation) :
    ofData? invocation.toData = some invocation := by
  refine bind_eq_some (fields?_object false rfl (by decide)) ?_
  refine bind_eq_some (read?_of_lookup rfl invocation.caller.ofData?_toData) ?_
  refine bind_eq_some (read?_of_lookup rfl invocation.callee.ofData?_toData) ?_
  exact bind_eq_some (read?_of_lookup rfl invocation.statistics.ofData?_toData) rfl

end Model

theorem Direction.ofData?_toData (direction : Direction) :
    ofData? direction.toData = some direction := by
  cases direction <;> rfl

namespace Model

theorem OperationDataflow.ofData?_toData (flow : OperationDataflow) :
    ofData? flow.toData = some flow := by
  refine bind_eq_some (fields?_object false rfl (by decide)) ?_
  refine bind_eq_some (read?_of_lookup rfl flow.source.ofData?_toData) ?_
  refine bind_eq_some (read?_of_lookup rfl flow.target.ofData?_toData) ?_
  refine bind_eq_some (read?_of_lookup rfl flow.direction.ofData?_toData) ?_
  exact bind_eq_some (read?_of_lookup rfl flow.statistics.ofData?_toData) rfl

theorem StorageDataflow.ofData?_toData (flow : StorageDataflow) :
    ofData? flow.toData = some flow := by
  refine bind_eq_some (fields?_object false rfl (by decide)) ?_
  refine bind_eq_some (read?_of_lookup rfl flow.source.ofData?_toData) ?_
  refine bind_eq_some (read?_of_lookup rfl flow.storage.ofData?_toData) ?_
  refine bind_eq_some (read?_of_lookup rfl flow.direction.ofData?_toData) ?_
  exact bind_eq_some (read?_of_lookup rfl flow.statistics.ofData?_toData) rfl

/-! ## Provenance -/

theorem Entity.ofData?_toData (entity : Entity) : ofData? entity.toData = some entity := by
  cases entity with
  | component signature =>
    exact bind_eq_some rfl (bind_eq_some (fields?_object false rfl (by decide)) rfl)
  | operation ref =>
    refine bind_eq_some rfl (bind_eq_some (fields?_object false rfl (by decide)) ?_)
    exact bind_eq_some (read?_of_lookup rfl ref.ofData?_toData) rfl
  | invocation caller callee =>
    refine bind_eq_some rfl (bind_eq_some (fields?_object false rfl (by decide)) ?_)
    refine bind_eq_some (read?_of_lookup rfl caller.ofData?_toData) ?_
    exact bind_eq_some (read?_of_lookup rfl callee.ofData?_toData) rfl
  | operationDataflow source target =>
    refine bind_eq_some rfl (bind_eq_some (fields?_object false rfl (by decide)) ?_)
    refine bind_eq_some (read?_of_lookup rfl source.ofData?_toData) ?_
    exact bind_eq_some (read?_of_lookup rfl target.ofData?_toData) rfl
  | storageDataflow source storage =>
    refine bind_eq_some rfl (bind_eq_some (fields?_object false rfl (by decide)) ?_)
    refine bind_eq_some (read?_of_lookup rfl source.ofData?_toData) ?_
    exact bind_eq_some (read?_of_lookup rfl storage.ofData?_toData) rfl

/-- Entities nest two levels. -/
theorem Entity.isUsable_toData (entity : Entity) (depth : Nat) :
    entity.toData.isUsable (depth + 2) = true := by
  cases entity <;>
    simp [toData, OperationRef.toData, StorageRef.toData, Data.isUsable, Data.isUsable_text]

end Model

theorem SourceEntry.ofData?_toData {entry : SourceEntry}
    (h : entry.provenance.firstSeen.IsProper) : ofData? entry.toData = some entry := by
  -- an entry is refused before its fields are looked at if its members nest too deep
  have hentity : entry.entity.toData.isUsable maxDepth = true := entry.entity.isUsable_toData 122
  have hsources : (Data.array (entry.provenance.sources.toList.map .text)).isUsable maxDepth
      = true := Data.isUsable_texts 123 _
  have htime : (Data.text entry.provenance.firstSeen.toText).isUsable maxDepth = true :=
    Data.isUsable_text maxDepth _
  have hread : (Data.text entry.provenance.firstSeen.toText).text?.bind Instant.ofText?
      = some entry.provenance.firstSeen := by
    rw [Data.text?, Option.bind_some, Instant.ofText?_toText h]
  refine bind_eq_some rfl ?_
  simp only [List.all_cons, List.all_nil, hentity, hsources, htime, Bool.and_self, Bool.not_true,
    Bool.false_eq_true, if_false]
  refine bind_eq_some (fields?_object false rfl (by decide)) ?_
  refine bind_eq_some (read?_of_lookup rfl entry.entity.ofData?_toData) ?_
  refine bind_eq_some (read?_of_lookup rfl (Data.list?_text _)) ?_
  refine bind_eq_some (read?_of_lookup rfl hread) ?_
  rw [Data.ofList_toList_set]
  rfl

namespace Snapshot

variable {snapshot : Snapshot}

/-- Every entity was first seen at a point in time that has a date and a time of day. -/
def HasProperTimes (snapshot : Snapshot) : Prop :=
  ∀ entry ∈ snapshot.sources, entry.provenance.firstSeen.IsProper

/-- **A snapshot is read from its data.** -/
theorem ofData?_toData (h : snapshot.HasProperTimes) : ofData? snapshot.toData = some snapshot := by
  refine bind_eq_some (fields?_object false rfl (by decide)) ?_
  refine bind_eq_some (read?_of_lookup rfl (list?_map fun component _ =>
    component.ofData?_toData)) ?_
  refine bind_eq_some (read?_of_lookup rfl (list?_map fun invocation _ =>
    invocation.ofData?_toData)) ?_
  refine bind_eq_some (read?_of_lookup rfl (list?_map fun flow _ => flow.ofData?_toData)) ?_
  refine bind_eq_some (read?_of_lookup rfl (list?_map fun flow _ => flow.ofData?_toData)) ?_
  exact bind_eq_some (read?_of_lookup rfl (list?_map fun entry hentry =>
    SourceEntry.ofData?_toData (h entry hentry))) rfl

end Snapshot

/-! ## Exactness -/

open Json (IsExact)

theorem isExact_ofText? (value : Option String) : IsExact (.ofText? value) := by
  cases value with
  | none => exact .null
  | some value => exact .text value

theorem isExact_ofInt64 (n : Int64) : IsExact (.ofInt64 n) := by
  refine .int n.minValue_le_toInt ?_
  have hmax : Int64.maxValue.toInt < UInt64.size := by decide
  exact Int.lt_of_le_of_lt n.toInt_le hmax

theorem isExact_ofWord64 (n : UInt64) : IsExact (.ofWord64 n) := by
  have hmin : Int64.minValue.toInt ≤ 0 := by decide
  exact .int (Int.le_trans hmin (Int.natCast_nonneg _)) (Int.ofNat_lt.mpr n.toNat_lt_size)

theorem isExact_ofInt? (value : Option Int64) : IsExact (.ofInt? value) := by
  cases value with
  | none => exact .null
  | some n => exact isExact_ofInt64 n

theorem isExact_array_map {α : Type} {write : α → Data} (h : ∀ value, IsExact (write value))
    (values : List α) : IsExact (.array (values.map write)) :=
  .array (by simp [h])

namespace Model

theorem OperationRef.isExact_toData (ref : OperationRef) : IsExact ref.toData :=
  .object (by simp [IsExact.text])

theorem StorageRef.isExact_toData (storage : StorageRef) : IsExact storage.toData :=
  .object (by simp [IsExact.text])

theorem OperationType.isExact_toData (operation : OperationType) : IsExact operation.toData :=
  .object (by simp [IsExact.text, isExact_ofText?, isExact_array_map])

theorem ComponentType.isExact_toData (component : ComponentType) : IsExact component.toData := by
  have hoperations : IsExact
      (.object (component.operations.toList.map fun entry => (entry.1, entry.2.toData))) := by
    refine .object (List.forall_mem_map.mpr fun entry _ => ?_)
    exact entry.2.isExact_toData
  exact .object (by simp [IsExact.text, isExact_ofText?, hoperations])

theorem Statistics.isExact_toData (s : Statistics) : IsExact s.toData :=
  .object (by simp [isExact_ofWord64, isExact_ofInt64, isExact_ofInt?])

theorem Invocation.isExact_toData (invocation : Invocation) : IsExact invocation.toData :=
  .object (by simp [OperationRef.isExact_toData, Statistics.isExact_toData])

theorem OperationDataflow.isExact_toData (flow : OperationDataflow) : IsExact flow.toData :=
  .object (by simp [OperationRef.isExact_toData, Direction.toData, IsExact.text,
    Statistics.isExact_toData])

theorem StorageDataflow.isExact_toData (flow : StorageDataflow) : IsExact flow.toData :=
  .object (by simp [OperationRef.isExact_toData, StorageRef.isExact_toData, Direction.toData,
    IsExact.text, Statistics.isExact_toData])

theorem Entity.isExact_toData (entity : Entity) : IsExact entity.toData := by
  cases entity <;>
    exact .object (by simp [IsExact.text, OperationRef.isExact_toData, StorageRef.isExact_toData])

end Model

open Model

theorem SourceEntry.isExact_toData (entry : SourceEntry) : IsExact entry.toData :=
  .object (by simp [Entity.isExact_toData, isExact_array_map, IsExact.text])

/-- Snapshots hold no floating-point numbers. -/
theorem Snapshot.isExact_toData (snapshot : Snapshot) : IsExact snapshot.toData :=
  .object (by simp [isExact_array_map, ComponentType.isExact_toData, Invocation.isExact_toData,
    OperationDataflow.isExact_toData, StorageDataflow.isExact_toData, SourceEntry.isExact_toData])

/-! ## What assemblers leave -/

namespace Model

/-- Every entity was first seen at a proper point in time. -/
def SourceModel.HasProperTimes (sources : SourceModel) : Prop :=
  ∀ entity provenance, sources.provenance? entity = some provenance →
    provenance.firstSeen.IsProper

theorem SourceModel.hasProperTimes_empty : HasProperTimes {} := by
  intro entity provenance hsome
  simp [provenance?] at hsome

/-- A new entity is first seen now, and a known one keeps the time it was first seen at. -/
theorem SourceModel.HasProperTimes.addSource {sources : SourceModel} {now : Instant}
    (h : sources.HasProperTimes) (hnow : now.IsProper) (entity : Entity) (label : String) :
    (sources.addSource now entity label).2.HasProperTimes := by
  intro other provenance hsome
  rw [provenance?_addSource] at hsome
  split at hsome
  next =>
    obtain rfl := Option.some.inj hsome
    cases hknown : sources.provenance? other with
    | none => exact hnow
    | some known => exact h other known hknown
  next => exact h other provenance hsome

theorem Models.hasProperTimes_snapshot {models : Models} (h : models.sources.HasProperTimes) :
    models.snapshot.HasProperTimes := by
  intro entry hentry
  obtain ⟨⟨entity, provenance⟩, hmem, rfl⟩ := List.mem_map.mp hentry
  exact h entity provenance (Std.ExtTreeMap.mem_toList_iff_getElem?_eq_some.mp hmem)

end Model

namespace Job

variable {models : Models}

/-- When the job is carried out. -/
def now : Job → Instant
  | operation now _ _ => now
  | account request => request.now

theorem hasProperTimes_perform (job : Job) (hnow : job.now.IsProper)
    (h : models.sources.HasProperTimes) : (job.perform models).2.sources.HasProperTimes := by
  cases job with
  | operation now assembler site => exact (h.addSource hnow _ _).addSource hnow _ _
  | account request =>
    rw [perform, Request.sources_perform]
    exact h.addSource hnow request.key request.label

theorem hasProperTimes_performAll (jobs : List Job) (hnow : ∀ job ∈ jobs, job.now.IsProper)
    (h : models.sources.HasProperTimes) :
    (performAll jobs models).2.sources.HasProperTimes := by
  induction jobs generalizing models with
  | nil => exact h
  | cons job jobs ih =>
    rw [List.forall_mem_cons] at hnow
    exact ih hnow.2 (job.hasProperTimes_perform hnow.1 h)

/-- **Snapshots are read back.** Whatever assemblers add to models, at points in time that have a
date and a time of day, the snapshot of the models is read back without a difference: from its data,
and from the document of its data in either layout. -/
theorem snapshot_read_back (jobs : List Job) (hnow : ∀ job ∈ jobs, job.now.IsProper)
    (h : models.sources.HasProperTimes) :
    let snapshot := (performAll jobs models).2.snapshot
    Snapshot.ofData? snapshot.toData = some snapshot
      ∧ ∀ layout, (Json.parse? (Json.render layout snapshot.toData)).bind Snapshot.ofData?
          = some snapshot := by
  intro snapshot
  have htimes : snapshot.HasProperTimes :=
    Models.hasProperTimes_snapshot (hasProperTimes_performAll jobs hnow h)
  have hdata := Snapshot.ofData?_toData htimes
  refine ⟨hdata, fun layout => ?_⟩
  rw [Json.parse?_render layout snapshot.isExact_toData]
  exact hdata

/-- Two components, one of them without a package, with an operation each, a call that took a
negative time, one without a time, and a dataflow of either kind; a leap second and a year of five
digits. -/
theorem snapshot_read_back_kinds :
    let assembler : TypeAssembler := { extractor := .identity, label := "log \"a\"" }
    let leap : Instant :=
      { year := 2016, month := 12, day := 31, hour := 23, minute := 59, second := 60, nanos := 0 }
    let late : Instant :=
      { year := 10000, month := 2, day := 29, hour := 0, minute := 0, second := 7, nanos := 120000 }
    let cart : Site :=
      { host := "srv1", component := "org.shop.Cart", operation := "public int add(int a)" }
    let books : Site := { host := "srv2", component := "Bücher", operation := "save" }
    let add := assembler.extractor.resolve cart
    let save := assembler.extractor.resolve books
    let jobs : List Job := [
      .operation leap assembler cart,
      .operation late assembler books,
      .account ⟨leap, "log", .call add save (some (-5))⟩,
      .account ⟨late, "log", .call save save none⟩,
      .account ⟨late, "log", .operationDataflow add save .both⟩,
      .account ⟨late, "log", .storageDataflow save ⟨"orders\n"⟩ .write⟩]
    let snapshot := (performAll jobs {}).2.snapshot
    (∀ job ∈ jobs, job.now.IsProper) ∧ SourceModel.HasProperTimes {}
      ∧ Snapshot.ofData? snapshot.toData = some snapshot
      ∧ ∀ layout, (Json.parse? (Json.render layout snapshot.toData)).bind Snapshot.ofData?
          = some snapshot := by
  intro assembler leap late cart books add save jobs snapshot
  have hleap : leap.IsProper := ⟨by decide, by decide⟩
  have hlate : late.IsProper := ⟨by decide, by decide⟩
  have hnow : ∀ job ∈ jobs, job.now.IsProper := by
    simp [jobs, now, hleap, hlate]
  have hempty := SourceModel.hasProperTimes_empty
  exact ⟨hnow, hempty, snapshot_read_back jobs hnow hempty⟩

end Job

end CallTrace
