import CallTrace.Proofs.Model.Aggregation
import CallTrace.Proofs.Model.Types
import CallTrace.Stages.Assemblers

/-!
# Who contributed what

Any number of assemblers, each under its own label, add to the same models: operations with their
components to the type model, calls and dataflows to the execution model. Whatever they add, they
also put down in the source model (`Job.perform`).

The models are looked at entity by entity. A job adds to the type model or to the execution model
the entities that it is about, and nothing else (`Job.has_perform`); to the source model it adds its
label at just these entities (`Job.credits_perform`). So both know the same entities in the end.
-/

namespace CallTrace

namespace Model

/-! ## Sources -/

namespace SourceModel

variable {sources : SourceModel} {contributions : List (Entity × String)}

/-- The source model remembers exactly these contributions to entities under labels. -/
structure Credits (sources : SourceModel) (contributions : List (Entity × String)) : Prop where
  isSome_provenance? : ∀ entity,
    (sources.provenance? entity).isSome ↔ ∃ label, (entity, label) ∈ contributions
  mem_sources : ∀ entity entry, sources.provenance? entity = some entry →
    ∀ label, label ∈ entry.sources ↔ (entity, label) ∈ contributions

theorem credits_empty : Credits {} [] where
  isSome_provenance? entity := by simp [provenance?]
  mem_sources entity entry h := by simp [provenance?] at h

/-- Adding a label changes the provenance of its entity and no other one. -/
theorem provenance?_addSource (sources : SourceModel) (now : Instant) (entity : Entity)
    (label : String) (other : Entity) :
    (sources.addSource now entity label).2.provenance? other
      = if entity = other then
          some (let known := (sources.provenance? other).getD { sources := ∅, firstSeen := now }
            { known with sources := known.sources.insert label })
        else sources.provenance? other := by
  simp only [addSource, provenance?, Std.ExtTreeMap.getElem?_insert,
    Std.LawfulEqCmp.compare_eq_iff_eq]
  split
  · next h => rw [h]
  · rfl

theorem mem_insert_label (labels : Std.ExtTreeSet String) (label name : String) :
    name ∈ labels.insert label ↔ name = label ∨ name ∈ labels := by
  rw [Std.ExtTreeSet.mem_insert, Std.LawfulEqCmp.compare_eq_iff_eq, eq_comm]

/-- One more contribution is remembered with the others. -/
theorem Credits.addSource (h : Credits sources contributions) (now : Instant) (entity : Entity)
    (label : String) :
    Credits (sources.addSource now entity label).2 (contributions ++ [(entity, label)]) where
  isSome_provenance? other := by
    rw [provenance?_addSource]
    by_cases hsame : entity = other
    · subst hsame
      simp only [if_true, Option.isSome_some, true_iff]
      exact ⟨label, by simp⟩
    · simp [hsame, Ne.symm hsame, h.isSome_provenance?]
  mem_sources other entry hentry name := by
    rw [provenance?_addSource] at hentry
    by_cases hsame : entity = other
    · subst hsame
      rw [if_pos rfl] at hentry
      obtain rfl := Option.some.inj hentry
      have hadded : (entity, name) ∈ contributions ++ [(entity, label)]
          ↔ name = label ∨ (entity, name) ∈ contributions := by
        simp [or_comm]
      rw [hadded, mem_insert_label]
      refine or_congr_right ?_
      cases hknown : sources.provenance? entity with
      | none =>
        -- nobody has contributed to the entity before
        have hnone := (h.isSome_provenance? entity).not
        rw [hknown] at hnone
        have hnobody : (entity, name) ∉ contributions := fun hmem => hnone.mp (by simp) ⟨name, hmem⟩
        simp [hnobody]
      | some known => exact h.mem_sources entity known hknown name
    · rw [if_neg hsame] at hentry
      simp [h.mem_sources other entry hentry name, Ne.symm hsame]

end SourceModel

/-! ## Entities -/

namespace Models

/-- The entity is there, in the type model or in the execution model. -/
def Has (models : Models) : Entity → Prop
  | .component signature => (models.types.component? signature).isSome
  | .operation ref => (models.types.operation? ref).isSome
  | entity => (models.execution.entryAt? entity).isSome

theorem not_has_empty (entity : Entity) : ¬ Has {} entity := by
  cases entity with
  | component signature => simp [Has, TypeModel.component?]
  | operation ref => simp [Has, TypeModel.operation?, TypeModel.component?]
  | invocation caller callee =>
    simp [Has, ExecutionModel.entryAt?, ExecutionModel.invocation?]
  | operationDataflow source target =>
    simp [Has, ExecutionModel.entryAt?, ExecutionModel.operationDataflow?]
  | storageDataflow source storage =>
    simp [Has, ExecutionModel.entryAt?, ExecutionModel.storageDataflow?]

/-- Adding an operation makes it and its component known. -/
theorem has_addOperation (models : Models) (now : Instant) (label : String) (ref : OperationRef)
    (entity : Entity) :
    (models.addOperation now label ref).2.Has entity
      ↔ entity = .component ref.component ∨ entity = .operation ref ∨ models.Has entity := by
  have htypes : (models.addOperation now label ref).2.types
      = (models.types.ensureOperation ref).2 := rfl
  have hexecution : (models.addOperation now label ref).2.execution = models.execution := rfl
  cases entity with
  | component signature =>
    simp only [Has, htypes, TypeModel.component?_ensureOperation]
    by_cases hsame : ref.component = signature
    · simp [hsame]
    · simp [hsame, Ne.symm hsame]
  | operation other =>
    simp only [Has, htypes, TypeModel.operation?_ensureOperation]
    by_cases hsame : ref = other
    · simp [hsame]
    · simp [hsame, Ne.symm hsame]
  | invocation | operationDataflow | storageDataflow => simp [Has, hexecution]

end Models

theorem Request.types_perform (request : Request) (models : Models) :
    (request.perform models).2.types = models.types := by
  unfold perform
  cases request.upsert <;> rfl

/-- An upsert makes the entry at its key known. -/
theorem Request.has_perform (request : Request) (models : Models) (entity : Entity) :
    (request.perform models).2.Has entity ↔ entity = request.key ∨ models.Has entity := by
  have htypes := request.types_perform models
  have hentry : ((request.perform models).2.execution.entryAt? entity).isSome
      ↔ entity = request.key ∨ (models.execution.entryAt? entity).isSome := by
    rw [execution_perform, ExecutionModel.entryAt?_apply]
    by_cases hsame : request.upsert.key = entity
    · simp [hsame, key]
    · simp [hsame, Ne.symm hsame, key]
  have hkey : ∀ signature, request.key ≠ .component signature := by
    intro signature
    unfold key
    cases request.upsert <;> simp [Upsert.key]
  have hkey' : ∀ ref, request.key ≠ .operation ref := by
    intro ref
    unfold key
    cases request.upsert <;> simp [Upsert.key]
  cases entity with
  | component signature => simp [Models.Has, htypes, (hkey signature).symm]
  | operation ref => simp [Models.Has, htypes, (hkey' ref).symm]
  | invocation | operationDataflow | storageDataflow => exact hentry

/-- An upsert is credited to its label. -/
theorem Request.sources_perform (request : Request) (models : Models) :
    (request.perform models).2.sources
      = (models.sources.addSource request.now request.key request.label).2 := by
  unfold perform key
  cases request.upsert <;> rfl

end Model

open Model

/-! ## What assemblers do -/

/-- What an assembler may be asked to do: a type assembler to add the operation of a site, and an
execution assembler to account for a call or a dataflow under its label. -/
inductive Job where
  | operation (now : Instant) (assembler : TypeAssembler) (site : Site)
  | account (request : Request)

namespace Job

/-- The label of the assembler. -/
def label : Job → String
  | operation _ assembler _ => assembler.label
  | account request => request.label

/-- Whether an operation is to be added. -/
def isOperation : Job → Bool
  | operation .. => true
  | account _ => false

/-- The entities that the job adds or updates. -/
def entities : Job → List Entity
  | operation _ assembler site =>
    [.component (assembler.extractor.resolve site).component,
      .operation (assembler.extractor.resolve site)]
  | account request => [request.key]

/-- Carries a job out; the flag says whether the operation or the entry is new. -/
def perform : Job → Models → Bool × Models
  | operation now assembler site, models =>
    models.addOperation now assembler.label (assembler.extractor.resolve site)
  | account request, models => request.perform models

/-- Carries jobs out one after the other and collects the answers. -/
def performAll : List Job → Models → List Bool × Models
  | [], models => ([], models)
  | job :: jobs, models =>
    let (created, models) := job.perform models
    let (answers, models) := performAll jobs models
    (created :: answers, models)

/-- The contributions of a job: its entities under its label. -/
def contributions (job : Job) : List (Entity × String) :=
  job.entities.map fun entity => (entity, job.label)

theorem mem_contributions {job : Job} {entity : Entity} {label : String} :
    (entity, label) ∈ job.contributions ↔ job.label = label ∧ entity ∈ job.entities := by
  simp [contributions, and_comm]

/-- **A job adds its entities to the models and no other ones.** -/
theorem has_perform (job : Job) (models : Models) (entity : Entity) :
    (job.perform models).2.Has entity ↔ entity ∈ job.entities ∨ models.Has entity := by
  cases job with
  | operation now assembler site => simp [perform, entities, Models.has_addOperation, or_assoc]
  | account request => simp [perform, entities, Request.has_perform]

/-- **A job is credited to its label, at its entities.** -/
theorem credits_perform {models : Models} {contributions : List (Entity × String)} (job : Job)
    (h : models.sources.Credits contributions) :
    (job.perform models).2.sources.Credits (contributions ++ job.contributions) := by
  cases job with
  | operation now assembler site =>
    have hboth := (h.addSource now (.component (assembler.extractor.resolve site).component)
      assembler.label).addSource now (.operation (assembler.extractor.resolve site)) assembler.label
    rwa [List.append_assoc] at hboth
  | account request =>
    rw [perform, Request.sources_perform]
    exact h.addSource request.now request.key request.label

/-- **Just the new operations add to their number.** -/
theorem operationCount_perform (job : Job) (models : Models) :
    (job.perform models).2.types.operationCount
      = models.types.operationCount + (job.isOperation && (job.perform models).1).toNat := by
  cases job with
  | operation now assembler site =>
    exact TypeModel.operationCount_ensureOperation models.types (assembler.extractor.resolve site)
  | account request =>
    rw [isOperation, Bool.false_and, perform, Request.types_perform]
    rfl

/-! ## What a run of jobs leaves -/

theorem has_performAll (jobs : List Job) (models : Models) (entity : Entity) :
    (performAll jobs models).2.Has entity
      ↔ (∃ job ∈ jobs, entity ∈ job.entities) ∨ models.Has entity := by
  induction jobs generalizing models with
  | nil => simp [performAll]
  | cons job jobs ih =>
    show (performAll jobs (job.perform models).2).2.Has entity ↔ _
    simp [ih, has_perform, or_assoc, or_left_comm]

theorem credits_performAll (jobs : List Job) {models : Models}
    {contributions : List (Entity × String)} (h : models.sources.Credits contributions) :
    (performAll jobs models).2.sources.Credits
      (contributions ++ jobs.flatMap Job.contributions) := by
  induction jobs generalizing models contributions with
  | nil => simpa [performAll] using h
  | cons job jobs ih =>
    rw [List.flatMap_cons, ← List.append_assoc]
    exact ih (credits_perform job h)

/-- How often an operation was added that was not there before. -/
def countNew (jobs : List Job) (answers : List Bool) : Nat :=
  (jobs.zip answers).countP fun item => item.1.isOperation && item.2

theorem countNew_cons (job : Job) (jobs : List Job) (created : Bool) (answers : List Bool) :
    countNew (job :: jobs) (created :: answers)
      = (job.isOperation && created).toNat + countNew jobs answers := by
  rw [countNew, List.zip_cons_cons, List.countP_cons, Nat.add_comm]
  cases job.isOperation && created <;> rfl

theorem operationCount_performAll (jobs : List Job) (models : Models) :
    (performAll jobs models).2.types.operationCount
      = models.types.operationCount + countNew jobs (performAll jobs models).1 := by
  induction jobs generalizing models with
  | nil => rfl
  | cons job jobs ih =>
    show (performAll jobs (job.perform models).2).2.types.operationCount = _ + countNew
      (job :: jobs) ((job.perform models).1 :: (performAll jobs (job.perform models).2).1)
    rw [ih, operationCount_perform, countNew_cons, Nat.add_assoc]

/-- **Provenance is complete and exact.** Whatever assemblers add, under whatever labels, in the end
the source model has an entry for an entity exactly if the type model or the execution model has the
entity, and the entry has exactly the labels of those assemblers that added or updated the entity.
The operations that were new when they were added are as many as the type model counts. -/
theorem provenance_is_exact (jobs : List Job) :
    let answers := (performAll jobs {}).1
    let final := (performAll jobs {}).2
    (∀ entity, (final.sources.provenance? entity).isSome ↔ final.Has entity)
      ∧ (∀ entity entry, final.sources.provenance? entity = some entry →
          ∀ label, label ∈ entry.sources
            ↔ ∃ job ∈ jobs, job.label = label ∧ entity ∈ job.entities)
      ∧ countNew jobs answers = final.types.operationCount := by
  intro answers final
  have hcredits : final.sources.Credits (jobs.flatMap Job.contributions) := by
    have hempty : (Models.sources {}).Credits [] := SourceModel.credits_empty
    exact credits_performAll jobs hempty
  have hmem : ∀ entity label, (entity, label) ∈ jobs.flatMap Job.contributions
      ↔ ∃ job ∈ jobs, job.label = label ∧ entity ∈ job.entities := by
    intro entity label
    simp only [List.mem_flatMap, mem_contributions]
  refine ⟨fun entity => ?_, fun entity entry hentry label => ?_, ?_⟩
  · have hhas : final.Has entity ↔ ∃ job ∈ jobs, entity ∈ job.entities :=
      (has_performAll jobs {} entity).trans (or_iff_left (Models.not_has_empty entity))
    rw [hcredits.isSome_provenance?, hhas]
    simp only [hmem]
    constructor
    · rintro ⟨label, job, hjob, -, hentity⟩
      exact ⟨job, hjob, hentity⟩
    · rintro ⟨job, hjob, hentity⟩
      exact ⟨job.label, job, hjob, rfl, hentity⟩
  · rw [hcredits.mem_sources entity entry hentry, hmem]
  · have hcount : final.types.operationCount = 0 + countNew jobs answers :=
      operationCount_performAll jobs {}
    rw [hcount, Nat.zero_add]

end Job

end CallTrace
