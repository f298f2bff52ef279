import CallTrace.Proofs.Analysis.Models
import CallTrace.Proofs.Analysis.Readers
import CallTrace.Proofs.Model.Integrity
import CallTrace.Proofs.Stages.Conservation

/-!
# The models of an analysis fit together

A call leaves the reconstruction long after its executions have reached the type model, or, where
complete traces do not wait, just before the last of them does. Either way both ends of it are among
the executions that have arrived (`ends_of_mem_calls`), and whenever an emission of the reader is
over, both branches of the pipeline have seen the same executions. So between the emissions and in
the end the models are consistent (`models_stay_consistent`).
-/

namespace CallTrace

open Pipeline Model
open Trace (executionsOf)

/-! ## The ends of calls -/

namespace Trace

theorem mem_executions_of_mem_pairs_caller {trace : Trace} {pair : Execution × Execution}
    (h : pair ∈ trace.pairs) : pair.1 ∈ trace.executions := by
  obtain ⟨⟨callee, index⟩, _, hpair⟩ := List.mem_filterMap.mp h
  obtain ⟨caller, hcaller, rfl⟩ := Option.map_eq_some_iff.mp hpair
  obtain ⟨parent, _, hparent⟩ := Option.bind_eq_some_iff.mp hcaller
  exact List.mem_of_getElem? hparent

end Trace

namespace TraceReconstruction

variable {stage : TraceReconstruction} {received executions : List Execution}
  {finished : List Group} {emitsInvalid : Bool} {call : Call}

theorem Group.ends_of_mem_calls {group : Group} (h : call ∈ callsIn (group.outputs emitsInvalid)) :
    ∃ caller ∈ executionsOf group.id group.executions,
      ∃ callee ∈ executionsOf group.id group.executions,
        call = Trace.callOf group.id (caller, callee) := by
  unfold Group.outputs at h
  split at h
  · next trace hbuilt =>
    rw [callsIn, List.filterMap_cons_none rfl, List.filterMap_map] at h
    obtain ⟨given, hgiven, heq⟩ := List.mem_filterMap.mp h
    obtain rfl : given = call := Option.some.inj heq
    have hbuilds := Trace.builds_of_reconstruct hbuilt
    have hmem : ∀ e ∈ trace.executions, e ∈ executionsOf group.id group.executions := by
      intro e he
      rw [hbuilds.executions_eq, Trace.inEntryOrder, List.mem_mergeSort] at he
      exact List.mem_filter.mpr ⟨he, decide_eq_true (hbuilds.traceId e he)⟩
    rw [Trace.calls_eq_map_pairs, hbuilds.id_eq] at hgiven
    obtain ⟨pair, hpair, rfl⟩ := List.mem_map.mp hgiven
    exact ⟨pair.1, hmem _ (Trace.mem_executions_of_mem_pairs_caller hpair), pair.2,
      hmem _ (Trace.mem_executions_of_mem_pairs hpair), rfl⟩
  · split at h
    · rw [callsIn, List.filterMap_map] at h
      obtain ⟨e, _, heq⟩ := List.mem_filterMap.mp h
      cases heq
    · cases h

/-- What was finished had been received. -/
theorem Accounts.mem_received (h : stage.Accounts received finished) {group : Group}
    (hgroup : group ∈ finished) {e : Execution} (he : e ∈ group.executions) : e ∈ received := by
  have hmem : e ∈ Trace.executionsOf e.traceId received := by
    rw [← h.balance e.traceId, Trace.executionsOf]
    refine List.mem_append_left _ (List.mem_filter.mpr ⟨?_, decide_eq_true rfl⟩)
    exact List.mem_flatMap.mpr ⟨group, hgroup, he⟩
  exact List.mem_of_mem_filter hmem

/-- Executions are handled like the events that report them. -/
theorem exists_runs_onExecutions (stage : TraceReconstruction) (executions : List Execution) :
    ∃ left, Runs stage (executions.map fun e => .record (.execution e))
      (stage.onExecutions executions).1 left (stage.onExecutions executions).2 := by
  induction executions generalizing stage with
  | nil => exact ⟨0, .nil⟩
  | cons e executions ih =>
    obtain ⟨count, hlater⟩ := ih (stage.onExecution e).2
    obtain ⟨left, hfirst⟩ : ∃ left, Handles stage (.record (.execution e))
        (stage.onExecution e).1 left (stage.onExecution e).2 := by
      by_cases hcorrelated : e.isCorrelated
      · refine ⟨(stage.accept e).pending.size - (stage.onExecution e).2.pending.size, ?_⟩
        rw [onExecution, if_pos hcorrelated]
        exact .collected hcorrelated rfl (.refl _) rfl
      · refine ⟨0, ?_⟩
        rw [onExecution, if_neg hcorrelated]
        refine .ignored fun other hother => ?_
        obtain rfl : e = other := Option.some.inj hother
        exact hcorrelated
    exact ⟨_, .cons hfirst hlater⟩

theorem receivedFrom_executions (executions : List Execution) :
    receivedFrom (executions.map fun e => .record (.execution e))
      = executions.filter (·.isCorrelated) := by
  rw [receivedFrom, List.filterMap_map]
  exact congrArg _ (List.filterMap_some)

/-- **Both ends of a call are among the executions of its trace that have arrived**, whether it is
given out on the way or in the end. -/
theorem ends_of_mem_calls (config : Config.Reconstruction) (executions : List Execution)
    (h : call ∈ callsIn (((ofConfig config).onExecutions executions).1
      ++ ((ofConfig config).onExecutions executions).2.close.1)) :
    ∃ id, ∃ caller ∈ executionsOf id executions, ∃ callee ∈ executionsOf id executions,
      call = Trace.callOf id (caller, callee) := by
  obtain ⟨left, hruns⟩ := exists_runs_onExecutions (ofConfig config) executions
  obtain ⟨groups, haccounts, hemits, houtputs, -⟩ := hruns.accounts (accounts_ofWindow _ _ _)
  obtain ⟨last, hlast⟩ := exists_leaves_releaseAll ((ofConfig config).onExecutions executions).2
    ((ofConfig config).onExecutions executions).2.pending.keys
  have hall := hlast.accounts _ _ haccounts
  rw [houtputs, close, hlast.outputs_eq, hemits, ← List.flatMap_append, callsIn,
    List.filterMap_flatMap] at h
  obtain ⟨group, hgroup, hcall⟩ := List.mem_flatMap.mp h
  obtain ⟨caller, hcaller, callee, hcallee, rfl⟩ := Group.ends_of_mem_calls hcall
  have hreceived : ∀ e ∈ executionsOf group.id group.executions,
      e ∈ executionsOf group.id executions := by
    intro e he
    obtain ⟨he, htrace⟩ := List.mem_filter.mp he
    have hmem := hall.mem_received hgroup he
    rw [List.nil_append, receivedFrom_executions] at hmem
    exact List.mem_filter.mpr ⟨List.mem_of_mem_filter hmem, htrace⟩
  exact ⟨group.id, caller, hreceived caller hcaller, callee, hreceived callee hcallee, rfl⟩

end TraceReconstruction

/-- Both signatures of an operation are normalized. -/
theorem Extractor.isSignature_resolve (extractor : Extractor) (site : Site) :
    IsSignature (extractor.resolve site).component
      ∧ IsSignature (extractor.resolve site).operation := by
  simp only [resolve, isSignature_normalize, and_self]

/-! ## Runs -/

namespace Analysis

/-- The models of executions that have arrived are consistent, whatever part of the calls among them
has been given out. -/
theorem isConsistent_of_executions {extractor : Extractor} {executions : List Execution}
    {calls : List Call} {models : Models}
    (htypes : models.types = .ensureAll {} (Progress.operations extractor executions))
    (hexecution : models.execution = .addAll {} (calls.map (Progress.resolveCall extractor)))
    (hends : ∀ call ∈ calls, ∃ id, ∃ caller ∈ executionsOf id executions,
      ∃ callee ∈ executionsOf id executions, call = Trace.callOf id (caller, callee)) :
    models.IsConsistent := by
  have hknown : ∀ id, ∀ e ∈ executionsOf id executions,
      extractor.resolve e.site ∈ Progress.operations extractor executions :=
    fun id e he => List.mem_map_of_mem (List.mem_of_mem_filter he)
  refine Models.isConsistent_of_calls htypes hexecution ?_ ?_ ?_
  · intro ref href
    obtain ⟨e, _, rfl⟩ := List.mem_map.mp href
    exact extractor.isSignature_resolve e.site
  · intro resolved hresolved
    obtain ⟨call, hcall, rfl⟩ := List.mem_map.mp hresolved
    obtain ⟨id, caller, _, callee, _, rfl⟩ := hends call hcall
    exact callee.duration_nonneg
  · intro resolved hresolved
    obtain ⟨call, hcall, rfl⟩ := List.mem_map.mp hresolved
    obtain ⟨id, caller, hcaller, callee, hcallee, rfl⟩ := hends call hcall
    exact ⟨hknown id caller hcaller, hknown id callee hcallee⟩

/-- **The models fit together whenever the reader has given something out, and in the end.** The
standard pipeline may have any configuration and any reader, and what the reader gives out may be
anything. -/
theorem models_stay_consistent {config : Config} {extractor : Extractor} {reader : StandardReader}
    {built : Members × Pipeline StandardStage StandardReader}
    (h : pipeline id config extractor reader = .ok built) (now : Instant) (queues : List Queue) :
    let begun : System World StandardStage StandardReader :=
      { pipeline := built.2, world := { now, queues } }
    (∀ pause ∈ begun.runPauses, pause.world.models.IsConsistent)
      ∧ begun.run.2.world.models.IsConsistent := by
  intro begun
  obtain ⟨hfits, hbuilt⟩ := pipeline_of_eq_ok h
  let progress : Progress :=
    { unread := [], reconstruction := .ofConfig config.reconstruction }
  have hstands : Stands config extractor (portOf reader) progress begun :=
    ⟨{ pipeline := progress.pipeline config extractor, world := { now, queues } },
      frontOf reader (portOf reader), ⟨rfl, rfl, rfl⟩, feeds_frontOf reader,
      ⟨hbuilt, rfl, ⟨_, rfl, rfl⟩, rfl⟩⟩
  obtain ⟨hpauses, records, htypes, hexecution⟩ := hstands.run hfits rfl rfl
  constructor
  · intro pause hpause
    obtain ⟨records, htypes, hexecution⟩ := hpauses pause hpause
    refine isConsistent_of_executions htypes hexecution fun call hcall => ?_
    refine TraceReconstruction.ends_of_mem_calls config.reconstruction _ ?_
    rw [TraceReconstruction.callsIn_append]
    exact List.mem_append_left _ hcall
  · refine isConsistent_of_executions htypes (hexecution.trans ?_)
      fun call hcall => TraceReconstruction.ends_of_mem_calls config.reconstruction _ hcall
    rw [TraceReconstruction.callsIn_append, List.map_append]
    exact (List.foldl_append ..).symm

/-- Two traces that arrive interleaved, one record at a time. -/
theorem models_stay_consistent_interleaved :
    let config : Config := { reconstruction := { settles := false } }
    let reader : StandardReader := .memory { records := interleaved }
    ∃ built, pipeline id config .identity reader = .ok built
      ∧ let begun : System World StandardStage StandardReader :=
          { pipeline := built.2, world := { now := default } }
        begun.runPauses.length = 5 ∧ (∀ pause ∈ begun.runPauses, pause.world.models.IsConsistent)
          ∧ begun.run.2.world.models.IsConsistent :=
  ⟨_, pipeline_eq _ _ _, length_runPauses _ _ interleaved _,
    models_stay_consistent (pipeline_eq _ _ _) default []⟩

end Analysis

end CallTrace
