import CallTrace.Proofs.Analysis.Run

/-!
# The models of an analysis

What the standard analysis makes of records can be said without the pipeline: the type model knows
the operations of all executions in the window, and the execution model accounts for the calls of
all traces whose executions, taken together, form a tree (`analysis_computes_models`). The
assumptions are that durations fit into their type and that no trace falls behind while it goes on.
-/

namespace CallTrace.Analysis

open Pipeline Model

/-- The calls of all trees among executions: the operations at both ends and the time spent in the
callee. -/
def observedCalls (extractor : Extractor) (executions : List Execution) : List (Edge × Int) :=
  (Trace.allOf (executions.filter (·.isCorrelated))).flatMap fun trace =>
    trace.pairs.map fun (caller, callee) =>
      (⟨extractor.resolve caller.site, extractor.resolve callee.site⟩, callee.nanos)

/-- A call as the execution model counts it. -/
def counted (extractor : Extractor) (call : Call) : Edge × Int :=
  (⟨extractor.resolve call.caller, extractor.resolve call.callee⟩, call.duration.toInt)

theorem map_counted_calls {extractor : Extractor} {executions : List Execution}
    (hfits : ∀ e ∈ executions, FitsInt64 (e.tout.toInt - e.tin.toInt)) :
    ((Trace.allOf (executions.filter (·.isCorrelated))).flatMap Trace.calls).map
        (counted extractor)
      = observedCalls extractor executions := by
  rw [observedCalls, List.map_flatMap]
  refine List.flatMap_congr fun trace htrace => ?_
  rw [Trace.calls_eq_map_pairs, List.map_map]
  refine List.map_congr_left fun (caller, callee) hpair => ?_
  have hcallee : callee ∈ executions := List.mem_of_mem_filter
    (Trace.mem_of_mem_allOf htrace (Trace.mem_executions_of_mem_pairs hpair))
  exact Prod.ext rfl (Execution.toInt_duration (hfits callee hcallee))

/-- An execution model that has been told of calls, and of nothing else, accounts for them. -/
theorem accounts_of_calls {extractor : Extractor} {model : ExecutionModel} {calls : List Call}
    (hmodel : model = .addAll {} (calls.map (Progress.resolveCall extractor)))
    (hcalls : ∀ call ∈ calls, 0 ≤ call.duration.toInt) :
    model.Accounts (calls.map (counted extractor)) := by
  have hresolved : ∀ resolved ∈ calls.map (Progress.resolveCall extractor),
      0 ≤ resolved.2.toInt := by
    intro resolved hmem
    obtain ⟨call, hcall, rfl⟩ := List.mem_map.mp hmem
    exact hcalls call hcall
  have haccounts := ExecutionModel.accounts_addAll _ hresolved
  rwa [← hmodel, List.map_map] at haccounts

/-- **The standard analysis computes its models as specified**, whatever the order in which the
executions of the traces arrive. -/
theorem analysis_computes_models (config : Config) (extractor : Extractor) (records : List Record)
    (now : Instant) (hsettles : config.reconstruction.settles = true)
    (hfits : ∀ e ∈ executionsIn config.window records, FitsInt64 (e.tout.toInt - e.tin.toInt))
    (htimely : StaysTimely (config.reconstruction.maxDurationMillis.toNat * 1000000)
      ((executionsIn config.window records).filter (·.isCorrelated))) :
    ∃ models, run config extractor (.memory { records }) now = .ok (.done, models)
      ∧ models.types.Holds ((executionsIn config.window records).map fun e =>
        extractor.resolve e.site)
      ∧ models.execution.Accounts
        (observedCalls extractor (executionsIn config.window records)) := by
  obtain ⟨models, hrun, htypes, hexecution⟩ := run_memory config extractor records now
  refine ⟨models, hrun, htypes ▸ TypeModel.holds_ensureAll _, ?_⟩
  have hperm := TraceReconstruction.calls_perm hsettles htimely
  have hnonneg : ∀ call ∈ TraceReconstruction.callsIn (outputs config records),
      0 ≤ call.duration.toInt := by
    intro call hcall
    obtain ⟨trace, _, hcalls⟩ := List.mem_flatMap.mp (hperm.mem_iff.mp hcall)
    rw [Trace.calls_eq_map_pairs] at hcalls
    obtain ⟨pair, _, rfl⟩ := List.mem_map.mp hcalls
    exact pair.2.duration_nonneg
  rw [← map_counted_calls hfits]
  exact (accounts_of_calls hexecution hnonneg).of_perm (hperm.map _)

/-- Two traces that arrive interleaved, each from the inside out, and an execution of no trace. -/
def interleaved : List Record := [
  .execution ⟨"Store", "load()", noSession, 1, 10, 30, "h", 1, 1⟩,
  .execution ⟨"Store", "load()", noSession, 2, 20, 50, "h", 1, 1⟩,
  .execution ⟨"Timer", "tick()", noSession, noTrace, 55, 60, "h", unset, unset⟩,
  .execution ⟨"Shop", "buy()", noSession, 1, 0, 70, "h", 0, 0⟩,
  .execution ⟨"Shop", "buy()", noSession, 2, 15, 80, "h", 0, 0⟩]

theorem analysis_of_interleaved :
    ∃ models, run {} .identity (.memory { records := interleaved }) default = .ok (.done, models)
      ∧ models.types.Holds [⟨"Store", "load()"⟩, ⟨"Store", "load()"⟩, ⟨"Timer", "tick()"⟩,
        ⟨"Shop", "buy()"⟩, ⟨"Shop", "buy()"⟩]
      ∧ models.execution.Accounts (observedCalls .identity (executionsIn {} interleaved)) :=
  analysis_computes_models {} .identity interleaved default rfl (by decide) (by decide)

end CallTrace.Analysis
