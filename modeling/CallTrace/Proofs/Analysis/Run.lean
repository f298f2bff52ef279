import CallTrace.Proofs.Analysis.Delivery

/-!
# Runs of the standard analysis

A run behind records in memory succeeds. It tells the reconstruction and the type model of every
execution in the window, finishes in the end what traces are left, and has accounted for every call
that the reconstruction has given out (`run_memory`).
-/

namespace CallTrace.Analysis

open Pipeline Model

variable {config : Config} {extractor : Extractor} {progress : Progress}
  {system : System World StandardStage StandardReader}

/-! ## Callbacks outside of deliveries -/

theorem Shows.emitFrom_eq (h : Shows config extractor progress system) (held : List StageId)
    (source : StageId) (output : String) (event : Event) :
    System.emitFrom held source output event system
      = System.broadcast (System.deliver 5 held) source output event system := by
  rw [System.emitFrom, h.pipeline]
  rfl

theorem Shows.callBack {μ : Type} {final : Progress} {id : StageId} {occasion : Occasion}
    {callback : Surroundings → Callback World (Ending × μ)}
    {member : μ → Member StandardStage StandardReader} (after : Progress) (become : μ)
    (h : Shows config extractor progress system)
    (hperform : ∀ surroundings system, Shows config extractor progress system →
      surroundings.isTerminated = progress.frame.isTerminated →
      Shows config extractor after
        (system.perform (callback surroundings) (System.emitFrom [id] id)).2
      ∧ (system.perform (callback surroundings) (System.emitFrom [id] id)).1 = (.returned, become))
    (hbecome : (after.pipeline config extractor).modifySlot id ({ · with member := member become })
      = final.pipeline config extractor)
    (htypes : after.types = final.types) (hexecution : after.execution = final.execution) :
    ∃ next, system.callBack id occasion callback member = (.returned, next)
      ∧ Shows config extractor final next := by
  have hterminated : system.pipeline.isTerminated = progress.frame.isTerminated := by
    rw [h.pipeline]
    rfl
  obtain ⟨hafter, hresult⟩ := hperform (system.surroundings id)
    (system.note (.called { stage := id, occasion, held := [] })) (h.note _) hterminated
  exact ⟨_, System.callBack_eq (Prod.ext hresult rfl) member,
    hafter.setMember hbecome htypes hexecution⟩

/-! ## Start -/

theorem Shows.startMember (h : Shows config extractor progress system) (id : StageId) :
    ∃ next, system.startMember id = (.returned, next) ∧ Shows config extractor progress next := by
  rw [System.startMember, h.pipeline]
  cases hstage : ((progress.pipeline config extractor).slot? id).bind Slot.stage? with
  | none => exact ⟨system, rfl, h⟩
  | some stage =>
    exact h.callBack progress stage (fun _ _ h _ => ⟨h, rfl⟩) (System.modifySlot_eq_self hstage)
      rfl rfl

namespace Progress

/-- The pipeline has other flags. -/
def setFlags (f : Pipeline StandardStage StandardReader → Pipeline StandardStage StandardReader)
    (progress : Progress) : Progress :=
  { progress with frame := f progress.frame }

end Progress

/-- A pipeline that has not been started starts and sends its reader out. -/
theorem Shows.start (h : Shows config extractor progress system)
    (hstarted : progress.frame.isStarted = false) :
    ∃ next, system.start = (.done, next) ∧ Shows config extractor
      (progress.setFlags ({ · with isStarted := true, running := [⟨0⟩] })) next := by
  have hstarted' : ¬ system.pipeline.isStarted := by
    rw [h.pipeline]
    exact Bool.eq_false_iff.mp hstarted
  have hbegun : Shows config extractor (progress.setFlags ({ · with isStarted := true }))
      { system with pipeline := { system.pipeline with isStarted := true } } :=
    ⟨by rw [h.pipeline]; rfl, h.types, h.execution⟩
  obtain ⟨next, hnext, hshows⟩ := System.forMembers_invariant
    ({ system.pipeline with isStarted := true } : Pipeline _ _).order
    (fun id _ system h => h.startMember id) hbegun
  rw [System.start, if_neg hstarted']
  dsimp only
  rw [hnext]
  refine ⟨_, rfl, ?_, hshows.types, hshows.execution⟩
  show { next.pipeline with running := next.readers } = _
  rw [System.readers, hshows.pipeline]
  rfl

/-! ## Reading -/

theorem perform_read {surroundings : Surroundings} (hrunning : surroundings.isTerminated = false)
    (records : List Record)
    (emit : String → Event → System World StandardStage StandardReader →
      Bool × System World StandardStage StandardReader) :
    system.perform (Reader.read surroundings (StandardReader.memory { records })) emit
      = ((.returned, .memory { records := [] }), (system.perform (Callback.sendAll
          (records.map fun record => (MemoryReader.output, .record record))) emit).2) := by
  obtain ⟨stage, isTerminated⟩ := surroundings
  obtain rfl : isTerminated = false := hrunning
  show system.perform ((Callback.sendAll
      (records.map fun record => (MemoryReader.output, Event.record record))
    >>= fun _ => pure (Ending.returned, ({ records := [] } : MemoryReader)))
    >>= fun (ending, reader) => pure (ending, StandardReader.memory reader)) emit = _
  rw [System.perform_bind, System.perform_bind]
  rfl

/-- The reader gives out all of its records. -/
theorem Shows.perform_records (h : Shows config extractor progress system)
    (records : List Record) :
    Shows config extractor (progress.observe extractor (executionsIn config.window records))
      (system.perform
        (Callback.sendAll (records.map fun record => (MemoryReader.output, .record record)))
        (System.emitFrom [⟨0⟩] ⟨0⟩)).2 := by
  induction records generalizing progress system with
  | nil => exact h
  | cons record records ih =>
    have hfirst : Shows config extractor
        (progress.observe extractor (executionsIn config.window [record]))
        (System.emitFrom [⟨0⟩] ⟨0⟩ MemoryReader.output (.record record) system).2 := by
      have hheard := h.broadcast_eq ⟨0⟩ (.output MemoryReader.output [.monitoringRecord])
        (.record record) (by cases record <;> rfl)
      rw [h.emitFrom_eq]
      refine (hheard _).symm ▸ (h.note _).deliver_filter ?_ record
      intro id hid
      simpa using Nat.ne_of_gt hid
    rw [show record :: records = [record] ++ records from rfl, executionsIn_append,
      Progress.observe_append]
    exact ih hfirst

theorem Shows.runReader (h : Shows config extractor progress system)
    (hrunning : progress.frame.isTerminated = false) :
    ∃ next, system.runReader ⟨0⟩ = (none, next) ∧ Shows config extractor
      { progress.observe extractor (executionsIn config.window progress.unread) with unread := [] }
      next := by
  have hread : ∃ next, system.callBack ⟨0⟩ .read
      (Reader.read · (StandardReader.memory { records := progress.unread })) .reader
        = (.returned, next)
      ∧ Shows config extractor
        { progress.observe extractor (executionsIn config.window progress.unread) with
          unread := [] } next := by
    refine h.callBack (progress.observe extractor (executionsIn config.window progress.unread))
      (.memory { records := [] }) ?_ rfl rfl rfl
    intro surroundings system h hsame
    rw [perform_read (hsame.trans hrunning)]
    exact ⟨h.perform_records progress.unread, rfl⟩
  obtain ⟨next, hnext, hshows⟩ := hread
  obtain ⟨subscribers, hslot⟩ : ∃ subscribers, system.pipeline.slot? ⟨0⟩
      = some ⟨MemoryReader.name, MemoryReader.ports,
        .reader (.memory { records := progress.unread }), false, subscribers⟩ := by
    rw [h.pipeline]
    exact ⟨_, rfl⟩
  refine ⟨next, ?_, hshows⟩
  rw [System.runReader, hslot]
  dsimp only
  rw [hnext]

/-- A reader that is waited for gives out what it holds, unless the pipeline has terminated. -/
theorem Shows.join (h : Shows config extractor progress system)
    (hrunning : progress.frame.running = [⟨0⟩])
    (hterminated : progress.frame.isTerminated = false) :
    ∃ next, system.join = (.done, next) ∧ Shows config extractor
      { (progress.observe extractor (executionsIn config.window progress.unread)).setFlags
          ({ · with running := [] }) with unread := [] } next := by
  have hwaiting : Shows config extractor (progress.setFlags ({ · with running := [] }))
      { system with pipeline := { system.pipeline with running := [] } } :=
    ⟨by rw [h.pipeline]; rfl, h.types, h.execution⟩
  have hreaders : system.pipeline.running = [⟨0⟩] := by
    rw [h.pipeline]
    exact hrunning
  obtain ⟨next, hnext, hshows⟩ := hwaiting.runReader hterminated
  refine ⟨next, ?_, hshows⟩
  simp only [System.join, hreaders, System.joinAll, hnext]
  rfl

/-! ## Termination -/

/-- No other member than the reconstruction has anything left to do. -/
theorem Shows.terminateMember (h : Shows config extractor progress system) {id : StageId}
    (hid : id ∈ [⟨0⟩, ⟨1⟩, ⟨3⟩, (⟨4⟩ : StageId)]) :
    ∃ next, system.terminateMember id = (.returned, next)
      ∧ Shows config extractor progress next := by
  rw [System.terminateMember, h.pipeline]
  simp only [List.mem_cons, List.not_mem_nil, or_false] at hid
  rcases hid with rfl | rfl | rfl | rfl
  · exact h.callBack progress (.memory { records := progress.unread }) (fun _ _ h _ => ⟨h, rfl⟩)
      rfl rfl rfl
  · exact h.callBack progress (.filter (.ofConfig config.window)) (fun _ _ h _ => ⟨h, rfl⟩)
      rfl rfl rfl
  · exact h.callBack progress (.types { extractor, label := config.label })
      (fun _ _ h _ => ⟨h, rfl⟩) rfl rfl rfl
  · exact h.callBack progress (.execution { extractor, label := config.label })
      (fun _ _ h _ => ⟨h, rfl⟩) rfl rfl rfl

theorem Shows.terminateMembers (h : Shows config extractor progress system) (ids : List StageId)
    (hids : ∀ id ∈ ids, id ∈ [⟨0⟩, ⟨1⟩, ⟨3⟩, (⟨4⟩ : StageId)]) :
    ∃ next, System.forMembers System.terminateMember ids system = (true, next)
      ∧ Shows config extractor progress next :=
  System.forMembers_invariant ids (fun id hid _ h => h.terminateMember (hids id hid)) h

/-- The reconstruction finishes what traces are left. -/
theorem Shows.terminateMember_reconstruction (h : Shows config extractor progress system) :
    ∃ next, system.terminateMember ⟨2⟩ = (.returned, next)
      ∧ Shows config extractor (progress.advance extractor (·.close)) next := by
  rw [System.terminateMember, h.pipeline]
  refine h.callBack (progress.addCalls extractor
      (TraceReconstruction.callsIn progress.reconstruction.close.1))
    (StandardStage.reconstruction progress.reconstruction.close.2) ?_ rfl rfl rfl
  intro surroundings system h _
  have hperform := perform_lift_sendAll system progress.reconstruction.close.1
    progress.reconstruction.close.2
  have hemit := fun progress (system : System World StandardStage StandardReader)
    (h : Shows config extractor progress system) => h.emitFrom_eq [⟨2⟩] ⟨2⟩
  exact hperform _ ▸ ⟨h.perform_outputs (by decide) hemit _, rfl⟩

/-- A pipeline that is terminated for the first time tells its members. -/
theorem Shows.terminate (h : Shows config extractor progress system)
    (hopen : progress.frame.isClosed = false) :
    ∃ next, system.terminate = (.done, next) ∧ Shows config extractor
      ((progress.advance extractor (·.close)).setFlags
        ({ · with isTerminated := true, isClosed := true })) next := by
  have hopen' : ¬ system.pipeline.isClosed := by
    rw [h.pipeline]
    exact Bool.eq_false_iff.mp hopen
  generalize hbegun : ({ system with pipeline :=
    { system.pipeline with isTerminated := true, isClosed := true } } :
      System World StandardStage StandardReader) = begun
  have hshows : Shows config extractor
      (progress.setFlags ({ · with isTerminated := true, isClosed := true })) begun := by
    subst hbegun
    exact ⟨by rw [h.pipeline]; rfl, h.types, h.execution⟩
  have heq : system.terminate
      = (if (System.forMembers System.terminateMember begun.pipeline.order begun).1 then .done
          else .panicked,
        (System.forMembers System.terminateMember begun.pipeline.order begun).2) := by
    subst hbegun
    exact if_neg hopen'
  -- the reconstruction gives its last traces out before the stages that it feeds are told
  have horder : begun.pipeline.order = [⟨0⟩, ⟨1⟩] ++ ([⟨2⟩] ++ [⟨3⟩, ⟨4⟩]) := by
    rw [hshows.pipeline]
    rfl
  obtain ⟨first, hfirst, hshows⟩ := hshows.terminateMembers [⟨0⟩, ⟨1⟩] (by decide)
  obtain ⟨second, hsecond, hshows⟩ := hshows.terminateMember_reconstruction
  obtain ⟨third, hthird, hshows⟩ := hshows.terminateMembers [⟨3⟩, ⟨4⟩] (by decide)
  have hclosed : System.forMembers System.terminateMember [⟨2⟩] first = (true, second) := by
    rw [System.forMembers, hsecond]
    rfl
  refine ⟨third, ?_, hshows⟩
  rw [heq, horder, System.forMembers_append hfirst, System.forMembers_append hclosed, hthird]
  rfl

/-! ## Runs -/

/-- What the reconstruction of an analysis gives out. -/
def outputs (config : Config) (records : List Record) : List TraceReconstruction.Output :=
  let run := (TraceReconstruction.ofConfig config.reconstruction).onExecutions
    (executionsIn config.window records)
  run.1 ++ run.2.close.1

/-- **What a run comes to.** -/
theorem run_memory (config : Config) (extractor : Extractor) (records : List Record)
    (now : Instant) :
    ∃ models, run config extractor (.memory { records }) now = .ok (.done, models)
      ∧ models.types = TypeModel.ensureAll {}
        (Progress.operations extractor (executionsIn config.window records))
      ∧ models.execution = ExecutionModel.addAll {}
        ((TraceReconstruction.callsIn (outputs config records)).map
          (Progress.resolveCall extractor)) := by
  let progress : Progress :=
    { unread := records, reconstruction := .ofConfig config.reconstruction }
  have hbegin : Shows config extractor progress
      { pipeline := progress.pipeline config extractor, world := { now } } := ⟨rfl, rfl, rfl⟩
  obtain ⟨started, hstart, hshows⟩ := hbegin.start rfl
  obtain ⟨joined, hjoin, hshows⟩ := hshows.join rfl rfl
  obtain ⟨ended, hend, hshows⟩ := hshows.terminate rfl
  refine ⟨ended.world.models, ?_, hshows.types, hshows.execution.trans ?_⟩
  · have hrun : ({ pipeline := progress.pipeline config extractor, world := { now } } :
        System World StandardStage StandardReader).run = (.done, ended) := by
      rw [System.run, hstart]
      dsimp only
      rw [hjoin]
      dsimp only
      rw [hend]
    rw [run, pipeline_eq]
    exact congrArg (fun result => Except.ok (result.1, result.2.world.models)) hrun
  · rw [outputs, TraceReconstruction.callsIn_append, List.map_append]
    exact (List.foldl_append ..).symm

end CallTrace.Analysis
