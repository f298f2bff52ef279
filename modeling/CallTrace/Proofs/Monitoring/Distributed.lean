import CallTrace.Proofs.Monitoring.Recording

/-!
# Distributed traces

Where remote calls return, nothing is lost (`Settled`): the indices of the calls that a program
makes count up in the order of their entries, on whatever threads the calls run and however they
end. So each call has its one record with its index and depth (`Describes`), and the records of all
controllers give the call tree back (`distributed_trace_reconstructs`).
-/

namespace CallTrace.Monitoring

variable {n : Nat}

/-! ## Reports of calls -/

/-- The report of a call: its controller has written an execution of the operation, with the index
and the depth of the call. -/
structure IsReportOf (host : Fin n → String) (traceId : Int64) (call : (Callee n × Nat) × Nat)
    (report : Fin n × Execution) : Prop where
  controller : report.1 = call.1.1.controller
  component : report.2.component = call.1.1.component
  operation : report.2.operation = call.1.1.operation
  host : report.2.host = host call.1.1.controller
  traceId : report.2.traceId = traceId
  eoi : report.2.eoi = .ofNat call.2
  ess : report.2.ess = .ofNat call.1.2

/-- The reports are those of the calls, which have indices from a start on. -/
def Describes (host : Fin n → String) (traceId : Int64) (start : Nat)
    (calls : List (Callee n × Nat)) (reports : List (Fin n × Execution)) : Prop :=
  List.Forall₂ (IsReportOf host traceId) (calls.zipIdx start) reports

variable {host : Fin n → String} {traceId : Int64}

theorem Describes.append {start : Nat} {calls more : List (Callee n × Nat)}
    {reports others : List (Fin n × Execution)} (h : Describes host traceId start calls reports)
    (h' : Describes host traceId (start + calls.length) more others) :
    Describes host traceId start (calls ++ more) (reports ++ others) := by
  rw [Describes, List.zipIdx_append]
  exact List.rel_append h h'

theorem Describes.length_eq {start : Nat} {calls : List (Callee n × Nat)}
    {reports : List (Fin n × Execution)} (h : Describes host traceId start calls reports) :
    reports.length = calls.length := by
  rw [← List.Forall₂.length_eq h, List.length_zipIdx]

/-- The records of settled calls have indices that count up in the order of the entries. -/
theorem describes_recorded (setting : Setting n) (place : Place)
    {calls : CallForest (MadeCall n)} (h : Settled calls) :
    Describes setting.host setting.traceId place.eoi
      ((calls.map MadeCall.toCallee).placed place.ess) (recorded setting place calls).entries := by
  induction calls generalizing place with
  | none => exact List.Forall₂.nil
  | call made inner later ihInner ihLater =>
    obtain ⟨hmade, hinner, hlater⟩ := h
    have hnext : (place.after (.call made inner .none)).eoi
        = place.eoi + 1 + ((inner.map MadeCall.toCallee).placed (place.ess + 1)).length := by
      rw [CallForest.length_placed, CallForest.size_map, ← reached_of_settled hinner,
        ← resumed_of_settled hmade]
      rfl
    rw [CallForest.map, CallForest.placed, Describes, List.zipIdx_cons]
    refine List.Forall₂.cons ⟨rfl, rfl, rfl, rfl, rfl, rfl, rfl⟩ ?_
    refine Describes.append (ihInner (place.enter made) hinner) ?_
    rw [← hnext]
    exact ihLater (place.after (.call made inner .none)) hlater

/-- The records of a call that opens a trace, and of the settled calls below it. Whether the call
itself could be made remotely makes no difference. -/
theorem describes_root (setting : Setting n) (place : Place) (root : Callee n)
    {calls : CallForest (MadeCall n)} (h : Settled calls) :
    Describes setting.host setting.traceId place.eoi
      ((CallForest.call root (calls.map MadeCall.toCallee) .none).placed place.ess)
      (recorded setting place (.call (.root root) calls .none)).entries := by
  have hsettled : Settled (.call (.root root) calls .none) := ⟨nofun, h, trivial⟩
  have hall := describes_recorded setting place hsettled
  rw [CallForest.map, CallForest.placed, Describes, List.zipIdx_cons] at hall
  cases hall with
  | cons hroot hrest =>
    refine .cons ?_ hrest
    exact ⟨hroot.controller, hroot.component, hroot.operation, hroot.host, hroot.traceId,
      hroot.eoi, hroot.ess⟩

/-! ## Whole traces -/

theorem map_eq_of_forall₂ {γ δ ε : Type} {r : γ → δ → Prop} {f : γ → ε} {g : δ → ε}
    (hr : ∀ a b, r a b → f a = g b) {as : List γ} {bs : List δ} (h : List.Forall₂ r as bs) :
    as.map f = bs.map g := by
  induction h with
  | nil => rfl
  | cons hab _ ih => rw [List.map_cons, List.map_cons, hr _ _ hab, ih]

/-- Reports that describe a tree from index zero on carry the indices and depths of the tree. -/
theorem Describes.numbers {tree : CallForest (Callee n)} {reports : List (Fin n × Execution)}
    (h : Describes host traceId 0 (tree.placed 0) reports) :
    Trace.Numbers tree traceId (reports.map Prod.snd) := by
  refine ⟨?_, ?_, ?_⟩
  · intro e he
    obtain ⟨report, hreport, rfl⟩ := List.mem_map.mp he
    have hids := map_eq_of_forall₂ (f := fun _ => traceId)
      (fun _ report (hr : IsReportOf host traceId _ report) => hr.traceId.symm) h
    have : report.2.traceId ∈ (((tree.placed 0).zipIdx 0).map fun _ => traceId) := by
      rw [hids]
      exact List.mem_map_of_mem hreport
    simpa using (List.mem_map.mp this).choose_spec.2.symm
  · have heois := map_eq_of_forall₂ (f := fun call => Int32.ofNat call.2)
      (fun _ report (hr : IsReportOf host traceId _ report) => hr.eoi.symm) h
    rw [List.map_map, List.length_map, h.length_eq, List.range_eq_range', ← List.zipIdx_map_snd,
      List.map_map]
    exact heois.symm
  · have hesss := map_eq_of_forall₂ (f := fun call => Int32.ofNat call.1.2)
      (fun _ report (hr : IsReportOf host traceId _ report) => hr.ess.symm) h
    rw [List.map_map]
    refine hesss.symm.trans ?_
    conv_rhs => rw [← List.zipIdx_map_fst 0 (tree.placed 0), List.map_map]
    rfl

/-- Executions that make up the records of all controllers are those of the reports. -/
theorem perm_of_written {reports : List (Fin n × Execution)} {written : Fin n → List Record}
    (hwritten : ∀ k, (written k).Perm (reportsOf k reports)) {all : List Execution}
    (hall : (all.map Record.execution).Perm ((List.finRange n).flatMap written)) :
    all.Perm (reports.map Prod.snd) := by
  have hrecords : (all.map Record.execution).Perm
      ((reports.map Prod.snd).map Record.execution) := by
    rw [List.map_map]
    exact hall.trans
      ((List.Perm.flatMap_left _ fun k _ => hwritten k).trans (flatMap_reportsOf reports))
  have hback : ∀ l : List Execution, (l.map Record.execution).filterMap Record.execution? = l := by
    intro l
    rw [List.filterMap_map]
    exact List.filterMap_some
  have hall' := hrecords.filterMap Record.execution?
  rwa [hback, hback] at hall'

variable {ω : Type} [RecordWriter ω]

/--
**A distributed trace is put together again.** A call of which the parts are local calls that may
panic and be caught, and remote calls that return, runs outside all traces and opens one. Then each
call has one record, written by its controller; the records carry the id of the trace, and the
call with index `i` at depth `d` has the order index `i` and the stack size `d`; all threads are
left without a trace; and the records of all controllers together, in whatever order, are put
together to the tree of the calls.
-/
theorem distributed_trace_reconstructs (R : Reliable ω) (root : Callee n) (body : Program n)
    (process : Process ω Notes n) (hready : Ready R process)
    (hcontext : process.thread.context = .unset)
    (hid : 0 ≤ (process.controller root.controller).ids.next) (hremotes : body.RemotesReturn)
    (hcount : (CallForest.call root body.outcome.calls .none).size < 2 ^ 31) :
    let tree := CallForest.call root body.outcome.calls .none
    let traceId := (process.controller root.controller).ids.next
    let run := Code.monitor root.controller root.component root.operation body.run process
    ∃ (reports : List (Fin n × Execution)) (written : Fin n → List Record),
      run.1 = (if body.outcome.isPanic then .error () else .ok ())
      ∧ Describes (fun k => (process.controller k).host) traceId 0 (tree.placed 0) reports
      ∧ (∀ k, R.records (run.2.controller k).writer
            = R.records (process.controller k).writer ++ written k
          ∧ (written k).Perm (reportsOf k reports))
      ∧ run.2.thread.context = .unset
      ∧ run.2.memory.left
        = List.replicate (remotes body.outcome.calls) .unset ++ process.memory.left
      ∧ ∀ all : List Execution,
          (all.map Record.execution).Perm ((List.finRange n).flatMap written) →
          Trace.reconstruct traceId all = .ok {
            id := traceId
            executions := reports.map Prod.snd
            parents := tree.parents none 0 } := by
  intro tree traceId run
  have hnonneg : ¬ (process.controller root.controller).ids.next < 0 := Int64.not_lt.mpr hid
  have hsize : body.made.size = body.outcome.calls.size := by
    rw [← body.map_made, CallForest.size_map]
  rw [CallForest.size_call] at hcount
  obtain ⟨after, hrun, hleft, hwrites, hmemory⟩ :=
    root_records root body hready hcontext hnonneg (hsize ▸ hcount)
  let made := recorded (.ofProcess process traceId hnonneg) (.ofProcess process)
    (.call (.root root) body.made .none)
  have hdescribes : Describes (fun k => (process.controller k).host) traceId 0 (tree.placed 0)
      made.entries := by
    have hroot := describes_root (.ofProcess process traceId hnonneg) (.ofProcess process) root
      hremotes.settled
    rwa [body.map_made] at hroot
  -- each controller has written its own reports, in the order in which the calls ended
  have hperm : ∀ k, (reportsOf k made.exits).Perm (reportsOf k made.entries) :=
    reportsOf_perm (CallForest.exits_perm_entries made)
  have hafter : run = (_, after) := hrun
  rw [hafter]
  refine ⟨made.entries, fun k => reportsOf k made.exits, rfl, hdescribes,
    fun k => ⟨hwrites.records k, hperm k⟩, hleft, hmemory, ?_⟩
  intro all hall
  have hlength : (made.entries.map Prod.snd).length < 2 ^ 31 := by
    rw [List.length_map, hdescribes.length_eq, CallForest.length_placed, CallForest.size_call]
    exact hcount
  exact Trace.reconstruct_of_perm hdescribes.numbers (perm_of_written hperm hall) hlength

/-- The first of two controllers. -/
def client : Fin 2 := ⟨0, Nat.two_pos⟩

/-- The second of two controllers. -/
def server : Fin 2 := ⟨1, Nat.one_lt_two⟩

/-- A client, whose traces start at seven, and a server. -/
def clientAndServer : Process MemoryWriter Notes 2 where
  clock := .steady 0 1
  controllers := #v[
    { host := "client", ids := .startingAt 7, writer := {} }, { host := "server", writer := {} }]
  memory := {}

/-- A remote call that survives a panic, and a local call after it. -/
def remoteThenLocal : Program 2 :=
  .call { controller := server, component := "R", operation := "serve()", isRemote := true }
    (.guarded
      (.call { controller := server, component := "S", operation := "boom()" } .panic .done) .done)
    (.call { controller := client, component := "B", operation := "g()" } .done .done)

/-- The remote callee and the local one have the same caller. -/
theorem reconstructs_remoteThenLocal :
    clientAndServer.thread.context = .unset ∧ remoteThenLocal.RemotesReturn
      ∧ ∃ (executions : List Execution) (written : Fin 2 → List Record),
        (∀ k, MemoryWriter.reliable.records ((Code.monitor 0 "A" "f()" remoteThenLocal.run
          clientAndServer).2.controller k).writer = written k)
        ∧ ∀ all : List Execution,
          (all.map Record.execution).Perm ((List.finRange 2).flatMap written) →
          Trace.reconstruct 7 all = .ok {
            id := 7, executions, parents := [none, some 0, some 1, some 0] } := by
  have hready : Ready MemoryWriter.reliable clientAndServer := fun k => by
    have henabled : ∀ k, (clientAndServer.controller k).isEnabled = true := by decide
    exact ⟨henabled k, trivial⟩
  have hremotes : remoteThenLocal.RemotesReturn := by
    simp [remoteThenLocal, Program.RemotesReturn, Program.outcome, Program.Outcome.andThen]
  obtain ⟨reports, written, -, -, hwritten, -, -, hall⟩ := distributed_trace_reconstructs
    MemoryWriter.reliable { controller := 0, component := "A", operation := "f()" }
    remoteThenLocal clientAndServer hready rfl (by decide) hremotes (by decide)
  have hid : (clientAndServer.controller 0).ids.next = 7 := by decide
  have hparents : (CallForest.call { controller := 0, component := "A", operation := "f()" }
      remoteThenLocal.outcome.calls .none).parents none 0 = [none, some 0, some 1, some 0] := by
    decide
  rw [hid, hparents] at hall
  refine ⟨rfl, hremotes, reports.map Prod.snd, written, fun k => ?_, hall⟩
  have hbefore : ∀ k, MemoryWriter.reliable.records (clientAndServer.controller k).writer = [] := by
    decide
  have hafter := (hwritten k).1
  rw [hbefore, List.nil_append] at hafter
  dsimp only at hafter
  exact hafter

end CallTrace.Monitoring
