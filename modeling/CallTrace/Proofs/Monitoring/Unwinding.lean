import CallTrace.Proofs.Monitoring.Distributed

/-!
# Remote callees that panic

A remote callee that panics sends no response, so its caller goes on with the index behind the one
that the header took along. If the callee had made calls, they have used that index, and the next
call of the trace uses it again. Order indices are therefore unique in just those runs in which
nothing is called after such a loss (`indices_unique_iff`).
-/

namespace CallTrace.Monitoring

variable {n : Nat}

/-! ## The indices of calls -/

/-- The order indices of calls that begin at an index, in the order of the entries. -/
def claimed (eoi : Nat) : CallForest (MadeCall n) → List Nat
  | .none => []
  | .call made inner later =>
    eoi :: (claimed (eoi + 1) inner
      ++ claimed (if made.isLost then eoi + 1 else reached (eoi + 1) inner) later)

/-- The records of calls carry their indices. -/
theorem eoi_recorded (setting : Setting n) (place : Place) (calls : CallForest (MadeCall n)) :
    (recorded setting place calls).entries.map (fun report => report.2.eoi)
      = (claimed place.eoi calls).map Int32.ofNat := by
  induction calls generalizing place with
  | none => rfl
  | call made inner later ihInner ihLater =>
    simp only [recorded, CallForest.entries, claimed, List.map_cons, List.map_append, ihInner,
      ihLater]
    rfl

theorem traceId_recorded (setting : Setting n) (place : Place) (calls : CallForest (MadeCall n)) :
    ∀ report ∈ (recorded setting place calls).entries, report.2.traceId = setting.traceId := by
  intro report hreport
  obtain ⟨between, made, inner, -, -, rfl⟩ := exists_place_of_mem_recorded hreport
  rfl

theorem mem_claimed_bounds {calls : CallForest (MadeCall n)} {eoi i : Nat}
    (h : i ∈ claimed eoi calls) : eoi ≤ i ∧ i < eoi + calls.size := by
  induction calls generalizing eoi with
  | none => simp [claimed] at h
  | call made inner later ihInner ihLater =>
    have hreached := le_reached (eoi + 1) inner
    have hle := reached_le (eoi + 1) inner
    rw [CallForest.size]
    simp only [claimed, List.mem_cons, List.mem_append] at h
    rcases h with rfl | h | h
    · omega
    · have := ihInner h
      omega
    · have := ihLater h
      split at this <;> omega

theorem mem_claimed_self {calls : CallForest (MadeCall n)} (h : calls ≠ .none) (eoi : Nat) :
    eoi ∈ claimed eoi calls := by
  cases calls with
  | none => exact absurd rfl h
  | call made inner later => simp [claimed]

/-! ## Losses -/

/-- Nothing is called after a call that was lost and had made calls. -/
def NothingAfterLoss : CallForest (MadeCall n) → Prop
  | .none => True
  | .call made inner later =>
    NothingAfterLoss inner ∧ NothingAfterLoss later
      ∧ (later ≠ .none → Settled (.call made inner .none))

/-- **A thread whose last calls were lost goes on with an index that is already in use.** -/
theorem reached_mem_claimed {calls : CallForest (MadeCall n)} (h : NothingAfterLoss calls)
    (hloss : ¬ Settled calls) (eoi : Nat) : reached eoi calls ∈ claimed eoi calls := by
  induction calls generalizing eoi with
  | none => exact absurd trivial hloss
  | call made inner later ihInner ihLater =>
    obtain ⟨hinner, hlater, hlast⟩ := h
    simp only [claimed, reached, List.mem_cons, List.mem_append]
    by_cases hmore : later = .none
    · subst hmore
      refine .inr (.inl ?_)
      rw [reached]
      cases hlost : made.isLost with
      | true =>
        rw [if_pos rfl]
        refine mem_claimed_self ?_ _
        rintro rfl
        exact hloss ⟨fun _ => rfl, trivial, trivial⟩
      | false =>
        rw [if_neg (by simp)]
        refine ihInner hinner (fun hsettled => hloss ⟨?_, hsettled, trivial⟩) _
        rw [hlost]
        simp
    · obtain ⟨hmade, hsettled, -⟩ := hlast hmore
      exact .inr (.inr (ihLater hlater (fun h => hloss ⟨hmade, hsettled, h⟩) _))

theorem NothingAfterLoss.nodup_claimed {calls : CallForest (MadeCall n)}
    (h : NothingAfterLoss calls) (eoi : Nat) : (claimed eoi calls).Nodup := by
  induction calls generalizing eoi with
  | none => exact List.nodup_nil
  | call made inner later ihInner ihLater =>
    obtain ⟨hinner, hlater, hlast⟩ := h
    have hreached := le_reached (eoi + 1) inner
    simp only [claimed, List.nodup_cons, List.mem_append, List.nodup_append]
    refine ⟨?_, ihInner hinner _, ihLater hlater _, ?_⟩
    · rintro (hmem | hmem)
      · have := mem_claimed_bounds hmem
        omega
      · have := mem_claimed_bounds hmem
        split at this <;> omega
    · intro i hi j hj
      have hmore : later ≠ .none := by
        rintro rfl
        simp [claimed] at hj
      -- the calls that come later begin behind all of the inner ones
      obtain ⟨hmade, hsettled, -⟩ := hlast hmore
      rw [resumed_of_settled hmade, reached_of_settled hsettled] at hj
      have := (mem_claimed_bounds hi).2
      have := (mem_claimed_bounds hj).1
      omega

theorem nothingAfterLoss_of_nodup {calls : CallForest (MadeCall n)} {eoi : Nat}
    (h : (claimed eoi calls).Nodup) : NothingAfterLoss calls := by
  induction calls generalizing eoi with
  | none => trivial
  | call made inner later ihInner ihLater =>
    simp only [claimed, List.nodup_cons, List.nodup_append] at h
    obtain ⟨-, hinner, hlater, hdisjoint⟩ := h
    have hcall : NothingAfterLoss (.call made inner .none) :=
      ⟨ihInner hinner, trivial, fun h => absurd rfl h⟩
    refine ⟨ihInner hinner, ihLater hlater, fun hmore => ?_⟩
    by_contra hloss
    have hused := reached_mem_claimed hcall hloss eoi
    have hnext := mem_claimed_self hmore
      (if made.isLost then eoi + 1 else reached (eoi + 1) inner)
    have hreached := le_reached (eoi + 1) inner
    simp only [claimed, reached, List.append_nil, List.mem_cons] at hused
    rcases hused with heq | hused
    · split at heq <;> omega
    · exact hdisjoint _ hused _ hnext rfl

/-- The indices of calls are unique if and only if nothing is called after a loss. -/
theorem nodup_claimed_iff {calls : CallForest (MadeCall n)} {eoi : Nat}
    (hlt : eoi + calls.size < 2 ^ 31) :
    ((claimed eoi calls).map Int32.ofNat).Nodup ↔ NothingAfterLoss calls := by
  constructor
  · exact fun h => nothingAfterLoss_of_nodup h.of_map
  · intro h
    refine (h.nodup_claimed eoi).map_on fun i hi j hj => Index.inj ?_ ?_
    · have := mem_claimed_bounds hi
      omega
    · have := mem_claimed_bounds hj
      omega

/-! ## Runs -/

variable {ω : Type} [RecordWriter ω]

/--
**Order indices are unique unless something is called after a loss.** A call whose code consists of
local and remote calls that may panic and be caught runs outside all traces and opens one. Then each
call has its one record, all of them with the id of the trace; and no two of these records carry the
same order index if and only if nothing is called after a remote call that has made calls in turn
and has panicked.
-/
theorem indices_unique_iff (R : Reliable ω) (root : Callee n) (body : Program n)
    (process : Process ω Notes n) (hready : Ready R process)
    (hcontext : process.thread.context = .unset)
    (hid : 0 ≤ (process.controller root.controller).ids.next)
    (hcount : 1 + body.made.size < 2 ^ 31) :
    let traceId := (process.controller root.controller).ids.next
    let run := Code.monitor root.controller root.component root.operation body.run process
    ∃ reports : List (Fin n × Execution),
      reports.length = 1 + body.made.size
      ∧ (∀ k, R.records (run.2.controller k).writer
        = R.records (process.controller k).writer ++ reportsOf k reports)
      ∧ (∀ report ∈ reports, report.2.traceId = traceId)
      ∧ ((reports.map fun report => report.2.eoi).Nodup ↔ NothingAfterLoss body.made) := by
  intro traceId run
  obtain ⟨after, hrun, -, hwrites, -⟩ :=
    root_records root body hready hcontext (Int64.not_lt.mpr hid) hcount
  let tree := CallForest.call (.root root) body.made .none
  have hsize : tree.size = 1 + body.made.size := by simp [tree, CallForest.size]
  let reports := recorded (.ofProcess process traceId (Int64.not_lt.mpr hid)) (.ofProcess process)
    tree
  have hperm : reports.exits.Perm reports.entries := reports.exits_perm_entries
  refine ⟨reports.exits, ?_, ?_, ?_, ?_⟩
  · rw [hperm.length_eq, CallForest.length_entries, size_recorded, hsize]
  · intro k
    rw [show run = (_, after) from hrun]
    exact hwrites.records k
  · intro report hreport
    exact traceId_recorded _ _ _ report (hperm.mem_iff.mp hreport)
  · have hroot : NothingAfterLoss tree ↔ NothingAfterLoss body.made := by
      simp [tree, NothingAfterLoss]
    rw [(hperm.map _).nodup_iff, eoi_recorded, ← hroot]
    exact nodup_claimed_iff (by rw [hsize]; simpa [Place.ofProcess] using hcount)

/-- A remote call that makes a call and panics. -/
def remotePanics (next : Program 2) : Program 2 :=
  .call { controller := server, component := "R", operation := "serve()", isRemote := true }
    (.call { controller := server, component := "S", operation := "inner()" } .done .panic) next

/-- All is well if the panic of the callee is the end of the caller as well. -/
theorem unique_when_caller_panics_too :
    clientAndServer.thread.context = .unset
      ∧ ∃ reports : List (Fin 2 × Execution), reports.length = 3
        ∧ (reports.map fun report => report.2.eoi).Nodup := by
  have hready : Ready MemoryWriter.reliable clientAndServer := fun k => by
    have henabled : ∀ k, (clientAndServer.controller k).isEnabled = true := by decide
    exact ⟨henabled k, trivial⟩
  obtain ⟨reports, hlength, -, -, hunique⟩ := indices_unique_iff MemoryWriter.reliable
    { controller := 0, component := "A", operation := "f()" } (remotePanics .panic)
    clientAndServer hready rfl (by decide) (by decide)
  refine ⟨rfl, reports, hlength, hunique.mpr ?_⟩
  simp [remotePanics, Program.made, Program.outcome, Program.Outcome.andThen, NothingAfterLoss]

/-- A caller that catches the panic and makes another call. -/
def callsOn : Program 2 :=
  remotePanics (.call { controller := client, component := "B", operation := "g()" } .done .done)

/-- The call that the lost callee has made and the next call of its caller share an index. -/
theorem index_shared_after_loss :
    let after := (Code.monitor 0 "A" "f()" callsOn.run clientAndServer).2
    ∃ inner later : Execution,
      .execution inner ∈ (after.controller 1).writer.records
        ∧ .execution later ∈ (after.controller 0).writer.records
        ∧ inner.operation = "inner()" ∧ later.operation = "g()"
        ∧ inner.traceId = 7 ∧ later.traceId = 7 ∧ inner.eoi = 2 ∧ later.eoi = 2 := by
  intro after
  have hserver : (after.controller 1).writer.records = #[
      .execution ⟨"S", "inner()", noSession, 7, 2, 3, "server", 2, 2⟩,
      .execution ⟨"R", "serve()", noSession, 7, 1, 4, "server", 1, 1⟩] := by decide +kernel
  have hclient : (after.controller 0).writer.records = #[
      .execution ⟨"B", "g()", noSession, 7, 5, 6, "client", 2, 1⟩,
      .execution ⟨"A", "f()", noSession, 7, 0, 7, "client", 0, 0⟩] := by decide +kernel
  refine ⟨⟨"S", "inner()", noSession, 7, 2, 3, "server", 2, 2⟩,
    ⟨"B", "g()", noSession, 7, 5, 6, "client", 2, 1⟩, ?_, ?_, rfl, rfl, rfl, rfl, rfl, rfl⟩
  · rw [hserver]
    simp
  · rw [hclient]
    simp

end CallTrace.Monitoring
