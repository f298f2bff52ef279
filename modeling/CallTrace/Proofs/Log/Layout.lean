import CallTrace.Log.Layout
import CallTrace.Proofs.Bytes

/-!
# Layouts as records of raw fields

The bytes of a layout and its fields determine each other. For an execution the fields hold the
numbers of its texts (`RawExecution`); what the texts are is decided afterwards (`resolve`), and
reading a layout is doing both.
-/

namespace CallTrace.Log.Layout

variable {table : StringTable} {α β : Type}

/-! ## Field readers -/

theorem bind_of_ok {m : FieldReader α} {f : α → FieldReader β} {bytes rest : Bytes} {a : α}
    (h : m bytes = .ok (a, rest)) : (m >>= f) bytes = f a rest := by
  show (m bytes >>= fun p => f p.1 p.2) = _
  rw [h]
  rfl

theorem bind_of_error {m : FieldReader α} {f : α → FieldReader β} {bytes : Bytes} {fault : Fault}
    (h : m bytes = .error fault) : (m >>= f) bytes = .error fault := by
  show (m bytes >>= fun p => f p.1 p.2) = _
  rw [h]
  rfl

theorem int32_ofInt32 (i : Int32) (rest : Bytes) :
    int32 (Bytes.ofInt32 i ++ rest) = .ok (i, rest) := by
  simp [int32, field]

theorem int64_ofInt64 (i : Int64) (rest : Bytes) :
    int64 (Bytes.ofInt64 i ++ rest) = .ok (i, rest) := by
  simp [int64, field]

theorem text_of_bound {id : Int32} {known : String} (h : table.text? id = some known)
    (rest : Bytes) : text table (Bytes.ofInt32 id ++ rest) = .ok (known, rest) := by
  rw [text, bind_of_ok (int32_ofInt32 id rest)]
  simp only [h]
  rfl

theorem text_of_unbound {id : Int32} (h : table.text? id = none) (rest : Bytes) :
    text table (Bytes.ofInt32 id ++ rest) = .error (.unknownString id) := by
  rw [text, bind_of_ok (int32_ofInt32 id rest)]
  simp only [h]
  rfl

/-! ## Executions -/

/-- The fields of an execution's layout; texts stand as their numbers. -/
structure RawExecution where
  component : Int32
  operation : Int32
  session : Int32
  traceId : Int64
  tin : Int64
  tout : Int64
  host : Int32
  eoi : Int32
  ess : Int32
  deriving DecidableEq, Repr, Inhabited

namespace RawExecution

/-- The layout with these fields. -/
def bytes (raw : RawExecution) : Bytes :=
  Bytes.ofInt32 raw.component ++ (Bytes.ofInt32 raw.operation ++ (Bytes.ofInt32 raw.session
    ++ (Bytes.ofInt64 raw.traceId ++ (Bytes.ofInt64 raw.tin ++ (Bytes.ofInt64 raw.tout
      ++ (Bytes.ofInt32 raw.host ++ (Bytes.ofInt32 raw.eoi ++ Bytes.ofInt32 raw.ess)))))))

@[simp] theorem length_bytes (raw : RawExecution) : raw.bytes.length = executionSize := by
  simp [bytes, executionSize]

theorem bytes_append_inj {raw other : RawExecution} {x y : Bytes}
    (h : raw.bytes ++ x = other.bytes ++ y) : raw = other ∧ x = y := by
  simp only [bytes, List.append_assoc] at h
  obtain ⟨hcomponent, h⟩ := Bytes.ofInt32_append_inj h
  obtain ⟨hoperation, h⟩ := Bytes.ofInt32_append_inj h
  obtain ⟨hsession, h⟩ := Bytes.ofInt32_append_inj h
  obtain ⟨htraceId, h⟩ := Bytes.ofInt64_append_inj h
  obtain ⟨htin, h⟩ := Bytes.ofInt64_append_inj h
  obtain ⟨htout, h⟩ := Bytes.ofInt64_append_inj h
  obtain ⟨hhost, h⟩ := Bytes.ofInt32_append_inj h
  obtain ⟨heoi, h⟩ := Bytes.ofInt32_append_inj h
  obtain ⟨hess, h⟩ := Bytes.ofInt32_append_inj h
  obtain ⟨_, _, _, _, _, _, _, _, _⟩ := raw
  obtain ⟨_, _, _, _, _, _, _, _, _⟩ := other
  simp_all

/-- The numbers of the texts in the order of their fields. -/
def ids (raw : RawExecution) : List Int32 := [raw.component, raw.operation, raw.session, raw.host]

/-- The execution that the fields stand for, or the first number that stands for no text. -/
def resolve (text? : Int32 → Option String) (raw : RawExecution) : Except Fault Execution :=
  match raw.ids.find? fun id => (text? id).isNone with
  | some id => .error (.unknownString id)
  | none => .ok {
      component := (text? raw.component).getD ""
      operation := (text? raw.operation).getD ""
      session := (text? raw.session).getD ""
      traceId := raw.traceId
      tin := raw.tin
      tout := raw.tout
      host := (text? raw.host).getD ""
      eoi := raw.eoi
      ess := raw.ess }

end RawExecution

/-- Every layout has its fields. -/
theorem exists_rawExecution {bytes : Bytes} (h : bytes.length = executionSize) :
    ∃ raw : RawExecution, bytes = raw.bytes := by
  obtain ⟨component, _, rfl, h1⟩ := Bytes.exists_cons_ofInt32 (n := 44) h
  obtain ⟨operation, _, rfl, h2⟩ := Bytes.exists_cons_ofInt32 (n := 40) h1
  obtain ⟨session, _, rfl, h3⟩ := Bytes.exists_cons_ofInt32 (n := 36) h2
  obtain ⟨traceId, _, rfl, h4⟩ := Bytes.exists_cons_ofInt64 (n := 28) h3
  obtain ⟨tin, _, rfl, h5⟩ := Bytes.exists_cons_ofInt64 (n := 20) h4
  obtain ⟨tout, _, rfl, h6⟩ := Bytes.exists_cons_ofInt64 (n := 12) h5
  obtain ⟨host, _, rfl, h7⟩ := Bytes.exists_cons_ofInt32 (n := 8) h6
  obtain ⟨eoi, _, rfl, h8⟩ := Bytes.exists_cons_ofInt32 (n := 4) h7
  obtain ⟨ess, rfl⟩ := Bytes.exists_ofInt32 h8
  exact ⟨⟨component, operation, session, traceId, tin, tout, host, eoi, ess⟩, rfl⟩

/-- Reading the front of some bytes is resolving the fields that stand there, whatever comes behind
them. -/
theorem readExecution_append (table : StringTable) (raw : RawExecution) (rest : Bytes) :
    readExecution table (raw.bytes ++ rest) = raw.resolve table.text? := by
  have hrun : ∀ m : FieldReader Execution,
      m.run' (raw.bytes ++ rest) = (m (raw.bytes ++ rest)).map fun p => p.1 := fun m => by
    show (fun p => p.1) <$> m (raw.bytes ++ rest) = _
    rfl
  rw [readExecution, hrun]
  unfold executionReader RawExecution.bytes RawExecution.resolve RawExecution.ids
  simp only [List.append_assoc]
  cases hc : table.text? raw.component with
  | none => simp [bind_of_error (text_of_unbound hc _), hc, Except.map]
  | some component =>
    rw [bind_of_ok (text_of_bound hc _)]
    cases ho : table.text? raw.operation with
    | none => simp [bind_of_error (text_of_unbound ho _), hc, ho, Except.map]
    | some operation =>
      rw [bind_of_ok (text_of_bound ho _)]
      cases hs : table.text? raw.session with
      | none => simp [bind_of_error (text_of_unbound hs _), hc, ho, hs, Except.map]
      | some session =>
        rw [bind_of_ok (text_of_bound hs _), bind_of_ok (int64_ofInt64 _ _),
          bind_of_ok (int64_ofInt64 _ _), bind_of_ok (int64_ofInt64 _ _)]
        cases hh : table.text? raw.host with
        | none => simp [bind_of_error (text_of_unbound hh _), hc, ho, hs, hh, Except.map]
        | some host =>
          rw [bind_of_ok (text_of_bound hh _), bind_of_ok (int32_ofInt32 _ _),
            bind_of_ok (int32_ofInt32 _ _)]
          simp [hc, ho, hs, hh]
          rfl

/-- Reading a layout is resolving its fields. -/
theorem readExecution_bytes (table : StringTable) (raw : RawExecution) :
    readExecution table raw.bytes = raw.resolve table.text? := by
  simpa using readExecution_append table raw []

/-! ## Branching decisions -/

/-- The layout of a branching decision. -/
def branchingBytes (b : Branching) : Bytes :=
  Bytes.ofInt64 b.timestamp ++ (Bytes.ofInt32 b.branchId ++ Bytes.ofInt32 b.outcome)

@[simp] theorem length_branchingBytes (b : Branching) :
    (branchingBytes b).length = branchingSize := by
  simp [branchingBytes, branchingSize]

theorem branchingBytes_append_inj {b c : Branching} {x y : Bytes}
    (h : branchingBytes b ++ x = branchingBytes c ++ y) : b = c ∧ x = y := by
  simp only [branchingBytes, List.append_assoc] at h
  obtain ⟨htimestamp, h⟩ := Bytes.ofInt64_append_inj h
  obtain ⟨hbranchId, h⟩ := Bytes.ofInt32_append_inj h
  obtain ⟨houtcome, h⟩ := Bytes.ofInt32_append_inj h
  obtain ⟨_, _, _⟩ := b
  obtain ⟨_, _, _⟩ := c
  simp_all

theorem exists_branchingBytes {bytes : Bytes} (h : bytes.length = branchingSize) :
    ∃ b, bytes = branchingBytes b := by
  obtain ⟨timestamp, _, rfl, h1⟩ := Bytes.exists_cons_ofInt64 (n := 8) h
  obtain ⟨branchId, _, rfl, h2⟩ := Bytes.exists_cons_ofInt32 (n := 4) h1
  obtain ⟨outcome, rfl⟩ := Bytes.exists_ofInt32 h2
  exact ⟨⟨timestamp, branchId, outcome⟩, rfl⟩

theorem readBranching_append (b : Branching) (rest : Bytes) :
    readBranching (branchingBytes b ++ rest) = .ok b := by
  have hrun : ∀ m : FieldReader Branching,
      m.run' (branchingBytes b ++ rest) = (m (branchingBytes b ++ rest)).map fun p => p.1 := by
    intro m
    show (fun p => p.1) <$> m (branchingBytes b ++ rest) = _
    rfl
  rw [readBranching, hrun]
  unfold branchingReader branchingBytes
  simp only [List.append_assoc]
  rw [bind_of_ok (int64_ofInt64 _ _), bind_of_ok (int32_ofInt32 _ _),
    bind_of_ok (int32_ofInt32 _ _)]
  rfl

theorem readBranching_bytes (b : Branching) : readBranching (branchingBytes b) = .ok b := by
  simpa using readBranching_append b []

end CallTrace.Log.Layout
