import CallTrace.Monitoring.Controller

/-!
# Audited writers

What a controller asks of its writer shows if the writer keeps a list of the calls that it gets.
Apart from that list an audited writer is the one it was before, and the controller does not notice
the difference (`write_unaudited`, `terminate_unaudited`).
-/

namespace CallTrace.Monitoring

variable {ω : Type} [RecordWriter ω]

/-! ## What a controller does -/

namespace Controller

variable {controller : Controller ω} {record : Record}

omit [RecordWriter ω] in
theorem isEnabled_iff :
    controller.isEnabled = true
      ↔ controller.isTerminated = false ∧ controller.isWriting = true := by
  simp [isEnabled, and_comm]

omit [RecordWriter ω] in
/-- A controller is enabled, or it has stopped for good, or it is switched off for now. -/
theorem enabled_or_terminated_or_switchedOff (controller : Controller ω) :
    controller.isEnabled = true ∨ controller.isTerminated = true
      ∨ controller.isTerminated = false ∧ controller.isWriting = false := by
  cases hterminated : controller.isTerminated with
  | true => exact .inr (.inl rfl)
  | false =>
    cases hwriting : controller.isWriting with
    | true => exact .inl (isEnabled_iff.mpr ⟨hterminated, hwriting⟩)
    | false => exact .inr (.inr ⟨rfl, rfl⟩)

theorem terminate_of_terminated (h : controller.isTerminated = true) :
    controller.terminate = (false, controller) :=
  if_pos h

theorem terminate_of_running (h : controller.isTerminated = false) :
    controller.terminate = (true, { controller with
      isTerminated := true
      writer := RecordWriter.terminate controller.writer }) := by
  unfold terminate
  rw [h]
  rfl

theorem isTerminated_terminate (controller : Controller ω) :
    controller.terminate.2.isTerminated = true := by
  cases h : controller.isTerminated with
  | true => rwa [terminate_of_terminated h]
  | false => rw [terminate_of_running h]

theorem write_of_terminated (h : controller.isTerminated = true) :
    controller.write record = (.error .monitoringTerminated, controller) :=
  if_pos h

theorem write_of_switchedOff (h : controller.isTerminated = false)
    (hwriting : controller.isWriting = false) :
    controller.write record = (.ok false, controller) := by
  unfold write
  rw [h, hwriting]
  rfl

/-- An enabled controller hands a record to its writer. -/
theorem write_of_ok (h : controller.isEnabled = true) {writer : ω}
    (hwrite : RecordWriter.write controller.writer record = (.ok (), writer)) :
    controller.write record
      = (.ok true, { controller with inserts := controller.inserts + 1, writer }) := by
  obtain ⟨hrunning, hwriting⟩ := isEnabled_iff.mp h
  unfold write
  rw [hrunning, hwriting, hwrite]
  rfl

/-- An error of the writer ends all monitoring. -/
theorem write_of_error (h : controller.isEnabled = true) {e : Error} {writer : ω}
    (hwrite : RecordWriter.write controller.writer record = (.error e, writer)) :
    controller.write record = (.error e, { controller with
      isTerminated := true
      inserts := controller.inserts + 1
      writer := RecordWriter.terminate writer }) := by
  obtain ⟨hrunning, hwriting⟩ := isEnabled_iff.mp h
  unfold write
  rw [hrunning, hwriting, hwrite]
  rfl

theorem ids_terminate (controller : Controller ω) :
    controller.terminate.2.ids = controller.ids := by
  unfold terminate
  split <;> rfl

theorem ids_write (controller : Controller ω) (record : Record) :
    (controller.write record).2.ids = controller.ids := by
  rcases controller.enabled_or_terminated_or_switchedOff with h | h | ⟨h, hwriting⟩
  · cases hwrite : RecordWriter.write controller.writer record with
    | mk result writer =>
      cases result with
      | ok => rw [write_of_ok h hwrite]
      | error e => rw [write_of_error h hwrite]
  · rw [write_of_terminated h]
  · rw [write_of_switchedOff h hwriting]

end Controller

/-! ## Lists of calls -/

/-- What a controller has asked of its writer. -/
inductive WriterCall where
  /-- To write a record, which succeeded or not. -/
  | write (record : Record) (isOk : Bool)
  | terminate
  deriving DecidableEq, Repr

namespace WriterCall

/-- The record that was handed to the writer. -/
def handed? : WriterCall → Option Record
  | write record _ => some record
  | terminate => none

/-- The record that the writer has written. -/
def taken? : WriterCall → Option Record
  | write record true => some record
  | write _ false => none
  | terminate => none

end WriterCall

/-- A writer and the calls that it got, in order. -/
structure Audited (ω : Type) where
  writer : ω
  calls : List WriterCall := []
  deriving DecidableEq, Repr

instance : RecordWriter (Audited ω) where
  name audited := RecordWriter.name audited.writer
  write audited record :=
    let (result, writer) := RecordWriter.write audited.writer record
    (result, { writer, calls := audited.calls ++ [.write record result.isOk] })
  terminate audited :=
    { writer := RecordWriter.terminate audited.writer, calls := audited.calls ++ [.terminate] }
  info audited := RecordWriter.info audited.writer

namespace Audited

/-- The records that were handed to the writer, whether or not it could write them. -/
def handed (audited : Audited ω) : List Record := audited.calls.filterMap WriterCall.handed?

/-- The records that the writer has written. -/
def taken (audited : Audited ω) : List Record := audited.calls.filterMap WriterCall.taken?

/-- How often the writer was terminated. -/
def terminations (audited : Audited ω) : Nat := audited.calls.count .terminate

variable {audited next : Audited ω} {record : Record} {result : Except Error Unit}

theorem calls_write (h : RecordWriter.write audited record = (result, next)) :
    next.calls = audited.calls ++ [.write record result.isOk] := by
  obtain ⟨rfl, rfl⟩ := Prod.mk.inj h
  rfl

theorem handed_write (h : RecordWriter.write audited record = (result, next)) :
    next.handed = audited.handed ++ [record] := by
  rw [handed, calls_write h, List.filterMap_append]
  rfl

theorem mem_handed_write (h : RecordWriter.write audited record = (result, next)) :
    record ∈ next.handed := by
  rw [handed_write h]
  exact List.mem_append_right _ List.mem_cons_self

theorem taken_write_ok (h : RecordWriter.write audited record = (.ok (), next)) :
    next.taken = audited.taken ++ [record] := by
  rw [taken, calls_write h, List.filterMap_append]
  rfl

theorem taken_write_error {e : Error} (h : RecordWriter.write audited record = (.error e, next)) :
    next.taken = audited.taken := by
  rw [taken, calls_write h, List.filterMap_append]
  exact List.append_nil _

theorem terminations_write (h : RecordWriter.write audited record = (result, next)) :
    next.terminations = audited.terminations := by
  rw [terminations, calls_write h]
  simp [terminations]

@[simp]
theorem handed_terminate : (RecordWriter.terminate audited).handed = audited.handed := by
  simp [handed, RecordWriter.terminate, WriterCall.handed?]

@[simp]
theorem taken_terminate : (RecordWriter.terminate audited).taken = audited.taken := by
  simp [taken, RecordWriter.terminate, WriterCall.taken?]

@[simp]
theorem terminations_terminate :
    (RecordWriter.terminate audited).terminations = audited.terminations + 1 := by
  simp [terminations, RecordWriter.terminate]

end Audited

/-! ## Controllers with audited writers -/

namespace Controller

/-- The controller without the list of calls. -/
def unaudited (controller : Controller (Audited ω)) : Controller ω :=
  { controller with writer := controller.writer.writer }

variable (controller : Controller (Audited ω)) (record : Record)

/-- **Auditing makes no difference to terminating.** -/
theorem terminate_unaudited :
    controller.unaudited.terminate
      = (controller.terminate.1, controller.terminate.2.unaudited) := by
  unfold terminate
  rw [show controller.unaudited.isTerminated = controller.isTerminated from rfl]
  split <;> rfl

/-- **Auditing makes no difference to writing.** -/
theorem write_unaudited :
    controller.unaudited.write record
      = ((controller.write record).1, (controller.write record).2.unaudited) := by
  rcases controller.enabled_or_terminated_or_switchedOff with h | h | ⟨h, hwriting⟩
  · have hunaudited : controller.unaudited.isEnabled = true := h
    cases hwrite : RecordWriter.write controller.writer.writer record with
    | mk result writer =>
      have haudited : RecordWriter.write controller.writer record
          = (result, ⟨writer, controller.writer.calls ++ [.write record result.isOk]⟩) := by
        simp [RecordWriter.write, hwrite]
      cases result with
      | ok => rw [write_of_ok hunaudited hwrite, write_of_ok h haudited]; rfl
      | error e => rw [write_of_error hunaudited hwrite, write_of_error h haudited]; rfl
  · have hunaudited : controller.unaudited.isTerminated = true := h
    rw [write_of_terminated h, write_of_terminated hunaudited]
  · have hunaudited : controller.unaudited.isTerminated = false := h
    rw [write_of_switchedOff h hwriting, write_of_switchedOff hunaudited hwriting]

theorem handed_terminate : controller.terminate.2.writer.handed = controller.writer.handed := by
  unfold terminate
  split
  · rfl
  · exact Audited.handed_terminate

/-- A record is handed on at most once, and nothing else is. -/
theorem handed_write :
    (controller.write record).2.writer.handed = controller.writer.handed
      ∨ (controller.write record).2.writer.handed = controller.writer.handed ++ [record] := by
  rcases controller.enabled_or_terminated_or_switchedOff with h | h | ⟨h, hwriting⟩
  · cases hwrite : RecordWriter.write controller.writer record with
    | mk result writer =>
      have hhanded := Audited.handed_write hwrite
      cases result with
      | ok =>
        rw [write_of_ok h hwrite]
        exact .inr hhanded
      | error e =>
        rw [write_of_error h hwrite]
        exact .inr (Audited.handed_terminate.trans hhanded)
  · rw [write_of_terminated h]
    exact .inl rfl
  · rw [write_of_switchedOff h hwriting]
    exact .inl rfl

end Controller

end CallTrace.Monitoring
