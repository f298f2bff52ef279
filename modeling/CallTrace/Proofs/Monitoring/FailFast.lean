import CallTrace.Proofs.Log.Storing
import CallTrace.Proofs.Monitoring.Audit

/-!
# Monitoring that fails fast

A controller stops for good with the first error of its writer, the first report of an execution
that left with invalid correlation data, or when it is told to, and nothing that happens later lets
it hand on another record. What a request does with the writer is said once (`Effect`), and what all
requests together have done follows from it (`Accounts`).

An encoder whose output has failed takes texts to be announced that are not. Because it is never
asked again, what it has stored can be read to the end (`monitoring_fails_fast`).
-/

namespace CallTrace.Monitoring

variable {ω : Type}

namespace Controller

/-! ## Requests -/

/-- What can be asked of a controller. -/
inductive Request where
  | write (record : Record)
  | setWriting (isWriting : Bool)
  | reportInvalid (eoi ess : Int32)
  | terminate
  deriving DecidableEq, Repr

/-- What a controller answers. -/
inductive Answer where
  | written (result : Except Error Bool)
  | switched
  | reported (error : Error)
  | terminated (isFirst : Bool)

/-- The answer tells that monitoring has stopped, by then or before. -/
def Answer.isStop : Answer → Bool
  | written (.ok _) => false
  | written (.error _) => true
  | switched => false
  | reported _ => true
  | terminated _ => true

/-- The record that was asked to be written, if the answer is that it was. -/
def granted? : Request → Answer → Option Record
  | .write record, .written (.ok true) => some record
  | _, _ => none

/-- The records that were asked to be written and, according to the answers, were. -/
def granted (requests : List Request) (answers : List Answer) : List Record :=
  (requests.zip answers).filterMap fun p => granted? p.1 p.2

variable [RecordWriter ω]

/-- Does what is asked. -/
def perform (controller : Controller ω) : Request → Answer × Controller ω
  | .write record =>
    let (result, controller) := controller.write record
    (.written result, controller)
  | .setWriting isWriting => (.switched, { controller with isWriting })
  | .reportInvalid eoi ess =>
    let (error, controller) := controller.reportInvalid eoi ess
    (.reported error, controller)
  | .terminate =>
    let (isFirst, controller) := controller.terminate
    (.terminated isFirst, controller)

/-- Does one thing after the other. -/
def performAll (controller : Controller ω) : List Request → List Answer × Controller ω
  | [] => ([], controller)
  | request :: requests =>
    let (answer, next) := controller.perform request
    let (answers, last) := next.performAll requests
    (answer :: answers, last)

/-- What is left of a controller that is given up. -/
def drop (controller : Controller ω) : Controller ω := controller.terminate.2

/-! ## What a request does -/

/-- What a request does with the writer and with the state of the monitoring. -/
inductive Effect (before : Controller ω) : Request → Answer → Controller ω → Prop
  /-- Nothing; the answer may be that monitoring had stopped before. -/
  | nothing {request answer after} (hwriter : after.writer = before.writer)
    (hterminated : after.isTerminated = before.isTerminated)
    (hinserts : after.inserts = before.inserts) (hgranted : granted? request answer = none)
    (hstop : answer.isStop = true → before.isTerminated = true) : Effect before request answer after
  /-- Monitoring stops. -/
  | stop {request answer after} (hrunning : before.isTerminated = false)
    (hterminated : after.isTerminated = true)
    (hwriter : after.writer = RecordWriter.terminate before.writer)
    (hinserts : after.inserts = before.inserts) (hgranted : granted? request answer = none) :
    Effect before request answer after
  /-- The writer writes a record. -/
  | taken {record writer} (henabled : before.isEnabled = true)
    (hwrite : RecordWriter.write before.writer record = (.ok (), writer)) :
    Effect before (.write record) (.written (.ok true))
      { before with inserts := before.inserts + 1, writer }
  /-- The writer cannot write a record, and monitoring stops. -/
  | failed {record writer error} (henabled : before.isEnabled = true)
    (hwrite : RecordWriter.write before.writer record = (.error error, writer)) :
    Effect before (.write record) (.written (.error error))
      { before with
        isTerminated := true
        inserts := before.inserts + 1
        writer := RecordWriter.terminate writer }

theorem effect_terminate (controller : Controller ω) {request : Request} {answer : Answer}
    (hgranted : granted? request answer = none) :
    Effect controller request answer controller.terminate.2 := by
  cases h : controller.isTerminated with
  | true =>
    rw [terminate_of_terminated h]
    exact .nothing rfl rfl rfl hgranted fun _ => h
  | false =>
    rw [terminate_of_running h]
    exact .stop h rfl rfl rfl hgranted

/-- **What a request does**, for each of the requests. -/
theorem perform_effect (controller : Controller ω) (request : Request) :
    Effect controller request (controller.perform request).1 (controller.perform request).2 := by
  cases request with
  | write record =>
    show Effect controller (.write record) (.written (controller.write record).1)
      (controller.write record).2
    rcases controller.enabled_or_terminated_or_switchedOff with h | h | ⟨h, hwriting⟩
    · cases hwrite : RecordWriter.write controller.writer record with
      | mk result writer =>
        cases result with
        | ok =>
          rw [write_of_ok h hwrite]
          exact .taken h hwrite
        | error e =>
          rw [write_of_error h hwrite]
          exact .failed h hwrite
    · rw [write_of_terminated h]
      exact .nothing rfl rfl rfl rfl fun _ => h
    · rw [write_of_switchedOff h hwriting]
      exact .nothing rfl rfl rfl rfl nofun
  | setWriting isWriting => exact .nothing rfl rfl rfl rfl nofun
  | reportInvalid eoi ess => exact controller.effect_terminate rfl
  | terminate => exact controller.effect_terminate rfl

namespace Effect

variable {before after : Controller ω} {request : Request} {answer : Answer}

theorem isTerminated_of_isStop (h : Effect before request answer after)
    (hstop : answer.isStop = true) : after.isTerminated = true := by
  cases h with
  | nothing _ hterminated _ _ himp => rw [hterminated, himp hstop]
  | stop _ hterminated => exact hterminated
  | taken => cases hstop
  | failed => rfl

/-- Once monitoring has stopped, a request does nothing. -/
theorem of_terminated (h : Effect before request answer after)
    (hbefore : before.isTerminated = true) :
    after.writer = before.writer ∧ after.isTerminated = true ∧ granted? request answer = none := by
  cases h with
  | nothing hwriter hterminated _ hgranted =>
    rw [hterminated]
    exact ⟨hwriter, hbefore, hgranted⟩
  | stop hrunning =>
    rw [hbefore] at hrunning
    cases hrunning
  | taken henabled | failed henabled =>
    rw [(isEnabled_iff.mp henabled).1] at hbefore
    cases hbefore

end Effect

/-! ## What all requests do -/

variable {controller : Controller ω} {requests more : List Request}

theorem performAll_cons (controller : Controller ω) (request : Request) (requests : List Request) :
    controller.performAll (request :: requests)
      = ((controller.perform request).1 :: ((controller.perform request).2.performAll requests).1,
        ((controller.perform request).2.performAll requests).2) := rfl

theorem granted_cons (request : Request) (requests : List Request) (answer : Answer)
    (answers : List Answer) :
    granted (request :: requests) (answer :: answers)
      = (granted? request answer).toList ++ granted requests answers := by
  unfold granted
  rw [List.zip_cons_cons, List.filterMap_cons]
  cases granted? request answer <;> rfl

theorem performAll_append :
    (controller.performAll (requests ++ more)).2
      = ((controller.performAll requests).2.performAll more).2 := by
  induction requests generalizing controller with
  | nil => rfl
  | cons request requests ih =>
    rw [List.cons_append, performAll_cons, performAll_cons]
    exact ih

/-- Once monitoring has stopped, no request does anything. -/
theorem performAll_of_terminated (h : controller.isTerminated = true) (requests : List Request) :
    (controller.performAll requests).2.writer = controller.writer
      ∧ (controller.performAll requests).2.isTerminated = true
      ∧ granted requests (controller.performAll requests).1 = [] := by
  induction requests generalizing controller with
  | nil => exact ⟨rfl, h, rfl⟩
  | cons request requests ih =>
    obtain ⟨hwriter, hterminated, hgranted⟩ := (controller.perform_effect request).of_terminated h
    obtain ⟨hwriter', hterminated', hgranted'⟩ := ih hterminated
    rw [performAll_cons, granted_cons, hgranted, hgranted']
    exact ⟨hwriter'.trans hwriter, hterminated', rfl⟩

/-- An answer that monitoring has stopped is right. -/
theorem isTerminated_of_isStop {answer : Answer}
    (hmem : answer ∈ (controller.performAll requests).1) (hstop : answer.isStop = true) :
    (controller.performAll requests).2.isTerminated = true := by
  induction requests generalizing controller with
  | nil => cases hmem
  | cons request requests ih =>
    rw [performAll_cons] at hmem ⊢
    rcases List.mem_cons.mp hmem with rfl | hmem
    · have hterminated := (controller.perform_effect request).isTerminated_of_isStop hstop
      exact (performAll_of_terminated hterminated requests).2.1
    · exact ih hmem

end Controller

/-! ## Accounts of the writer -/

/-- What the controller and the calls of its writer say of each other. -/
structure Accounts (controller : Controller (Audited ω)) : Prop where
  inserts : controller.inserts = .ofNat controller.writer.handed.length
  running : controller.isTerminated = false → controller.writer.terminations = 0
    ∧ controller.writer.handed.length = controller.writer.taken.length
  terminated : controller.isTerminated = true → controller.writer.terminations = 1
    ∧ (controller.writer.handed.length = controller.writer.taken.length
      ∨ controller.writer.handed.length = controller.writer.taken.length + 1)

open Controller

variable [RecordWriter ω] {before after : Controller (Audited ω)} {request : Request}
  {answer : Answer}

theorem Accounts.of_effect (h : Accounts before) (heffect : Effect before request answer after) :
    Accounts after := by
  cases heffect with
  | nothing hwriter hterminated hinserts =>
    obtain ⟨hin, hrunning, hstopped⟩ := h
    rw [← hwriter] at hin hrunning hstopped
    rw [← hterminated] at hrunning hstopped
    exact ⟨hinserts.trans hin, hrunning, hstopped⟩
  | stop hrunning hterminated hwriter hinserts =>
    obtain ⟨hnone, hlength⟩ := h.running hrunning
    refine ⟨?_, ?_, ?_⟩
    · rw [hinserts, h.inserts, hwriter, Audited.handed_terminate]
    · rw [hterminated]
      rintro ⟨⟩
    · rw [hwriter, Audited.terminations_terminate, Audited.handed_terminate,
        Audited.taken_terminate, hnone]
      exact fun _ => ⟨rfl, .inl hlength⟩
  | taken henabled hwrite =>
    obtain ⟨hrunning, -⟩ := isEnabled_iff.mp henabled
    obtain ⟨hnone, hlength⟩ := h.running hrunning
    refine ⟨?_, fun _ => ⟨?_, ?_⟩, ?_⟩
    · show before.inserts + 1 = _
      rw [h.inserts, Audited.handed_write hwrite, List.length_append]
      exact (UInt64.ofNat_add _ _).symm
    · exact (Audited.terminations_write hwrite).trans hnone
    · rw [Audited.handed_write hwrite, Audited.taken_write_ok hwrite, List.length_append,
        List.length_append, hlength]
    · rw [hrunning]
      rintro ⟨⟩
  | failed henabled hwrite =>
    obtain ⟨hrunning, -⟩ := isEnabled_iff.mp henabled
    obtain ⟨hnone, hlength⟩ := h.running hrunning
    refine ⟨?_, ?_, fun _ => ⟨?_, .inr ?_⟩⟩
    · show before.inserts + 1 = _
      rw [Audited.handed_terminate, h.inserts, Audited.handed_write hwrite, List.length_append]
      exact (UInt64.ofNat_add _ _).symm
    · rintro ⟨⟩
    · rw [Audited.terminations_terminate, Audited.terminations_write hwrite, hnone]
    · rw [Audited.handed_terminate, Audited.taken_terminate, Audited.handed_write hwrite,
        Audited.taken_write_error hwrite, List.length_append, hlength]
      rfl

/-- The writer has written what was granted. -/
theorem taken_of_effect (h : Effect before request answer after) :
    after.writer.taken = before.writer.taken ++ (granted? request answer).toList := by
  cases h with
  | nothing hwriter _ _ hgranted => rw [hwriter, hgranted, Option.toList_none, List.append_nil]
  | stop _ _ hwriter _ hgranted =>
    rw [hwriter, Audited.taken_terminate, hgranted, Option.toList_none, List.append_nil]
  | taken _ hwrite => exact Audited.taken_write_ok hwrite
  | failed _ hwrite =>
    rw [Audited.taken_terminate, Audited.taken_write_error hwrite]
    exact (List.append_nil _).symm

theorem handed_of_effect (h : Effect before request answer after) :
    before.writer.handed <+: after.writer.handed := by
  cases h with
  | nothing hwriter => exact hwriter ▸ List.prefix_refl _
  | stop _ _ hwriter =>
    have hhanded : after.writer.handed = before.writer.handed := by
      rw [hwriter, Audited.handed_terminate]
    exact hhanded ▸ List.prefix_refl _
  | taken _ hwrite =>
    rw [Audited.handed_write hwrite]
    exact List.prefix_append _ _
  | failed _ hwrite =>
    rw [Audited.handed_terminate, Audited.handed_write hwrite]
    exact List.prefix_append _ _

variable {controller : Controller (Audited ω)}

theorem Accounts.performAll (h : Accounts controller) (requests : List Request) :
    Accounts (controller.performAll requests).2 := by
  induction requests generalizing controller with
  | nil => exact h
  | cons request requests ih => exact ih (h.of_effect (controller.perform_effect request))

theorem taken_performAll (controller : Controller (Audited ω)) (requests : List Request) :
    (controller.performAll requests).2.writer.taken
      = controller.writer.taken ++ granted requests (controller.performAll requests).1 := by
  induction requests generalizing controller with
  | nil => exact (List.append_nil _).symm
  | cons request requests ih =>
    rw [performAll_cons, granted_cons, ih, taken_of_effect (controller.perform_effect request),
      List.append_assoc]

theorem handed_performAll (controller : Controller (Audited ω)) (requests : List Request) :
    controller.writer.handed <+: (controller.performAll requests).2.writer.handed := by
  induction requests generalizing controller with
  | nil => exact List.prefix_refl _
  | cons request requests ih =>
    exact (handed_of_effect (controller.perform_effect request)).trans (ih _)

omit [RecordWriter ω] in
/-- A new controller, whose writer was asked for nothing. -/
theorem accounts_ofConfig (config : Config.Monitoring) (first : Int64) (writer : ω) :
    Accounts (ofConfig config first { writer : Audited ω }) where
  inserts := rfl
  running _ := ⟨rfl, rfl⟩
  terminated := nofun

/-! ## Logs -/

section Logs

open Log

variable {log : Controller (Audited LogWriter)} {all : List String} {records : List Record}

theorem encoder_of_write {audited next : Audited LogWriter} {record : Record}
    {result : Except Error Unit} (h : RecordWriter.write audited record = (result, next)) :
    audited.writer.encoder.write record
        = ((audited.writer.encoder.write record).1, next.writer.encoder)
      ∧ result = (audited.writer.encoder.write record).1.mapError .log := by
  obtain ⟨rfl, rfl⟩ := Prod.mk.inj h
  exact ⟨rfl, rfl⟩

/-- **The log of a controller can be read**, and means what was there before and what was granted.
The induction is on the requests; the log is one that the encoder keeps until monitoring stops, and
from then on it stays as it is. -/
theorem readable_performAll (hrunning : log.isTerminated = false)
    (hkeeps : Keeps all log.writer.writer.encoder records) (hall : all.dedup.length < 2 ^ 31)
    (requests : List Request)
    (hsub : ∀ r ∈ (log.performAll requests).2.writer.handed, textsOf r ⊆ all) :
    Readable (log.performAll requests).2.writer.writer.encoder.sink.stored
      (records ++ granted requests (log.performAll requests).1) := by
  induction requests generalizing log records with
  | nil =>
    rw [show granted [] (log.performAll []).1 = [] from rfl, List.append_nil]
    exact hkeeps.readable
  | cons request requests ih =>
    have heffect := log.perform_effect request
    rw [performAll_cons] at hsub ⊢
    rw [granted_cons]
    generalize (log.perform request).1 = answer, (log.perform request).2 = next
      at heffect hsub ⊢
    cases heffect with
    | nothing hwriter hterminated _ hgranted =>
      rw [hgranted]
      rw [← hwriter] at hkeeps
      exact ih (hterminated.trans hrunning) hkeeps hsub
    | stop _ hterminated hwriter _ hgranted =>
      obtain ⟨hlast, -, hnone⟩ := performAll_of_terminated hterminated requests
      rw [hgranted, hnone, hlast, hwriter]
      exact (List.append_nil records).symm ▸ hkeeps.readable
    | @taken record writer henabled hwrite =>
      obtain ⟨hencoder, hresult⟩ := encoder_of_write hwrite
      have htexts := hsub record
        ((handed_performAll _ requests).subset (Audited.mem_handed_write hwrite))
      cases hok : (log.writer.writer.encoder.write record).1 with
      | error fault => rw [hok] at hresult; cases hresult
      | ok =>
        rw [hok] at hencoder
        have hnext : ({ log with inserts := log.inserts + 1, writer } :
          Controller (Audited LogWriter)).isTerminated = false := hrunning
        have hrest := ih hnext (hkeeps.write_ok hall htexts hencoder) hsub
        rw [List.append_assoc] at hrest
        exact hrest
    | @failed record writer e henabled hwrite =>
      obtain ⟨hencoder, hresult⟩ := encoder_of_write hwrite
      have hnext : ({ log with
          isTerminated := true
          inserts := log.inserts + 1
          writer := RecordWriter.terminate writer } :
        Controller (Audited LogWriter)).isTerminated = true := rfl
      obtain ⟨hlast, -, hnone⟩ := performAll_of_terminated hnext requests
      have htexts : textsOf record ⊆ all := by
        refine hsub record ?_
        rw [hlast, Audited.handed_terminate]
        exact Audited.mem_handed_write hwrite
      cases hfault : (log.writer.writer.encoder.write record).1 with
      | ok => rw [hfault] at hresult; cases hresult
      | error fault =>
        rw [hfault] at hencoder
        rw [hnone, hlast]
        exact (List.append_nil records).symm ▸ hkeeps.write_error hall htexts hencoder

end Logs

/-! ## Controllers from their start to their end -/

/-- What a controller has asked of its writer when it was asked for all this. -/
structure FailsFast (start : Controller (Audited ω)) (requests : List Request) : Prop where
  terminated : (start.performAll requests).2.writer.terminations ≤ 1
  dropped : (start.performAll requests).2.drop.writer.terminations = 1
  /-- Nothing is handed on behind an answer that monitoring has stopped. -/
  stopped : ∀ front rest, requests = front ++ rest →
    (∃ answer ∈ (start.performAll front).1, answer.isStop = true) →
    (start.performAll requests).2.drop.writer.handed = (start.performAll front).2.writer.handed
  inserts : (start.performAll requests).2.inserts
    = .ofNat (start.performAll requests).2.writer.handed.length
  taken : (start.performAll requests).2.writer.taken
    = granted requests (start.performAll requests).1
  refused : (start.performAll requests).2.writer.handed.length
      = (granted requests (start.performAll requests).1).length
    ∨ (start.performAll requests).2.writer.handed.length
      = (granted requests (start.performAll requests).1).length + 1

omit [RecordWriter ω] in
theorem Accounts.terminations_le (h : Accounts controller) :
    controller.writer.terminations ≤ 1 := by
  cases hterminated : controller.isTerminated with
  | true => exact Nat.le_of_eq (h.terminated hterminated).1
  | false =>
    rw [(h.running hterminated).1]
    exact Nat.zero_le 1

theorem Accounts.terminations_drop (h : Accounts controller) :
    controller.drop.writer.terminations = 1 := by
  have heffect : Effect controller .terminate _ controller.drop :=
    controller.perform_effect .terminate
  exact ((h.of_effect heffect).terminated controller.isTerminated_terminate).1

theorem failsFast {start : Controller (Audited ω)} (h : Accounts start)
    (hnone : start.writer.taken = []) (requests : List Request) : FailsFast start requests := by
  have hafter := h.performAll requests
  have htaken := taken_performAll start requests
  rw [hnone, List.nil_append] at htaken
  refine ⟨hafter.terminations_le, hafter.terminations_drop, ?_, hafter.inserts, htaken, ?_⟩
  · rintro front rest rfl ⟨answer, hanswer, hstop⟩
    have hterminated := isTerminated_of_isStop hanswer hstop
    rw [drop, Controller.handed_terminate, performAll_append,
      (performAll_of_terminated hterminated rest).1]
  · rw [← htaken]
    cases hterminated : (start.performAll requests).2.isTerminated with
    | true => exact (hafter.terminated hterminated).2
    | false => exact .inl (hafter.running hterminated).2

/--
**Monitoring fails fast, and the log can be read.** A new controller is asked for anything in any
order. Whatever its writer does, the writer is terminated at most once, and exactly once when the
controller is dropped; behind the first error of the writer, the first report of invalid correlation
data or the termination no record is handed on; the count of inserts is that of the records handed
on, which are those that were granted and at most one more. If the writer keeps a log on an output
that may fail at any write, with a front of the bytes stored, a reader of the log is given the
records that were granted and then the end of the log, or bytes are missing. As in every log, the
records have fewer than `2 ^ 31` distinct texts.
-/
theorem monitoring_fails_fast (config : Config.Monitoring) (first : Int64) :
    (∀ (writer : ω) (requests : List Request),
      FailsFast (ofConfig config first { writer : Audited ω }) requests)
    ∧ ∀ (room : Nat → Nat → Option Nat) (turns : Nat → Log.Turn) (requests : List Request),
      let log : Audited LogWriter := { writer := { encoder := { sink := { room } } } }
      let run := (ofConfig config first log).performAll requests
      (run.2.writer.handed.flatMap Log.textsOf).dedup.length < 2 ^ 31 →
      ∃ final, (Log.Decoder.ofSource
          (.withTurns run.2.drop.writer.writer.encoder.sink.stored turns none)).allAnswers.1
            = (granted requests run.1).map (fun r => .ok (some r)) ++ [final]
        ∧ (final = .ok none
          ∨ ∃ needed available, final = .error (.underflow needed available)) := by
  constructor
  · intro writer requests
    exact failsFast (accounts_ofConfig config first writer) rfl requests
  · intro room turns requests log run hdistinct
    have hkeeps : Log.Keeps (run.2.writer.handed.flatMap Log.textsOf)
        (ofConfig config first log).writer.writer.encoder [] :=
      ⟨[], rfl, rfl, Log.inStep_empty _⟩
    have hsub : ∀ r ∈ run.2.writer.handed,
        Log.textsOf r ⊆ run.2.writer.handed.flatMap Log.textsOf := by
      intro r hr text htext
      exact List.mem_flatMap.mpr ⟨r, hr, htext⟩
    have hreadable := readable_performAll rfl hkeeps hdistinct requests hsub
    have hdrop : run.2.drop.writer.writer = run.2.writer.writer := by
      unfold drop terminate
      split <;> rfl
    rw [hdrop]
    exact hreadable.allAnswers turns

/-- An output that takes one byte of its fifth write and fails, and then takes everything again. -/
def stumbling : Nat → Nat → Option Nat := fun _ writes => if writes = 4 then some 1 else none

/-- A record that can be written, one that cannot, and one when writing was switched on again. -/
def threeWrites : List Request :=
  [.write (.branching ⟨1, 2, 3⟩), .write (.execution default), .setWriting true,
    .write (.branching ⟨4, 5, 6⟩)]

/-- Only the first record gets into the log, and the log can be read. -/
theorem fails_fast_when_stumbling :
    let log : Audited LogWriter := { writer := { encoder := { sink := { room := stumbling } } } }
    let run := (ofConfig {} 0 log).performAll threeWrites
    (run.2.writer.handed.flatMap Log.textsOf).dedup.length < 2 ^ 31
      ∧ run.2.drop.writer.terminations = 1
      ∧ run.2.writer.taken = [.branching ⟨1, 2, 3⟩]
      ∧ ∃ final, (Log.Decoder.ofSource (.withTurns
          run.2.drop.writer.writer.encoder.sink.stored (fun _ => {}) none)).allAnswers.1
        = [.ok (some (.branching ⟨1, 2, 3⟩)), final] := by
  intro log run
  obtain ⟨hfails, hlogs⟩ := monitoring_fails_fast (ω := LogWriter) {} 0
  have hdistinct : (run.2.writer.handed.flatMap Log.textsOf).dedup.length < 2 ^ 31 := by
    decide +kernel
  have hgranted : granted threeWrites run.1 = [.branching ⟨1, 2, 3⟩] := by decide +kernel
  obtain ⟨final, hanswers, -⟩ := hlogs stumbling (fun _ => {}) threeWrites hdistinct
  have hfast := hfails log.writer threeWrites
  rw [show granted threeWrites _ = _ from hgranted] at hanswers
  exact ⟨hdistinct, hfast.dropped, hfast.taken.trans hgranted, final, hanswers⟩

end CallTrace.Monitoring
