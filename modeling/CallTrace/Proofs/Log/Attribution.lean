import CallTrace.Proofs.Log.Reading
import CallTrace.Readers

/-!
# Which texts replayed records get

A log announces the text of a number before the records that refer to it, and should announce only
one. Where logs are appended to each other, a number may be *contested*: different texts are
announced under it. A reader then goes by the first of them (`lookup_interpret`), for the later ones
are refused and leave no trace. So all that a reader knows of the frames before a record is the
first text under each number, and this decides about the record:

* it is passed over when one of its numbers is *unknown*, with no text announced under it
  (`Frame.record?_eq_none_iff`);
* otherwise it is given out with the first texts, contested or not
  (`Frame.record?_execution_eq_some_iff`).

`LogReader.attributes_first_texts` says this of every sequence of frames. Passing over faults does
therefore not protect against records with the texts of another log.
-/

namespace CallTrace.Log

open Layout Pipeline

/-! ## Announcements -/

/-- The text that a frame announces, whether or not its number is still free. -/
def Frame.announcement? : Frame → Option (Int32 × String)
  | text id content _ =>
    if id < 0 then none else (Bytes.toText? content).map fun text => (id, text)
  | execution _ => none
  | branching _ => none

/-- The announcements of a sequence of frames, in their order. -/
def announcements (frames : List Frame) : KnownTexts := frames.filterMap Frame.announcement?

/-- Different texts are announced under the number. -/
def IsContested (frames : List Frame) (id : Int32) : Prop :=
  ∃ text other, (id, text) ∈ announcements frames ∧ (id, other) ∈ announcements frames
    ∧ text ≠ other

/-- No text is announced under the number. -/
def IsUnknown (frames : List Frame) (id : Int32) : Prop :=
  ∀ text, (id, text) ∉ announcements frames

theorem lookup_announcements_eq_none_iff {frames : List Frame} {id : Int32} :
    (announcements frames).lookup id = none ↔ IsUnknown frames id := by
  rw [List.lookup_eq_none_iff]
  constructor
  · intro h text hmem
    have := h _ hmem
    simp at this
  · rintro h ⟨other, text⟩ hmem
    by_cases hid : id = other
    · subst hid
      exact absurd hmem (h text)
    · simpa using hid

/-- A frame teaches its announcement unless the number is taken. -/
theorem Frame.announced_eq (known : KnownTexts) (f : Frame) :
    f.announced known
      = f.announcement?.bind fun entry =>
          if known.lookup entry.1 = none then some entry else none := by
  cases f with
  | text id content h =>
    unfold announced announcement?
    by_cases h0 : id < 0
    · simp [h0]
    · cases ht : Bytes.toText? content <;> cases hl : known.lookup id <;>
        simp [h0, ht, hl]
  | execution raw => rfl
  | branching b => rfl

theorem Frame.lookup_learn (known : KnownTexts) (f : Frame) (id : Int32) :
    (f.learn known).lookup id = (known ++ f.announcement?.toList).lookup id := by
  rw [Frame.learn, Frame.announced_eq]
  cases ha : f.announcement? with
  | none => rfl
  | some entry =>
    obtain ⟨taken, text⟩ := entry
    cases hl : known.lookup taken with
    | none => simp [hl]
    -- a second text under a taken number stands behind the first one and is never found
    | some bound =>
      by_cases hid : id = taken
      · subst hid
        simp [List.lookup_append, hl]
      · simp [List.lookup_append, hl, List.lookup_cons, beq_eq_false_iff_ne.mpr hid]

/-- **Of the texts announced under a number, a reader knows the first.** -/
theorem lookup_interpret (known : KnownTexts) (frames : List Frame) (id : Int32) :
    (interpret known frames).2.lookup id = (known ++ announcements frames).lookup id := by
  induction frames generalizing known with
  | nil => simp [announcements]
  | cons f frames ih =>
    have hcons : announcements (f :: frames) = f.announcement?.toList ++ announcements frames := by
      cases h : f.announcement? <;> simp [announcements, h]
    rw [interpret_cons, ih, hcons, ← List.append_assoc, List.lookup_append, Frame.lookup_learn,
      ← List.lookup_append]

/-! ## Records -/

/-- The numbers that a frame refers to. -/
def Frame.references : Frame → List Int32
  | execution raw => raw.ids
  | text .. => []
  | branching _ => []

/-- The record that a frame behind others stands for, if all its numbers do. -/
def Frame.record? (before : List Frame) : Frame → Option Record
  | text .. => none
  | execution raw =>
    (raw.resolve fun id => (announcements before).lookup id).toOption.map .execution
  | branching b => some (.branching b)

/-- The records of frames that come behind others. -/
def recordsBehind (before : List Frame) : List Frame → List Record
  | [] => []
  | f :: frames => (f.record? before).toList ++ recordsBehind (before ++ [f]) frames

/-- The records of a log. -/
def records (frames : List Frame) : List Record := recordsBehind [] frames

theorem recordsBehind_append (before frames more : List Frame) :
    recordsBehind before (frames ++ more)
      = recordsBehind before frames ++ recordsBehind (before ++ frames) more := by
  induction frames generalizing before with
  | nil => simp [recordsBehind]
  | cons f frames ih => simp [recordsBehind, ih]

/-- What a log gives out for the frame at a place depends on the frames before it alone. -/
theorem records_at (before : List Frame) (f : Frame) (after : List Frame) :
    records (before ++ f :: after)
      = records before ++ (f.record? before).toList ++ recordsBehind (before ++ [f]) after := by
  simp [records, recordsBehind_append, recordsBehind]

/-- The execution has the fields, each text being the one of its number. -/
structure Resolves (text? : Int32 → Option String) (raw : RawExecution) (e : Execution) :
    Prop where
  component : text? raw.component = some e.component
  operation : text? raw.operation = some e.operation
  session : text? raw.session = some e.session
  traceId : e.traceId = raw.traceId
  tin : e.tin = raw.tin
  tout : e.tout = raw.tout
  host : text? raw.host = some e.host
  eoi : e.eoi = raw.eoi
  ess : e.ess = raw.ess

/-- What an execution is resolved to has the texts of all its numbers. -/
theorem resolve_eq_ok_iff {text? : Int32 → Option String} {raw : RawExecution} {e : Execution} :
    raw.resolve text? = .ok e ↔ Resolves text? raw e := by
  unfold RawExecution.resolve
  constructor
  · intro h
    split at h
    · cases h
    · next hfind =>
      have hsome : ∀ id ∈ raw.ids, text? id = some ((text? id).getD "") := by
        intro id hid
        have hnone := List.find?_eq_none.mp hfind id hid
        cases hid : text? id with
        | none => simp [hid] at hnone
        | some text => rfl
      simp only [RawExecution.ids, List.mem_cons, List.not_mem_nil, or_false, forall_eq_or_imp,
        forall_eq] at hsome
      obtain ⟨hcomponent, hoperation, hsession, hhost⟩ := hsome
      cases h
      exact ⟨hcomponent, hoperation, hsession, rfl, rfl, rfl, hhost, rfl, rfl⟩
  · intro h
    have hfind : raw.ids.find? (fun id => (text? id).isNone) = none := by
      simp [RawExecution.ids, h.component, h.operation, h.session, h.host]
    rw [hfind]
    simp [h.component, h.operation, h.session, h.host, ← h.traceId, ← h.tin, ← h.tout, ← h.eoi,
      ← h.ess]

/-- An execution is not resolved exactly when one of its numbers has no text. -/
theorem exists_resolve_error_iff {text? : Int32 → Option String} {raw : RawExecution} :
    (∃ fault, raw.resolve text? = .error fault) ↔ ∃ id ∈ raw.ids, text? id = none := by
  unfold RawExecution.resolve
  cases hfind : raw.ids.find? fun id => (text? id).isNone with
  | none =>
    have hknown : ¬ ∃ id ∈ raw.ids, text? id = none := by
      rintro ⟨id, hid, hnone⟩
      have := List.find?_eq_none.mp hfind id hid
      simp [hnone] at this
    simpa using hknown
  | some id =>
    have hnone := List.find?_some hfind
    refine iff_of_true ⟨_, rfl⟩ ⟨id, List.mem_of_find?_eq_some hfind, ?_⟩
    simpa using hnone

/-- **A frame of an execution is passed over exactly when one of its numbers is unknown.** -/
theorem Frame.record?_execution_eq_none_iff {before : List Frame} {raw : RawExecution} :
    (Frame.execution raw).record? before = none ↔ ∃ id ∈ raw.ids, IsUnknown before id := by
  simp only [← lookup_announcements_eq_none_iff, ← exists_resolve_error_iff, Frame.record?,
    Option.map_eq_none_iff]
  cases raw.resolve _ <;> simp [Except.toOption]

/-- **Otherwise it is given out with the first texts of its numbers.** -/
theorem Frame.record?_execution_eq_some_iff {before : List Frame} {raw : RawExecution}
    {r : Record} :
    (Frame.execution raw).record? before = some r ↔
      ∃ e, r = .execution e ∧ Resolves (fun id => (announcements before).lookup id) raw e := by
  simp only [← resolve_eq_ok_iff, Frame.record?, Option.map_eq_some_iff]
  constructor
  · rintro ⟨e, he, rfl⟩
    refine ⟨e, rfl, ?_⟩
    cases hresolve : raw.resolve _ with
    | error fault => simp [hresolve, Except.toOption] at he
    | ok other => simpa [hresolve, Except.toOption] using he
  · rintro ⟨e, rfl, hresolve⟩
    exact ⟨e, by simp [hresolve, Except.toOption], rfl⟩

/-! ## Replaying -/

namespace Decoder

variable {decoder : Decoder}

theorem replay_step (skipsMalformed : Bool) (decoder : Decoder) :
    decoder.replay skipsMalformed = match stepOf skipsMalformed decoder.next.1 with
      | .record r =>
        (r :: (decoder.next.2.replay skipsMalformed).1, (decoder.next.2.replay skipsMalformed).2)
      | .skip => decoder.next.2.replay skipsMalformed
      | .stop fault => ([], fault, decoder.next.2) := by
  rw [replay]
  split
  next answer next hnext =>
  rw [hnext]
  split <;> next h => simp [h]

/-- What passing over faults makes of the answer to a frame. -/
theorem stepOf_answer {before : List Frame} {f : Frame} {answer : Answer}
    (h : f.answer (interpret [] before).2 = some answer) :
    stepOf true answer = match f.record? before with
      | some r => .record r
      | none => .skip := by
  cases f with
  -- a text frame that is answered is a bad one, and its fault can be passed over
  | text id content hc =>
    rcases Frame.answer_text (interpret [] before).2 id content hc with hnone | ⟨fault, hfault⟩
    · rw [hnone] at h
      cases h
    · obtain ⟨r, hr⟩ | ⟨_, hr, hrecoverable⟩ := Frame.goesOn_of_answer h
      · rw [hr, hfault] at h
        cases h
      · simp [hr, stepOf, hrecoverable, Frame.record?]
  | execution raw =>
    have hlookup : (fun id => (interpret [] before).2.lookup id)
        = fun id => (announcements before).lookup id := by
      funext id
      rw [lookup_interpret, List.nil_append]
    simp only [Frame.answer, hlookup, Option.some.injEq] at h
    subst h
    cases hresolve : raw.resolve fun id => (announcements before).lookup id with
    | ok e =>
      simp only [Frame.record?, hresolve]
      rfl
    | error fault =>
      have hgoes := goesOn_resolve (fun id => (announcements before).lookup id) raw
      rw [hresolve] at hgoes
      obtain ⟨r, hr⟩ | ⟨_, hr, hrecoverable⟩ := hgoes
      · cases hr
      · cases hr
        simp only [Frame.record?, hresolve]
        simp [stepOf, hrecoverable, Except.map, Except.toOption]
  | branching b =>
    cases h
    rfl

/-- **Replaying frames gives out their records**, and nothing is wrong with them in the end. -/
theorem At.replay {frames : List Frame} (h : decoder.At (framesBytes frames)) (before : List Frame)
    (hk : Knows decoder.table (interpret [] before).2) :
    ∃ last, decoder.replay true = (recordsBehind before frames, none, last) := by
  induction frames generalizing decoder before with
  | nil =>
    obtain ⟨source, hnext⟩ := h.next_nil
    refine ⟨{ decoder with source }, ?_⟩
    rw [replay_step, hnext]
    rfl
  | cons f frames ih =>
    obtain ⟨after, hat, hknows, hnext⟩ := h.next_frame hk
    have hlearn : (interpret [] (before ++ [f])).2 = f.learn (interpret [] before).2 := by
      rw [interpret_append]
      rfl
    rw [← hlearn] at hknows
    obtain ⟨last, hlast⟩ := ih hat (before ++ [f]) hknows
    refine ⟨last, ?_⟩
    cases hanswer : f.answer (interpret [] before).2 with
    -- a silent frame is a text; the next call answers what is behind it
    | none =>
      have hrecord : f.record? before = none := by
        cases f with
        | text => rfl
        | execution => cases hanswer
        | branching => cases hanswer
      rw [hanswer] at hnext
      rw [replay_step, hnext, ← replay_step, hlast, recordsBehind, hrecord]
      rfl
    | some answer =>
      rw [hanswer] at hnext
      rw [replay_step, hnext, stepOf_answer hanswer, recordsBehind]
      cases f.record? before <;> simp [hlast]

end Decoder

end CallTrace.Log

namespace CallTrace.LogReader

open Pipeline Log

/-- A reader that passes over faults gives out the records of the frames. -/
theorem read_framesBytes (frames : List Frame) (turns : Nat → Turn) (stage : StageId) :
    ∃ last, (LogReader.ofSource (.withTurns (framesBytes frames) turns none) true).read
        { stage, isTerminated := false }
      = do
        Callback.sendAll ((records frames).map fun r => (output, .record r))
        return (.returned, { decoder := last, skipsMalformed := true }) := by
  obtain ⟨last, hreplay⟩ :=
    (Decoder.at_ofSource (framesBytes frames) turns).replay [] Decoder.knows_nil
  refine ⟨last, ?_⟩
  simp only [read, ofSource, hreplay]
  rfl

/-- **Records get the first texts of their numbers.** However whole frames arrive, a reader that
passes over faults gives out their records, returns, and the record of a frame depends on what was
announced before it: it is missing exactly when the frame is a text or refers to an unknown number,
and an execution has the first text of each number it refers to. Hence the frames that refer to
contested numbers are passed over just when each of them refers to an unknown one as well. -/
theorem attributes_first_texts (frames : List Frame) (turns : Nat → Turn) (stage : StageId) :
    (∃ last, (LogReader.ofSource (.withTurns (framesBytes frames) turns none) true).read
          { stage, isTerminated := false }
        = do
          Callback.sendAll ((records frames).map fun r => (output, .record r))
          return (.returned, { decoder := last, skipsMalformed := true }))
      ∧ (∀ before f after, frames = before ++ f :: after →
          records frames = records before ++ (f.record? before).toList
            ++ recordsBehind (before ++ [f]) after
          ∧ ∀ raw, f = .execution raw →
            (f.record? before = none ↔ ∃ id ∈ raw.ids, IsUnknown before id)
            ∧ ∀ r, f.record? before = some r ↔
              ∃ e, r = .execution e
                ∧ Resolves (fun id => (announcements before).lookup id) raw e)
      ∧ ((∀ before f after, frames = before ++ f :: after →
            (∃ id ∈ f.references, IsContested before id) → f.record? before = none)
          ↔ ∀ before f after, frames = before ++ f :: after →
            (∃ id ∈ f.references, IsContested before id) →
              ∃ id ∈ f.references, IsUnknown before id) := by
  refine ⟨read_framesBytes frames turns stage, ?_, ?_⟩
  · rintro before f after rfl
    refine ⟨records_at before f after, ?_⟩
    rintro raw rfl
    exact ⟨Frame.record?_execution_eq_none_iff, fun r => Frame.record?_execution_eq_some_iff⟩
  · -- only executions refer to numbers
    have hskipped : ∀ before (f : Frame), (∃ id ∈ f.references, IsContested before id) →
        (f.record? before = none ↔ ∃ id ∈ f.references, IsUnknown before id) := by
      rintro before f ⟨id, hid, -⟩
      cases f with
      | text => cases hid
      | execution raw => exact Frame.record?_execution_eq_none_iff
      | branching => cases hid
    constructor
    · intro h before f after hframes hcontested
      exact (hskipped before f hcontested).mp (h before f after hframes hcontested)
    · intro h before f after hframes hcontested
      exact (hskipped before f hcontested).mpr (h before f after hframes hcontested)

/-- Two logs in one file: each announces the texts of its only execution under the numbers from
zero. -/
def appendedLogs : List Frame :=
  [.text 0 (Bytes.ofText "shop.Cart") (by decide +kernel),
    .text 1 (Bytes.ofText "add()") (by decide +kernel),
    .text 2 (Bytes.ofText "s1") (by decide +kernel), .text 3 (Bytes.ofText "h1") (by decide +kernel),
    .execution ⟨0, 1, 2, 1, 10, 20, 3, 0, 0⟩,
    .text 0 (Bytes.ofText "bank.Vault") (by decide +kernel),
    .text 1 (Bytes.ofText "open()") (by decide +kernel),
    .text 2 (Bytes.ofText "s1") (by decide +kernel), .text 3 (Bytes.ofText "h1") (by decide +kernel),
    .execution ⟨0, 1, 2, 2, 30, 40, 3, 0, 0⟩]

/-- The execution of the second log refers to contested numbers and is given out all the same, as an
execution of what the first log is about. -/
theorem contested_execution_given_out :
    appendedLogs[9]? = some (.execution ⟨0, 1, 2, 2, 30, 40, 3, 0, 0⟩)
      ∧ IsContested (appendedLogs.take 9) 0 ∧ IsContested (appendedLogs.take 9) 1
      ∧ ∃ last, (LogReader.ofSource
            (.withTurns (framesBytes appendedLogs) (fun _ => {}) none) true).read ⟨⟨0⟩, false⟩
        = do
          Callback.sendAll
            [(output, .record (.execution ⟨"shop.Cart", "add()", "s1", 1, 10, 20, "h1", 0, 0⟩)),
              (output, .record (.execution ⟨"shop.Cart", "add()", "s1", 2, 30, 40, "h1", 0, 0⟩))]
          return (.returned, { decoder := last, skipsMalformed := true }) := by
  have hrecords : records appendedLogs
      = [.execution ⟨"shop.Cart", "add()", "s1", 1, 10, 20, "h1", 0, 0⟩,
        .execution ⟨"shop.Cart", "add()", "s1", 2, 30, 40, "h1", 0, 0⟩] := by
    simp [records, recordsBehind, appendedLogs, Frame.record?, announcements, List.filterMap_cons,
      Frame.announcement?, Bytes.toText?_ofText, Layout.RawExecution.resolve,
      Layout.RawExecution.ids, Except.toOption, List.lookup_cons]
  have hannounced : announcements (appendedLogs.take 9)
      = [(0, "shop.Cart"), (1, "add()"), (2, "s1"), (3, "h1"), (0, "bank.Vault"), (1, "open()"),
        (2, "s1"), (3, "h1")] := by
    simp [appendedLogs, announcements, List.filterMap_cons, Frame.announcement?,
      Bytes.toText?_ofText]
  refine ⟨rfl, ⟨"shop.Cart", "bank.Vault", ?_⟩, ⟨"add()", "open()", ?_⟩, ?_⟩
  · simp [hannounced]
  · simp [hannounced]
  · obtain ⟨last, hread⟩ := read_framesBytes appendedLogs (fun _ => {}) ⟨0⟩
    exact ⟨last, by rw [hread, hrecords]; rfl⟩

end CallTrace.LogReader
