import CallTrace.Proofs.Log.Encoding
import Mathlib.Data.List.Dedup
import Mathlib.Data.List.Perm.Subperm

/-!
# The frames of a record

Which frames a record needs depends on the texts announced so far and on nothing else (`outline`):
a text frame for each text that is new, in the order in which they are announced, and the record's
own frame. A text that is refused ends the record before its own frame; the texts before it stay
announced.

Encoding stores the frames of the outline as far as there is room (`write_of_fits`) and, once there
is none left, nothing (`write_of_exceeds`).
-/

namespace CallTrace.Log

open Layout hiding bind_of_ok bind_of_error
open Steps

/-- What it takes to write something: its frames, the fault that ends it, and the texts that are
announced afterwards. -/
structure Outline where
  frames : List Frame
  fault : Option Fault
  table : StringTable

/-- The outline of announcing texts one after the other. -/
def outlineTexts (table : StringTable) : List String → Outline
  | [] => ⟨[], none, table⟩
  | text :: texts =>
    if h : (Bytes.ofText text).length ≤ maxTextLength then
      match table.idOf? text with
      | some _ => outlineTexts table texts
      | none =>
        if table.nextId = Int32.maxValue then ⟨[], some .noNumberLeft, table⟩
        else
          let rest := outlineTexts (table.intern text).2 texts
          { rest with frames := .text table.nextId (Bytes.ofText text) h :: rest.frames }
    else ⟨[], some (.stringTooLong (-1) (Bytes.ofText text).length), table⟩

/-- The texts that a record refers to. -/
def textsOf : Record → List String
  | .execution e => Encoder.texts e
  | .branching _ => []

/-- The layout of an execution whose texts have numbers. -/
def numbered (table : StringTable) (e : Execution) : RawExecution where
  component := (table.idOf? e.component).getD 0
  operation := (table.idOf? e.operation).getD 0
  session := (table.idOf? e.session).getD 0
  traceId := e.traceId
  tin := e.tin
  tout := e.tout
  host := (table.idOf? e.host).getD 0
  eoi := e.eoi
  ess := e.ess

/-- The frame of a record whose texts are announced. -/
def recordFrame (table : StringTable) : Record → Frame
  | .execution e => .execution (numbered table e)
  | .branching b => .branching b

/-- The outline of a record. -/
def outline (table : StringTable) (r : Record) : Outline :=
  let texts := outlineTexts table (textsOf r)
  match texts.fault with
  | some _ => texts
  | none => { texts with frames := texts.frames ++ [recordFrame texts.table r] }

variable {table : StringTable} {text : String} {texts : List String} {id : Int32}

theorem outlineTexts_known (hmax : (Bytes.ofText text).length ≤ maxTextLength)
    (hid : table.idOf? text = some id) :
    outlineTexts table (text :: texts) = outlineTexts table texts := by
  simp only [outlineTexts, dif_pos hmax, hid]

theorem outlineTexts_new (hmax : (Bytes.ofText text).length ≤ maxTextLength)
    (hnew : table.idOf? text = none) (hnext : table.nextId ≠ Int32.maxValue) :
    outlineTexts table (text :: texts)
      = { outlineTexts (table.intern text).2 texts with
          frames := .text table.nextId (Bytes.ofText text) hmax
            :: (outlineTexts (table.intern text).2 texts).frames } := by
  simp only [outlineTexts, dif_pos hmax, hnew, if_neg hnext]

theorem outlineTexts_refused {fault : Fault} (h : Encoder.Refuses table text fault) :
    outlineTexts table (text :: texts) = ⟨[], some fault, table⟩ := by
  cases h with
  | tooLong hlong => simp only [outlineTexts, dif_neg (Nat.not_le.mpr hlong)]
  | noNumber hmax hnew hlast => simp only [outlineTexts, dif_pos hmax, hnew, if_pos hlast]

/-- Only its texts can keep a record from being written. -/
theorem fault_outline (table : StringTable) (r : Record) :
    (outline table r).fault = (outlineTexts table (textsOf r)).fault := by
  cases hfault : (outlineTexts table (textsOf r)).fault <;> simp only [outline, hfault]

/-- A text that has a number keeps it while others are announced. -/
theorem idOf?_outlineTexts (h : table.idOf? text = some id) :
    (outlineTexts table texts).table.idOf? text = some id := by
  induction texts generalizing table with
  | nil => exact h
  | cons first texts ih =>
    cases Encoder.announcing table first with
    | known hmax hid => rw [outlineTexts_known hmax hid, ih h]
    | refused hrefused => rw [outlineTexts_refused hrefused, h]
    | new hmax hnew hnext =>
      rw [outlineTexts_new hmax hnew hnext]
      refine ih ?_
      rw [StringTable.idOf?_intern_of_unknown hnew hnext, if_neg, h]
      rintro rfl
      rw [hnew] at h
      cases h

/-- Texts that were announced without a fault have numbers. -/
theorem exists_id_of_outlineTexts (h : (outlineTexts table texts).fault = none) :
    ∀ text ∈ texts, ∃ id, (outlineTexts table texts).table.idOf? text = some id := by
  induction texts generalizing table with
  | nil => simp
  | cons first texts ih =>
    cases Encoder.announcing table first with
    | known hmax hid =>
      rw [outlineTexts_known hmax hid] at h ⊢
      rintro text (_ | ⟨_, hmem⟩)
      · exact ⟨_, idOf?_outlineTexts hid⟩
      · exact ih h text hmem
    | new hmax hnew hnext =>
      rw [outlineTexts_new hmax hnew hnext] at h ⊢
      rintro text (_ | ⟨_, hmem⟩)
      · refine ⟨table.nextId, idOf?_outlineTexts ?_⟩
        rw [StringTable.idOf?_intern_of_unknown hnew hnext, if_pos rfl]
      · exact ih h text hmem
    | refused hrefused =>
      rw [outlineTexts_refused hrefused] at h
      cases h

/-! ## Encoding follows the outline -/

theorem overlay_ok (fields : List Bytes) (buffer : Bytes) :
    overlay (fields.map .ok) buffer
      = (.ok (), fields.flatten ++ buffer.drop fields.flatten.length) := by
  induction fields generalizing buffer with
  | nil => simp [overlay]
  | cons field fields ih => simp [overlay, ih, List.drop_drop]

theorem textField_of_id (h : ∃ id, table.idOf? text = some id) :
    textField table text = .ok (Bytes.ofInt32 ((table.idOf? text).getD 0)) := by
  obtain ⟨id, h⟩ := h
  simp [textField, h]

/-- An execution whose texts have numbers is laid out whole, and what lies behind the layout stays
as it was. -/
theorem writeExecution_numbered {e : Execution} {buffer : Bytes}
    (h : ∀ text ∈ Encoder.texts e, ∃ id, table.idOf? text = some id)
    (hfits : executionSize ≤ buffer.length) :
    writeExecution table e buffer
      = (.ok (), (numbered table e).bytes ++ buffer.drop executionSize) := by
  have hfields : executionFields table e = List.map .ok
      [Bytes.ofInt32 (numbered table e).component, Bytes.ofInt32 (numbered table e).operation,
        Bytes.ofInt32 (numbered table e).session, Bytes.ofInt64 e.traceId, Bytes.ofInt64 e.tin,
        Bytes.ofInt64 e.tout, Bytes.ofInt32 (numbered table e).host, Bytes.ofInt32 e.eoi,
        Bytes.ofInt32 e.ess] := by
    simp only [Encoder.texts, List.mem_cons, List.not_mem_nil, or_false, forall_eq_or_imp,
      forall_eq] at h
    obtain ⟨hc, ho, hs, hh⟩ := h
    simp only [executionFields, textField_of_id hc, textField_of_id ho, textField_of_id hs,
      textField_of_id hh]
    rfl
  rw [writeExecution, Layout.write, if_neg (Nat.not_lt.mpr hfits), hfields, overlay_ok]
  simp [RawExecution.bytes, numbered, executionSize]

theorem writeBranching_of_fits (b : Branching) {buffer : Bytes}
    (hfits : branchingSize ≤ buffer.length) :
    writeBranching b buffer = (.ok (), branchingBytes b ++ buffer.drop branchingSize) := by
  have hfields : branchingFields b = List.map .ok
      [Bytes.ofInt64 b.timestamp, Bytes.ofInt32 b.branchId, Bytes.ofInt32 b.outcome] := rfl
  rw [writeBranching, Layout.write, if_neg (Nat.not_lt.mpr hfits), hfields, overlay_ok]
  simp [branchingBytes, branchingSize]

/-- The result of writing along an outline when everything fits. -/
def Outline.result (o : Outline) : Except Fault Unit :=
  match o.fault with
  | none => .ok ()
  | some fault => .error fault

/-- The counter of an encoder after writing along an outline when everything fits. -/
def Outline.count (o : Outline) (written : UInt64) : UInt64 :=
  match o.fault with
  | none => written + 1
  | some _ => written

namespace Encoder

variable {encoder : Encoder} {capacity : Option Nat} {content : Bytes}

theorem forM_cons (text : String) (texts : List String) :
    (text :: texts).forM announce = announce text >>= fun _ => texts.forM announce := rfl

/-- Announcing texts stores the frames of their outline. -/
theorem announceAll_of_fits (h : encoder.sink.Holds capacity content)
    (hfits : ¬ Sink.Exceeds capacity content) (texts : List String) :
    ∃ sink table,
      Sink.Holds capacity
        (content ++ framesBytes (outlineTexts encoder.table texts).frames) sink
      ∧ texts.forM announce encoder =
        if Sink.Exceeds capacity
            (content ++ framesBytes (outlineTexts encoder.table texts).frames) then
          (.error (.io Sink.fullMessage), { encoder with sink, table })
        else
          ((outlineTexts encoder.table texts).result,
            { encoder with sink, table := (outlineTexts encoder.table texts).table }) := by
  induction texts generalizing encoder content with
  | nil =>
    refine ⟨encoder.sink, encoder.table, by simpa [outlineTexts] using h, ?_⟩
    rw [if_neg (by simpa [outlineTexts] using hfits)]
    rfl
  | cons text texts ih =>
    rw [forM_cons]
    cases announcing encoder.table text with
    | known hmax hid =>
      rw [outlineTexts_known hmax hid, bind_of_ok (announce_known hmax hid)]
      exact ih h hfits
    | new hmax hnew hnext =>
      rw [outlineTexts_new hmax hnew hnext, framesBytes_cons, ← List.append_assoc]
      -- the table takes the text in before the frame is written, also if the output is full
      obtain ⟨sink, hholds, hput⟩ := writes_putText encoder.table.nextId hmax
        { encoder with table := (encoder.table.intern text).2 } content h hfits
      rw [← announce_new hmax hnew hnext] at hput
      by_cases hx : Sink.Exceeds capacity
          (content ++ (Frame.text encoder.table.nextId (Bytes.ofText text) hmax).bytes)
      · rw [if_pos hx] at hput
        refine ⟨sink, (encoder.table.intern text).2, hholds.append_of_exceeds hx _, ?_⟩
        rw [bind_of_error hput, if_pos (hx.append _)]
      · rw [if_neg hx] at hput
        rw [bind_of_ok hput]
        have hafter : ({ encoder with sink, table := (encoder.table.intern text).2 } :
            Encoder).sink.Holds capacity _ := hholds
        exact ih hafter hx
    | refused hrefused =>
      rw [outlineTexts_refused hrefused, bind_of_error (announce_refused hrefused)]
      refine ⟨encoder.sink, encoder.table, by simpa using h, ?_⟩
      rw [if_neg (by simpa using hfits)]
      rfl

/-- Gives out a record's frame, part by part, and counts it. -/
def putRecord (r : Record) : Step Unit := do
  let bytes ← payload r
  put [tag r]
  put bytes
  modify fun encoder => { encoder with written := encoder.written + 1 }

theorem record_eq (r : Record) :
    record r = (textsOf r).forM announce >>= fun _ => putRecord r := by
  cases r <;> rfl

/-- The bytes of a frame behind its tag. -/
theorem payload_of_known {r : Record}
    (h : ∀ text ∈ textsOf r, ∃ id, encoder.table.idOf? text = some id) :
    ∃ bytes, payload r encoder = (.ok bytes, encoder)
      ∧ (recordFrame encoder.table r).bytes = [tag r] ++ bytes := by
  cases r with
  | execution e =>
    refine ⟨(numbered encoder.table e).bytes, ?_, rfl⟩
    simp only [payload, writeExecution_numbered h (Nat.le_of_eq List.length_replicate.symm)]
    simp [Except.map]
  | branching b =>
    refine ⟨branchingBytes b, ?_, rfl⟩
    simp only [payload, writeBranching_of_fits b (Nat.le_of_eq List.length_replicate.symm)]
    simp [Except.map]

/-- A record whose texts are announced is stored as its frame and counted. -/
theorem putRecord_of_fits (h : encoder.sink.Holds capacity content)
    (hfits : ¬ Sink.Exceeds capacity content) {r : Record}
    (hknown : ∀ text ∈ textsOf r, ∃ id, encoder.table.idOf? text = some id) :
    ∃ sink,
      Sink.Holds capacity (content ++ (recordFrame encoder.table r).bytes) sink
      ∧ putRecord r encoder =
        if Sink.Exceeds capacity (content ++ (recordFrame encoder.table r).bytes) then
          (.error (.io Sink.fullMessage), { encoder with sink })
        else (.ok (), { encoder with sink, written := encoder.written + 1 }) := by
  obtain ⟨bytes, hpayload, hbytes⟩ := payload_of_known hknown
  rw [putRecord, bind_of_ok hpayload, hbytes]
  obtain ⟨first, hfirst, htag⟩ := writes_put [tag r] encoder content h hfits
  rw [← List.append_assoc]
  by_cases hx : Sink.Exceeds capacity (content ++ [tag r])
  · rw [if_pos hx] at htag
    refine ⟨first, hfirst.append_of_exceeds hx bytes, ?_⟩
    rw [bind_of_error htag, if_pos (hx.append bytes)]
  · rw [if_neg hx] at htag
    rw [bind_of_ok htag]
    obtain ⟨sink, hholds, hput⟩ := writes_put bytes { encoder with sink := first } _ hfirst hx
    refine ⟨sink, hholds, ?_⟩
    split at hput <;> next hy =>
      first
      | rw [bind_of_error hput, if_pos hy]
      | rw [bind_of_ok hput, if_neg hy]; rfl

/-- **Writing a record stores the frames of its outline**, as far as there is room; it succeeds, and
counts the record, when they fit and the outline has no fault. -/
theorem write_of_fits (h : encoder.sink.Holds capacity content)
    (hfits : ¬ Sink.Exceeds capacity content) (r : Record) :
    ∃ sink table,
      Sink.Holds capacity (content ++ framesBytes (outline encoder.table r).frames) sink
      ∧ encoder.write r =
        if Sink.Exceeds capacity (content ++ framesBytes (outline encoder.table r).frames) then
          (.error (.io Sink.fullMessage), { encoder with sink, table })
        else
          ((outline encoder.table r).result,
            { sink, table := (outline encoder.table r).table,
              written := (outline encoder.table r).count encoder.written }) := by
  obtain ⟨sink, table, hholds, htexts⟩ := announceAll_of_fits h hfits (textsOf r)
  rw [write, record_eq]
  cases hfault : (outlineTexts encoder.table (textsOf r)).fault with
  -- a text that cannot be announced keeps the record's own frame from being written
  | some fault =>
    have houtline : outline encoder.table r = outlineTexts encoder.table (textsOf r) := by
      simp only [outline, hfault]
    rw [houtline]
    refine ⟨sink, table, hholds, ?_⟩
    simp only [Outline.result, Outline.count, hfault] at htexts ⊢
    split at htexts <;> next hx =>
      first
      | rw [bind_of_error htexts, if_pos hx]
      | rw [bind_of_error htexts, if_neg hx]
  | none =>
    have houtline : outline encoder.table r =
        { outlineTexts encoder.table (textsOf r) with
          frames := (outlineTexts encoder.table (textsOf r)).frames
            ++ [recordFrame (outlineTexts encoder.table (textsOf r)).table r] } := by
      simp only [outline, hfault]
    rw [houtline]
    simp only [Outline.result, Outline.count, hfault, framesBytes_append, framesBytes_cons,
      framesBytes_nil, List.append_nil] at htexts ⊢
    rw [← List.append_assoc]
    by_cases hx : Sink.Exceeds capacity
        (content ++ framesBytes (outlineTexts encoder.table (textsOf r)).frames)
    · rw [if_pos hx] at htexts
      refine ⟨sink, table, hholds.append_of_exceeds hx _, ?_⟩
      rw [bind_of_error htexts, if_pos (hx.append _)]
    · rw [if_neg hx] at htexts
      rw [bind_of_ok htexts]
      have hnext : ({ encoder with sink, table := (outlineTexts encoder.table (textsOf r)).table } :
          Encoder).sink.Holds capacity _ := hholds
      obtain ⟨last, hlast, hput⟩ := putRecord_of_fits hnext hx (exists_id_of_outlineTexts hfault)
      exact ⟨last, _, hlast, hput⟩

/-! ## Full outputs -/

theorem put_of_exceeds (h : encoder.sink.Holds capacity content)
    (hx : Sink.Exceeds capacity content) (byte : UInt8) (bytes : Bytes) :
    ∃ sink, Sink.Holds capacity content sink
      ∧ put (byte :: bytes) encoder
        = (.error (.io Sink.fullMessage), { encoder with sink }) := by
  obtain ⟨hresult, hholds⟩ := h.write_of_exceeds hx (byte :: bytes)
  exact ⟨_, hholds, Prod.ext hresult rfl⟩

theorem announceAll_of_exceeds (h : encoder.sink.Holds capacity content)
    (hx : Sink.Exceeds capacity content) (texts : List String) :
    ∃ result sink table, Sink.Holds capacity content sink
      ∧ texts.forM announce encoder = (result, { encoder with sink, table }) := by
  induction texts with
  | nil => exact ⟨.ok (), encoder.sink, encoder.table, h, rfl⟩
  | cons text texts ih =>
    rw [forM_cons]
    cases announcing encoder.table text with
    | known hmax hid => rwa [bind_of_ok (announce_known hmax hid)]
    | new hmax hnew hnext =>
      have hinterned : ({ encoder with table := (encoder.table.intern text).2 } :
          Encoder).sink.Holds capacity content := h
      obtain ⟨sink, hholds, hput⟩ := put_of_exceeds hinterned hx textTag []
      have hannounce : announce text encoder
          = (.error (.io Sink.fullMessage),
            { encoder with sink, table := (encoder.table.intern text).2 }) := by
        rw [announce_new hmax hnew hnext, putText, bind_of_error hput]
      exact ⟨_, sink, _, hholds, bind_of_error hannounce⟩
    | refused hrefused =>
      exact ⟨_, encoder.sink, encoder.table, h, bind_of_error (announce_refused hrefused)⟩

/-- **A full output takes no record.** -/
theorem write_of_exceeds (h : encoder.sink.Holds capacity content)
    (hx : Sink.Exceeds capacity content) (r : Record) :
    ∃ fault sink table, Sink.Holds capacity content sink
      ∧ encoder.write r = (.error fault, { encoder with sink, table }) := by
  obtain ⟨result, sink, table, hholds, htexts⟩ := announceAll_of_exceeds h hx (textsOf r)
  rw [write, record_eq]
  cases result with
  | error fault => exact ⟨fault, sink, table, hholds, bind_of_error htexts⟩
  | ok =>
    rw [bind_of_ok htexts, putRecord]
    obtain ⟨result, hpayload⟩ : ∃ result,
        payload r { encoder with sink, table } = (result, { encoder with sink, table }) :=
      ⟨_, rfl⟩
    cases result with
    | error fault => exact ⟨fault, sink, table, hholds, bind_of_error hpayload⟩
    | ok bytes =>
      have hnext : ({ encoder with sink, table } : Encoder).sink.Holds capacity content := hholds
      obtain ⟨last, hlast, hput⟩ := put_of_exceeds hnext hx (tag r) []
      rw [bind_of_ok hpayload]
      exact ⟨_, last, table, hlast, bind_of_error hput⟩

end Encoder

end CallTrace.Log
