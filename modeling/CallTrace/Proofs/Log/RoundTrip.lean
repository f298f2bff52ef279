import CallTrace.Proofs.Log.Outline
import CallTrace.Proofs.Log.Reading

/-!
# Encoding and decoding

A reader that has followed the frames written so far knows the texts of the encoder under the same
numbers (`InStep`). To such a reader the frames of a record mean that record, and no smaller front
of them means anything (`interpret_outline`, `interpret_front`). So whatever room the output has,
what it has stored in the end means the records whose encoding succeeded
(`decoding_inverts_encoding`).
-/

namespace CallTrace.Log

open Layout
open Decoder (Answer)

/-! ## A reader in step -/

/-- The reader knows the texts that the encoder has announced; all of them are among the given. -/
structure InStep (all : List String) (table : StringTable) (known : KnownTexts) : Prop where
  numbers : ∃ texts, table.Numbers texts ∧ texts ⊆ all
  text?_eq : ∀ id, table.text? id = known.lookup id

variable {all : List String} {table : StringTable} {known : KnownTexts} {text : String}

theorem inStep_empty (all : List String) : InStep all {} [] where
  numbers := ⟨[], StringTable.numbers_empty, List.nil_subset all⟩
  text?_eq := by simp

/-- The reader finds the text of each number that the encoder uses. -/
theorem InStep.lookup (h : InStep all table known) {id : Int32} (hid : table.idOf? text = some id) :
    known.lookup id = some text := by
  obtain ⟨texts, hnumbers, _⟩ := h.numbers
  rw [← h.text?_eq, hnumbers.text?_of_idOf? hid]

section
variable (h : InStep all table known) (hall : all.dedup.length < 2 ^ 31) (hmem : text ∈ all)
  (hnew : table.idOf? text = none)
include h hall hmem hnew

/-- There is a number left for a text that has none, and it is not the greatest one. -/
theorem InStep.exists_texts :
    ∃ texts, table.Numbers texts ∧ texts ⊆ all ∧ texts.length + 1 < 2 ^ 31 := by
  obtain ⟨texts, hnumbers, hsubset⟩ := h.numbers
  have hnodup : (text :: texts).Nodup := List.nodup_cons.mpr ⟨hnumbers.not_mem hnew, hnumbers.nodup⟩
  have hsub : text :: texts ⊆ all.dedup := fun t ht =>
    List.mem_dedup.mpr (List.cons_subset.mpr ⟨hmem, hsubset⟩ ht)
  have hlength := (List.subperm_of_subset hnodup hsub).length_le
  rw [List.length_cons] at hlength
  exact ⟨texts, hnumbers, hsubset, by omega⟩

theorem InStep.nextId_ne_maxValue : table.nextId ≠ Int32.maxValue := by
  obtain ⟨texts, hnumbers, -, hlength⟩ := h.exists_texts hall hmem hnew
  exact hnumbers.nextId_ne_maxValue hlength

/-- The reader has not seen the number that comes next. -/
theorem InStep.lookup_nextId : known.lookup table.nextId = none := by
  obtain ⟨texts, hnumbers, -, hlength⟩ := h.exists_texts hall hmem hnew
  rw [← h.text?_eq, hnumbers.text?_nextId (by omega)]

/-- A new text is announced silently, and the reader stays in step. -/
theorem InStep.announce (hmax : (Bytes.ofText text).length ≤ maxTextLength) :
    (Frame.text table.nextId (Bytes.ofText text) hmax).answer known = none
      ∧ InStep all (table.intern text).2
          ((Frame.text table.nextId (Bytes.ofText text) hmax).learn known) := by
  obtain ⟨texts, hnumbers, hsubset, hlength⟩ := h.exists_texts hall hmem hnew
  have hnext := h.nextId_ne_maxValue hall hmem hnew
  have hneg := hnumbers.nextId_nonneg (by omega)
  have hfree := h.lookup_nextId hall hmem hnew
  have htext := Bytes.toText?_ofText text
  refine ⟨by simp [Frame.answer, hneg, htext, hfree], ?_, ?_⟩
  · exact ⟨texts ++ [text], hnumbers.intern hnew hlength,
      List.append_subset.mpr ⟨hsubset, by simpa using hmem⟩⟩
  · intro i
    have hlearn : (Frame.text table.nextId (Bytes.ofText text) hmax).learn known
        = known ++ [(table.nextId, text)] := by
      simp [Frame.learn, Frame.announced, hneg, htext, hfree]
    rw [StringTable.text?_intern_of_unknown hnew hnext, h.text?_eq, hlearn,
      lookup_announced hfree]

end

/-- Announcing texts is silent, and the reader stays in step. -/
theorem interpret_outlineTexts (h : InStep all table known) (hall : all.dedup.length < 2 ^ 31)
    {texts : List String} (hsub : texts ⊆ all) :
    (interpret known (outlineTexts table texts).frames).1 = []
      ∧ InStep all (outlineTexts table texts).table
          (interpret known (outlineTexts table texts).frames).2 := by
  induction texts generalizing table known with
  | nil => exact ⟨rfl, h⟩
  | cons text texts ih =>
    rw [List.cons_subset] at hsub
    cases Encoder.announcing table text with
    | known hmax hid =>
      rw [outlineTexts_known hmax hid]
      exact ih h hsub.2
    | new hmax hnew hnext =>
      obtain ⟨hanswer, hafter⟩ := h.announce hall hsub.1 hnew hmax
      obtain ⟨hanswers, hlast⟩ := ih hafter hsub.2
      rw [outlineTexts_new hmax hnew hnext]
      simp only [interpret_cons]
      exact ⟨by rw [hanswer, hanswers]; rfl, hlast⟩
    | refused hrefused =>
      rw [outlineTexts_refused hrefused]
      exact ⟨rfl, h⟩

/-- No text wants for a number. -/
theorem InStep.fault_ne_noNumberLeft (h : InStep all table known)
    (hall : all.dedup.length < 2 ^ 31) {texts : List String} (hsub : texts ⊆ all) :
    (outlineTexts table texts).fault ≠ some .noNumberLeft := by
  induction texts generalizing table known with
  | nil => exact fun hfault => by cases hfault
  | cons text texts ih =>
    rw [List.cons_subset] at hsub
    cases Encoder.announcing table text with
    | known hmax hid =>
      rw [outlineTexts_known hmax hid]
      exact ih h hsub.2
    | new hmax hnew hnext =>
      rw [outlineTexts_new hmax hnew hnext]
      exact ih (h.announce hall hsub.1 hnew hmax).2 hsub.2
    | refused hrefused =>
      rw [outlineTexts_refused hrefused]
      cases hrefused with
      | tooLong => exact fun hfault => by cases hfault
      | noNumber hmax hnew hlast =>
        exact absurd hlast (h.nextId_ne_maxValue hall hsub.1 hnew)

/-- The frame of a record means that record. -/
theorem answer_recordFrame (h : InStep all table known) {r : Record}
    (hknown : ∀ text ∈ textsOf r, ∃ id, table.idOf? text = some id) :
    (recordFrame table r).answer known = some (.ok (some r))
      ∧ (recordFrame table r).learn known = known := by
  cases r with
  | branching b => exact ⟨rfl, List.append_nil known⟩
  | execution e =>
    simp only [textsOf, Encoder.texts, List.mem_cons, List.not_mem_nil, or_false, forall_eq_or_imp,
      forall_eq] at hknown
    obtain ⟨⟨c, hc⟩, ⟨o, ho⟩, ⟨s, hs⟩, ⟨n, hn⟩⟩ := hknown
    refine ⟨?_, List.append_nil known⟩
    simp only [recordFrame, Frame.answer, RawExecution.resolve, RawExecution.ids, numbered, hc, ho,
      hs, hn, Option.getD_some, List.find?_cons, h.lookup hc, h.lookup ho, h.lookup hs,
      h.lookup hn, Option.isNone_some, List.find?_nil]
    rfl

/-- **The frames of a record mean that record**, or nothing when it cannot be written whole. -/
theorem interpret_outline (h : InStep all table known) (hall : all.dedup.length < 2 ^ 31)
    {r : Record} (hsub : textsOf r ⊆ all) :
    (interpret known (outline table r).frames).1
        = (match (outline table r).fault with
          | none => [.ok (some r)]
          | some _ => [])
      ∧ InStep all (outline table r).table (interpret known (outline table r).frames).2 := by
  obtain ⟨hsilent, hlast⟩ := interpret_outlineTexts h hall hsub
  cases hfault : (outlineTexts table (textsOf r)).fault with
  | some fault =>
    simp only [outline, hfault]
    exact ⟨hsilent, hlast⟩
  | none =>
    obtain ⟨hanswer, hlearn⟩ := answer_recordFrame hlast (exists_id_of_outlineTexts hfault)
    simp only [outline, hfault, interpret_append, interpret_cons, interpret_nil, hsilent, hanswer,
      hlearn]
    exact ⟨rfl, hlast⟩

/-- A front of the frames of a record that is not all of them means nothing. -/
theorem interpret_front (h : InStep all table known) (hall : all.dedup.length < 2 ^ 31)
    {r : Record} (hsub : textsOf r ⊆ all) {front back : List Frame} {f : Frame}
    (he : (outline table r).frames = front ++ f :: back) : (interpret known front).1 = [] := by
  obtain ⟨hsilent, -⟩ := interpret_outlineTexts h hall hsub
  -- the front lies within the text frames, of which all are silent
  have hfront : front <+: (outlineTexts table (textsOf r)).frames := by
    cases hfault : (outlineTexts table (textsOf r)).fault with
    | some fault =>
      simp only [outline, hfault] at he
      exact ⟨f :: back, he.symm⟩
    | none =>
      simp only [outline, hfault] at he
      obtain ⟨init, last, hinit⟩ := List.eq_nil_or_concat' (f :: back) |>.resolve_left (by simp)
      rw [hinit, ← List.append_assoc] at he
      exact ⟨init, (List.append_inj_left' he rfl).symm⟩
  obtain ⟨back, hback⟩ := hfront
  rw [← hback, interpret_append, List.append_eq_nil_iff] at hsilent
  exact hsilent.1

/-! ## Where the room ends -/

/-- The frames that fit whole behind the content. -/
def fitting (capacity : Option Nat) (content : Bytes) : List Frame → List Frame
  | [] => []
  | f :: frames =>
    if Sink.Exceeds capacity (content ++ f.bytes) then []
    else f :: fitting capacity (content ++ f.bytes) frames

/-- Some of the bytes of the frame, but not all of them. -/
def CutOf (f : Frame) (tail : Bytes) : Prop := tail <+: f.bytes ∧ tail ≠ [] ∧ tail ≠ f.bytes

variable {capacity : Option Nat} {content : Bytes}

theorem fitting_append_of_fits {frames : List Frame}
    (h : ¬ Sink.Exceeds capacity (content ++ framesBytes frames)) (more : List Frame) :
    fitting capacity content (frames ++ more)
      = frames ++ fitting capacity (content ++ framesBytes frames) more := by
  induction frames generalizing content with
  | nil => simp
  | cons f frames ih =>
    rw [framesBytes_cons, ← List.append_assoc] at h
    have hf : ¬ Sink.Exceeds capacity (content ++ f.bytes) := fun hx => h (hx.append _)
    rw [List.cons_append, fitting, if_neg hf, ih h]
    simp

/-- Frames that do not all fit are cut before one of them, whatever comes after them. -/
theorem fitting_append_of_exceeds {frames : List Frame}
    (hfits : ¬ Sink.Exceeds capacity content)
    (h : Sink.Exceeds capacity (content ++ framesBytes frames)) (more : List Frame) :
    ∃ f back, frames = fitting capacity content (frames ++ more) ++ f :: back := by
  induction frames generalizing content with
  | nil => exact absurd (by simpa using h) hfits
  | cons f frames ih =>
    rw [framesBytes_cons, ← List.append_assoc] at h
    rw [List.cons_append, fitting]
    by_cases hf : Sink.Exceeds capacity (content ++ f.bytes)
    · rw [if_pos hf]
      exact ⟨f, frames, rfl⟩
    · obtain ⟨g, back, hback⟩ := ih hf h
      rw [if_neg hf]
      exact ⟨g, back, congrArg (f :: ·) hback⟩

/-- What is stored of frames is those that fit whole, and possibly a cut of the next one. -/
theorem clip_framesBytes (hfits : ¬ Sink.Exceeds capacity content) (frames : List Frame) :
    ∃ tail, Sink.clip capacity (content ++ framesBytes frames)
        = content ++ (framesBytes (fitting capacity content frames) ++ tail)
      ∧ fitting capacity content frames <+: frames
      ∧ (tail = [] ∨ ∃ f, fitting capacity content frames ++ [f] <+: frames ∧ CutOf f tail) := by
  induction frames generalizing content with
  | nil =>
    exact ⟨[], by simp [fitting, Sink.clip_of_not_exceeds hfits], List.prefix_rfl, Or.inl rfl⟩
  | cons f frames ih =>
    rw [framesBytes_cons, ← List.append_assoc, fitting]
    by_cases hf : Sink.Exceeds capacity (content ++ f.bytes)
    -- the cut falls into this frame, or right before it
    · rw [if_pos hf, hf.clip_append]
      obtain ⟨k, rfl, hk⟩ := hf
      have hle : content.length ≤ k := by
        by_contra hlt
        exact hfits ⟨k, rfl, by omega⟩
      rw [List.length_append] at hk
      refine ⟨f.bytes.take (k - content.length), ?_, List.nil_prefix, ?_⟩
      · rw [Sink.clip, List.take_append, List.take_of_length_le hle]
        simp
      · by_cases hnil : f.bytes.take (k - content.length) = []
        · exact Or.inl hnil
        · refine Or.inr ⟨f, ⟨frames, rfl⟩, List.take_prefix _ _, hnil, fun hall => ?_⟩
          have := congrArg List.length hall
          rw [List.length_take] at this
          omega
    · obtain ⟨tail, hclip, hinit, hcut⟩ := ih hf
      rw [if_neg hf]
      refine ⟨tail, by rw [hclip]; simp, List.cons_prefix_cons.mpr ⟨rfl, hinit⟩, ?_⟩
      rcases hcut with rfl | ⟨g, hg, hcut⟩
      · exact Or.inl rfl
      · exact Or.inr ⟨g, List.cons_prefix_cons.mpr ⟨rfl, hg⟩, hcut⟩

/-- The front of a content that is not all of it is shorter. -/
theorem length_lt_of_prefix {front whole : Bytes} (h : front <+: whole) (hne : front ≠ whole) :
    front.length < whole.length :=
  Nat.lt_of_le_of_ne h.length_le fun he => hne (h.eq_of_length he)

/-- **Reading into a cut frame runs out of bytes.** -/
theorem CutOf.remainder {f : Frame} {tail : Bytes} (h : CutOf f tail) :
    ∃ needed available, Remainder tail (.error (.underflow needed available)) := by
  obtain ⟨hinit, hnil, hne⟩ := h
  obtain ⟨tag, tail, rfl⟩ := List.exists_cons_of_ne_nil hnil
  cases f with
  | execution raw =>
    obtain ⟨rfl, hcontent⟩ := List.cons_prefix_cons.mp hinit
    have hlt := length_lt_of_prefix hcontent fun he => hne (congrArg _ he)
    exact ⟨_, _, .execution (by simpa using hlt)⟩
  | branching b =>
    obtain ⟨rfl, hcontent⟩ := List.cons_prefix_cons.mp hinit
    have hlt := length_lt_of_prefix hcontent fun he => hne (congrArg _ he)
    exact ⟨_, _, .branching (by simpa using hlt)⟩
  | text id bytes hmax =>
    obtain ⟨rfl, hcontent⟩ := List.cons_prefix_cons.mp hinit
    by_cases hheader : tail.length < 8
    · exact ⟨_, _, .textHeader hheader⟩
    · rw [← List.append_assoc] at hcontent
      have hfront : Bytes.ofInt32 id ++ Bytes.ofWord32 (.ofNat bytes.length) <+: tail :=
        List.prefix_of_prefix_length_le (List.prefix_append _ _) hcontent (by simp; omega)
      obtain ⟨cut, rfl⟩ := hfront
      have hcut : cut <+: bytes := (List.prefix_append_right_inj _).mp hcontent
      have hlt := length_lt_of_prefix hcut fun he => hne (by rw [he]; simp [Frame.bytes])
      rw [List.append_assoc]
      refine ⟨_, _, .textContent ?_ ?_⟩ <;> rw [toNat_ofNat_length hmax]
      · exact hmax
      · exact hlt

/-! ## Runs of an encoder -/

namespace Encoder

/-- Writes records one after the other, whether or not they succeed. -/
def writeAll (encoder : Encoder) : List Record → List (Except Fault Unit) × Encoder
  | [] => ([], encoder)
  | r :: records =>
    let (result, next) := encoder.write r
    let (results, last) := next.writeAll records
    (result :: results, last)

/-- An encoder that has written nothing to an output with so much room. -/
def withCapacity (capacity : Option Nat) : Encoder := { sink := .withCapacity capacity }

/-- The records whose writing succeeded. -/
def accepted (records : List Record) (results : List (Except Fault Unit)) : List Record :=
  ((records.zip results).filter fun p => p.2.isOk).map Prod.fst

/-- The frames of records that are written one after the other. -/
def framesOf (table : StringTable) : List Record → List Frame
  | [] => []
  | r :: records => (outline table r).frames ++ framesOf (outline table r).table records

variable {encoder : Encoder} {records : List Record}

theorem writeAll_cons (encoder : Encoder) (r : Record) (records : List Record) :
    encoder.writeAll (r :: records)
      = ((encoder.write r).1 :: ((encoder.write r).2.writeAll records).1,
        ((encoder.write r).2.writeAll records).2) := rfl

theorem accepted_cons_ok (r : Record) (records : List Record)
    (results : List (Except Fault Unit)) :
    accepted (r :: records) (.ok () :: results) = r :: accepted records results := rfl

theorem accepted_cons_error (r : Record) (records : List Record) (fault : Fault)
    (results : List (Except Fault Unit)) :
    accepted (r :: records) (.error fault :: results) = accepted records results := rfl

/-- A full output takes none of the records. -/
theorem writeAll_of_exceeds (h : encoder.sink.Holds capacity content)
    (hx : Sink.Exceeds capacity content) (records : List Record) :
    (encoder.writeAll records).2.sink.Holds capacity content
      ∧ (encoder.writeAll records).2.written = encoder.written
      ∧ accepted records (encoder.writeAll records).1 = [] := by
  induction records generalizing encoder with
  | nil => exact ⟨h, rfl, rfl⟩
  | cons r records ih =>
    obtain ⟨fault, sink, table, hholds, hwrite⟩ := write_of_exceeds h hx r
    have hnext : ({ encoder with sink, table } : Encoder).sink.Holds capacity content := hholds
    rw [writeAll_cons, hwrite]
    exact ih hnext

/-- **A run stores the front of its frames and counts the records that it took; the frames that fit
mean just these records.** The induction is on the records; a reader stays in step with the encoder
as long as everything fits. -/
theorem writeAll_of_fits (h : encoder.sink.Holds capacity content)
    (hfits : ¬ Sink.Exceeds capacity content) (hstep : InStep all encoder.table known)
    (hall : all.dedup.length < 2 ^ 31) (hsub : records.flatMap textsOf ⊆ all) :
    (encoder.writeAll records).2.sink.Holds capacity
        (content ++ framesBytes (framesOf encoder.table records))
      ∧ (encoder.writeAll records).2.written
          = encoder.written + .ofNat (accepted records (encoder.writeAll records).1).length
      ∧ (interpret known (fitting capacity content (framesOf encoder.table records))).1
          = (accepted records (encoder.writeAll records).1).map fun r => .ok (some r) := by
  induction records generalizing encoder content known with
  | nil => exact ⟨by simpa [framesOf, writeAll] using h, by simp [writeAll, accepted], rfl⟩
  | cons r records ih =>
    rw [List.flatMap_cons, List.append_subset] at hsub
    obtain ⟨sink, table, hholds, hwrite⟩ := write_of_fits h hfits r
    rw [writeAll_cons, framesOf, framesBytes_append, ← List.append_assoc]
    by_cases hx : Sink.Exceeds capacity (content ++ framesBytes (outline encoder.table r).frames)
    · -- this record is cut, and none of the others gets through
      rw [if_pos hx] at hwrite
      have hnext : ({ encoder with sink, table } : Encoder).sink.Holds capacity _ := hholds
      obtain ⟨hlast, hwritten, hnone⟩ := writeAll_of_exceeds hnext hx records
      obtain ⟨f, back, hcut⟩ := fitting_append_of_exceeds hfits hx
        (framesOf (outline encoder.table r).table records)
      rw [hwrite, accepted_cons_error, hnone, interpret_front hstep hall hsub.1 hcut]
      exact ⟨hlast.append_of_exceeds hx _, by simpa using hwritten, rfl⟩
    · -- this record gets through, and the reader learns the texts that were announced for it
      rw [if_neg hx] at hwrite
      obtain ⟨hanswers, hnext⟩ := interpret_outline hstep hall hsub.1
      rw [hwrite, fitting_append_of_fits hx, interpret_append, hanswers]
      have hencoder : ({
          sink, table := (outline encoder.table r).table
          written := (outline encoder.table r).count encoder.written } :
            Encoder).sink.Holds capacity _ := hholds
      obtain ⟨hlast, hwritten, hrest⟩ := ih hencoder hx hnext hsub.2
      refine ⟨hlast, ?_⟩
      cases hfault : (outline encoder.table r).fault with
      | none =>
        simp only [Outline.result, Outline.count, hfault, accepted_cons_ok] at hwritten hrest ⊢
        refine ⟨?_, ?_⟩
        · rw [hwritten, List.length_cons, UInt64.ofNat_add, UInt64.add_assoc, UInt64.add_comm 1]
          rfl
        · rw [hrest]
          rfl
      | some fault =>
        simp only [Outline.result, Outline.count, hfault, accepted_cons_error] at hwritten hrest ⊢
        refine ⟨hwritten, ?_⟩
        rw [hrest]
        rfl

theorem holds_withCapacity (capacity : Option Nat) :
    (withCapacity capacity).sink.Holds capacity [] :=
  Sink.holds_withCapacity capacity

theorem not_exceeds_nil (capacity : Option Nat) : ¬ Sink.Exceeds capacity [] := by
  rintro ⟨k, -, hk⟩
  simp at hk

theorem length_accepted (records : List Record) (encoder : Encoder) :
    (accepted records (encoder.writeAll records).1).length
      = (encoder.writeAll records).1.countP Except.isOk := by
  induction records generalizing encoder with
  | nil => rfl
  | cons r records ih =>
    rw [writeAll_cons, List.countP_cons, ← ih]
    cases (encoder.write r).1 <;> rfl

/-- How a reading of the stored bytes ends: with the end of the log when they are cut between two of
the frames, and for want of bytes when they are cut within one. -/
def ClosesOrUnderflows (frames kept : List Frame) (tail : Bytes) (final : Answer) : Prop :=
  tail = [] ∧ final = .ok none
    ∨ (∃ f, kept ++ [f] <+: frames ∧ CutOf f tail)
      ∧ ∃ needed available, final = .error (.underflow needed available)

/--
**Decoding gives back what was encoded, whatever room the output has.** Records with fewer than
`2 ^ 31` distinct texts among them are written one after the other, whether or not they succeed, and
however the stored bytes arrive at the decoder: the bytes are the front of those that the same
records store in an output without limit, the encoder has counted the records that succeeded, and
the decoder answers just these records and then that the log ends, or that bytes are missing.
-/
theorem decoding_inverts_encoding (records : List Record)
    (hdistinct : (records.flatMap textsOf).dedup.length < 2 ^ 31) (capacity : Option Nat)
    (turns : Nat → Turn) :
    let run := (withCapacity capacity).writeAll records
    let total := ((withCapacity none).writeAll records).2.sink.stored
    let stored := run.2.sink.stored
    stored = Sink.clip capacity total
      ∧ run.2.written = .ofNat (run.1.countP Except.isOk)
      ∧ ∃ frames kept tail final, total = framesBytes frames
        ∧ kept <+: frames ∧ stored = framesBytes kept ++ tail
        ∧ (Decoder.ofSource (.withTurns stored turns none)).allAnswers.1
          = (accepted records run.1).map (fun r => .ok (some r)) ++ [final]
        ∧ ClosesOrUnderflows frames kept tail final := by
  intro run total stored
  have hstep : InStep (records.flatMap textsOf) {} [] := inStep_empty _
  obtain ⟨hholds, hwritten, hanswers⟩ := writeAll_of_fits (holds_withCapacity capacity)
    (not_exceeds_nil capacity) hstep hdistinct (List.Subset.refl _)
  -- the same records into an output without limit, of which the limited one keeps the front
  obtain ⟨hunlimited, -, -⟩ := writeAll_of_fits (holds_withCapacity none)
    (not_exceeds_nil none) hstep hdistinct (List.Subset.refl _)
  have htotal : total = framesBytes (framesOf {} records) := hunlimited.stored
  have hstored : stored = Sink.clip capacity (framesBytes (framesOf {} records)) := hholds.stored
  obtain ⟨tail, hclip, hinit, hcut⟩ :=
    clip_framesBytes (not_exceeds_nil capacity) (framesOf {} records)
  have hsplit : stored = framesBytes (fitting capacity [] (framesOf {} records)) ++ tail :=
    hstored.trans hclip
  obtain ⟨final, hremainder, hends⟩ : ∃ final, Remainder tail final ∧
      ClosesOrUnderflows (framesOf {} records) (fitting capacity [] (framesOf {} records)) tail
        final := by
    rcases hcut with rfl | ⟨f, hf, hcut⟩
    · exact ⟨_, .nothing, Or.inl ⟨rfl, rfl⟩⟩
    · obtain ⟨needed, available, h⟩ := hcut.remainder
      exact ⟨_, h, Or.inr ⟨⟨f, hf, hcut⟩, needed, available, rfl⟩⟩
  have hat := Decoder.at_ofSource stored turns
  have hall := Decoder.At.allAnswers (hsplit ▸ hat) Decoder.knows_nil hremainder
  refine ⟨by rw [hstored, htotal], ?_, _, _, tail, final, htotal, hinit, hsplit, ?_, hends⟩
  · rw [hwritten, length_accepted]
    exact UInt64.zero_add _
  · rw [← hsplit] at hall
    exact hall.trans (congrArg (· ++ [final]) hanswers)

/-- An output of 40 bytes keeps a branching decision and loses the execution after it. -/
theorem decoding_cut_execution :
    ([.branching ⟨1, 2, 3⟩, .execution default].flatMap textsOf).dedup.length < 2 ^ 31
      ∧ ((withCapacity (some 40)).writeAll
          [.branching ⟨1, 2, 3⟩, .execution default]).2.written = 1
      ∧ ∃ final, (Decoder.ofSource (.withTurns ((withCapacity (some 40)).writeAll
          [.branching ⟨1, 2, 3⟩, .execution default]).2.sink.stored (fun _ => {})
            none)).allAnswers.1
        = [.ok (some (.branching ⟨1, 2, 3⟩)), final] := by
  have hdistinct : ([.branching ⟨1, 2, 3⟩, .execution default].flatMap textsOf).dedup.length
      < 2 ^ 31 := by decide
  have haccepted : accepted [.branching ⟨1, 2, 3⟩, .execution default]
      ((withCapacity (some 40)).writeAll [.branching ⟨1, 2, 3⟩, .execution default]).1
        = [.branching ⟨1, 2, 3⟩] := by decide +kernel
  obtain ⟨-, hwritten, _, _, _, final, -, -, -, hall, -⟩ :=
    decoding_inverts_encoding _ hdistinct (some 40) fun _ => {}
  rw [← length_accepted, haccepted] at hwritten
  rw [haccepted] at hall
  exact ⟨hdistinct, hwritten, final, hall⟩

end Encoder

end CallTrace.Log
