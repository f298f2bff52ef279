import CallTrace.Proofs.Log.Frame
import CallTrace.Proofs.Log.Source
import CallTrace.Proofs.StringTable

/-!
# Decoding is interpreting frames

One frame at the front of the input makes one step of the decoder (`next_frame`), whatever stands
behind it; from the steps follows what a whole reading answers. The texts that the decoder knows
are related to those of the interpretation by `Knows`.
-/

namespace CallTrace.Log.Decoder

open Layout

variable {decoder : Decoder}

/-! ## Parts of a frame -/

/-- The decoder is at a place of an input that does not fail. -/
structure At (decoder : Decoder) (rest : Bytes) : Prop where
  isSound : decoder.source.IsSound
  rest : decoder.source.rest = rest

theorem At.fill {rest : Bytes} (h : decoder.At rest) (wanted : Nat) :
    ∃ source, decoder.source.fill wanted = (.ok (rest.take wanted), source)
      ∧ At { decoder with source } (rest.drop wanted) := by
  obtain ⟨source, hfill, hrest, hsound⟩ := Source.fill_of_isSound h.isSound wanted
  rw [h.rest] at hfill hrest
  exact ⟨source, hfill, hsound, hrest⟩

/-- A part that is there is read whole. -/
theorem At.payload {front rest : Bytes} (h : decoder.At (front ++ rest)) :
    ∃ source, decoder.payload front.length = (.ok front, { decoder with source })
      ∧ At { decoder with source } rest := by
  obtain ⟨source, hfill, hat⟩ := h.fill front.length
  rw [List.take_left] at hfill
  rw [List.drop_left] at hat
  exact ⟨source, by simp [Decoder.payload, hfill], hat⟩

/-- A part that is cut off is told by its length. -/
theorem At.payload_cut {rest : Bytes} {size : Nat} (h : decoder.At rest)
    (hlt : rest.length < size) :
    ∃ source,
      decoder.payload size = (.error (.underflow size rest.length), { decoder with source }) := by
  obtain ⟨source, hfill, _⟩ := h.fill size
  rw [List.take_of_length_le (by omega)] at hfill
  exact ⟨source, by simp [Decoder.payload, hfill, hlt]⟩

theorem textHeader_bytes (id : Int32) (length : UInt32) :
    textHeader.run' (Bytes.ofInt32 id ++ Bytes.ofWord32 length) = .ok (id, length.toNat) := by
  have htake : Bytes.takeWord32 (Bytes.ofWord32 length) = some (length, []) := by
    simpa using Bytes.takeWord32_ofWord32 length []
  have hword : field 4 Bytes.takeWord32 (Bytes.ofWord32 length) = .ok (length, []) := by
    simp [field, htake]
  show (fun p => p.1) <$> textHeader _ = _
  rw [textHeader, bind_of_ok (int32_ofInt32 id _), bind_of_ok hword]
  rfl

/-- Behind its tag, a text frame starts with the number and the length. -/
theorem At.text_header {id : Int32} {length : UInt32} {rest : Bytes}
    (h : decoder.At (Bytes.ofInt32 id ++ (Bytes.ofWord32 length ++ rest))) :
    ∃ source, At { decoder with source } rest ∧ decoder.text =
      if maxTextLength < length.toNat then
        (.error (.stringTooLong id length.toNat), { decoder with source })
      else
        match Decoder.payload { decoder with source } length.toNat with
        | (.error fault, decoder) => (.error fault, decoder)
        | (.ok bytes, decoder) => decoder.bind id bytes := by
  rw [← List.append_assoc] at h
  obtain ⟨source, hheader, hat⟩ := h.payload
  have hlength : (Bytes.ofInt32 id ++ Bytes.ofWord32 length).length = 8 := rfl
  rw [hlength] at hheader
  refine ⟨source, hat, ?_⟩
  rw [text, hheader]
  dsimp only
  split
  · next fault h =>
    rw [textHeader_bytes] at h
    cases h
  · next length' h =>
    rw [textHeader_bytes] at h
    cases h
    rfl

/-! ## One step -/

theorem next_of_fill_error {message : String} {source : Source}
    (h : decoder.source.fill 1 = (.error message, source)) :
    decoder.next = (.error (.io message), { decoder with source }) := by
  rw [Decoder.next]
  split
  · next heq => rw [h] at heq; cases heq; rfl
  · next heq => rw [h] at heq; cases heq
  · next heq => rw [h] at heq; cases heq

theorem next_of_fill_nil {source : Source} (h : decoder.source.fill 1 = (.ok [], source)) :
    decoder.next = (.ok none, { decoder with source }) := by
  rw [Decoder.next]
  split
  · next heq => rw [h] at heq; cases heq
  · next heq => rw [h] at heq; cases heq; rfl
  · next heq => rw [h] at heq; cases heq

theorem next_of_fill_tag {tag : UInt8} {bytes : Bytes} {source : Source}
    (h : decoder.source.fill 1 = (.ok (tag :: bytes), source)) :
    decoder.next =
      if tag = textTag then
        match text { decoder with source } with
        | (.ok (), after) => after.next
        | (.error fault, after) => (.error fault, after)
      else if tag = executionTag then
        let (result, decoder) := execution { decoder with source }
        (result.map fun e => some (.execution e), decoder)
      else if tag = branchingTag then
        let (result, decoder) := branching { decoder with source }
        (result.map fun b => some (.branching b), decoder)
      else (.error (.unknownTag tag), { decoder with source }) := by
  rw [Decoder.next]
  split
  · next heq => rw [h] at heq; cases heq
  · next heq => rw [h] at heq; cases heq
  · next heq =>
    rw [h] at heq
    cases heq
    split
    · split <;> next htext => rw [htext]
    · rfl

/-- The first byte of a frame tells what to read. -/
theorem At.next {tag : UInt8} {rest : Bytes} (h : decoder.At (tag :: rest)) :
    ∃ source, At { decoder with source } rest ∧ decoder.next =
      if tag = textTag then
        match text { decoder with source } with
        | (.ok (), after) => after.next
        | (.error fault, after) => (.error fault, after)
      else if tag = executionTag then
        let (result, decoder) := execution { decoder with source }
        (result.map fun e => some (.execution e), decoder)
      else if tag = branchingTag then
        let (result, decoder) := branching { decoder with source }
        (result.map fun b => some (.branching b), decoder)
      else (.error (.unknownTag tag), { decoder with source }) := by
  obtain ⟨source, hfill, hat⟩ := h.fill 1
  exact ⟨source, by simpa using hat, next_of_fill_tag hfill⟩

theorem At.next_nil (h : decoder.At []) :
    ∃ source, decoder.next = (.ok none, { decoder with source }) := by
  obtain ⟨source, hfill, -⟩ := h.fill 1
  exact ⟨source, next_of_fill_nil hfill⟩

/-! ## Frames -/

/-- The table holds the known texts, announced one after the other. -/
structure Knows (table : StringTable) (known : KnownTexts) : Prop where
  table_eq : table = known.foldl (fun table entry => (table.register entry.1 entry.2).2) {}
  text?_eq : ∀ id, table.text? id = known.lookup id

theorem knows_nil : Knows {} [] := ⟨rfl, fun _ => by simp⟩

/-- A text under a free number is known from then on. -/
theorem Knows.register {table : StringTable} {known : KnownTexts} (hk : Knows table known)
    {id : Int32} (h0 : ¬ id < 0) (h : known.lookup id = none) (text : String) :
    Knows (table.register id text).2 (known ++ [(id, text)]) where
  table_eq := by rw [List.foldl_append, ← hk.table_eq]; rfl
  text?_eq i := by
    rw [StringTable.text?_register_of_unbound h0 (by rw [hk.text?_eq, h]), hk.text?_eq,
      lookup_announced h]

/-- What announcing a text answers and leaves, told by its frame. -/
theorem Knows.bind {known : KnownTexts} (hk : Knows decoder.table known) (id : Int32)
    {content : Bytes} (h : content.length ≤ maxTextLength) :
    ∃ table, Knows table ((Frame.text id content h).learn known)
      ∧ decoder.bind id content = (match (Frame.text id content h).answer known with
        | some (.error fault) => .error fault
        | _ => .ok (), { decoder with table }) := by
  unfold Decoder.bind Frame.learn Frame.answer Frame.announced
  by_cases h0 : id < 0
  · exact ⟨decoder.table, by simpa [h0] using hk, by simp [h0]⟩
  · simp only [h0, if_false]
    cases ht : Bytes.toText? content with
    | none => exact ⟨decoder.table, by simpa using hk, rfl⟩
    | some text =>
      cases hl : known.lookup id with
      | none =>
        have htext := hk.text?_eq id
        rw [hl] at htext
        exact ⟨(decoder.table.register id text).2, by simpa using hk.register h0 hl text,
          by simp [StringTable.register_of_unbound h0 htext]⟩
      | some bound =>
        have htext := hk.text?_eq id
        rw [hl] at htext
        refine ⟨decoder.table, by simpa using hk, ?_⟩
        simp only [StringTable.register_of_bound h0 htext]
        by_cases hb : bound = text <;> simp [hb]

/-- **A frame at the front of the input is consumed whole, answered as the grammar says, and leaves
the texts that the grammar says.** -/
theorem At.next_frame {known : KnownTexts} {f : Frame} {rest : Bytes}
    (h : decoder.At (f.bytes ++ rest)) (hk : Knows decoder.table known) :
    ∃ after : Decoder, after.At rest ∧ Knows after.table (f.learn known)
      ∧ decoder.next = match f.answer known with
        | some answer => (answer, after)
        | none => after.next := by
  cases f with
  | text id content hc =>
    simp only [Frame.bytes, List.cons_append, List.append_assoc] at h
    obtain ⟨source, hat, hnext⟩ := h.next
    obtain ⟨source', hat, htext⟩ := hat.text_header
    obtain ⟨source'', hcontent, hat⟩ := hat.payload
    have hk' : Knows (Decoder.table { decoder with source := source'' }) known := hk
    obtain ⟨table, hknows, hbind⟩ := hk'.bind id hc
    -- the length of a frame's content is never refused
    have hmax : ¬ maxTextLength < content.length := by omega
    rw [toNat_ofNat_length hc, if_neg hmax, hcontent] at htext
    refine ⟨{ source := source'', table }, ⟨hat.isSound, hat.rest⟩, hknows, ?_⟩
    rw [hnext, if_pos rfl, htext]
    simp only [hbind]
    rcases Frame.answer_text known id content hc with hanswer | ⟨fault, hanswer⟩ <;> rw [hanswer]
  | execution raw =>
    obtain ⟨source, hat, hnext⟩ := h.next
    obtain ⟨source', hcontent, hat⟩ := hat.payload
    rw [RawExecution.length_bytes] at hcontent
    refine ⟨{ decoder with source := source' }, hat,
      by simpa [Frame.learn, Frame.announced] using hk, ?_⟩
    rw [hnext, if_neg (by decide), if_pos rfl]
    simp only [Decoder.execution, hcontent, readExecution_bytes, Frame.answer]
    rw [funext hk.text?_eq]
  | branching b =>
    obtain ⟨source, hat, hnext⟩ := h.next
    obtain ⟨source', hcontent, hat⟩ := hat.payload
    rw [length_branchingBytes] at hcontent
    refine ⟨{ decoder with source := source' }, hat,
      by simpa [Frame.learn, Frame.announced] using hk, ?_⟩
    rw [hnext, if_neg (by decide), if_neg (by decide), if_pos rfl]
    simp only [Decoder.branching, hcontent, readBranching_bytes, Frame.answer]
    rfl

/-- **What does not start with a frame is answered as the grammar says, and adds no text.** -/
theorem At.next_remainder {tail : Bytes} {answer : Answer} (h : decoder.At tail)
    (ht : Remainder tail answer) :
    ∃ source, decoder.next = (answer, { decoder with source }) := by
  cases ht with
  | nothing => exact h.next_nil
  -- an unknown tag ends the reading at once; every other remainder has a payload that is too short,
  -- or a length that is refused before its payload is read
  | tag hne =>
    obtain ⟨source, _, hnext⟩ := h.next
    exact ⟨source, by rw [hnext, if_neg hne.1, if_neg hne.2.1, if_neg hne.2.2]⟩
  | textHeader hlt =>
    obtain ⟨source, hat, hnext⟩ := h.next
    obtain ⟨source', hcut⟩ := hat.payload_cut hlt
    exact ⟨source', by rw [hnext, if_pos rfl, text, hcut]⟩
  | textTooLong hlong =>
    obtain ⟨source, hat, hnext⟩ := h.next
    obtain ⟨source', hat, htext⟩ := hat.text_header
    exact ⟨source', by rw [hnext, if_pos rfl, htext, if_pos hlong]⟩
  | textContent hmax hlt =>
    obtain ⟨source, hat, hnext⟩ := h.next
    obtain ⟨source', hat, htext⟩ := hat.text_header
    obtain ⟨source'', hcut⟩ := hat.payload_cut hlt
    exact ⟨source'', by rw [hnext, if_pos rfl, htext, if_neg (by omega), hcut]⟩
  | execution hlt =>
    obtain ⟨source, hat, hnext⟩ := h.next
    obtain ⟨source', hcut⟩ := hat.payload_cut hlt
    exact ⟨source', by rw [hnext, if_neg (by decide), if_pos rfl, Decoder.execution, hcut]; rfl⟩
  | branching hlt =>
    obtain ⟨source, hat, hnext⟩ := h.next
    obtain ⟨source', hcut⟩ := hat.payload_cut hlt
    refine ⟨source', ?_⟩
    rw [hnext, if_neg (by decide), if_neg (by decide), if_pos rfl, Decoder.branching, hcut]
    rfl

end CallTrace.Log.Decoder
