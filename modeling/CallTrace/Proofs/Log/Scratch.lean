import CallTrace.Proofs.Log.Source
import CallTrace.Proofs.Log.Reading

/-!
# Reading into a buffer

`Decoder.payload` hands over the bytes of a part as a list. A reader that keeps one buffer for all
parts, and reads each part over what the last one has left in it, does the same: whatever was in the
buffer, it is the bytes of the part when that is whole (`Reader.payload_eq`), so nothing that was
left is ever looked at, and every call is the same (`Reader.answers_eq`).
-/

namespace CallTrace.Log

/-! ## Filling a buffer -/

/-- Writes bytes over those of a buffer from a place on. -/
def place (buffer : Bytes) (start : Nat) (bytes : Bytes) : Bytes :=
  buffer.take start ++ bytes ++ buffer.drop (start + bytes.length)

@[simp] theorem place_nil (buffer : Bytes) (start : Nat) : place buffer start [] = buffer := by
  simp [place]

theorem place_append {buffer : Bytes} {start : Nat} (h : start ≤ buffer.length)
    (bytes more : Bytes) :
    place buffer start (bytes ++ more)
      = place (place buffer start bytes) (start + bytes.length) more := by
  have hfront : (buffer.take start ++ bytes).length = start + bytes.length := by
    rw [List.length_append, List.length_take_of_le h]
  have hdrop : (buffer.take start ++ bytes ++ buffer.drop (start + bytes.length)).drop
      (start + bytes.length + more.length) = buffer.drop (start + (bytes ++ more).length) := by
    rw [← hfront, ← List.drop_drop, List.drop_left, List.drop_drop, hfront, List.length_append,
      Nat.add_assoc]
  unfold place
  rw [List.take_left' hfront, hdrop]
  simp

/-- A part as long as the buffer is all that is left of it. -/
theorem place_all {buffer bytes : Bytes} (h : buffer.length ≤ bytes.length) :
    place buffer 0 bytes = bytes := by
  simp [place, List.drop_of_length_le h]

theorem length_place {buffer : Bytes} {start : Nat} (h : start ≤ buffer.length) (bytes : Bytes) :
    (place buffer start bytes).length = max buffer.length (start + bytes.length) := by
  unfold place
  simp only [List.length_append, List.length_take, List.length_drop]
  omega

/-- Reads into a buffer, behind what has been read into it, until it is full or the input ends;
tells how many bytes have been read into it then. -/
def Source.fillInto (source : Source) (buffer : Bytes) (filled : Nat) :
    Except String Nat × Bytes × Source :=
  if _hroom : filled < buffer.length then
    match _hread : source.read (buffer.length - filled) with
    | (.interrupted, next) => fillInto next buffer filled
    | (.failed message, next) => (.error message, buffer, next)
    | (.bytes [], next) => (.ok filled, buffer, next)
    | (.bytes (b :: bytes), next) =>
      fillInto next (place buffer filled (b :: bytes)) (filled + (bytes.length + 1))
  else (.ok filled, buffer, source)
termination_by (buffer.length - filled, source.due)
decreasing_by
  · exact Prod.Lex.right _ (due_of_read_interrupted _hread)
  · rw [length_place (by omega), List.length_cons]
    exact Prod.Lex.left _ _ (by omega)

theorem Source.fill_step (source : Source) {wanted : Nat} (hw : wanted ≠ 0) :
    source.fill wanted = match source.read wanted with
      | (.interrupted, next) => next.fill wanted
      | (.failed message, next) => (.error message, next)
      | (.bytes [], next) => (.ok [], next)
      | (.bytes (b :: bytes), next) =>
        ((next.fill (wanted - (bytes.length + 1))).1.map fun more => b :: bytes ++ more,
          (next.fill (wanted - (bytes.length + 1))).2) := by
  rw [fill, if_neg hw]
  split <;> next hread => rw [hread]

/-- **Filling a buffer is filling.** What is read stands in the buffer where the reading started. -/
theorem Source.fillInto_eq (source : Source) (buffer : Bytes) (filled : Nat)
    (h : filled ≤ buffer.length) :
    ∃ left, source.fillInto buffer filled
        = ((source.fill (buffer.length - filled)).1.map fun bytes => filled + bytes.length, left,
          (source.fill (buffer.length - filled)).2)
      ∧ ∀ bytes, (source.fill (buffer.length - filled)).1 = .ok bytes →
        left = place buffer filled bytes := by
  fun_induction fillInto source buffer filled with
  | case1 source buffer filled hroom next hread ih =>
    rw [source.fill_step (by omega), hread]
    exact ih h
  | case2 source buffer filled hroom message next hread =>
    rw [source.fill_step (by omega), hread]
    exact ⟨buffer, rfl, fun bytes hbytes => by cases hbytes⟩
  | case3 source buffer filled hroom next hread =>
    rw [source.fill_step (by omega), hread]
    refine ⟨buffer, rfl, fun bytes hbytes => ?_⟩
    cases hbytes
    exact (place_nil buffer filled).symm
  | case4 source buffer filled hroom b bytes next hread ih =>
    have hle : bytes.length + 1 ≤ buffer.length - filled := by
      rcases source.read_cases (show 0 < buffer.length - filled by omega) with
        ⟨_, hr⟩ | ⟨-, hr⟩ | ⟨_, _, hr, -, hle, -⟩
      · rw [hr] at hread
        cases hread
      · rw [hr] at hread
        cases hread
      · rw [hr] at hread
        cases hread
        exact hle
    have hlength := length_place h (b :: bytes)
    rw [List.length_cons] at hlength
    obtain ⟨left, hfill, hleft⟩ := ih (by omega)
    have hroom' : (place buffer filled (b :: bytes)).length - (filled + (bytes.length + 1))
        = buffer.length - filled - (bytes.length + 1) := by
      omega
    rw [hroom'] at hfill hleft
    rw [source.fill_step (by omega), hread]
    rw [hfill]
    dsimp only
    cases hmore : (next.fill (buffer.length - filled - (bytes.length + 1))).1 with
    | error message => exact ⟨left, rfl, fun _ hc => by cases hc⟩
    | ok more =>
      refine ⟨left, ?_, fun all hall => ?_⟩
      · simp only [Except.map, List.length_append, List.length_cons, Nat.add_assoc]
      · cases hall
        rw [hleft more hmore, place_append h]
        rfl
  | case5 source buffer filled hroom =>
    have hfull : buffer.length - filled = 0 := by omega
    rw [hfull, fill, if_pos rfl]
    exact ⟨buffer, rfl, fun bytes hbytes => by cases hbytes; exact (place_nil buffer filled).symm⟩

/-! ## A reader with a buffer -/

/-- A decoder and the buffer that it reads into. -/
structure Reader where
  decoder : Decoder
  scratch : Bytes

namespace Reader

open Decoder (Answer textHeader)

/-- Makes the buffer as long as a part and reads the part into it. -/
def payload (reader : Reader) (size : Nat) : Except Fault Unit × Reader :=
  let buffer := reader.scratch.take size ++ List.replicate (size - reader.scratch.length) 0
  match reader.decoder.source.fillInto buffer 0 with
  | (.error message, scratch, source) =>
    (.error (.io message), ⟨{ reader.decoder with source }, scratch⟩)
  | (.ok read, scratch, source) =>
    (if read < size then .error (.underflow size read) else .ok (),
      ⟨{ reader.decoder with source }, scratch⟩)

/-- Reads the rest of a text frame. -/
def text (reader : Reader) : Except Fault Unit × Reader :=
  match reader.payload 8 with
  | (.error fault, reader) => (.error fault, reader)
  | (.ok (), reader) =>
    match textHeader.run' reader.scratch with
    | .error fault => (.error fault, reader)
    | .ok (id, length) =>
      if maxTextLength < length then (.error (.stringTooLong id length), reader)
      else
        match reader.payload length with
        | (.error fault, reader) => (.error fault, reader)
        | (.ok (), reader) =>
          let (result, decoder) := reader.decoder.bind id reader.scratch
          (result, { reader with decoder })

/-- Reads the rest of an execution frame. -/
def execution (reader : Reader) : Except Fault Execution × Reader :=
  match reader.payload Layout.executionSize with
  | (.error fault, reader) => (.error fault, reader)
  | (.ok (), reader) => (Layout.readExecution reader.decoder.table reader.scratch, reader)

/-- Reads the rest of a branching frame. -/
def branching (reader : Reader) : Except Fault Branching × Reader :=
  match reader.payload Layout.branchingSize with
  | (.error fault, reader) => (.error fault, reader)
  | (.ok (), reader) => (Layout.readBranching reader.scratch, reader)

/-- A step of a reader is the step of its decoder, whatever is left in the buffer. -/
def Does {α : Type} (out : Except Fault α × Reader) (out' : Except Fault α × Decoder) : Prop :=
  out.1 = out'.1 ∧ out.2.decoder = out'.2

theorem payload_eq (reader : Reader) (size : Nat) :
    ∃ scratch, reader.payload size
        = ((reader.decoder.payload size).1.map fun _ => (),
          ⟨(reader.decoder.payload size).2, scratch⟩)
      ∧ ∀ bytes, (reader.decoder.payload size).1 = .ok bytes → scratch = bytes := by
  unfold payload Decoder.payload
  have hlength : (reader.scratch.take size
      ++ List.replicate (size - reader.scratch.length) (0 : UInt8)).length = size := by
    rw [List.length_append, List.length_take, List.length_replicate]
    omega
  obtain ⟨left, hfill, hleft⟩ := reader.decoder.source.fillInto_eq (reader.scratch.take size
    ++ List.replicate (size - reader.scratch.length) 0) 0 (Nat.zero_le _)
  rw [hlength, Nat.sub_zero] at hfill hleft
  dsimp only
  rw [hfill]
  rcases hsource : reader.decoder.source.fill size with ⟨message | bytes, source⟩
  · exact ⟨left, rfl, fun _ hc => by cases hc⟩
  · rw [hsource] at hleft
    refine ⟨left, ?_, fun whole hwhole => ?_⟩
    · simp only [Except.map, Nat.zero_add]
      split
      · rfl
      · rfl
    · dsimp only at hwhole
      split at hwhole
      · cases hwhole
      · cases hwhole
        rw [hleft bytes rfl]
        exact place_all (by omega)

theorem text_eq (reader : Reader) : Does reader.text reader.decoder.text := by
  obtain ⟨scratch, hpayload, hscratch⟩ := reader.payload_eq 8
  unfold Does text Decoder.text
  rw [hpayload]
  rcases hheader : reader.decoder.payload 8 with ⟨fault | header, mid⟩
  · exact ⟨rfl, rfl⟩
  · rw [hheader] at hscratch
    obtain rfl := hscratch header rfl
    simp only [Except.map]
    rcases textHeader.run' scratch with fault | ⟨id, length⟩
    · exact ⟨rfl, rfl⟩
    · dsimp only
      split
      · exact ⟨rfl, rfl⟩
      · obtain ⟨left, hpayload, hleft⟩ := payload_eq ⟨mid, scratch⟩ length
        rw [hpayload]
        dsimp only at hleft ⊢
        rcases hcontent : mid.payload length with ⟨fault | content, last⟩
        · exact ⟨rfl, rfl⟩
        · rw [hcontent] at hleft
          obtain rfl := hleft content rfl
          exact ⟨rfl, rfl⟩

/-- What is made of a part in the buffer is what is made of its bytes. -/
theorem does_payload {α : Type} (reader : Reader) (size : Nat)
    (read : StringTable → Bytes → Except Fault α) :
    Does
      (match reader.payload size with
        | (.error fault, reader) => (.error fault, reader)
        | (.ok (), reader) => (read reader.decoder.table reader.scratch, reader))
      (match reader.decoder.payload size with
        | (.error fault, decoder) => (.error fault, decoder)
        | (.ok bytes, decoder) => (read decoder.table bytes, decoder)) := by
  obtain ⟨scratch, hpayload, hscratch⟩ := reader.payload_eq size
  rw [hpayload]
  rcases hcontent : reader.decoder.payload size with ⟨fault | content, mid⟩
  · exact ⟨rfl, rfl⟩
  · rw [hcontent] at hscratch
    obtain rfl := hscratch content rfl
    exact ⟨rfl, rfl⟩

theorem execution_eq (reader : Reader) : Does reader.execution reader.decoder.execution :=
  reader.does_payload Layout.executionSize Layout.readExecution

theorem branching_eq (reader : Reader) : Does reader.branching reader.decoder.branching :=
  reader.does_payload Layout.branchingSize fun _ => Layout.readBranching

/-- Reading into the buffer of a tag is reading one byte. -/
theorem fill_of_fillInto_tag {source next : Source} {result : Except String Nat} {left : Bytes} :
    source.fillInto [0] 0 = (result, left, next) →
      match result with
      | .error message => source.fill 1 = (.error message, next)
      | .ok 0 => source.fill 1 = (.ok [], next)
      | .ok (_ + 1) => ∃ bytes, source.fill 1 = (.ok (left.headD 0 :: bytes), next) := by
  intro h
  obtain ⟨_, hfill, hleft⟩ := source.fillInto_eq [0] 0 (Nat.zero_le _)
  rw [h] at hfill
  simp only [List.length_singleton, Nat.sub_zero, Nat.zero_add, Prod.mk.injEq] at hfill hleft
  obtain ⟨rfl, rfl, rfl⟩ := hfill
  clear h
  rcases hone : source.fill 1 with ⟨message | ⟨_ | ⟨tag, bytes⟩⟩, next⟩
  · rfl
  · rfl
  · rw [hone] at hleft
    rw [hleft (tag :: bytes) rfl]
    exact ⟨bytes, rfl⟩

/-- Reads the next record; `none` is a clean end of the log. -/
def next (reader : Reader) : Answer × Reader :=
  match _hfill : reader.decoder.source.fillInto [0] 0 with
  | (.error message, _, source) =>
    (.error (.io message), { reader with decoder := { reader.decoder with source } })
  | (.ok 0, _, source) => (.ok none, { reader with decoder := { reader.decoder with source } })
  | (.ok (_ + 1), tag, source) =>
    if tag.headD 0 = textTag then
      match _htext : text { reader with decoder := { reader.decoder with source } } with
      | (.ok (), after) => after.next
      | (.error fault, after) => (.error fault, after)
    else if tag.headD 0 = executionTag then
      let (result, reader) := execution { reader with decoder := { reader.decoder with source } }
      (result.map fun e => some (.execution e), reader)
    else if tag.headD 0 = branchingTag then
      let (result, reader) := branching { reader with decoder := { reader.decoder with source } }
      (result.map fun b => some (.branching b), reader)
    else (.error (.unknownTag (tag.headD 0)),
      { reader with decoder := { reader.decoder with source } })
termination_by reader.decoder.source.rest.length
decreasing_by
  obtain ⟨bytes, hone⟩ := fill_of_fillInto_tag _hfill
  have hrest := congrArg List.length (Source.rest_of_fill_ok hone)
  have htext := (text_eq { reader with decoder := { reader.decoder with source } }).2
  rw [_htext] at htext
  have hle := Decoder.length_rest_text_le { reader.decoder with source }
  rw [← htext] at hle
  rw [List.length_append, List.length_cons] at hrest
  dsimp only at hle
  omega

/-- **A call of a reader with a buffer is the call of its decoder.** -/
theorem next_eq (reader : Reader) : Does reader.next reader.decoder.next := by
  unfold Does
  fun_induction next reader with
  | case1 reader message tag source hfill =>
    rw [Decoder.next_of_fill_error (fill_of_fillInto_tag hfill)]
    exact ⟨rfl, rfl⟩
  | case2 reader tag source hfill =>
    rw [Decoder.next_of_fill_nil (fill_of_fillInto_tag hfill)]
    exact ⟨rfl, rfl⟩
  | case3 reader n tag source hfill ht after htext ih =>
    obtain ⟨bytes, hone⟩ := fill_of_fillInto_tag hfill
    have hdoes := text_eq { reader with decoder := { reader.decoder with source } }
    rw [Does, htext] at hdoes
    rw [Decoder.next_of_fill_tag hone, if_pos ht]
    split
    · next heq =>
      rw [heq] at hdoes
      dsimp only at hdoes
      rwa [← hdoes.2]
    · next heq =>
      rw [heq] at hdoes
      cases hdoes.1
  | case4 reader n tag source hfill ht fault after htext =>
    obtain ⟨bytes, hone⟩ := fill_of_fillInto_tag hfill
    have hdoes := text_eq { reader with decoder := { reader.decoder with source } }
    rw [Does, htext] at hdoes
    rw [Decoder.next_of_fill_tag hone, if_pos ht]
    split
    · next heq =>
      rw [heq] at hdoes
      cases hdoes.1
    · next heq =>
      rw [heq] at hdoes
      exact hdoes.imp_left fun h => congrArg _ (Except.error.inj h)
  | case5 reader n tag source hfill ht he result after hexecution =>
    obtain ⟨bytes, hone⟩ := fill_of_fillInto_tag hfill
    have hdoes := execution_eq { reader with decoder := { reader.decoder with source } }
    rw [Does, hexecution] at hdoes
    rw [Decoder.next_of_fill_tag hone, if_neg ht, if_pos he]
    exact hdoes.imp_left fun h => congrArg (Except.map fun e => some (Record.execution e)) h
  | case6 reader n tag source hfill ht he hb result after hbranching =>
    obtain ⟨bytes, hone⟩ := fill_of_fillInto_tag hfill
    have hdoes := branching_eq { reader with decoder := { reader.decoder with source } }
    rw [Does, hbranching] at hdoes
    rw [Decoder.next_of_fill_tag hone, if_neg ht, if_neg he, if_pos hb]
    exact hdoes.imp_left fun h => congrArg (Except.map fun b => some (Record.branching b)) h
  | case7 reader n tag source hfill ht he hb =>
    obtain ⟨bytes, hone⟩ := fill_of_fillInto_tag hfill
    rw [Decoder.next_of_fill_tag hone, if_neg ht, if_neg he, if_neg hb]
    exact ⟨rfl, rfl⟩

/-- The answers of a reader that is asked so often, and the reader as it is then. -/
def answers : Nat → Reader → List Answer × Reader
  | 0, reader => ([], reader)
  | times + 1, reader =>
    let (answer, reader) := reader.next
    let (others, reader) := answers times reader
    (answer :: others, reader)

/-- **A reader with a buffer answers what its decoder answers**, and nothing that was left in the
buffer makes a difference. -/
theorem answers_eq (n : Nat) (reader : Reader) :
    (reader.answers n).1 = (reader.decoder.answers n).1
      ∧ (reader.answers n).2.decoder = (reader.decoder.answers n).2 := by
  induction n generalizing reader with
  | zero => exact ⟨rfl, rfl⟩
  | succ n ih =>
    obtain ⟨hanswer, hdecoder⟩ := reader.next_eq
    obtain ⟨hothers, hlast⟩ := ih reader.next.2
    rw [hdecoder] at hothers hlast
    rw [Decoder.answers_succ]
    exact ⟨congrArg₂ List.cons hanswer hothers, hlast⟩

end Reader

end CallTrace.Log
