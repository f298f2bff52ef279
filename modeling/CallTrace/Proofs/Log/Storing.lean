import CallTrace.Proofs.Log.RoundTrip

/-!
# What reaches an output that fails now and then

An output may fail at any write, with the front of the bytes stored, and take bytes again later. A
step of an encoder then stores all its bytes and succeeds, or stores a front of them and fails
(`Encoder.Stores`). So a record that could not be written has left a front of its frames behind
(`write_stores`), and to a reader in step such a front means nothing (`silent_front`). So a log
can be read up to the first record that could not be written, and this one included (`Readable`).
What an encoder writes after that is another matter, for it goes on with the texts that it takes to
be announced.
-/

namespace CallTrace.Log

open Steps
open Decoder (Answer)

/-- Some of the bytes, from the front on, but not all of them. -/
def ProperFront (front bytes : Bytes) : Prop := front <+: bytes ∧ front ≠ bytes

variable {front back part bytes : Bytes}

theorem ProperFront.append (h : ProperFront part front) (back : Bytes) :
    ProperFront part (front ++ back) := by
  obtain ⟨hfront, hne⟩ := h
  refine ⟨hfront.trans (List.prefix_append front back), ?_⟩
  intro heq
  have hlength := hfront.length_le
  rw [heq, List.length_append] at hlength
  have hnil : back = [] := List.eq_nil_of_length_eq_zero (by omega)
  rw [hnil, List.append_nil] at heq
  exact hne heq

theorem ProperFront.append_left (h : ProperFront part back) (front : Bytes) :
    ProperFront (front ++ part) (front ++ back) := by
  obtain ⟨hfront, hne⟩ := h
  refine ⟨(List.prefix_append_right_inj front).mpr hfront, ?_⟩
  intro heq
  exact hne (List.append_cancel_left heq)

theorem Sink.write_stores (sink : Sink) (bytes : Bytes) :
    ((sink.write bytes).1 = .ok () ∧ (sink.write bytes).2.stored = sink.stored ++ bytes)
      ∨ ∃ part, ProperFront part bytes ∧ (sink.write bytes).1 = .error (.io fullMessage)
        ∧ (sink.write bytes).2.stored = sink.stored ++ part := by
  unfold Sink.write
  cases sink.room sink.stored.length sink.writes with
  | none => exact .inl ⟨rfl, rfl⟩
  | some room =>
    by_cases hfits : bytes.length ≤ room
    · left
      refine ⟨if_pos hfits, ?_⟩
      show sink.stored ++ bytes.take room = sink.stored ++ bytes
      rw [List.take_of_length_le hfits]
    · right
      refine ⟨bytes.take room, ⟨List.take_prefix room bytes, ?_⟩, if_neg hfits, rfl⟩
      intro heq
      have hlength := congrArg List.length heq
      rw [List.length_take] at hlength
      omega

namespace Encoder

/-! ## Steps of writing -/

/-- The encoder after a step that has stored something and done nothing else. -/
def Stored (encoder : Encoder) (bytes : Bytes) (after : Encoder) : Prop :=
  ∃ sink, sink.stored = encoder.sink.stored ++ bytes ∧ after = { encoder with sink }

/-- The step stores the bytes, or fails with a front of them stored. -/
def Stores (bytes : Bytes) (step : Step Unit) : Prop :=
  ∀ encoder,
    (∃ after, encoder.Stored bytes after ∧ step encoder = (.ok (), after))
      ∨ ∃ part after, ProperFront part bytes ∧ encoder.Stored part after
        ∧ step encoder = (.error (.io Sink.fullMessage), after)

theorem Stored.trans {encoder between after : Encoder} (h : encoder.Stored front between)
    (h' : between.Stored back after) : encoder.Stored (front ++ back) after := by
  obtain ⟨sink, hsink, rfl⟩ := h
  obtain ⟨sink', hsink', rfl⟩ := h'
  refine ⟨sink', ?_, rfl⟩
  rw [hsink', hsink, List.append_assoc]

theorem stores_put (bytes : Bytes) : Stores bytes (put bytes) := by
  intro encoder
  rcases encoder.sink.write_stores bytes with ⟨hok, hstored⟩ | ⟨part, hpart, herror, hstored⟩
  · exact .inl ⟨_, ⟨_, hstored, rfl⟩, Prod.ext hok rfl⟩
  · exact .inr ⟨part, _, hpart, ⟨_, hstored, rfl⟩, Prod.ext herror rfl⟩

theorem Stores.seq {first second : Step Unit} (hf : Stores front first) (hs : Stores back second) :
    Stores (front ++ back) (first >>= fun _ => second) := by
  intro encoder
  rcases hf encoder with ⟨between, hbetween, hfirst⟩ | ⟨part, after, hpart, hafter, hfirst⟩
  · rw [bind_of_ok hfirst]
    rcases hs between with ⟨after, hafter, hsecond⟩ | ⟨part, after, hpart, hafter, hsecond⟩
    · exact .inl ⟨after, hbetween.trans hafter, hsecond⟩
    · exact .inr ⟨front ++ part, after, hpart.append_left front, hbetween.trans hafter, hsecond⟩
  · rw [bind_of_error hfirst]
    exact .inr ⟨part, after, hpart.append back, hafter, rfl⟩

theorem stores_putText (id : Int32) {bytes : Bytes} (h : bytes.length ≤ maxTextLength) :
    Stores (Frame.text id bytes h).bytes (putText id bytes) := by
  have hcontent : Stores (Bytes.ofWord32 (.ofNat bytes.length) ++ bytes) (do
      put (Bytes.ofWord32 (.ofNat bytes.length)); put bytes) :=
    (stores_put _).seq (stores_put bytes)
  have hparts : Stores
      (Bytes.ofInt32 id ++ (Bytes.ofWord32 (.ofNat bytes.length) ++ bytes)) (do
        put (Bytes.ofInt32 id); put (Bytes.ofWord32 (.ofNat bytes.length)); put bytes) :=
    (stores_put _).seq hcontent
  exact (stores_put [textTag]).seq hparts

/-! ## Records -/

/-- What writing along an outline comes to: all frames are stored and the texts announced, or a
front of the frames is stored. All of them may be when the outline itself ends with a fault. -/
inductive WritesAlong (encoder : Encoder) (o : Outline) : Except Fault Unit → Encoder → Prop
  | whole {after : Encoder} (hfault : o.fault = none) (htable : after.table = o.table)
    (hstored : after.sink.stored = encoder.sink.stored ++ framesBytes o.frames) :
    WritesAlong encoder o (.ok ()) after
  | front {part : Bytes} {fault : Fault} {after : Encoder} (hpart : part <+: framesBytes o.frames)
    (hwhole : part = framesBytes o.frames → o.fault ≠ none)
    (hstored : after.sink.stored = encoder.sink.stored ++ part) :
    WritesAlong encoder o (.error fault) after

variable {encoder between after : Encoder} {o : Outline} {result : Except Fault Unit}

/-- One more frame, stored before the others. -/
theorem WritesAlong.cons {f : Frame} (h : WritesAlong between o result after)
    (hbetween : between.sink.stored = encoder.sink.stored ++ f.bytes) :
    WritesAlong encoder { o with frames := f :: o.frames } result after := by
  cases h with
  | whole hfault htable hstored =>
    refine .whole hfault htable ?_
    rw [hstored, hbetween, framesBytes_cons, List.append_assoc]
  | @front part fault _ hpart hwhole hstored =>
    have hall : after.sink.stored = encoder.sink.stored ++ (f.bytes ++ part) := by
      rw [hstored, hbetween, List.append_assoc]
    refine .front ?_ ?_ hall
    · rw [framesBytes_cons]
      exact (List.prefix_append_right_inj _).mpr hpart
    · rw [framesBytes_cons]
      intro heq
      exact hwhole (List.append_cancel_left heq)

/-- Announcing texts writes along their outline. -/
theorem announceAll_writesAlong (encoder : Encoder) (texts : List String) :
    WritesAlong encoder (outlineTexts encoder.table texts) (texts.forM announce encoder).1
      (texts.forM announce encoder).2 := by
  induction texts generalizing encoder with
  | nil => exact .whole rfl rfl (List.append_nil _).symm
  | cons text texts ih =>
    rw [forM_cons]
    cases announcing encoder.table text with
    | known hmax hid =>
      rw [outlineTexts_known hmax hid, bind_of_ok (announce_known hmax hid)]
      exact ih encoder
    | new hmax hnew hnext =>
      rw [outlineTexts_new hmax hnew hnext]
      have hannounce := announce_new hmax hnew hnext
      -- the table takes the text in before the frame is written, and keeps it if that fails
      rcases stores_putText encoder.table.nextId hmax
          { encoder with table := (encoder.table.intern text).2 } with
        ⟨next, ⟨sink, hsink, rfl⟩, hput⟩ | ⟨part, next, hpart, ⟨sink, hsink, rfl⟩, hput⟩
      · rw [bind_of_ok (hannounce.trans hput)]
        have hrest := ih { encoder with sink, table := (encoder.table.intern text).2 }
        exact hrest.cons hsink
      · rw [bind_of_error (hannounce.trans hput)]
        obtain ⟨hfront, hne⟩ := hpart.append
          (framesBytes (outlineTexts (encoder.table.intern text).2 texts).frames)
        rw [← framesBytes_cons] at hfront hne
        exact .front hfront (fun heq => absurd heq hne) hsink
    | refused hrefused =>
      rw [outlineTexts_refused hrefused, bind_of_error (announce_refused hrefused)]
      exact .front (List.prefix_refl []) (fun _ => by simp) (List.append_nil _).symm

/-- A record whose texts are announced is stored as its frame, or a front of that is. -/
theorem putRecord_stores (encoder : Encoder) {r : Record}
    (hknown : ∀ text ∈ textsOf r, ∃ id, encoder.table.idOf? text = some id) :
    ((putRecord r encoder).1 = .ok () ∧ (putRecord r encoder).2.table = encoder.table
        ∧ (putRecord r encoder).2.sink.stored
          = encoder.sink.stored ++ (recordFrame encoder.table r).bytes)
      ∨ ∃ part, ProperFront part (recordFrame encoder.table r).bytes
        ∧ (putRecord r encoder).1 = .error (.io Sink.fullMessage)
        ∧ (putRecord r encoder).2.table = encoder.table
        ∧ (putRecord r encoder).2.sink.stored = encoder.sink.stored ++ part := by
  obtain ⟨bytes, hpayload, hbytes⟩ := payload_of_known hknown
  rw [putRecord, bind_of_ok hpayload, hbytes]
  rcases stores_put [tag r] encoder with
    ⟨next, ⟨sink, hsink, rfl⟩, htag⟩ | ⟨part, next, hpart, ⟨sink, hsink, rfl⟩, htag⟩
  · rw [bind_of_ok htag]
    rcases stores_put bytes { encoder with sink } with
      ⟨next, ⟨last, hlast, rfl⟩, hput⟩ | ⟨part, next, hpart, ⟨last, hlast, rfl⟩, hput⟩
    · rw [bind_of_ok hput]
      refine .inl ⟨rfl, rfl, ?_⟩
      show last.stored = _
      rw [hlast, hsink, List.append_assoc]
    · rw [bind_of_error hput]
      refine .inr ⟨[tag r] ++ part, hpart.append_left [tag r], rfl, rfl, ?_⟩
      rw [hlast, hsink, List.append_assoc]
  · rw [bind_of_error htag]
    exact .inr ⟨part, hpart.append bytes, rfl, rfl, hsink⟩

/-- **Writing a record writes along its outline**, whatever the output does. -/
theorem write_writesAlong (encoder : Encoder) (r : Record) :
    WritesAlong encoder (outline encoder.table r) (encoder.write r).1 (encoder.write r).2 := by
  have htexts := announceAll_writesAlong encoder (textsOf r)
  rw [write, record_eq]
  cases hfault : (outlineTexts encoder.table (textsOf r)).fault with
  -- a text that cannot be announced keeps the record's own frame from being written
  | some fault =>
    have houtline : outline encoder.table r = outlineTexts encoder.table (textsOf r) := by
      simp only [outline, hfault]
    rw [houtline]
    cases hrun : (textsOf r).forM announce encoder with
    | mk result between =>
      rw [hrun] at htexts
      cases htexts with
      | whole hnone => rw [hfault] at hnone; cases hnone
      | front hpart hwhole hstored =>
        rw [bind_of_error hrun]
        exact .front hpart hwhole hstored
  | none =>
    have houtline : outline encoder.table r =
        { outlineTexts encoder.table (textsOf r) with
          frames := (outlineTexts encoder.table (textsOf r)).frames
            ++ [recordFrame (outlineTexts encoder.table (textsOf r)).table r] } := by
      simp only [outline, hfault]
    rw [houtline]
    cases hrun : (textsOf r).forM announce encoder with
    | mk result between =>
      rw [hrun] at htexts
      cases htexts with
      | whole _ htable hstored =>
        have hknown := exists_id_of_outlineTexts hfault
        rw [← htable] at hknown
        rw [bind_of_ok hrun, ← htable]
        rcases putRecord_stores between hknown with
          ⟨hok, htable', hstored'⟩ | ⟨part, hpart, herror, -, hstored'⟩
        · rw [hok]
          refine .whole hfault (htable'.trans htable) ?_
          rw [hstored', hstored, framesBytes_append, framesBytes_cons, framesBytes_nil,
            List.append_nil, List.append_assoc]
        · rw [herror]
          obtain ⟨hfront, hne⟩ := hpart.append_left
            (framesBytes (outlineTexts encoder.table (textsOf r)).frames)
          rw [hstored, List.append_assoc] at hstored'
          refine .front ?_ (fun heq => absurd ?_ hne) hstored'
          · simpa using hfront
          · simpa using heq
      | front hpart hwhole hstored =>
        rw [bind_of_error hrun]
        refine .front ?_ (fun heq => ?_) hstored
        · rw [framesBytes_append]
          exact hpart.trans (List.prefix_append _ _)
        · -- the record's own frame is not empty, so the texts alone are not all
          have hlength := hpart.length_le
          have hpos := List.length_pos_iff.mpr
            (recordFrame (outlineTexts encoder.table (textsOf r)).table r).bytes_ne_nil
          rw [heq, framesBytes_append, framesBytes_cons, framesBytes_nil, List.length_append,
            List.length_append] at hlength
          omega

end Encoder

/-! ## Fronts of records -/

variable {all : List String} {table : StringTable} {known : KnownTexts} {r : Record}

/-- **What is left of a record that could not be written means nothing**: reading it comes to the
end of the log, or runs out of bytes. -/
theorem silent_front (h : InStep all table known) (hall : all.dedup.length < 2 ^ 31)
    (hsub : textsOf r ⊆ all) (hpart : part <+: framesBytes (outline table r).frames)
    (hwhole : part = framesBytes (outline table r).frames → (outline table r).fault ≠ none) :
    ∃ kept tail final, part = framesBytes kept ++ tail ∧ (interpret known kept).1 = []
      ∧ Remainder tail final
      ∧ (final = .ok none ∨ ∃ needed available, final = .error (.underflow needed available)) := by
  obtain ⟨tail, hclip, ⟨rest, hrest⟩, hcut⟩ :=
    clip_framesBytes (Encoder.not_exceeds_nil (some part.length)) (outline table r).frames
  rw [List.nil_append, Sink.clip, ← List.prefix_iff_eq_take.mp hpart, List.nil_append] at hclip
  generalize fitting (some part.length) [] (outline table r).frames = kept at hclip hrest hcut
  have hsilent : (interpret known kept).1 = [] := by
    cases rest with
    | cons f back => exact interpret_front h hall hsub hrest.symm
    | nil =>
      rw [List.append_nil] at hrest
      rw [hrest] at hclip ⊢
      have hall' : part = framesBytes (outline table r).frames := by
        refine hpart.eq_of_length_le ?_
        rw [hclip, List.length_append]
        omega
      obtain ⟨fault, hfault⟩ := Option.ne_none_iff_exists'.mp (hwhole hall')
      rw [(interpret_outline h hall hsub).1, hfault]
  rcases hcut with rfl | ⟨f, -, hcut⟩
  · exact ⟨kept, [], _, hclip, hsilent, .nothing, .inl rfl⟩
  · obtain ⟨needed, available, hremainder⟩ := hcut.remainder
    exact ⟨kept, tail, _, hclip, hsilent, hremainder, .inr ⟨needed, available, rfl⟩⟩

/-! ## Logs that can be read -/

/-- The bytes can be read to the end, and mean these records. -/
def Readable (stored : Bytes) (records : List Record) : Prop :=
  ∃ frames tail final, stored = framesBytes frames ++ tail
    ∧ (interpret [] frames).1 = records.map (fun r => .ok (some r)) ∧ Remainder tail final
    ∧ (final = .ok none ∨ ∃ needed available, final = .error (.underflow needed available))

/-- An encoder has stored whole frames that mean these records, and their reader is in step with
it. -/
def Keeps (all : List String) (encoder : Encoder) (records : List Record) : Prop :=
  ∃ frames, encoder.sink.stored = framesBytes frames
    ∧ (interpret [] frames).1 = records.map (fun r => .ok (some r))
    ∧ InStep all encoder.table (interpret [] frames).2

variable {encoder next : Encoder} {records : List Record}

theorem Keeps.readable (h : Keeps all encoder records) : Readable encoder.sink.stored records := by
  obtain ⟨frames, hstored, hmeaning, -⟩ := h
  refine ⟨frames, [], .ok none, ?_, hmeaning, .nothing, .inl rfl⟩
  rw [hstored, List.append_nil]

/-- A reader of a log that can be read gives the records out and ends. -/
theorem Readable.allAnswers {stored : Bytes} (h : Readable stored records) (turns : Nat → Turn) :
    ∃ final, (Decoder.ofSource (.withTurns stored turns none)).allAnswers.1
        = records.map (fun r => .ok (some r)) ++ [final]
      ∧ (final = .ok none
        ∨ ∃ needed available, final = .error (.underflow needed available)) := by
  obtain ⟨frames, tail, final, rfl, hmeaning, hremainder, hfinal⟩ := h
  have hat := Decoder.at_ofSource (framesBytes frames ++ tail) turns
  have hall := hat.allAnswers Decoder.knows_nil hremainder
  rw [hmeaning] at hall
  exact ⟨final, hall, hfinal⟩

variable (h : Keeps all encoder records) (hall : all.dedup.length < 2 ^ 31) (hsub : textsOf r ⊆ all)
include h hall hsub

theorem Keeps.write_ok (hwrite : encoder.write r = (.ok (), next)) :
    Keeps all next (records ++ [r]) := by
  obtain ⟨frames, hstored, hmeaning, hstep⟩ := h
  have halong := encoder.write_writesAlong r
  rw [hwrite] at halong
  cases halong with
  | whole hfault htable hwritten =>
    obtain ⟨hanswers, hnext⟩ := interpret_outline hstep hall hsub
    rw [hfault] at hanswers
    refine ⟨frames ++ (outline encoder.table r).frames, ?_, ?_, ?_⟩
    · rw [hwritten, hstored, framesBytes_append]
    · rw [interpret_append, hmeaning, hanswers, List.map_append]
      rfl
    · rw [interpret_append, htable]
      exact hnext

theorem Keeps.write_error {fault : Fault} (hwrite : encoder.write r = (.error fault, next)) :
    Readable next.sink.stored records := by
  obtain ⟨frames, hstored, hmeaning, hstep⟩ := h
  have halong := encoder.write_writesAlong r
  rw [hwrite] at halong
  cases halong with
  | front hpart hwhole hwritten =>
    obtain ⟨kept, tail, final, rfl, hsilent, hremainder, hfinal⟩ :=
      silent_front hstep hall hsub hpart hwhole
    refine ⟨frames ++ kept, tail, final, ?_, ?_, hremainder, hfinal⟩
    · rw [hwritten, hstored, framesBytes_append, List.append_assoc]
    · rw [interpret_append, hmeaning, hsilent, List.append_nil]

end CallTrace.Log
