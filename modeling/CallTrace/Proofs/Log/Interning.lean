import CallTrace.Proofs.Log.Storing

/-!
# What an encoder takes to be announced

A new text gets its number before its frame is written, and keeps the number when the frame is not
stored whole: the call misses the text (`Encoder.Misses`). Whatever the output does, a call
leaves the texts of the frames that it has stored whole and the one that it has missed
(`write_outcome`).

An output with little room stores nothing more once a frame has been cut, but each later call may
still miss a text (`writeAll_misses`). So the encoder knows what a reader of its output knows, and
besides what its calls have missed (`table_is_read_or_missed`). As long as there are fewer than
`2 ^ 31` texts, the numbers do not run out (`never_out_of_numbers`).
-/

namespace CallTrace.Log

open Steps

/-! ## Where storing stops -/

/-- Frames are stored from the front on, up to one of which only a front is stored. -/
inductive StopsIn : List Frame → List Frame → Frame → Bytes → Prop
  | here {f : Frame} {back : List Frame} {cut : Bytes} (h : ProperFront cut f.bytes) :
    StopsIn (f :: back) [] f cut
  | there {f g : Frame} {frames front : List Frame} {part : Bytes}
    (h : StopsIn frames front f part) : StopsIn (g :: frames) (g :: front) f (g.bytes ++ part)

namespace StopsIn

variable {frames front front' : List Frame} {f f' : Frame} {part : Bytes}

theorem append (h : StopsIn frames front f part) (more : List Frame) :
    StopsIn (frames ++ more) front f part := by
  induction h with
  | here h => exact .here h
  | there _ ih => exact .there ih

theorem of_last {frames : List Frame} (h : ProperFront part f.bytes) :
    StopsIn (frames ++ [f]) frames f (framesBytes frames ++ part) := by
  induction frames with
  | nil => exact .here h
  | cons g frames ih =>
    rw [framesBytes_cons, List.append_assoc]
    exact .there ih

theorem length_lt (h : StopsIn frames front f part) :
    part.length < (framesBytes frames).length := by
  induction h with
  | here h =>
    have hlt := length_lt_of_prefix h.1 h.2
    rw [framesBytes_cons, List.length_append]
    omega
  | there _ ih =>
    simp only [framesBytes_cons, List.length_append]
    omega

/-- What is stored is the frames in front and a cut of the one that it stops in. -/
theorem exists_cut (h : StopsIn frames front f part) :
    ∃ cut, ProperFront cut f.bytes ∧ part = framesBytes front ++ cut := by
  induction h with
  | here h => exact ⟨_, h, rfl⟩
  | there _ ih =>
    obtain ⟨cut, hcut, rfl⟩ := ih
    exact ⟨cut, hcut, by rw [framesBytes_cons, List.append_assoc]⟩

/-- Reading what is stored comes to an end in the cut. -/
theorem exists_remainder (h : StopsIn frames front f part) :
    ∃ cut final, part = framesBytes front ++ cut ∧ Remainder cut final := by
  obtain ⟨cut, ⟨hfront, hne⟩, hpart⟩ := h.exists_cut
  by_cases hnil : cut = []
  · subst hnil
    exact ⟨[], _, hpart, .nothing⟩
  · obtain ⟨_, _, hremainder⟩ := CutOf.remainder ⟨hfront, hnil, hne⟩
    exact ⟨cut, _, hpart, hremainder⟩

/-- The bytes that are stored tell where it stops. -/
theorem unique (h : StopsIn frames front f part) (h' : StopsIn frames front' f' part) :
    front = front' ∧ f = f' := by
  induction h generalizing front' with
  | here hcut =>
    cases h' with
    | here => exact ⟨rfl, rfl⟩
    | there =>
      -- a cut of a frame is shorter than the frame
      have hlt := length_lt_of_prefix hcut.1 hcut.2
      rw [List.length_append] at hlt
      omega
  | @there f g frames front part h ih =>
    generalize hpart : g.bytes ++ part = whole at h'
    cases h' with
    | here hcut =>
      have hlt := length_lt_of_prefix hcut.1 hcut.2
      rw [← hpart, List.length_append] at hlt
      omega
    | there h' =>
      obtain rfl := List.append_cancel_left hpart
      obtain ⟨rfl, rfl⟩ := ih h'
      exact ⟨rfl, rfl⟩

end StopsIn

/-! ## One call -/

namespace Encoder

variable {all : List String} {known : KnownTexts} {encoder after : Encoder} {r : Record}
  {result : Except Fault Unit}

/-- What writing along an outline comes to, told by a reader that was in step before: everything is
stored; or the storing stops in a text frame, whose text has its number all the same; or it stops
in a frame that is no text. -/
inductive Outcome (all : List String) (known : KnownTexts) (encoder : Encoder) (o : Outline)
    (result : Except Fault Unit) (after : Encoder) : Prop
  | whole (hresult : result = o.result) (htable : after.table = o.table)
    (hstored : after.sink.stored = encoder.sink.stored ++ framesBytes o.frames)
  | misses {table : StringTable} {text : String} {front : List Frame} {part : Bytes}
    (hresult : result = .error (.io Sink.fullMessage))
    (hmax : (Bytes.ofText text).length ≤ maxTextLength)
    (hmem : text ∈ all) (hnew : table.idOf? text = none)
    (hstep : InStep all table (interpret known front).2)
    (hstops : StopsIn o.frames front (.text table.nextId (Bytes.ofText text) hmax) part)
    (htable : after.table = (table.intern text).2)
    (hstored : after.sink.stored = encoder.sink.stored ++ part)
  | stops {table : StringTable} {r : Record} {front : List Frame} {part : Bytes}
    (hresult : result = .error (.io Sink.fullMessage))
    (hstep : InStep all after.table (interpret known front).2)
    (hstops : StopsIn o.frames front (recordFrame table r) part)
    (hstored : after.sink.stored = encoder.sink.stored ++ part)

/-- One more frame, stored before the others. -/
theorem Outcome.cons {between : Encoder} {o : Outline} {f : Frame}
    (h : Outcome all (f.learn known) between o result after)
    (hbetween : between.sink.stored = encoder.sink.stored ++ f.bytes) :
    Outcome all known encoder { o with frames := f :: o.frames } result after := by
  have hall : ∀ {part : Bytes}, after.sink.stored = between.sink.stored ++ part →
      after.sink.stored = encoder.sink.stored ++ (f.bytes ++ part) := by
    intro part hstored
    rw [hstored, hbetween, List.append_assoc]
  cases h with
  | whole hresult htable hstored => exact .whole hresult htable (hall hstored)
  | @misses table text front part hresult hmax hmem hnew hstep hstops htable hstored =>
    have hstep' : InStep all table (interpret known (f :: front)).2 := hstep
    exact .misses hresult hmax hmem hnew hstep' (.there hstops) htable (hall hstored)
  | @stops _ _ front part hresult hstep hstops hstored =>
    have hstep' : InStep all after.table (interpret known (f :: front)).2 := hstep
    exact .stops hresult hstep' (.there hstops) (hall hstored)

/-- Announcing texts stores their frames or misses one of them. -/
theorem announceAll_outcome (hstep : InStep all encoder.table known)
    (hall : all.dedup.length < 2 ^ 31) {texts : List String} (hsub : texts ⊆ all) :
    Outcome all known encoder (outlineTexts encoder.table texts) (texts.forM announce encoder).1
      (texts.forM announce encoder).2 := by
  induction texts generalizing encoder known with
  | nil => exact .whole rfl rfl (List.append_nil _).symm
  | cons text texts ih =>
    rw [List.cons_subset] at hsub
    rw [forM_cons]
    cases announcing encoder.table text with
    | known hmax hid =>
      rw [outlineTexts_known hmax hid, bind_of_ok (announce_known hmax hid)]
      exact ih hstep hsub.2
    | new hmax hnew hnext =>
      rw [outlineTexts_new hmax hnew hnext]
      have hannounce := announce_new hmax hnew hnext
      rcases stores_putText encoder.table.nextId hmax
          { encoder with table := (encoder.table.intern text).2 } with
        ⟨next, ⟨sink, hsink, rfl⟩, hput⟩ | ⟨part, next, hpart, ⟨sink, hsink, rfl⟩, hput⟩
      · rw [bind_of_ok (hannounce.trans hput)]
        obtain ⟨-, hafter⟩ := hstep.announce hall hsub.1 hnew hmax
        have hrest := @ih _ { encoder with sink, table := (encoder.table.intern text).2 } hafter
          hsub.2
        exact hrest.cons hsink
      · rw [bind_of_error (hannounce.trans hput)]
        have hstep' : InStep all encoder.table (interpret known []).2 := hstep
        exact .misses rfl hmax hsub.1 hnew hstep' (.here hpart) rfl hsink
    | refused hrefused =>
      rw [outlineTexts_refused hrefused, bind_of_error (announce_refused hrefused)]
      exact .whole rfl rfl (List.append_nil _).symm

/-- The texts of a record are announced before its own frame. -/
theorem frames_outlineTexts_prefix (table : StringTable) (r : Record) :
    (outlineTexts table (textsOf r)).frames <+: (outline table r).frames := by
  unfold outline
  dsimp only
  split
  · exact List.prefix_rfl
  · exact List.prefix_append _ _

/-- **Writing a record stores its frames, misses a text, or stops in the record's own frame**,
whatever the output does. -/
theorem write_outcome (hstep : InStep all encoder.table known) (hall : all.dedup.length < 2 ^ 31)
    (hsub : textsOf r ⊆ all) :
    Outcome all known encoder (outline encoder.table r) (encoder.write r).1
      (encoder.write r).2 := by
  have htexts := announceAll_outcome hstep hall hsub
  obtain ⟨more, hmore⟩ := frames_outlineTexts_prefix encoder.table r
  rw [write, record_eq]
  cases hrun : (textsOf r).forM announce encoder with
  | mk result between =>
    rw [hrun] at htexts
    cases htexts with
    | misses hresult hmax hmem hnew hstep hstops htable hstored =>
      subst hresult
      rw [bind_of_error hrun]
      exact .misses rfl hmax hmem hnew hstep (hmore ▸ hstops.append more) htable hstored
    | stops hresult hstep hstops hstored =>
      subst hresult
      rw [bind_of_error hrun]
      exact .stops rfl hstep (hmore ▸ hstops.append more) hstored
    | whole hresult htable hstored =>
      cases hfault : (outlineTexts encoder.table (textsOf r)).fault with
      -- a text that cannot be announced keeps the record's own frame from being written
      | some fault =>
        have houtline : outline encoder.table r = outlineTexts encoder.table (textsOf r) := by
          simp only [outline, hfault]
        simp only [Outline.result, hfault] at hresult
        subst hresult
        rw [bind_of_error hrun, houtline]
        exact .whole (by rw [Outline.result, hfault]) htable hstored
      | none =>
        have houtline : outline encoder.table r =
            { outlineTexts encoder.table (textsOf r) with
              frames := (outlineTexts encoder.table (textsOf r)).frames
                ++ [recordFrame (outlineTexts encoder.table (textsOf r)).table r] } := by
          simp only [outline, hfault]
        simp only [Outline.result, hfault] at hresult
        subst hresult
        obtain ⟨-, hlast⟩ := interpret_outlineTexts hstep hall hsub
        have hknown := exists_id_of_outlineTexts hfault
        rw [← htable] at hknown hlast
        rw [bind_of_ok hrun, houtline, ← htable]
        rcases putRecord_stores between hknown with
          ⟨hok, htable', hstored'⟩ | ⟨part, hpart, herror, htable', hstored'⟩
        · refine .whole ?_ (htable'.trans htable) ?_
          · rw [hok, Outline.result, hfault]
          · rw [hstored', hstored, framesBytes_append, framesBytes_cons, framesBytes_nil,
              List.append_nil, List.append_assoc]
        · refine .stops herror ?_ (.of_last hpart) ?_
          · rw [htable']
            exact hlast
          · rw [hstored', hstored, List.append_assoc]

/-! ## Missed texts -/

/-- Writing the record gives the text this number, but stores the text's frame only in part. -/
def Misses (encoder : Encoder) (r : Record) (id : Int32) (text : String) : Prop :=
  ∃ front part, ∃ hmax : (Bytes.ofText text).length ≤ maxTextLength,
    StopsIn (outline encoder.table r).frames front (.text id (Bytes.ofText text) hmax) part
      ∧ (encoder.write r).2.sink.stored = encoder.sink.stored ++ part

/-- One of the records, written one after the other, makes the encoder miss the text. -/
def MissesAny (encoder : Encoder) : List Record → Int32 → String → Prop
  | [], _, _ => False
  | r :: records, id, text =>
    encoder.Misses r id text ∨ (encoder.write r).2.MissesAny records id text

theorem recordFrame_ne_text {table : StringTable} {id : Int32} {content : Bytes}
    {h : content.length ≤ maxTextLength} : recordFrame table r ≠ .text id content h := by
  cases r <;> exact fun heq => by cases heq

/-- Once the storing has stopped, only the frame that it stopped in can be missed. -/
theorem Misses.eq {id : Int32} {text : String} {front : List Frame} {f : Frame} {part : Bytes}
    (h : encoder.Misses r id text) (hstops : StopsIn (outline encoder.table r).frames front f part)
    (hstored : (encoder.write r).2.sink.stored = encoder.sink.stored ++ part) :
    ∃ hmax, f = .text id (Bytes.ofText text) hmax := by
  obtain ⟨_, _, hmax, hstops', hstored'⟩ := h
  obtain rfl := List.append_cancel_left (hstored.symm.trans hstored')
  exact ⟨hmax, (hstops.unique hstops').2⟩

/-- The table knows the texts that are found by their numbers and, besides, those that were
missed. -/
structure KnowsBesides (table : StringTable) (text? : Int32 → Option String)
    (missed : Int32 → String → Prop) : Prop where
  text?_iff : ∀ id text, table.text? id = some text ↔ text? id = some text ∨ missed id text
  unread : ∀ id text, missed id text → text? id = none

theorem KnowsBesides.of_inStep {table : StringTable} (h : InStep all table known)
    {missed : Int32 → String → Prop} (hnone : ∀ id text, ¬ missed id text) :
    KnowsBesides table (fun id => known.lookup id) missed where
  text?_iff id text := by rw [h.text?_eq, or_iff_left (hnone id text)]
  unread id text hmissed := absurd hmissed (hnone id text)

theorem KnowsBesides.trans {table : StringTable} {between : StringTable}
    {text? : Int32 → Option String} {missed missed' : Int32 → String → Prop}
    (h : KnowsBesides between text? missed) (h' : KnowsBesides table between.text? missed') :
    KnowsBesides table text? fun id text => missed id text ∨ missed' id text where
  text?_iff id text := by rw [h'.text?_iff, h.text?_iff, or_assoc]
  unread id text := by
    rintro (hmissed | hmissed)
    · exact h.unread id text hmissed
    · have hnone := h'.unread id text hmissed
      cases hread : text? id with
      | none => rfl
      | some known =>
        rw [(h.text?_iff id known).mpr (.inl hread)] at hnone
        cases hnone

/-- **A call stores all its frames and misses nothing, or stores some of them**, and then the
encoder knows, besides what the reader gets to know, just what the call has missed. -/
theorem write_misses (hstep : InStep all encoder.table known) (hall : all.dedup.length < 2 ^ 31)
    (hsub : textsOf r ⊆ all) :
    ((encoder.write r).2.sink.stored
          = encoder.sink.stored ++ framesBytes (outline encoder.table r).frames
        ∧ InStep all (encoder.write r).2.table
          (interpret known (outline encoder.table r).frames).2
        ∧ ∀ id text, ¬ encoder.Misses r id text)
      ∨ ∃ front f part, StopsIn (outline encoder.table r).frames front f part
        ∧ (encoder.write r).2.sink.stored = encoder.sink.stored ++ part
        ∧ KnowsBesides (encoder.write r).2.table (fun id => (interpret known front).2.lookup id)
          (encoder.Misses r)
        ∧ ∃ known', InStep all (encoder.write r).2.table known' := by
  cases write_outcome hstep hall hsub with
  | whole hresult htable hstored =>
    refine .inl ⟨hstored, ?_, ?_⟩
    · rw [htable]
      exact (interpret_outline hstep hall hsub).2
    · rintro id text ⟨front, part, hmax, hstops, hstored'⟩
      obtain rfl := List.append_cancel_left (hstored.symm.trans hstored')
      exact absurd hstops.length_lt (Nat.lt_irrefl _)
  | stops hresult hstep' hstops hstored =>
    have hnone : ∀ id text, ¬ encoder.Misses r id text := by
      intro id text hmisses
      obtain ⟨hmax, hframe⟩ := hmisses.eq hstops hstored
      exact recordFrame_ne_text hframe
    exact .inr ⟨_, _, _, hstops, hstored, .of_inStep hstep' hnone, _, hstep'⟩
  | @misses table text front part hresult hmax hmem hnew hstep' hstops htable hstored =>
    obtain ⟨-, hafter⟩ := hstep'.announce hall hmem hnew hmax
    have hnext := hstep'.nextId_ne_maxValue hall hmem hnew
    have hunread := hstep'.lookup_nextId hall hmem hnew
    have hmisses : ∀ id t, encoder.Misses r id t ↔ table.nextId = id ∧ text = t := by
      intro id t
      constructor
      · intro h
        obtain ⟨_, hframe⟩ := h.eq hstops hstored
        injection hframe with hid hbytes
        exact ⟨hid, Bytes.ofText_injective hbytes⟩
      · rintro ⟨rfl, rfl⟩
        exact ⟨front, part, hmax, hstops, hstored⟩
    refine .inr ⟨_, _, _, hstops, hstored, ⟨?_, ?_⟩, _, htable ▸ hafter⟩
    · intro id t
      rw [htable, StringTable.text?_intern_of_unknown hnew hnext, hmisses, ← hstep'.text?_eq]
      by_cases hid : table.nextId = id
      · subst hid
        simp [hstep'.text?_eq, hunread]
      · simp [hid]
    · rintro id t hmissed
      obtain ⟨rfl, rfl⟩ := (hmisses id t).mp hmissed
      exact hunread

/-- A call does not run out of numbers. -/
theorem write_ne_noNumberLeft (hstep : InStep all encoder.table known)
    (hall : all.dedup.length < 2 ^ 31) (hsub : textsOf r ⊆ all) :
    (encoder.write r).1 ≠ .error .noNumberLeft := by
  cases write_outcome hstep hall hsub with
  | misses hresult => exact fun heq => by cases hresult.symm.trans heq
  | stops hresult => exact fun heq => by cases hresult.symm.trans heq
  | whole hresult =>
    have hfault := hstep.fault_ne_noNumberLeft hall hsub
    rw [← fault_outline] at hfault
    rw [hresult, Outline.result]
    split
    case h_1 => exact fun heq => by cases heq
    case h_2 fault hsome =>
      intro heq
      cases heq
      exact hfault hsome

theorem writeAll_ne_noNumberLeft {records : List Record} (hstep : InStep all encoder.table known)
    (hall : all.dedup.length < 2 ^ 31) (hsub : records.flatMap textsOf ⊆ all) :
    ∀ result ∈ (encoder.writeAll records).1, result ≠ .error .noNumberLeft := by
  induction records generalizing encoder known with
  | nil => simp [writeAll]
  | cons r records ih =>
    rw [List.flatMap_cons, List.append_subset] at hsub
    obtain ⟨known', hstep'⟩ : ∃ known', InStep all (encoder.write r).2.table known' := by
      rcases write_misses hstep hall hsub.1 with ⟨-, hnext, -⟩ | ⟨_, _, _, -, -, -, hnext⟩
      · exact ⟨_, hnext⟩
      · exact hnext
    rw [writeAll_cons]
    intro result hmem
    rcases List.mem_cons.mp hmem with rfl | hrest
    · exact write_ne_noNumberLeft hstep hall hsub.1
    · exact ih hstep' hsub.2 result hrest

/-- **Fewer than `2 ^ 31` distinct texts never run out of numbers**, whatever the output does: no
call panics, be it after calls that failed. -/
theorem never_out_of_numbers (sink : Sink) {records : List Record}
    (hdistinct : (records.flatMap textsOf).dedup.length < 2 ^ 31) :
    ∀ result ∈ (({ sink } : Encoder).writeAll records).1, result ≠ .error .noNumberLeft :=
  writeAll_ne_noNumberLeft (inStep_empty _) hdistinct (List.Subset.refl _)

/-! ## Runs on outputs with little room -/

variable {capacity : Option Nat} {content : Bytes} {records : List Record}

/-- A full output stores nothing more, and the encoder adds what it misses. -/
theorem write_misses_of_exceeds (h : encoder.sink.Holds capacity content)
    (hx : Sink.Exceeds capacity content) (hstep : InStep all encoder.table known)
    (hall : all.dedup.length < 2 ^ 31) (hsub : textsOf r ⊆ all) :
    (encoder.write r).2.sink.Holds capacity content
      ∧ KnowsBesides (encoder.write r).2.table encoder.table.text? (encoder.Misses r)
      ∧ ∃ known', InStep all (encoder.write r).2.table known' := by
  obtain ⟨fault, sink, table, hholds, hwrite⟩ := write_of_exceeds h hx r
  have hnext : (encoder.write r).2.sink.Holds capacity content := by rwa [hwrite]
  have hstored : (encoder.write r).2.sink.stored = encoder.sink.stored ++ [] := by
    rw [hnext.stored, h.stored, List.append_nil]
  have hlookup : encoder.table.text? = fun id => known.lookup id := funext hstep.text?_eq
  refine ⟨hnext, ?_⟩
  rw [hlookup]
  rcases write_misses hstep hall hsub with
    ⟨hwhole, hnext', hnone⟩ | ⟨front, f, part, hstops, hpart, hknows, hnext'⟩
  · have hnil := List.append_cancel_left (hwhole.symm.trans hstored)
    rw [framesBytes_eq_nil.mp hnil] at hnext'
    exact ⟨.of_inStep hnext' hnone, _, hnext'⟩
  · obtain rfl := List.append_cancel_left (hpart.symm.trans hstored)
    obtain ⟨cut, -, hcut⟩ := hstops.exists_cut
    obtain rfl := framesBytes_eq_nil.mp (List.append_eq_nil_iff.mp hcut.symm).1
    exact ⟨hknows, hnext'⟩

theorem writeAll_misses_of_exceeds (h : encoder.sink.Holds capacity content)
    (hx : Sink.Exceeds capacity content) (hstep : InStep all encoder.table known)
    (hall : all.dedup.length < 2 ^ 31) (hsub : records.flatMap textsOf ⊆ all) :
    (encoder.writeAll records).2.sink.stored = encoder.sink.stored
      ∧ KnowsBesides (encoder.writeAll records).2.table encoder.table.text?
        (encoder.MissesAny records) := by
  induction records generalizing encoder known with
  | nil => exact ⟨rfl, fun _ _ => (iff_of_eq (or_false _)).symm, fun _ _ h => h.elim⟩
  | cons r records ih =>
    rw [List.flatMap_cons, List.append_subset] at hsub
    obtain ⟨hnext, hknows, known', hstep'⟩ := write_misses_of_exceeds h hx hstep hall hsub.1
    obtain ⟨hstored, hrest⟩ := ih hnext hstep' hsub.2
    rw [writeAll_cons]
    exact ⟨by rw [hstored, hnext.stored, h.stored], hknows.trans hrest⟩

/-- **What a reader of the output does not know, the encoder has missed.** The induction is on the
records, until one of them is cut; from then on the output is full. -/
theorem writeAll_misses (h : encoder.sink.Holds capacity content)
    (hfits : ¬ Sink.Exceeds capacity content) (hstep : InStep all encoder.table known)
    (hall : all.dedup.length < 2 ^ 31) (hsub : records.flatMap textsOf ⊆ all) :
    ∃ kept tail final,
      (encoder.writeAll records).2.sink.stored
        = encoder.sink.stored ++ (framesBytes kept ++ tail)
      ∧ Remainder tail final
      ∧ KnowsBesides (encoder.writeAll records).2.table
        (fun id => (interpret known kept).2.lookup id) (encoder.MissesAny records) := by
  induction records generalizing encoder content known with
  | nil => exact ⟨[], [], _, by simp [writeAll], .nothing, .of_inStep hstep fun _ _ h => h⟩
  | cons r records ih =>
    rw [List.flatMap_cons, List.append_subset] at hsub
    have hnext : (encoder.write r).2.sink.Holds capacity
        (content ++ framesBytes (outline encoder.table r).frames) := by
      obtain ⟨sink, table, hholds, hwrite⟩ := write_of_fits h hfits r
      rw [hwrite]
      split <;> exact hholds
    have hexceeds := hnext.exceeds_iff
    rw [writeAll_cons]
    rcases write_misses hstep hall hsub.1 with
      ⟨hwhole, hstep', hnone⟩ | ⟨front, f, part, hstops, hpart, hknows, known', hstep'⟩
    · -- the record is stored whole, and the reader gets to know its texts
      rw [hwhole, h.stored_eq hfits, ← not_iff_not] at hexceeds
      obtain ⟨kept, tail, final, hstored, hremainder, hrest⟩ :=
        ih hnext (hexceeds.mpr (Nat.lt_irrefl _)) hstep' hsub.2
      refine ⟨(outline encoder.table r).frames ++ kept, tail, final, ?_, hremainder, ?_⟩
      · rw [hstored, hwhole, framesBytes_append]
        simp only [List.append_assoc]
      · rw [interpret_append]
        refine ⟨fun id text => ?_, fun id text hmissed => ?_⟩
        · rw [hrest.text?_iff, MissesAny, or_iff_right (hnone id text)]
        · exact hrest.unread id text (hmissed.resolve_left (hnone id text))
    · have hlt := hstops.length_lt
      rw [hpart, h.stored_eq hfits, List.length_append, List.length_append] at hexceeds
      obtain ⟨hstored, hrest⟩ :=
        writeAll_misses_of_exceeds hnext (hexceeds.mpr (by omega)) hstep' hall hsub.2
      obtain ⟨cut, final, rfl, hremainder⟩ := hstops.exists_remainder
      exact ⟨front, cut, final, by rw [hstored, hpart], hremainder, hknows.trans hrest⟩

/-- **An encoder knows what a reader of its output knows, and besides what it has missed.** Records
with fewer than `2 ^ 31` distinct texts among them are written one after the other, whether or not
they succeed, to an output with any room. The numbers that the encoder has given are those of the
frames that a reader finds in the output, and those whose frame some call has stored only in part,
which the reader does not know. So both are in step exactly as long as no text was missed. -/
theorem table_is_read_or_missed (records : List Record)
    (hdistinct : (records.flatMap textsOf).dedup.length < 2 ^ 31) (capacity : Option Nat)
    (turns : Nat → Turn) :
    let start := withCapacity capacity
    let encoder := (start.writeAll records).2
    let reader := (Decoder.ofSource (.withTurns encoder.sink.stored turns none)).allAnswers.2
    (∀ id text, encoder.table.text? id = some text
        ↔ reader.table.text? id = some text ∨ start.MissesAny records id text)
      ∧ (∀ id text, start.MissesAny records id text → reader.table.text? id = none)
      ∧ ((∀ id, encoder.table.text? id = reader.table.text? id)
        ↔ ∀ id text, ¬ start.MissesAny records id text) := by
  intro start encoder reader
  obtain ⟨kept, tail, final, hstored, hremainder, hknows⟩ :=
    writeAll_misses (holds_withCapacity capacity) (not_exceeds_nil capacity) (inStep_empty _)
      hdistinct (List.Subset.refl _)
  have hstored' : encoder.sink.stored = framesBytes kept ++ tail := by
    cases capacity <;> exact hstored
  obtain ⟨-, hreader⟩ := Decoder.allAnswers_framesBytes kept hremainder turns
  rw [← hstored'] at hreader
  have htext : reader.table.text? = fun id => (interpret [] kept).2.lookup id :=
    funext hreader.text?_eq
  rw [← htext] at hknows
  refine ⟨hknows.text?_iff, hknows.unread, ?_⟩
  constructor
  · intro hsame id text hmissed
    have hknown := (hknows.text?_iff id text).mpr (.inr hmissed)
    rw [hsame, hknows.unread id text hmissed] at hknown
    cases hknown
  · intro hnone id
    refine Option.ext fun text => ?_
    rw [hknows.text?_iff, or_iff_left (hnone id text)]

/-- An execution with three texts; its session has the name of its host. -/
def shopCall : Execution := ⟨"shop", "pay()", "h1", 1, 0, 10, "h1", 0, 0⟩

/-- On an output of 20 bytes the first text gets through and the second one is missed. Writing the
record again misses the third one. -/
theorem missed_on_small_output :
    ([.execution shopCall, .execution shopCall].flatMap textsOf).dedup.length < 2 ^ 31
      ∧ ¬ (withCapacity (some 20)).MissesAny [.execution shopCall, .execution shopCall] 0 "shop"
      ∧ (withCapacity (some 20)).MissesAny [.execution shopCall, .execution shopCall] 1 "pay()"
      ∧ (withCapacity (some 20)).MissesAny [.execution shopCall, .execution shopCall] 2 "h1" := by
  have hdistinct : ([.execution shopCall, .execution shopCall].flatMap textsOf).dedup.length
      < 2 ^ 31 := by decide
  have hstored : ((withCapacity (some 20)).writeAll
      [.execution shopCall, .execution shopCall]).2.sink.stored
        = framesBytes [.text 0 (Bytes.ofText "shop") (by decide +kernel)]
          ++ [textTag, 0, 0, 0, 1, 0, 0] := by
    decide +kernel
  obtain ⟨hiff, hunread, -⟩ := table_is_read_or_missed _ hdistinct (some 20) fun _ => {}
  obtain ⟨-, hreader⟩ := Decoder.allAnswers_framesBytes
    [.text 0 (Bytes.ofText "shop") (by decide +kernel)]
    (.textHeader (show [0, 0, 0, 1, 0, 0].length < 8 by decide)) fun _ => {}
  rw [← hstored] at hreader
  refine ⟨hdistinct, fun hmissed => ?_, ?_, ?_⟩
  · have hnone := hunread 0 "shop" hmissed
    rw [hreader.text?_eq] at hnone
    exact absurd hnone (by decide +kernel)
  · refine ((hiff 1 "pay()").mp (by decide +kernel)).resolve_left ?_
    rw [hreader.text?_eq]
    decide +kernel
  · refine ((hiff 2 "h1").mp (by decide +kernel)).resolve_left ?_
    rw [hreader.text?_eq]
    decide +kernel

/-- An encoder whose output refuses the first write and takes all others. -/
def refusedOnce : Encoder :=
  { sink := { room := fun _ writes => if writes = 0 then some 0 else none } }

/-- The first text of a record keeps its number on an output that stores nothing at all. And on an
output that only refuses the first write, the same record is then written with success, under a
number that no reader of the log knows. -/
theorem number_kept_for_nobody :
    ((withCapacity (some 0)).writeAll [.execution shopCall]).1 = [.error (.io Sink.fullMessage)]
      ∧ ((withCapacity (some 0)).writeAll [.execution shopCall]).2.sink.stored = []
      ∧ ((withCapacity (some 0)).writeAll [.execution shopCall]).2.table.text? 0 = some "shop"
      ∧ (Decoder.ofSource (.withTurns [] (fun _ => {}) none)).allAnswers.2.table.text? 0 = none
      ∧ (refusedOnce.writeAll [.execution shopCall, .execution shopCall]).1
        = [.error (.io Sink.fullMessage), .ok ()]
      ∧ (Decoder.ofSource (.withTurns (refusedOnce.writeAll
            [.execution shopCall, .execution shopCall]).2.sink.stored
          (fun _ => {}) none)).allAnswers.1
        = [.error (.unknownString 0), .ok none] := by
  have hstored : (refusedOnce.writeAll [.execution shopCall, .execution shopCall]).2.sink.stored
      = framesBytes [.text 1 (Bytes.ofText "pay()") (by decide +kernel),
          .text 2 (Bytes.ofText "h1") (by decide +kernel),
          .execution ⟨0, 1, 2, 1, 0, 10, 2, 0, 0⟩] ++ [] := by
    decide +kernel
  obtain ⟨-, hnothing⟩ := Decoder.allAnswers_framesBytes [] .nothing fun _ => {}
  refine ⟨by decide +kernel, by decide +kernel, by decide +kernel, hnothing.text?_eq 0,
    by decide +kernel, ?_⟩
  rw [hstored, (Decoder.allAnswers_framesBytes _ .nothing _).1]
  decide +kernel

end Encoder

end CallTrace.Log
