import CallTrace.Proofs.Log.Scratch

/-!
# Two decoders side by side

Two decoders that have the same bytes before them and know the same texts are alike (`Alike`),
however their sources hand the bytes out. A step of one of them is followed by the same step of the
other one, as long as the source of that lasts (`Follows`). Steps that follow each other are put
together (`Follows.trans`), from the parts of a frame (`Alike.payload`) to a whole call
(`Alike.next`).
-/

namespace CallTrace.Log

/-! ## Sources that last -/

/-- The source does not fail before it has handed out so many bytes, and, if the end of the input is
looked for, before that has been found. -/
def Source.Covers (source : Source) (front : Bytes) (atEnd : Prop) : Prop :=
  ∀ left, source.soundFor = some left → front.length ≤ left ∧ (atEnd → source.rest.length < left)

theorem Source.failsWithin_iff (source : Source) (wanted : Nat) :
    source.FailsWithin wanted
      ↔ ¬ source.Covers (source.rest.take wanted) (source.rest.length < wanted) := by
  unfold FailsWithin Covers
  rw [List.length_take]
  constructor
  · rintro ⟨left, hleft, hlt, hle⟩ h
    obtain ⟨hcount, hend⟩ := h left hleft
    omega
  · intro h
    push Not at h
    obtain ⟨left, hleft, h⟩ := h
    refine ⟨left, hleft, ?_⟩
    omega

/-- Two pieces are covered, one after the other, if they are covered as one. -/
theorem Source.HandsOut.covers_append {source next : Source} {front more : Bytes} {atEnd : Prop}
    (h : source.HandsOut front next) :
    next.Covers more atEnd ↔ source.Covers (front ++ more) atEnd := by
  unfold Covers
  rw [h.soundFor_eq, h.rest_eq, List.length_append, List.length_append]
  cases hleft : source.soundFor with
  | none => simp
  | some left =>
    have hle := h.length_le left hleft
    simp only [Option.map_some, Option.some.injEq, forall_eq']
    constructor
    · rintro ⟨hmore, hend⟩
      exact ⟨by omega, fun h => by have := hend h; omega⟩
    · rintro ⟨hmore, hend⟩
      exact ⟨by omega, fun h => by have := hend h; omega⟩

theorem Source.Covers.of_append {source : Source} {front more : Bytes} {atEnd : Prop}
    (h : source.Covers (front ++ more) atEnd) : source.Covers front False := by
  intro left hleft
  have := (h left hleft).1
  rw [List.length_append] at this
  exact ⟨by omega, False.elim⟩

theorem Source.handsOut_nil (source : Source) : source.HandsOut [] source where
  rest_eq := rfl
  soundFor_eq := by cases source.soundFor <;> rfl
  length_le _ _ := Nat.zero_le _
  failure_eq := rfl

namespace Decoder

variable {α β : Type} {whole other : Decoder} {front : Bytes} {atEnd : Prop}

/-! ## Two decoders at one place -/

/-- Two decoders have the same bytes before them and know the same texts. The source of the first
does not fail; that of the other one may. -/
structure Alike (whole other : Decoder) : Prop where
  isSound : whole.source.IsSound
  rest_eq : other.source.rest = whole.source.rest
  table_eq : other.table = whole.table

theorem Alike.self (h : whole.source.IsSound) : Alike whole whole :=
  ⟨h, rfl, rfl⟩

/-- The source of the decoder has failed and will say so for ever. -/
structure Broken (decoder : Decoder) (message : String) : Prop where
  soundFor_eq : decoder.source.soundFor = some 0
  failure_eq : decoder.source.failure = message

/-- A step of `whole` takes `front` from the input and may meet its end. If the source of `other`
lasts so long, the same step of `other` is the same; otherwise it tells the failure. -/
structure Follows (whole other : Decoder) (front : Bytes) (atEnd : Prop)
    (out out' : Except Fault α × Decoder) : Prop where
  handsOut : whole.source.HandsOut front out.2.source
  takes_all : atEnd → whole.source.rest = front
  not_io : ∀ message, out.1 ≠ .error (.io message)
  same_or_broken :
    (other.source.Covers front atEnd ∧ out'.1 = out.1
        ∧ other.source.HandsOut front out'.2.source ∧ out'.2.table = out.2.table)
      ∨ (¬ other.source.Covers front atEnd
        ∧ out'.1 = .error (.io other.source.failure) ∧ out'.2.Broken other.source.failure)

/-- After the same step the decoders are alike again. -/
theorem Alike.after {after after' : Decoder} (h : Alike whole other)
    (hw : whole.source.HandsOut front after.source)
    (ho : other.source.HandsOut front after'.source) (ht : after'.table = after.table) :
    Alike after after' where
  isSound := hw.isSound h.isSound
  rest_eq := by
    have hrest := ho.rest_eq.symm.trans (h.rest_eq.trans hw.rest_eq)
    exact List.append_cancel_left hrest
  table_eq := ht

/-- A step that reads nothing. -/
theorem Follows.stay {out out' : Except Fault α × Decoder}
    (hout : out.2.source = whole.source) (hout' : out'.2.source = other.source)
    (hsame : out'.1 = out.1) (htable : out'.2.table = out.2.table)
    (hio : ∀ message, out.1 ≠ .error (.io message)) (hend : ¬ atEnd) :
    Follows whole other [] atEnd out out' where
  handsOut := by rw [hout]; exact whole.source.handsOut_nil
  takes_all h := absurd h hend
  not_io := hio
  same_or_broken := .inl ⟨fun _ _ => ⟨Nat.zero_le _, fun h => absurd h hend⟩, hsame,
    by rw [hout']; exact other.source.handsOut_nil, htable⟩

/-! ## One step after the other -/

/-- The end of the input was met: it was the answer, or a part was cut off there. -/
def MeetsEnd (ends : α → Prop) : Except Fault α → Prop
  | .ok a => ends a
  | .error fault => ∃ needed available, fault = .underflow needed available

/-- A part of a frame that meets the end of the input is cut off. -/
abbrev IsCut (result : Except Fault α) : Prop := MeetsEnd (fun _ => False) result

/-- Goes on with what a step answers, unless that is a fault. -/
def andThen (out : Except Fault α × Decoder) (k : α → Decoder → Except Fault β × Decoder) :
    Except Fault β × Decoder :=
  match out with
  | (.error fault, decoder) => (.error fault, decoder)
  | (.ok a, decoder) => k a decoder

/-- Of two steps, the second one follows where the first one left off. -/
theorem Follows.trans {out out' : Except Fault α × Decoder} {ends : β → Prop}
    {k : α → Decoder → Except Fault β × Decoder}
    (h : Follows whole other front (IsCut out.1) out out') (hd : Alike whole other)
    (hk : ∀ a, out.1 = .ok a → ∀ mid', Alike out.2 mid' →
      ∃ more, Follows out.2 mid' more (MeetsEnd ends (k a out.2).1) (k a out.2) (k a mid')) :
    ∃ more, Follows whole other (front ++ more) (MeetsEnd ends (andThen out k).1)
      (andThen out k) (andThen out' k) := by
  obtain ⟨r, mid⟩ := out
  obtain ⟨r', mid'⟩ := out'
  cases r with
  | error fault =>
    refine ⟨[], ?_⟩
    rw [List.append_nil]
    refine ⟨h.handsOut, h.takes_all, fun message hio => ?_, ?_⟩
    · cases hio
      exact h.not_io message rfl
    · rcases h.same_or_broken with ⟨hcov, hsame, hout, htable⟩ | ⟨hcov, hfault, hbroken⟩
      · cases hsame
        exact .inl ⟨hcov, rfl, hout, htable⟩
      · cases hfault
        exact .inr ⟨hcov, rfl, hbroken⟩
  | ok a =>
    rcases h.same_or_broken with ⟨hcov, hsame, hout, htable⟩ | ⟨hcov, hfault, hbroken⟩
    · cases hsame
      obtain ⟨more, hmore⟩ := hk a rfl mid' (hd.after h.handsOut hout htable)
      refine ⟨more, h.handsOut.trans hmore.handsOut, ?_, hmore.not_io, ?_⟩
      · intro hend
        rw [h.handsOut.rest_eq, hmore.takes_all hend]
      · rcases hmore.same_or_broken with ⟨hcov, hsame, hlast, htable⟩ | ⟨hcov, hfault, hbroken⟩
        · exact .inl ⟨hout.covers_append.mp hcov, hsame, hout.trans hlast, htable⟩
        · rw [hout.failure_eq] at hfault hbroken
          exact .inr ⟨fun h => hcov (hout.covers_append.mpr h), hfault, hbroken⟩
    · cases hfault
      -- what the first decoder goes on to do is told by comparing it with itself
      obtain ⟨more, hmore⟩ := hk a rfl mid (.self (h.handsOut.isSound hd.isSound))
      refine ⟨more, h.handsOut.trans hmore.handsOut, ?_, hmore.not_io, ?_⟩
      · intro hend
        rw [h.handsOut.rest_eq, hmore.takes_all hend]
      · exact .inr ⟨fun h => hcov h.of_append, rfl, hbroken⟩

/-! ## The parts of a frame -/

/-- What reading a part comes to. -/
theorem payload_cases (decoder : Decoder) (size : Nat) :
    (¬ decoder.source.FailsWithin size ∧ ∃ source,
        decoder.source.HandsOut (decoder.source.rest.take size) source
          ∧ decoder.payload size =
            (if decoder.source.rest.length < size then
                .error (.underflow size decoder.source.rest.length)
              else .ok (decoder.source.rest.take size), { decoder with source }))
      ∨ (decoder.source.FailsWithin size ∧
          (decoder.payload size).1 = .error (.io decoder.source.failure)
            ∧ (decoder.payload size).2.Broken decoder.source.failure) := by
  unfold Decoder.payload
  rcases decoder.source.fill_cases size with
    ⟨hfails, source, hfill, hout⟩ | ⟨hfails, source, hfill, hsound, hfailure⟩
  · refine .inl ⟨hfails, source, hout, ?_⟩
    rw [hfill]
    by_cases hlt : decoder.source.rest.length < size
    · have hmin : min size decoder.source.rest.length = decoder.source.rest.length := by omega
      simp [hlt, hmin]
    · have hmin : min size decoder.source.rest.length = size := by omega
      simp [hlt, hmin]
  · rw [hfill]
    exact .inr ⟨hfails, rfl, hsound, hfailure⟩

theorem isCut_ite {p : Prop} [Decidable p] (needed available : Nat) (bytes : Bytes) :
    IsCut (if p then .error (.underflow needed available) else .ok bytes) ↔ p := by
  by_cases h : p
  · simp [h, MeetsEnd]
  · simp [h, MeetsEnd]

/-- A part is whole, or the end of the input was met. -/
theorem Alike.payload (h : Alike whole other) (size : Nat) :
    Follows whole other (whole.source.rest.take size) (IsCut (whole.payload size).1)
        (whole.payload size) (other.payload size)
      ∧ ∀ bytes, (whole.payload size).1 = .ok bytes → bytes.length = size := by
  rcases whole.payload_cases size with ⟨-, source, hout, hpayload⟩ | ⟨hfails, -⟩
  · constructor
    · rw [hpayload, isCut_ite]
      refine ⟨hout, fun hlt => (List.take_of_length_le (by omega)).symm, ?_, ?_⟩
      · intro message
        dsimp only
        split <;> simp
      · have hiff := other.source.failsWithin_iff size
        have hother := other.payload_cases size
        rw [h.rest_eq] at hiff hother
        rcases hother with ⟨hfails, last, hgiven, hread⟩ | ⟨hfails, hread, hbroken⟩
        · refine .inl ⟨not_not.mp fun hc => hfails (hiff.mpr hc), ?_⟩
          rw [hread]
          exact ⟨rfl, hgiven, h.table_eq⟩
        · exact .inr ⟨hiff.mp hfails, hread, hbroken⟩
    · intro bytes
      rw [hpayload]
      by_cases hlt : whole.source.rest.length < size
      · simp [hlt]
      · simp only [hlt, if_false]
        rintro ⟨⟩
        exact List.length_take_of_le (by omega)
  · exact absurd hfails (h.isSound.not_failsWithin size)

/-- What only depends on the texts known is the same for decoders that are alike. -/
theorem Alike.bind (h : Alike whole other) (id : Int32) (bytes : Bytes) :
    Follows whole other [] (IsCut (whole.bind id bytes).1) (whole.bind id bytes)
      (other.bind id bytes) := by
  have htable := h.table_eq
  refine .stay (source_bind whole id bytes) (source_bind other id bytes) ?_ ?_ ?_ ?_
  all_goals
    unfold Decoder.bind
    try rw [htable]
    split
    · simp [htable, MeetsEnd]
    · split
      · simp [htable, MeetsEnd]
      · dsimp only
        split <;> simp [MeetsEnd]

theorem text_eq (decoder : Decoder) :
    decoder.text = andThen (decoder.payload 8) fun header decoder =>
      match textHeader.run' header with
      | .error fault => (.error fault, decoder)
      | .ok (id, length) =>
        if maxTextLength < length then (.error (.stringTooLong id length), decoder)
        else andThen (decoder.payload length) fun bytes decoder => decoder.bind id bytes := by
  unfold text andThen
  rcases decoder.payload 8 with ⟨fault | header, mid⟩
  · rfl
  · dsimp only
    rcases textHeader.run' header with fault | ⟨id, length⟩
    · rfl
    · dsimp only
      rcases mid.payload length with ⟨fault | bytes, last⟩
      · rfl
      · rfl

theorem execution_eq (decoder : Decoder) :
    decoder.execution = andThen (decoder.payload Layout.executionSize) fun bytes decoder =>
      (Layout.readExecution decoder.table bytes, decoder) := by
  unfold execution andThen
  rcases decoder.payload Layout.executionSize with ⟨fault | bytes, mid⟩
  · rfl
  · rfl

theorem branching_eq (decoder : Decoder) :
    decoder.branching = andThen (decoder.payload Layout.branchingSize) fun bytes decoder =>
      (Layout.readBranching bytes, decoder) := by
  unfold branching andThen
  rcases decoder.payload Layout.branchingSize with ⟨fault | bytes, mid⟩
  · rfl
  · rfl

theorem exists_textHeader {header : Bytes} (h : header.length = 8) :
    ∃ id length, textHeader.run' header = .ok (id, length) := by
  obtain ⟨id, word, rfl, hword⟩ := Bytes.exists_cons_ofInt32 (n := 4) h
  obtain ⟨length, rfl⟩ := Bytes.exists_ofWord32 hword
  exact ⟨id, length.toNat, textHeader_bytes id length⟩

theorem Alike.text (h : Alike whole other) :
    ∃ front, Follows whole other front (IsCut whole.text.1) whole.text other.text := by
  obtain ⟨hread, hlength⟩ := h.payload 8
  rw [text_eq, text_eq]
  refine (hread.trans h fun bytes hbytes mid' hmid => ?_).imp' _ fun _ h => h
  obtain ⟨id, length, hrun⟩ := exists_textHeader (hlength bytes hbytes)
  rw [hrun]
  dsimp only
  split
  · exact ⟨[], .stay rfl rfl rfl hmid.table_eq (by simp) (by simp [MeetsEnd])⟩
  · obtain ⟨hread, -⟩ := hmid.payload length
    exact (hread.trans hmid fun bytes _ last' hlast => ⟨[], hlast.bind id bytes⟩).imp' _
      fun _ h => h

theorem Alike.execution (h : Alike whole other) :
    ∃ front, Follows whole other front (IsCut whole.execution.1) whole.execution
      other.execution := by
  obtain ⟨hread, hlength⟩ := h.payload Layout.executionSize
  rw [execution_eq, execution_eq]
  refine (hread.trans h fun bytes hbytes mid' hmid => ⟨[], ?_⟩).imp' _ fun _ h => h
  obtain ⟨raw, rfl⟩ := Layout.exists_rawExecution (hlength bytes hbytes)
  rw [Layout.readExecution_bytes, Layout.readExecution_bytes, hmid.table_eq]
  refine .stay rfl rfl rfl hmid.table_eq ?_ ?_
  all_goals
    unfold Layout.RawExecution.resolve
    dsimp only
    split <;> simp [MeetsEnd]

theorem Alike.branching (h : Alike whole other) :
    ∃ front, Follows whole other front (IsCut whole.branching.1) whole.branching
      other.branching := by
  obtain ⟨hread, hlength⟩ := h.payload Layout.branchingSize
  rw [branching_eq, branching_eq]
  refine (hread.trans h fun bytes hbytes mid' hmid => ⟨[], ?_⟩).imp' _ fun _ h => h
  obtain ⟨b, rfl⟩ := Layout.exists_branchingBytes (hlength bytes hbytes)
  rw [Layout.readBranching_bytes]
  exact .stay rfl rfl rfl hmid.table_eq (by simp) (by simp [MeetsEnd])

/-! ## A call -/

/-- What is done with the tag of a frame. -/
def frame (decoder : Decoder) (tag : UInt8) : Answer × Decoder :=
  if tag = textTag then andThen decoder.text fun _ decoder => decoder.next
  else if tag = executionTag then
    andThen decoder.execution fun e decoder => (.ok (some (.execution e)), decoder)
  else if tag = branchingTag then
    andThen decoder.branching fun b decoder => (.ok (some (.branching b)), decoder)
  else (.error (.unknownTag tag), decoder)

theorem next_eq (decoder : Decoder) (h : decoder.source.rest ≠ []) :
    decoder.next
      = andThen (decoder.payload 1) fun bytes decoder => decoder.frame (bytes.headD 0) := by
  unfold Decoder.payload
  rcases decoder.source.fill_cases 1 with ⟨-, source, hfill, hout⟩ | ⟨-, source, hfill, -⟩
  · obtain ⟨tag, rest, hrest⟩ := List.exists_cons_of_ne_nil h
    rw [hrest, List.take_succ_cons, List.take_zero] at hfill
    rw [next_of_fill_tag hfill, hfill]
    show _ = frame { decoder with source := source } tag
    unfold frame andThen
    by_cases ht : tag = textTag
    · rw [if_pos ht, if_pos ht]
      split <;> next htext => rw [htext]
    · rw [if_neg ht, if_neg ht]
      by_cases he : tag = executionTag
      · rw [if_pos he, if_pos he]
        rcases execution { decoder with source := source } with ⟨fault | e, after⟩
        · rfl
        · rfl
      · rw [if_neg he, if_neg he]
        by_cases hb : tag = branchingTag
        · rw [if_pos hb, if_pos hb]
          rcases branching { decoder with source := source } with ⟨fault | b, after⟩
          · rfl
          · rfl
        · rw [if_neg hb, if_neg hb]
  · rw [next_of_fill_error hfill, hfill]
    rfl

/-- At the end of the input there is nothing to read, unless the source fails first. -/
theorem next_nil_cases (decoder : Decoder) (hnil : decoder.source.rest = []) :
    (¬ decoder.source.FailsWithin 1 ∧ ∃ source, decoder.source.HandsOut [] source
        ∧ decoder.next = (.ok none, { decoder with source }))
      ∨ (decoder.source.FailsWithin 1 ∧ decoder.next.1 = .error (.io decoder.source.failure)
        ∧ decoder.next.2.Broken decoder.source.failure) := by
  rcases decoder.source.fill_cases 1 with
    ⟨hfails, source, hfill, hout⟩ | ⟨hfails, source, hfill, hsound, hfailure⟩
  · rw [hnil, List.take_nil] at hfill hout
    exact .inl ⟨hfails, source, hout, next_of_fill_nil hfill⟩
  · rw [next_of_fill_error hfill]
    exact .inr ⟨hfails, rfl, hsound, hfailure⟩

theorem Alike.next_nil (h : Alike whole other) (hnil : whole.source.rest = []) :
    Follows whole other [] (MeetsEnd (· = none) whole.next.1) whole.next other.next := by
  rcases whole.next_nil_cases hnil with ⟨-, source, hout, hnext⟩ | ⟨hfails, -⟩
  · rw [hnext]
    refine ⟨hout, fun _ => hnil, by simp, ?_⟩
    have hiff := other.source.failsWithin_iff 1
    have hrest := h.rest_eq.trans hnil
    have hend : ((([] : Bytes).length < 1) : Prop) = MeetsEnd (· = none) (.ok none : Answer) := by
      simp [MeetsEnd]
    rw [hrest, List.take_nil, hend] at hiff
    rcases other.next_nil_cases hrest with
      ⟨hfails, last, hlast, hsame⟩ | ⟨hfails, hfault, hbroken⟩
    · rw [hsame]
      exact .inl ⟨not_not.mp fun hc => hfails (hiff.mpr hc), rfl, hlast, h.table_eq⟩
    · exact .inr ⟨hiff.mp hfails, hfault, hbroken⟩
  · exact absurd hfails (h.isSound.not_failsWithin 1)

/-- What is done with a tag is the same as long as the source lasts, if that is so for the calls on
less input. -/
theorem Alike.frame (h : Alike whole other) (tag : UInt8)
    (hnext : ∀ after after', Alike after after' →
      after.source.rest.length ≤ whole.source.rest.length →
      ∃ front, Follows after after' front (MeetsEnd (· = none) after.next.1)
        after.next after'.next) :
    ∃ front, Follows whole other front (MeetsEnd (· = none) (whole.frame tag).1)
      (whole.frame tag) (other.frame tag) := by
  unfold Decoder.frame
  split
  · obtain ⟨text, htext⟩ := h.text
    refine (htext.trans h fun _ _ after' hafter => ?_).imp' _ fun _ h => h
    exact hnext _ after' hafter (length_rest_text_le whole)
  · split
    · obtain ⟨content, hcontent⟩ := h.execution
      refine (hcontent.trans h fun e _ after' hafter => ⟨[], ?_⟩).imp' _ fun _ h => h
      exact .stay rfl rfl rfl hafter.table_eq (by simp) (by simp [MeetsEnd])
    · split
      · obtain ⟨content, hcontent⟩ := h.branching
        refine (hcontent.trans h fun b _ after' hafter => ⟨[], ?_⟩).imp' _ fun _ h => h
        exact .stay rfl rfl rfl hafter.table_eq (by simp) (by simp [MeetsEnd])
      · exact ⟨[], .stay rfl rfl rfl h.table_eq (by simp) (by simp [MeetsEnd])⟩

/-- **A call is the same as long as the source lasts.** Before the end of the input it takes at
least one byte. -/
theorem Alike.next (h : Alike whole other) :
    ∃ front, (whole.source.rest ≠ [] → front ≠ [])
      ∧ Follows whole other front (MeetsEnd (· = none) whole.next.1) whole.next other.next := by
  induction hn : whole.source.rest.length using Nat.strongRecOn generalizing whole other with
  | ind n ih =>
    by_cases hnil : whole.source.rest = []
    · exact ⟨[], fun hne => absurd hnil hne, h.next_nil hnil⟩
    · obtain ⟨hread, hlength⟩ := h.payload 1
      have htag : whole.source.rest.take 1 ≠ [] := by simpa using hnil
      rw [next_eq whole hnil, next_eq other (by rwa [h.rest_eq])]
      refine (hread.trans h fun bytes hbytes mid' hmid => hmid.frame _ ?_).imp' _ fun more h =>
        ⟨fun _ hc => htag (List.append_eq_nil_iff.mp hc).1, h⟩
      intro after after' halike hle
      have hrest := congrArg List.length hread.handsOut.rest_eq
      have hpos := List.length_pos_iff.mpr htag
      rw [List.length_append] at hrest
      obtain ⟨front, -, hfollows⟩ := ih _ (by omega) halike rfl
      exact ⟨front, hfollows⟩

end Decoder

end CallTrace.Log
