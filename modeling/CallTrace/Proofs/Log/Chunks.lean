import CallTrace.Proofs.Log.Alike
import Mathlib.Data.Nat.Find

/-!
# How the input arrives makes no difference

Two decoders that have the same bytes before them answer the same, call by call, however their
sources hand the bytes out; and one whose source fails on the way answers the same up to there
(`Alike.answers`). How far that is can be said by the decoder whose source does not fail: it is the
calls that have read no further (`Spared`), each of which has read a frame that lies within
(`LiesWithin`, `liesWithin_iff_of_splits`).
-/

namespace CallTrace.Log.Decoder

variable {whole other : Decoder} {front : Bytes}

/-! ## Any number of calls -/

theorem answers_add (m n : Nat) (decoder : Decoder) :
    decoder.answers (m + n)
      = ((decoder.answers m).1 ++ ((decoder.answers m).2.answers n).1,
        ((decoder.answers m).2.answers n).2) := by
  induction m generalizing decoder with
  | zero => rw [Nat.zero_add]; rfl
  | succ m ih =>
    rw [Nat.add_right_comm, answers_succ, ih, answers_succ]
    rfl

theorem answers_succ_last (n : Nat) (decoder : Decoder) :
    decoder.answers (n + 1)
      = ((decoder.answers n).1 ++ [(decoder.answers n).2.next.1], (decoder.answers n).2.next.2) :=
  answers_add n 1 decoder

/-- How many bytes the first calls take from the input. -/
def taken (decoder : Decoder) (calls : Nat) : Nat :=
  decoder.source.rest.length - (decoder.answers calls).2.source.rest.length

/-- The call with this number, counted from 0, meets the end of the input. -/
def EndsAt (decoder : Decoder) (call : Nat) : Prop :=
  MeetsEnd (· = none) (decoder.answers call).2.next.1

/-- The call with this number is answered even if the source fails after `n` bytes: it reads no
further, and if it looks for the end, the source does not fail before that. -/
def Spared (decoder : Decoder) (n call : Nat) : Prop :=
  decoder.taken (call + 1) ≤ n ∧ (decoder.EndsAt call → decoder.source.rest.length < n)

/-- What a call and the calls before it take is covered if the call is spared. -/
theorem Alike.covers_iff (h : Alike whole other) {n : Nat} {more : Bytes}
    (hw : whole.source.HandsOut front (whole.answers n).2.source)
    (ho : other.source.HandsOut front (other.answers n).2.source)
    (hmore : (whole.answers n).2.source.HandsOut more (whole.answers n).2.next.2.source) :
    (other.answers n).2.source.Covers more (whole.EndsAt n)
      ↔ ∀ left, other.source.soundFor = some left → whole.Spared left n := by
  have hrest := congrArg List.length (hw.trans hmore).rest_eq
  rw [List.length_append] at hrest
  have htaken : whole.taken (n + 1) = (front ++ more).length := by
    rw [taken, answers_succ_last]
    dsimp only
    omega
  rw [ho.covers_append]
  unfold Source.Covers Spared
  rw [htaken, h.rest_eq]

/-- **As long as the source lasts, the calls are the same.** -/
theorem Alike.answers (h : Alike whole other) {n : Nat}
    (hspared : ∀ left, other.source.soundFor = some left → ∀ i < n, whole.Spared left i) :
    (other.answers n).1 = (whole.answers n).1
      ∧ Alike (whole.answers n).2 (other.answers n).2
      ∧ ∃ front, whole.source.HandsOut front (whole.answers n).2.source
        ∧ other.source.HandsOut front (other.answers n).2.source := by
  induction n with
  | zero => exact ⟨rfl, h, [], whole.source.handsOut_nil, other.source.handsOut_nil⟩
  | succ n ih =>
    obtain ⟨hsame, halike, front, hw, ho⟩ := ih fun left hleft i hi =>
      hspared left hleft i (by omega)
    obtain ⟨more, -, hnext⟩ := halike.next
    have hcov := (h.covers_iff hw ho hnext.handsOut).mpr fun left hleft =>
      hspared left hleft n (by omega)
    rw [answers_succ_last, answers_succ_last, hsame]
    rcases hnext.same_or_broken with ⟨-, hanswer, hout, htable⟩ | ⟨hnot, -⟩
    · exact ⟨by rw [hanswer], halike.after hnext.handsOut hout htable, front ++ more,
        hw.trans hnext.handsOut, ho.trans hout⟩
    · exact absurd hcov hnot

/-- A source that has failed says so to every call. -/
theorem Broken.answers {decoder : Decoder} {message : String} (h : decoder.Broken message)
    (n : Nat) : (decoder.answers n).1 = List.replicate n (.error (.io message)) := by
  induction n generalizing decoder with
  | zero => rfl
  | succ n ih =>
    have hfails : decoder.source.FailsWithin 1 := ⟨0, h.soundFor_eq, by omega, by omega⟩
    rcases decoder.source.fill_cases 1 with ⟨hnot, -⟩ | ⟨-, source, hfill, hsound, hfailure⟩
    · exact absurd hfails hnot
    · rw [h.failure_eq] at hfill hfailure
      rw [answers_succ, next_of_fill_error hfill, ih ⟨hsound, hfailure⟩]
      rfl

/-- **From the first call that the source does not last for, its failure is all there is.** -/
theorem Alike.answers_broken (h : Alike whole other) {left m : Nat}
    (hleft : other.source.soundFor = some left) (hbefore : ∀ i < m, whole.Spared left i)
    (hm : ¬ whole.Spared left m) (n : Nat) :
    (other.answers (m + n)).1
      = (whole.answers m).1 ++ List.replicate n (.error (.io other.source.failure)) := by
  obtain ⟨hsame, halike, front, hw, ho⟩ := h.answers (n := m) fun left' hleft' => by
    rw [hleft] at hleft'
    cases hleft'
    exact hbefore
  obtain ⟨more, -, hnext⟩ := halike.next
  rw [answers_add, hsame]
  cases n with
  | zero => rfl
  | succ n =>
    rcases hnext.same_or_broken with ⟨hcov, -⟩ | ⟨-, hfault, hbroken⟩
    · exact absurd ((h.covers_iff hw ho hnext.handsOut).mp hcov left hleft) hm
    · rw [ho.failure_eq] at hfault hbroken
      rw [answers_succ, hfault, hbroken.answers]
      rfl

/-! ## How far a source lasts -/

/-- A call on a source that does not fail is at the end of the input, or takes a byte. -/
theorem next_takes (hs : whole.source.IsSound) :
    whole.next.2.source.IsSound
      ∧ whole.next.2.source.rest.length ≤ whole.source.rest.length
      ∧ (∀ message, whole.next.1 ≠ .error (.io message))
      ∧ (MeetsEnd (· = none) whole.next.1 → whole.next.2.source.rest = [])
      ∧ (¬ MeetsEnd (· = none) whole.next.1 →
          whole.next.2.source.rest.length < whole.source.rest.length) := by
  obtain ⟨front, hfront, hnext⟩ := (Alike.self hs).next
  have hrest := congrArg List.length hnext.handsOut.rest_eq
  rw [List.length_append] at hrest
  refine ⟨hnext.handsOut.isSound hs, by omega, hnext.not_io, fun hend => ?_, fun hend => ?_⟩
  · have hall := hnext.handsOut.rest_eq
    rw [hnext.takes_all hend] at hall
    simpa using hall
  · have hpos : 0 < front.length := by
      refine List.length_pos_iff.mpr (hfront fun hnil => ?_)
      rcases whole.next_nil_cases hnil with ⟨-, source, -, hnone⟩ | ⟨hfails, -⟩
      · rw [hnone] at hend
        exact hend rfl
      · exact hs.not_failsWithin 1 hfails
    omega

theorem isSound_answers (hs : whole.source.IsSound) (n : Nat) :
    (whole.answers n).2.source.IsSound := by
  induction n with
  | zero => exact hs
  | succ n ih =>
    rw [answers_succ_last]
    exact (next_takes ih).1

theorem not_io_of_mem_answers (hs : whole.source.IsSound) {n : Nat} {message : String} :
    .error (.io message) ∉ (whole.answers n).1 := by
  induction n with
  | zero => simp [Decoder.answers]
  | succ n ih =>
    rw [answers_succ_last, List.mem_append, List.mem_singleton]
    rintro (h | h)
    · exact ih h
    · exact (next_takes (isSound_answers hs n)).2.2.1 message h.symm

/-- What a call leaves, told by what the calls before it left. -/
theorem taken_succ (hs : whole.source.IsSound) (n : Nat) :
    whole.taken n ≤ whole.taken (n + 1) ∧ whole.taken (n + 1) ≤ whole.source.rest.length
      ∧ (whole.EndsAt n → (whole.answers (n + 1)).2.source.rest = [])
      ∧ (¬ whole.EndsAt n → whole.taken n < whole.taken (n + 1)) := by
  have hle : (whole.answers n).2.source.rest.length ≤ whole.source.rest.length := by
    induction n with
    | zero => exact Nat.le_refl _
    | succ n ih =>
      rw [answers_succ_last]
      exact Nat.le_trans (next_takes (isSound_answers hs n)).2.1 ih
  obtain ⟨-, hrest, -, hend, hgoes⟩ := next_takes (isSound_answers hs n)
  unfold taken EndsAt
  rw [answers_succ_last]
  refine ⟨by dsimp only; omega, by omega, hend, fun h => ?_⟩
  have := hgoes h
  dsimp only
  omega

theorem taken_mono (hs : whole.source.IsSound) {m n : Nat} (h : m ≤ n) :
    whole.taken m ≤ whole.taken n := by
  induction h with
  | refl => exact Nat.le_refl _
  | step _ ih => exact Nat.le_trans ih (taken_succ hs _).1

/-- Once the end of the input was met, every call meets it. -/
theorem endsAt_mono (hs : whole.source.IsSound) {m n : Nat} (h : m ≤ n) (hm : whole.EndsAt m) :
    whole.EndsAt n := by
  induction h with
  | refl => exact hm
  | @step n _ ih =>
    have hnil := (taken_succ hs n).2.2.1 ih
    unfold EndsAt
    rcases (whole.answers (n + 1)).2.next_nil_cases hnil with ⟨-, source, -, hnone⟩ | ⟨hfails, -⟩
    · rw [hnone]
      rfl
    · exact absurd hfails ((isSound_answers hs (n + 1)).not_failsWithin 1)

theorem exists_first_not_spared {n k : Nat} (h : ¬ whole.Spared n k) :
    ∃ m ≤ k, ¬ whole.Spared n m ∧ ∀ i < m, whole.Spared n i := by
  classical
  have hexists : ∃ i, ¬ whole.Spared n i := ⟨k, h⟩
  exact ⟨Nat.find hexists, Nat.find_min' hexists h, Nat.find_spec hexists,
    fun i hi => not_not.mp (Nat.find_min hexists hi)⟩

/-- A source that fails lasts for a number of calls and for none behind them. -/
theorem exists_spared (hs : whole.source.IsSound) {n : Nat} (hn : n ≤ whole.source.rest.length) :
    ∃ m, ∀ i, i < m ↔ whole.Spared n i := by
  have hexists : ∃ m, ¬ whole.Spared n m := by
    by_contra hall
    push Not at hall
    have hend : ∀ i, ¬ whole.EndsAt i := fun i h => by
      have := (hall i).2 h
      omega
    have htaken : ∀ i, i ≤ whole.taken i := fun i => by
      induction i with
      | zero => exact Nat.zero_le _
      | succ i ih => exact Nat.lt_of_le_of_lt ih ((taken_succ hs i).2.2.2 (hend i))
    have := (hall n).1
    have := htaken (n + 1)
    omega
  obtain ⟨k, hk⟩ := hexists
  obtain ⟨m, -, hm, hbefore⟩ := exists_first_not_spared hk
  refine ⟨m, fun i => ⟨hbefore i, fun hi => ?_⟩⟩
  by_contra hle
  rw [Nat.not_lt] at hle
  refine hm ⟨?_, fun h => hi.2 (endsAt_mono hs hle h)⟩
  exact Nat.le_trans (taken_mono hs (by omega)) hi.1

/-- A reader whose source fails answers with something else only as long as the source lasts. -/
theorem Alike.spared_of_answer (h : Alike whole other) {left k : Nat} {found : Option Record}
    (hleft : other.source.soundFor = some left)
    (hfound : (other.answers k).2.next.1 = .ok found) : ∀ i ≤ k, whole.Spared left i := by
  intro i hi
  by_contra hnot
  obtain ⟨m, hmi, hm, hbefore⟩ := exists_first_not_spared hnot
  obtain ⟨j, rfl⟩ : ∃ j, k = m + j := ⟨k - m, by omega⟩
  have hall := h.answers_broken hleft hbefore hm (j + 1)
  rw [← Nat.add_assoc, answers_succ_last, List.replicate_succ', ← List.append_assoc] at hall
  have hlast := (List.append_inj' hall rfl).2
  rw [List.singleton_inj, hfound] at hlast
  cases hlast

/-! ## Records and their frames -/

/-- A call leaves a table of announced texts, and what it answers with a record has read a frame of
that record last. -/
theorem At.next_record {decoder : Decoder} {rest : Bytes} {known : KnownTexts}
    (h : decoder.At rest) (hk : Knows decoder.table known) :
    ∃ last, Knows decoder.next.2.table last
      ∧ ∀ record, decoder.next.1 = .ok (some record) →
        ∃ (front : Bytes) (f : Frame), rest = front ++ (f.bytes ++ decoder.next.2.source.rest)
          ∧ f.answer last = some (.ok (some record)) := by
  obtain ⟨frames, tail, final, rfl, hremainder⟩ := exists_split rest
  induction frames generalizing decoder known with
  | nil =>
    obtain ⟨source, hnext⟩ := h.next_remainder hremainder
    rw [hnext]
    refine ⟨known, hk, fun record hrecord => ?_⟩
    rcases hremainder.ends with rfl | ⟨fault, rfl, -⟩
    · cases hrecord
    · cases hrecord
  | cons f frames ih =>
    rw [framesBytes_cons, List.append_assoc] at h
    obtain ⟨after, hat, hknows, hnext⟩ := h.next_frame hk
    cases ha : f.answer known with
    | none =>
      rw [ha] at hnext
      rw [hnext]
      obtain ⟨last, hlast, hrecord⟩ := ih hknows hat
      refine ⟨last, hlast, fun record hr => ?_⟩
      obtain ⟨front, g, hbytes, hg⟩ := hrecord record hr
      exact ⟨f.bytes ++ front, g, by rw [framesBytes_cons, List.append_assoc, hbytes]; simp, hg⟩
    | some answer =>
      rw [ha] at hnext
      rw [hnext]
      refine ⟨f.learn known, hknows, fun record hr => ⟨[], f, ?_, ?_⟩⟩
      · rw [framesBytes_cons, List.append_assoc, hat.rest]
        rfl
      · cases hr
        rw [← ha]
        -- a frame that is answered with a record announces nothing
        cases f with
        | text id content hc =>
          rcases Frame.answer_text known id content hc with hnone | ⟨fault, hfault⟩
          · rw [hnone] at ha
            cases ha
          · rw [hfault] at ha
            cases ha
        | execution raw => simp [Frame.learn, Frame.announced]
        | branching b => simp [Frame.learn, Frame.announced]

theorem exists_knows_answers {decoder : Decoder} {rest : Bytes} {known : KnownTexts}
    (h : decoder.At rest) (hk : Knows decoder.table known) (n : Nat) :
    ∃ last, Knows (decoder.answers n).2.table last := by
  induction n with
  | zero => exact ⟨known, hk⟩
  | succ n ih =>
    obtain ⟨mid, hmid⟩ := ih
    have hat : (decoder.answers n).2.At (decoder.answers n).2.source.rest :=
      ⟨isSound_answers h.isSound n, rfl⟩
    obtain ⟨last, hlast, -⟩ := hat.next_record hmid
    rw [answers_succ_last]
    exact ⟨last, hlast⟩

/-- The call with this number has read a frame that lies within the first `n` bytes of the input. -/
def LiesWithin (decoder : Decoder) (n call : Nat) : Prop :=
  decoder.taken (call + 1) ≤ n ∧ ¬ decoder.EndsAt call

theorem spared_iff_liesWithin {decoder : Decoder} {n : Nat} (hn : n ≤ decoder.source.rest.length)
    (call : Nat) : decoder.Spared n call ↔ decoder.LiesWithin n call := by
  unfold Spared LiesWithin
  have hnot : ¬ decoder.source.rest.length < n := by omega
  simp [hnot]

theorem spared_of_length_lt (hs : whole.source.IsSound) {n : Nat}
    (hn : whole.source.rest.length < n) (call : Nat) : whole.Spared n call := by
  have := (taken_succ hs call).2.1
  exact ⟨by omega, fun _ => hn⟩

/-- For the frames of the grammar, that is what it says. -/
theorem liesWithin_iff_of_splits {bytes tail : Bytes} {before frames : List Frame} {f : Frame}
    {final answer : Answer} (h : Splits bytes (before ++ f :: frames) tail final)
    (ha : f.answer (interpret [] before).2 = some answer) (turns : Nat → Turn) (n : Nat) :
    (ofSource (.withTurns bytes turns none)).LiesWithin n (interpret [] before).1.length
      ↔ (framesBytes (before ++ [f])).length ≤ n := by
  have hat := at_ofSource bytes turns
  have hbytes := h.bytes_eq
  rw [hbytes] at hat
  obtain ⟨after, hanswers, hafter, -⟩ := hat.answers_frame knows_nil ha
  rw [← hbytes] at hanswers
  have htaken : (ofSource (.withTurns bytes turns none)).taken ((interpret [] before).1.length + 1)
      = (framesBytes (before ++ [f])).length := by
    have hlength := congrArg List.length hbytes
    rw [taken, hanswers]
    dsimp only
    rw [hafter.rest]
    simp only [List.length_append, framesBytes_append, framesBytes_cons, framesBytes_nil,
      List.length_nil] at hlength ⊢
    show bytes.length - _ = _
    omega
  have hend : ¬ (ofSource (.withTurns bytes turns none)).EndsAt (interpret [] before).1.length := by
    rw [answers_succ_last] at hanswers
    have hlast := (List.append_inj' (congrArg Prod.fst hanswers) rfl).2
    rw [List.singleton_inj] at hlast
    unfold EndsAt
    rw [hlast]
    rcases Frame.goesOn_of_answer ha with ⟨r, rfl⟩ | ⟨fault, rfl, hrecoverable⟩
    · simp [MeetsEnd]
    · rintro ⟨_, _, rfl⟩
      cases hrecoverable
  unfold LiesWithin
  rw [htaken]
  exact ⟨fun h => h.1, fun h => ⟨h, hend⟩⟩

/-- All bytes of a record that was answered lie before the place that the call has come to. -/
theorem At.record_within {decoder : Decoder} {bytes : Bytes} (h : decoder.At bytes)
    (hk : Knows decoder.table []) {n call : Nat} {record : Record}
    (hrecord : (decoder.answers call).2.next.1 = .ok (some record))
    (hn : decoder.taken (call + 1) ≤ n) :
    ∃ (front : Bytes) (f : Frame) (known : KnownTexts), front ++ f.bytes <+: bytes.take n
      ∧ Knows (decoder.answers (call + 1)).2.table known
      ∧ f.answer known = some (.ok (some record)) := by
  obtain ⟨mid, hmid⟩ := exists_knows_answers h hk call
  have hat : (decoder.answers call).2.At (decoder.answers call).2.source.rest :=
    ⟨isSound_answers h.isSound call, rfl⟩
  obtain ⟨last, hlast, hframe⟩ := hat.next_record hmid
  obtain ⟨front, f, hbytes, hf⟩ := hframe record hrecord
  have hsound : decoder.source.soundFor = none := h.isSound
  obtain ⟨-, -, before, hbefore, -⟩ := (Alike.self h.isSound).answers (n := call)
    fun left hleft => by
      rw [hsound] at hleft
      cases hleft
  have hall : bytes
      = before ++ front ++ f.bytes ++ (decoder.answers call).2.next.2.source.rest := by
    rw [← h.rest, hbefore.rest_eq, hbytes]
    simp
  rw [taken, answers_succ_last, h.rest] at hn
  have hlength := congrArg List.length hall
  rw [List.length_append] at hlength
  refine ⟨before ++ front, f, last, ?_, by rwa [answers_succ_last], hf⟩
  refine List.prefix_take_iff.mpr ⟨⟨_, hall.symm⟩, ?_⟩
  dsimp only at hn
  omega

/-! ## A reader with a buffer -/

/-- What is in the buffer of a reader makes no difference either. -/
theorem Alike.reader_answers {reader : Reader} (h : Alike whole reader.decoder) {n : Nat}
    (hspared : ∀ left, reader.decoder.source.soundFor = some left →
      ∀ i < n, whole.Spared left i) :
    (reader.answers n).1 = (whole.answers n).1
      ∧ (reader.answers n).2.decoder.table = (whole.answers n).2.table := by
  obtain ⟨hsame, halike, -⟩ := h.answers hspared
  obtain ⟨hanswers, hdecoder⟩ := reader.answers_eq n
  rw [hanswers, hdecoder]
  exact ⟨hsame, halike.table_eq⟩

/-- A record that a reader answers, although its source fails after `n` bytes, has all its bytes
among these. -/
theorem Alike.reader_record_within {reader : Reader} {bytes : Bytes} {n k : Nat} {record : Record}
    (h : Alike whole reader.decoder) (hat : whole.At bytes) (hk : Knows whole.table [])
    (hleft : reader.decoder.source.soundFor = some n)
    (hrecord : (reader.answers k).2.next.1 = .ok (some record)) :
    ∃ (front : Bytes) (f : Frame) (known : KnownTexts), front ++ f.bytes <+: bytes.take n
      ∧ Knows (reader.answers (k + 1)).2.decoder.table known
      ∧ f.answer known = some (.ok (some record)) := by
  rw [(reader.answers k).2.next_eq.1, (reader.answers_eq k).2] at hrecord
  have hspared := h.spared_of_answer hleft hrecord
  obtain ⟨hanswers, htable⟩ := h.reader_answers fun left hleft' i hi => by
    rw [hleft] at hleft'
    cases hleft'
    exact hspared i (Nat.le_of_lt_succ hi)
  rw [(reader.answers_eq (k + 1)).1, answers_succ_last, answers_succ_last] at hanswers
  have hlast := (List.append_inj' hanswers rfl).2
  rw [List.singleton_inj, hrecord] at hlast
  rw [htable]
  exact hat.record_within hk hlast.symm (hspared k (Nat.le_refl k)).1

/--
**How the input arrives makes no difference, up to where it fails.** Two readers of the same bytes,
with any turns and interruptions, give the same answers and know the same texts after each call,
whatever is in the buffer that one of them reads into. If the source fails after `n` bytes, the
calls are the same as long as what they read lies within the first `n` bytes, and from the first
other one on the failure is all there is. What lies within is told by the frames of the input, and a
record that is answered has all its bytes there.
-/
theorem answers_independent_of_turns (bytes : Bytes) (turns turns' : Nat → Turn)
    (scratch : Bytes) :
    let whole := ofSource (.withTurns bytes turns none)
    let other : Reader := ⟨ofSource (.withTurns bytes turns' none), scratch⟩
    (∀ k message, .error (.io message) ∉ (whole.answers k).1)
      ∧ (∀ k, (other.answers k).1 = (whole.answers k).1
        ∧ (other.answers k).2.decoder.table = (whole.answers k).2.table)
      ∧ ∀ n, let failing : Reader := ⟨ofSource (.withTurns bytes turns' (some n)), scratch⟩
        (bytes.length < n →
          ∀ k, (failing.answers k).1 = (whole.answers k).1
            ∧ (failing.answers k).2.decoder.table = (whole.answers k).2.table)
        ∧ (n ≤ bytes.length →
          ∃ m, (∀ i, i < m ↔ whole.LiesWithin n i)
            ∧ (∀ k ≤ m, (failing.answers k).1 = (whole.answers k).1
              ∧ (failing.answers k).2.decoder.table = (whole.answers k).2.table)
            ∧ ∀ k, (failing.answers (m + k)).1
              = (whole.answers m).1 ++ List.replicate k (.error (.io "disk gone")))
        ∧ (∀ before f after tail final answer,
          Splits bytes (before ++ f :: after) tail final →
          f.answer (interpret [] before).2 = some answer →
          (whole.LiesWithin n (interpret [] before).1.length
            ↔ (framesBytes (before ++ [f])).length ≤ n))
        ∧ ∀ k record, (failing.answers k).2.next.1 = .ok (some record) →
          ∃ (front : Bytes) (f : Frame) (known : KnownTexts),
            front ++ f.bytes <+: bytes.take n
              ∧ Knows (failing.answers (k + 1)).2.decoder.table known
              ∧ f.answer known = some (.ok (some record)) := by
  intro whole other
  have hat : whole.At bytes := at_ofSource bytes turns
  refine ⟨fun k message => not_io_of_mem_answers hat.isSound, fun k => ?_, fun n => ?_⟩
  · have hother : Alike whole other.decoder := ⟨hat.isSound, rfl, rfl⟩
    exact hother.reader_answers nofun
  intro failing
  have hfailing : Alike whole failing.decoder := ⟨hat.isSound, rfl, rfl⟩
  have hsame : ∀ k, (∀ i < k, whole.Spared n i) → (failing.answers k).1 = (whole.answers k).1
      ∧ (failing.answers k).2.decoder.table = (whole.answers k).2.table := by
    intro k hk
    refine hfailing.reader_answers fun left hleft => ?_
    cases hleft
    exact hk
  refine ⟨fun hlt k => ?_, fun hle => ?_, fun before f after tail final answer hsplits ha => ?_,
    fun k record hrecord => ?_⟩
  · exact hsame k fun i _ => spared_of_length_lt hat.isSound hlt i
  · obtain ⟨m, hm⟩ := exists_spared hat.isSound hle
    have hnot : ¬ whole.Spared n m := fun h => Nat.lt_irrefl m ((hm m).mpr h)
    refine ⟨m, fun i => (hm i).trans (spared_iff_liesWithin hle i),
      fun k hk => hsame k fun i hi => (hm i).mp (by omega), fun k => ?_⟩
    rw [(failing.answers_eq (m + k)).1]
    exact hfailing.answers_broken rfl (fun i hi => (hm i).mp hi) hnot k
  · exact liesWithin_iff_of_splits hsplits ha turns n
  · exact hfailing.reader_record_within hat knows_nil rfl hrecord

end CallTrace.Log.Decoder
