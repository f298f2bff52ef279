import CallTrace.Proofs.Log.Decoding

/-!
# Reading a log to its end

A decoder that is asked again and again answers what the frames of its input mean, one call after
the other (`At.answers_frame`, `At.allAnswers`), and never takes back what it knows
(`text?_answers_mono`). `decoding_interprets_frames` puts the parts together for every input.
-/

namespace CallTrace.Log.Decoder

variable {decoder after : Decoder} {known : KnownTexts}

/-! ## Answers one by one -/

theorem answers_succ (n : Nat) (decoder : Decoder) :
    decoder.answers (n + 1)
      = (decoder.next.1 :: (decoder.next.2.answers n).1, (decoder.next.2.answers n).2) := rfl

theorem allAnswers_step (decoder : Decoder) :
    decoder.allAnswers = match stepOf true decoder.next.1 with
      | .stop _ => ([decoder.next.1], decoder.next.2)
      | _ => (decoder.next.1 :: decoder.next.2.allAnswers.1, decoder.next.2.allAnswers.2) := by
  rw [allAnswers]
  split
  next answer next hnext =>
  rw [hnext]
  split <;> next h => simp [h]

theorem allAnswers_of_goesOn (h : GoesOn decoder.next.1) :
    decoder.allAnswers
      = (decoder.next.1 :: decoder.next.2.allAnswers.1, decoder.next.2.allAnswers.2) := by
  rw [allAnswers_step]
  rcases h with ⟨r, h⟩ | ⟨fault, h, hr⟩
  · rw [h]
    rfl
  · rw [h]
    simp [stepOf, hr]

theorem allAnswers_of_ends (h : Ends decoder.next.1) :
    decoder.allAnswers = ([decoder.next.1], decoder.next.2) := by
  rw [allAnswers_step]
  rcases h with h | ⟨fault, h, hr⟩
  · rw [h]
    rfl
  · rw [h]
    simp [stepOf, hr]

/-! ## Whole readings -/

/-- All answers are those of the frames and one for what is behind them, and in the end the decoder
knows the texts of the frames. -/
theorem At.allAnswers_knows {frames : List Frame} {tail : Bytes} {final : Answer}
    (h : decoder.At (framesBytes frames ++ tail)) (hk : Knows decoder.table known)
    (ht : Remainder tail final) :
    decoder.allAnswers.1 = (interpret known frames).1 ++ [final]
      ∧ Knows decoder.allAnswers.2.table (interpret known frames).2 := by
  induction frames generalizing decoder known with
  | nil =>
    obtain ⟨source, hnext⟩ := h.next_remainder ht
    rw [allAnswers_of_ends (by rw [hnext]; exact ht.ends), hnext]
    exact ⟨rfl, hk⟩
  | cons f frames ih =>
    rw [framesBytes_cons, List.append_assoc] at h
    obtain ⟨after, hat, hknows, hnext⟩ := h.next_frame hk
    obtain ⟨hanswers, hlast⟩ := ih hat hknows
    rw [interpret_cons]
    cases ha : f.answer known with
    | none =>
      rw [ha] at hnext
      rw [allAnswers_step, hnext, ← allAnswers_step, hanswers]
      exact ⟨rfl, hlast⟩
    | some answer =>
      rw [ha] at hnext
      rw [allAnswers_of_goesOn (by rw [hnext]; exact Frame.goesOn_of_answer ha), hnext, hanswers]
      exact ⟨rfl, hlast⟩

/-- **All answers are those of the frames and one for what is behind them.** -/
theorem At.allAnswers {frames : List Frame} {tail : Bytes} {final : Answer}
    (h : decoder.At (framesBytes frames ++ tail)) (hk : Knows decoder.table known)
    (ht : Remainder tail final) :
    decoder.allAnswers.1 = (interpret known frames).1 ++ [final] :=
  (h.allAnswers_knows hk ht).1

/-- **The call that answers a frame leaves the reading right behind it**, with the texts known up to
there; the calls before it answer the frames before it. -/
theorem At.answers_frame {before frames : List Frame} {f : Frame} {answer : Answer} {tail : Bytes}
    (h : decoder.At (framesBytes (before ++ f :: frames) ++ tail))
    (hk : Knows decoder.table known)
    (ha : f.answer (interpret known before).2 = some answer) :
    ∃ after : Decoder,
      decoder.answers ((interpret known before).1.length + 1)
        = ((interpret known before).1 ++ [answer], after)
      ∧ after.At (framesBytes frames ++ tail)
      ∧ Knows after.table (interpret known (before ++ [f])).2 := by
  induction before generalizing decoder known with
  | nil =>
    rw [List.nil_append, framesBytes_cons, List.append_assoc] at h
    obtain ⟨after, hat, hknows, hnext⟩ := h.next_frame hk
    rw [interpret_nil] at ha
    rw [ha] at hnext
    exact ⟨after, by simp [answers, hnext], hat, hknows⟩
  | cons g before ih =>
    rw [List.cons_append, framesBytes_cons, List.append_assoc] at h
    obtain ⟨next, hat, hknows, hnext⟩ := h.next_frame hk
    rw [interpret_cons] at ha
    obtain ⟨after, hanswers, hat, hknows⟩ := ih hat hknows ha
    refine ⟨after, ?_, hat, by rwa [List.cons_append, interpret_cons]⟩
    rw [interpret_cons]
    cases hg : g.answer known with
    -- a frame without an answer is passed over within the same call
    | none =>
      rw [hg] at hnext
      rw [answers_succ] at hanswers ⊢
      rw [hnext]
      simpa using hanswers
    | some first =>
      rw [hg] at hnext
      rw [answers_succ, hnext]
      simp [hanswers]

/-! ## What is known stays known -/

theorem text?_bind_mono {id i : Int32} {content : Bytes} {text : String}
    (h : decoder.table.text? i = some text) :
    (decoder.bind id content).2.table.text? i = some text := by
  unfold bind
  split
  · exact h
  · split
    · exact h
    · dsimp only
      split <;> exact StringTable.text?_register_mono h

theorem table_payload (decoder : Decoder) (size : Nat) :
    (decoder.payload size).2.table = decoder.table := by
  unfold payload
  split
  · rfl
  · split <;> rfl

theorem text?_text_mono {i : Int32} {known : String} (h : decoder.table.text? i = some known) :
    decoder.text.2.table.text? i = some known := by
  have hheader := table_payload decoder 8
  unfold text
  split
  · next heq => rw [heq] at hheader; rwa [← hheader] at h
  · next header after heq =>
    rw [heq] at hheader
    rw [← hheader] at h
    split
    · exact h
    · next id length _ =>
      have hcontent := table_payload after length
      split
      · exact h
      · split
        · next heq => rw [heq] at hcontent; rwa [← hcontent] at h
        · next heq =>
          rw [heq] at hcontent
          rw [← hcontent] at h
          exact text?_bind_mono h

theorem table_execution (decoder : Decoder) : decoder.execution.2.table = decoder.table := by
  have h := table_payload decoder Layout.executionSize
  unfold execution
  split <;> next heq => simpa [heq] using h

theorem table_branching (decoder : Decoder) : decoder.branching.2.table = decoder.table := by
  have h := table_payload decoder Layout.branchingSize
  unfold branching
  split <;> next heq => simpa [heq] using h

/-- A number that is bound stays bound to its text, whatever the input. -/
theorem text?_next_mono {i : Int32} {known : String} (h : decoder.table.text? i = some known) :
    decoder.next.2.table.text? i = some known := by
  fun_induction next decoder with
  | case1 decoder message source hfill => exact h
  | case2 decoder source hfill => exact h
  | case3 decoder bytes source after htext hfill ih =>
    have hbound : StringTable.text? (Decoder.table { decoder with source }) i = some known := h
    have hafter := text?_text_mono hbound
    rw [htext] at hafter
    exact ih hafter
  | case4 decoder bytes source fault after htext hfill =>
    have hbound : StringTable.text? (Decoder.table { decoder with source }) i = some known := h
    have hafter := text?_text_mono hbound
    rwa [htext] at hafter
  | case5 decoder bytes source result after heq hfill =>
    have htable := table_execution { decoder with source }
    rw [heq] at htable
    exact htable ▸ h
  | case6 decoder bytes source result after heq hfill =>
    have htable := table_branching { decoder with source }
    rw [heq] at htable
    exact htable ▸ h
  | case7 decoder tag bytes source hfill => exact h

theorem text?_answers_mono {i : Int32} {text : String} {m n : Nat} (hmn : m ≤ n)
    (h : (decoder.answers m).2.table.text? i = some text) :
    (decoder.answers n).2.table.text? i = some text := by
  induction m generalizing decoder n with
  | zero =>
    clear hmn
    induction n generalizing decoder with
    | zero => exact h
    | succ n ih => exact ih (text?_next_mono h)
  | succ m ih =>
    cases n with
    | zero => omega
    | succ n =>
      rw [answers_succ] at h ⊢
      exact ih (by omega) h

/-! ## Every input -/

/-- The input is these whole frames and a remainder, which ends the reading with this answer. -/
structure Splits (bytes : Bytes) (frames : List Frame) (tail : Bytes) (final : Answer) : Prop where
  bytes_eq : bytes = framesBytes frames ++ tail
  remainder : Remainder tail final

theorem at_ofSource (bytes : Bytes) (turns : Nat → Turn) :
    (ofSource (.withTurns bytes turns none)).At bytes :=
  ⟨Source.isSound_withTurns bytes turns, rfl⟩

/-- What a fresh decoder answers and knows in the end, told by the frames of its input. -/
theorem allAnswers_framesBytes (frames : List Frame) {tail : Bytes} {final : Answer}
    (h : Remainder tail final) (turns : Nat → Turn) :
    let decoder := ofSource (.withTurns (framesBytes frames ++ tail) turns none)
    decoder.allAnswers.1 = (interpret [] frames).1 ++ [final]
      ∧ Knows decoder.allAnswers.2.table (interpret [] frames).2 :=
  (at_ofSource (framesBytes frames ++ tail) turns).allAnswers_knows knows_nil h

/-- The grammar leaves no choice: not in the frames, and not in how the reading ends. -/
theorem Splits.unique {bytes tail tail' : Bytes} {frames frames' : List Frame}
    {final final' : Answer} (h : Splits bytes frames tail final)
    (h' : Splits bytes frames' tail' final') :
    frames = frames' ∧ tail = tail' ∧ final = final' := by
  obtain ⟨rfl, rfl⟩ := split_unique h.remainder h'.remainder (h.bytes_eq.symm.trans h'.bytes_eq)
  refine ⟨rfl, rfl, ?_⟩
  have hat := at_ofSource tail (fun _ => {})
  obtain ⟨_, hnext⟩ := hat.next_remainder h.remainder
  obtain ⟨_, hnext'⟩ := hat.next_remainder h'.remainder
  exact congrArg Prod.fst (hnext.symm.trans hnext')

/--
**Decoding implements the grammar of frames, on every input.** However the input arrives, it has
one reading as whole frames and a remainder. The answers are those of the frames, after each of
which the reading goes on, and a last one for the remainder; the call that answers a frame leaves
the input at the start of the next frame and the table with the good texts announced so far. A
number once bound keeps its text.
-/
theorem decoding_interprets_frames (bytes : Bytes) (turns : Nat → Turn) :
    let start := ofSource (.withTurns bytes turns none)
    ∃ frames tail final, Splits bytes frames tail final
      ∧ (∀ frames' tail' final', Splits bytes frames' tail' final' →
          frames' = frames ∧ tail' = tail ∧ final' = final)
      ∧ start.allAnswers.1 = (interpret [] frames).1 ++ [final]
      ∧ (∀ answer ∈ (interpret [] frames).1, GoesOn answer) ∧ Ends final
      ∧ (∀ before f after answer, frames = before ++ f :: after →
          f.answer (interpret [] before).2 = some answer →
          ∃ next : Decoder,
            start.answers ((interpret [] before).1.length + 1)
              = ((interpret [] before).1 ++ [answer], next)
            ∧ next.source.rest = framesBytes after ++ tail
            ∧ Knows next.table (interpret [] (before ++ [f])).2)
      ∧ ∀ m n id text, m ≤ n → (start.answers m).2.table.text? id = some text →
          (start.answers n).2.table.text? id = some text := by
  intro start
  have hat : start.At bytes := at_ofSource bytes turns
  obtain ⟨frames, tail, final, hbytes, hremainder⟩ := exists_split bytes
  have hsplits : Splits bytes frames tail final := ⟨hbytes, hremainder⟩
  rw [hbytes] at hat
  refine ⟨frames, tail, final, hsplits, fun _ _ _ h' => h'.unique hsplits,
    hat.allAnswers knows_nil hremainder, fun _ => goesOn_of_mem_interpret, hremainder.ends, ?_,
    fun m n id text hmn h => text?_answers_mono hmn h⟩
  intro before f after answer hframes hanswer
  rw [hframes] at hat
  obtain ⟨next, hanswers, hat, hknows⟩ := hat.answers_frame knows_nil hanswer
  exact ⟨next, hanswers, hat.rest, hknows⟩

end CallTrace.Log.Decoder
