import CallTrace.Log.Decoder

/-!
# Reading a whole log

All records of a log up to its end or to a fault that stops the reading, and all answers that its
decoder gives. Faults after which the log stays readable can be passed over.

Every answer of a decoder that does not stop the reading has taken at least one byte.
-/

namespace CallTrace.Log.Decoder

/-- What to do about an answer of a decoder. -/
inductive Step where
  | record (record : Record)
  /-- Go on without a record. -/
  | skip
  /-- Stop, at the end or because of a fault. -/
  | stop (fault : Option Fault)

/-- What to do about an answer; `skipsMalformed` tells whether recoverable faults are passed
over. -/
def stepOf (skipsMalformed : Bool) : Except Fault (Option Record) → Step
  | .ok (some record) => .record record
  | .ok none => .stop none
  | .error fault => if skipsMalformed && fault.isRecoverable then .skip else .stop (some fault)

theorem length_rest_execution_le (decoder : Decoder) :
    decoder.execution.2.source.rest.length ≤ decoder.source.rest.length := by
  have h := length_rest_payload_le decoder Layout.executionSize
  unfold execution
  split <;> next heq => simpa [heq] using h

theorem length_rest_branching_le (decoder : Decoder) :
    decoder.branching.2.source.rest.length ≤ decoder.source.rest.length := by
  have h := length_rest_payload_le decoder Layout.branchingSize
  unfold branching
  split <;> next heq => simpa [heq] using h

/-- Only an answer that stops the reading may leave the input as long as it was. -/
theorem length_rest_next_lt (decoder : Decoder) (skipsMalformed : Bool)
    (h : ∀ fault, stepOf skipsMalformed decoder.next.1 ≠ .stop fault) :
    decoder.next.2.source.rest.length < decoder.source.rest.length := by
  fun_induction next decoder with
  | case1 decoder message source hfill =>
    exact absurd (by cases skipsMalformed <;> rfl) (h (some (.io message)))
  | case2 decoder source hfill => exact absurd rfl (h none)
  | case3 decoder bytes source after htext hfill ih =>
    have hle := length_rest_text_le { decoder with source }
    rw [htext] at hle
    have hrest := Source.rest_of_fill_ok hfill
    have := ih h
    simp only at hle
    rw [hrest, List.length_append, List.length_cons]
    omega
  | case4 decoder bytes source fault after htext hfill =>
    have hle := length_rest_text_le { decoder with source }
    rw [htext] at hle
    have hrest := Source.rest_of_fill_ok hfill
    simp only at hle
    rw [hrest, List.length_append, List.length_cons]
    simp only
    omega
  | case5 decoder bytes source result after heq hfill =>
    have hle := length_rest_execution_le { decoder with source }
    rw [heq] at hle
    have hrest := Source.rest_of_fill_ok hfill
    simp only at hle
    rw [hrest, List.length_append, List.length_cons]
    simp only
    omega
  | case6 decoder bytes source result after heq hfill =>
    have hle := length_rest_branching_le { decoder with source }
    rw [heq] at hle
    have hrest := Source.rest_of_fill_ok hfill
    simp only at hle
    rw [hrest, List.length_append, List.length_cons]
    simp only
    omega
  | case7 decoder tag bytes source hfill =>
    have hrest := Source.rest_of_fill_ok hfill
    rw [hrest, List.length_append, List.length_cons]
    simp only
    omega

/-- The records up to the end or to a fault that stops the reading, that fault, and the decoder as
it is then. -/
def replay (skipsMalformed : Bool) (decoder : Decoder) : List Record × Option Fault × Decoder :=
  match _hnext : decoder.next with
  | (answer, next) =>
    match _hstep : stepOf skipsMalformed answer with
    | .record record =>
      let (records, fault, last) := replay skipsMalformed next
      (record :: records, fault, last)
    | .skip => replay skipsMalformed next
    | .stop fault => ([], fault, next)
termination_by decoder.source.rest.length
decreasing_by
  all_goals
    have h := length_rest_next_lt decoder skipsMalformed
    rw [_hnext, _hstep] at h
    exact h fun _ hstop => by cases hstop

/-! ## Answers -/

/-- What a decoder answers: a record, the end, or a fault. -/
abbrev Answer := Except Fault (Option Record)

/-- The answers of a decoder that is asked so often, and the decoder as it is then. -/
def answers : Nat → Decoder → List Answer × Decoder
  | 0, decoder => ([], decoder)
  | times + 1, decoder =>
    let (answer, decoder) := decoder.next
    let (others, decoder) := answers times decoder
    (answer :: others, decoder)

/-- All answers of a decoder up to the end or to a fault that ends the reading, and the decoder as
it is then. -/
def allAnswers (decoder : Decoder) : List Answer × Decoder :=
  match _hnext : decoder.next with
  | (answer, next) =>
    match _hstep : stepOf true answer with
    | .stop _ => ([answer], next)
    | .record _ | .skip =>
      let (others, last) := allAnswers next
      (answer :: others, last)
termination_by decoder.source.rest.length
decreasing_by
  all_goals
    have h := length_rest_next_lt decoder true
    rw [_hnext, _hstep] at h
    exact h fun _ hstop => by cases hstop

end CallTrace.Log.Decoder
