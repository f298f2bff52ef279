import CallTrace.Log.Replay
import CallTrace.Proofs.Log.Layout

/-!
# The grammar of logs

A log is a sequence of frames, of which the last one may be cut off or be none at all.

```text
[00][number: i32][length: u32, at most 1 MiB][length bytes]   text
[01][48 bytes]                                                execution
[02][16 bytes]                                                branching
```

* `Frame` and `Remainder` are the grammar; every byte string is read in exactly one way
  (`exists_split`, `split_unique`).
* `Frame.answer` and `Frame.announced` say what a frame means to a reader that knows some texts, and
  `interpret` what a sequence of frames means. A text frame adds at most one text and is silent
  unless it is bad; a record frame gives one answer and adds nothing.
-/

namespace CallTrace.Log

open Layout
open Decoder (Answer)

/-! ## Frames -/

/-- A whole frame. -/
inductive Frame where
  | text (id : Int32) (content : Bytes) (h : content.length ≤ maxTextLength)
  | execution (raw : RawExecution)
  | branching (b : Branching)

/-- The bytes of a frame. -/
def Frame.bytes : Frame → Bytes
  | text id content _ =>
    textTag :: (Bytes.ofInt32 id ++ (Bytes.ofWord32 (.ofNat content.length) ++ content))
  | execution raw => executionTag :: raw.bytes
  | branching b => branchingTag :: branchingBytes b

/-- Bytes that do not start with a whole frame, and how they end a reading. -/
inductive Remainder : Bytes → Answer → Prop where
  | nothing : Remainder [] (.ok none)
  | tag {tag : UInt8} {rest : Bytes}
      (h : tag ≠ textTag ∧ tag ≠ executionTag ∧ tag ≠ branchingTag) :
      Remainder (tag :: rest) (.error (.unknownTag tag))
  | textHeader {header : Bytes} (h : header.length < 8) :
      Remainder (textTag :: header) (.error (.underflow 8 header.length))
  | textTooLong {id : Int32} {length : UInt32} {rest : Bytes} (h : maxTextLength < length.toNat) :
      Remainder (textTag :: (Bytes.ofInt32 id ++ (Bytes.ofWord32 length ++ rest)))
        (.error (.stringTooLong id length.toNat))
  | textContent {id : Int32} {length : UInt32} {content : Bytes}
      (hmax : length.toNat ≤ maxTextLength) (h : content.length < length.toNat) :
      Remainder (textTag :: (Bytes.ofInt32 id ++ (Bytes.ofWord32 length ++ content)))
        (.error (.underflow length.toNat content.length))
  | execution {content : Bytes} (h : content.length < executionSize) :
      Remainder (executionTag :: content) (.error (.underflow executionSize content.length))
  | branching {content : Bytes} (h : content.length < branchingSize) :
      Remainder (branchingTag :: content) (.error (.underflow branchingSize content.length))

theorem Frame.bytes_ne_nil (f : Frame) : f.bytes ≠ [] := by
  cases f <;> simp [Frame.bytes]

theorem toNat_ofNat_length {content : Bytes} (h : content.length ≤ maxTextLength) :
    (UInt32.ofNat content.length).toNat = content.length := by
  have : maxTextLength < 2 ^ 32 := by decide
  rw [UInt32.toNat_ofNat']
  omega

/-! ## Every input is read in exactly one way -/

/-- A front of `n` bytes, or fewer than `n` bytes. -/
theorem exists_append_or_lt (bytes : Bytes) (n : Nat) :
    (∃ front rest, bytes = front ++ rest ∧ front.length = n) ∨ bytes.length < n := by
  rcases Nat.lt_or_ge bytes.length n with h | h
  · exact Or.inr h
  · exact Or.inl ⟨bytes.take n, bytes.drop n, (List.take_append_drop n bytes).symm,
      List.length_take_of_le h⟩

theorem textFrame_or_remainder (bytes : Bytes) :
    (∃ f : Frame, ∃ rest, textTag :: bytes = f.bytes ++ rest)
      ∨ ∃ answer, Remainder (textTag :: bytes) answer := by
  rcases exists_append_or_lt bytes 8 with ⟨header, rest, rfl, hheader⟩ | h
  · obtain ⟨id, word, rfl, hword⟩ := Bytes.exists_cons_ofInt32 (n := 4) hheader
    obtain ⟨length, rfl⟩ := Bytes.exists_ofWord32 hword
    simp only [List.append_assoc]
    rcases Nat.lt_or_ge maxTextLength length.toNat with hlong | hmax
    · exact Or.inr ⟨_, .textTooLong hlong⟩
    · rcases exists_append_or_lt rest length.toNat with ⟨content, rest, rfl, hlen⟩ | h
      · refine Or.inl ⟨.text id content (by omega), rest, ?_⟩
        simp [Frame.bytes, hlen]
      · exact Or.inr ⟨_, .textContent hmax h⟩
  · exact Or.inr ⟨_, .textHeader h⟩

/-- An input starts with a whole frame or is a remainder. -/
theorem frame_or_remainder (bytes : Bytes) :
    (∃ f : Frame, ∃ rest, bytes = f.bytes ++ rest) ∨ ∃ answer, Remainder bytes answer := by
  match bytes with
  | [] => exact Or.inr ⟨_, .nothing⟩
  | tag :: bytes =>
    by_cases ht : tag = textTag
    · exact ht ▸ textFrame_or_remainder bytes
    by_cases he : tag = executionTag
    · subst he
      rcases exists_append_or_lt bytes executionSize with ⟨content, rest, rfl, h⟩ | h
      · obtain ⟨raw, rfl⟩ := exists_rawExecution h
        exact Or.inl ⟨.execution raw, rest, rfl⟩
      · exact Or.inr ⟨_, .execution h⟩
    by_cases hb : tag = branchingTag
    · subst hb
      rcases exists_append_or_lt bytes branchingSize with ⟨content, rest, rfl, h⟩ | h
      · obtain ⟨b, rfl⟩ := exists_branchingBytes h
        exact Or.inl ⟨.branching b, rest, rfl⟩
      · exact Or.inr ⟨_, .branching h⟩
    exact Or.inr ⟨_, .tag ⟨ht, he, hb⟩⟩

/-- Bytes that start with a whole frame are no remainder. -/
theorem Remainder.ne_frame {tail : Bytes} {answer : Answer} (h : Remainder tail answer) (f : Frame)
    (rest : Bytes) : tail ≠ f.bytes ++ rest := by
  intro he
  -- frames and remainders of different tags differ in the first byte
  cases h <;> cases f <;>
    simp only [Frame.bytes, List.cons_append, List.append_assoc, List.cons.injEq,
      reduceCtorEq] at he
  case tag.text h _ _ _ => exact h.1 he.1
  case tag.execution h _ => exact h.2.1 he.1
  case tag.branching h _ => exact h.2.2 he.1
  -- with the same tag, what is left of a payload is shorter than the payload of a frame
  case textHeader.text h _ _ _ =>
    have := congrArg List.length he.2
    simp at this
    omega
  case textTooLong.text h _ _ hc =>
    obtain ⟨_, hword⟩ := Bytes.ofInt32_append_inj he.2
    rw [(Bytes.ofWord32_append_inj hword).1, toNat_ofNat_length hc] at h
    omega
  case textContent.text h _ _ hc =>
    obtain ⟨_, hword⟩ := Bytes.ofInt32_append_inj he.2
    obtain ⟨hlength, hrest⟩ := Bytes.ofWord32_append_inj hword
    have := congrArg List.length hrest
    rw [hlength, toNat_ofNat_length hc] at h
    simp at this
    omega
  case execution.execution h _ =>
    have := congrArg List.length he.2
    simp at this
    omega
  case branching.branching h _ =>
    have := congrArg List.length he.2
    simp at this
    omega
  all_goals exact absurd he.1 (by decide)

/-- The bytes of a sequence of frames. -/
def framesBytes (frames : List Frame) : Bytes := frames.flatMap Frame.bytes

@[simp] theorem framesBytes_nil : framesBytes [] = [] := rfl

@[simp] theorem framesBytes_cons (f : Frame) (frames : List Frame) :
    framesBytes (f :: frames) = f.bytes ++ framesBytes frames := rfl

@[simp] theorem framesBytes_append (frames more : List Frame) :
    framesBytes (frames ++ more) = framesBytes frames ++ framesBytes more :=
  List.flatMap_append

theorem framesBytes_eq_nil {frames : List Frame} : framesBytes frames = [] ↔ frames = [] := by
  cases frames with
  | nil => simp
  | cons f frames => simp [f.bytes_ne_nil]

/-- **Every input is a sequence of whole frames and a remainder.** -/
theorem exists_split (bytes : Bytes) :
    ∃ frames tail answer, bytes = framesBytes frames ++ tail ∧ Remainder tail answer := by
  induction hn : bytes.length using Nat.strongRecOn generalizing bytes with
  | ind n ih =>
    rcases frame_or_remainder bytes with ⟨f, rest, rfl⟩ | ⟨answer, h⟩
    · have hpos := List.length_pos_iff.mpr f.bytes_ne_nil
      obtain ⟨frames, tail, answer, hsplit, h⟩ :=
        ih rest.length (by rw [← hn, List.length_append]; omega) rest rfl
      exact ⟨f :: frames, tail, answer, by rw [hsplit]; simp, h⟩
    · exact ⟨[], bytes, answer, by simp, h⟩

/-- No frame is the front of another one. -/
theorem Frame.bytes_append_inj {f g : Frame} {x y : Bytes} (h : f.bytes ++ x = g.bytes ++ y) :
    f = g ∧ x = y := by
  cases f <;> cases g <;>
    simp only [Frame.bytes, List.cons_append, List.append_assoc, List.cons.injEq] at h
  case text.text id content hc id' content' hc' =>
    obtain ⟨rfl, hword⟩ := Bytes.ofInt32_append_inj h.2
    obtain ⟨hlength, hrest⟩ := Bytes.ofWord32_append_inj hword
    have := congrArg UInt32.toNat hlength
    rw [toNat_ofNat_length hc, toNat_ofNat_length hc'] at this
    obtain ⟨rfl, rfl⟩ := List.append_inj hrest this
    exact ⟨rfl, rfl⟩
  case execution.execution =>
    obtain ⟨rfl, rfl⟩ := RawExecution.bytes_append_inj h.2
    exact ⟨rfl, rfl⟩
  case branching.branching =>
    obtain ⟨rfl, rfl⟩ := branchingBytes_append_inj h.2
    exact ⟨rfl, rfl⟩
  all_goals exact absurd h.1 (by decide)

/-- **An input is split in one way only.** -/
theorem split_unique {frames frames' : List Frame} {tail tail' : Bytes} {answer answer' : Answer}
    (h : Remainder tail answer) (h' : Remainder tail' answer')
    (he : framesBytes frames ++ tail = framesBytes frames' ++ tail') :
    frames = frames' ∧ tail = tail' := by
  induction frames generalizing frames' with
  | nil =>
    cases frames' with
    | nil => exact ⟨rfl, he⟩
    -- one sequence cannot go on where the other one has come to its remainder
    | cons g frames' =>
      rw [framesBytes_cons, List.append_assoc] at he
      exact absurd he (h.ne_frame g _)
  | cons f frames ih =>
    rw [framesBytes_cons, List.append_assoc] at he
    cases frames' with
    | nil => exact absurd he.symm (h'.ne_frame f _)
    | cons g frames' =>
      rw [framesBytes_cons, List.append_assoc] at he
      obtain ⟨rfl, hrest⟩ := Frame.bytes_append_inj he
      obtain ⟨rfl, rfl⟩ := ih hrest
      exact ⟨rfl, rfl⟩

/-! ## What frames mean -/

/-- The texts that a reader knows, under their numbers, in the order of their announcements. -/
abbrev KnownTexts := List (Int32 × String)

/-- A text announced under a free number is found under it, and nothing else changes. -/
theorem lookup_announced {known : KnownTexts} {id : Int32} (h : known.lookup id = none)
    (text : String) (i : Int32) :
    (known ++ [(id, text)]).lookup i = if id = i then some text else known.lookup i := by
  rw [List.lookup_append]
  by_cases hi : id = i
  · subst hi
    simp [h]
  · simp [hi, List.lookup_cons, beq_eq_false_iff_ne.mpr (Ne.symm hi)]

/-- The answer of a reader that knows some texts to a frame; a good text frame has none. -/
def Frame.answer (known : KnownTexts) : Frame → Option Answer
  | text id content _ =>
    if id < 0 then some (.error (.invalidStringId id))
    else
      match Bytes.toText? content, known.lookup id with
      | none, _ => some (.error (.invalidText id))
      | some _, none => none
      | some new, some bound =>
        if bound = new then none else some (.error (.conflictingString id))
  | execution raw =>
    some ((raw.resolve fun id => known.lookup id).map fun e => some (.execution e))
  | branching b => some (.ok (some (.branching b)))

/-- The text that a frame adds to those that a reader knows. -/
def Frame.announced (known : KnownTexts) : Frame → Option (Int32 × String)
  | text id content _ =>
    if id < 0 then none
    else
      match Bytes.toText? content, known.lookup id with
      | some new, none => some (id, new)
      | _, _ => none
  | _ => none

/-- A text frame is silent or bad; it never gives a record. -/
theorem Frame.answer_text (known : KnownTexts) (id : Int32) (content : Bytes)
    (h : content.length ≤ maxTextLength) :
    (Frame.text id content h).answer known = none
      ∨ ∃ fault, (Frame.text id content h).answer known = some (.error fault) := by
  simp only [Frame.answer]
  split
  · exact Or.inr ⟨_, rfl⟩
  · split
    · exact Or.inr ⟨_, rfl⟩
    · exact Or.inl rfl
    · split
      · exact Or.inl rfl
      · exact Or.inr ⟨_, rfl⟩

/-- The texts that a reader knows after a frame. -/
def Frame.learn (known : KnownTexts) (f : Frame) : KnownTexts := known ++ (f.announced known).toList

/-- The answers to a sequence of frames, and the texts known after it. -/
def interpret (known : KnownTexts) : List Frame → List Answer × KnownTexts
  | [] => ([], known)
  | f :: frames =>
    let (answers, last) := interpret (f.learn known) frames
    ((f.answer known).toList ++ answers, last)

@[simp] theorem interpret_nil (known : KnownTexts) : interpret known [] = ([], known) := rfl

theorem interpret_cons (known : KnownTexts) (f : Frame) (frames : List Frame) :
    interpret known (f :: frames)
      = ((f.answer known).toList ++ (interpret (f.learn known) frames).1,
        (interpret (f.learn known) frames).2) := rfl

theorem interpret_append (known : KnownTexts) (frames more : List Frame) :
    interpret known (frames ++ more)
      = ((interpret known frames).1 ++ (interpret (interpret known frames).2 more).1,
        (interpret (interpret known frames).2 more).2) := by
  induction frames generalizing known with
  | nil => rfl
  | cons f frames ih => simp [interpret_cons, ih]

/-! ## Which answers end a reading -/

/-- The reading goes on after the answer. -/
def GoesOn (answer : Answer) : Prop :=
  (∃ r, answer = .ok (some r)) ∨ ∃ fault : Fault, answer = .error fault ∧ fault.isRecoverable = true

/-- The reading ends with the answer. -/
def Ends (answer : Answer) : Prop :=
  answer = .ok none ∨ ∃ fault : Fault, answer = .error fault ∧ fault.isRecoverable = false

theorem goesOn_resolve (text? : Int32 → Option String) (raw : RawExecution) :
    GoesOn ((raw.resolve text?).map fun e => some (.execution e)) := by
  unfold RawExecution.resolve
  split
  · exact Or.inr ⟨_, rfl, rfl⟩
  · exact Or.inl ⟨_, rfl⟩

/-- A whole frame does not end the reading, however bad it is. -/
theorem Frame.goesOn_of_answer {known : KnownTexts} {f : Frame} {answer : Answer}
    (h : f.answer known = some answer) : GoesOn answer := by
  cases f with
  | text id content hc =>
    simp only [Frame.answer] at h
    split at h
    · cases h
      exact Or.inr ⟨_, rfl, rfl⟩
    · split at h
      · cases h
        exact Or.inr ⟨_, rfl, rfl⟩
      · cases h
      · split at h
        · cases h
        · cases h
          exact Or.inr ⟨_, rfl, rfl⟩
  | execution raw =>
    cases h
    exact goesOn_resolve _ raw
  | branching b =>
    cases h
    exact Or.inl ⟨_, rfl⟩

theorem goesOn_of_mem_interpret {known : KnownTexts} {frames : List Frame} {answer : Answer}
    (h : answer ∈ (interpret known frames).1) : GoesOn answer := by
  induction frames generalizing known with
  | nil => simp at h
  | cons f frames ih =>
    rw [interpret_cons, List.mem_append, Option.mem_toList] at h
    rcases h with h | h
    · exact Frame.goesOn_of_answer h
    · exact ih h

/-- Anything else ends it. -/
theorem Remainder.ends {tail : Bytes} {answer : Answer} (h : Remainder tail answer) :
    Ends answer := by
  cases h with
  | nothing => exact Or.inl rfl
  | _ => exact Or.inr ⟨_, rfl, rfl⟩

end CallTrace.Log
