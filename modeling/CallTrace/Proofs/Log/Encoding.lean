import CallTrace.Proofs.Log.Frame
import CallTrace.Proofs.Steps
import CallTrace.Proofs.StringTable

/-!
# What reaches an output with little room

A sink that stores only so many bytes keeps the front of what it is given (`Sink.Holds`): as long as
everything fits a write succeeds, and from the first write that does not fit on nothing more is
stored. A step of an encoder that only gives bytes out (`Encoder.Writes`) fails exactly when its
bytes do not fit; such steps follow one another (`Writes.seq`). A text that is to be announced is
known, is new, or is refused (`announcing`); announcing it is such a step when it is new
(`announce_new`).
-/

namespace CallTrace.Log

open Steps

/-! ## Outputs with a capacity -/

namespace Sink

/-- A sink that stores so many bytes in all, or everything. -/
def withCapacity : Option Nat → Sink
  | none => unlimited
  | some capacity => limited capacity

/-- What a sink stores of some content. -/
def clip (capacity : Option Nat) (content : Bytes) : Bytes :=
  match capacity with
  | none => content
  | some k => content.take k

/-- The content has more bytes than the sink stores. -/
def Exceeds (capacity : Option Nat) (content : Bytes) : Prop :=
  ∃ k, capacity = some k ∧ k < content.length

instance (capacity : Option Nat) (content : Bytes) : Decidable (Exceeds capacity content) :=
  match capacity with
  | none => isFalse (by simp [Exceeds])
  | some k => decidable_of_iff (k < content.length) (by simp [Exceeds])

/-- The sink has been given the content and has stored what it could of it. -/
structure Holds (capacity : Option Nat) (content : Bytes) (sink : Sink) : Prop where
  room : sink.room = (withCapacity capacity).room
  stored : sink.stored = clip capacity content

variable {capacity : Option Nat} {content more : Bytes} {sink : Sink}

theorem holds_withCapacity (capacity : Option Nat) : Holds capacity [] (withCapacity capacity) :=
  ⟨rfl, by cases capacity <;> simp [withCapacity, unlimited, limited, clip]⟩

theorem Exceeds.append (h : Exceeds capacity content) (more : Bytes) :
    Exceeds capacity (content ++ more) := by
  obtain ⟨k, rfl, hk⟩ := h
  exact ⟨k, rfl, by rw [List.length_append]; omega⟩

theorem clip_of_not_exceeds (h : ¬ Exceeds capacity content) : clip capacity content = content := by
  cases capacity with
  | none => rfl
  | some k =>
    refine List.take_of_length_le ?_
    by_contra hlt
    exact h ⟨k, rfl, by omega⟩

/-- What comes after the end of the room makes no difference. -/
theorem Exceeds.clip_append (h : Exceeds capacity content) (more : Bytes) :
    clip capacity (content ++ more) = clip capacity content := by
  obtain ⟨k, rfl, hk⟩ := h
  exact List.take_append_of_le_length (by omega)

theorem Holds.append_of_exceeds (h : Holds capacity content sink) (hx : Exceeds capacity content)
    (more : Bytes) : Holds capacity (content ++ more) sink :=
  ⟨h.room, by rw [hx.clip_append, h.stored]⟩

theorem write_unlimited (h : sink.room = (withCapacity none).room) (bytes : Bytes) :
    sink.write bytes
      = (.ok (), { sink with stored := sink.stored ++ bytes, writes := sink.writes + 1 }) := by
  rw [Sink.write, h]
  rfl

theorem write_limited {k : Nat} (h : sink.room = (withCapacity (some k)).room) (bytes : Bytes) :
    sink.write bytes
      = (if bytes.length ≤ k - sink.stored.length then .ok () else .error (.io fullMessage),
        { sink with
          stored := sink.stored ++ bytes.take (k - sink.stored.length)
          writes := sink.writes + 1 }) := by
  rw [Sink.write, h]
  rfl

/-- A write stores what fits, and fails when something does not. -/
theorem Holds.write (h : Holds capacity content sink) (hfits : ¬ Exceeds capacity content)
    (bytes : Bytes) :
    (sink.write bytes).1
        = (if Exceeds capacity (content ++ bytes) then .error (.io fullMessage) else .ok ())
      ∧ Holds capacity (content ++ bytes) (sink.write bytes).2 := by
  have hstored := h.stored
  rw [clip_of_not_exceeds hfits] at hstored
  cases capacity with
  | none =>
    rw [write_unlimited h.room]
    exact ⟨by simp [Exceeds], h.room, by simp [clip, hstored]⟩
  | some k =>
    have hle : content.length ≤ k := by
      by_contra hlt
      exact hfits ⟨k, rfl, by omega⟩
    have hexceeds : Exceeds (some k) (content ++ bytes) ↔ ¬ bytes.length ≤ k - content.length := by
      simp only [Exceeds, Option.some.injEq, exists_eq_left', List.length_append]
      omega
    rw [write_limited h.room, hstored, if_congr hexceeds rfl rfl, ite_not]
    exact ⟨rfl, h.room, by simp only [clip]; rw [List.take_append, List.take_of_length_le hle]⟩

theorem Holds.stored_eq (h : Holds capacity content sink) (hfits : ¬ Exceeds capacity content) :
    sink.stored = content := by
  rw [h.stored, clip_of_not_exceeds hfits]

/-- Something of the content is missing exactly when there is too little room for it. -/
theorem Holds.exceeds_iff (h : Holds capacity content sink) :
    Exceeds capacity content ↔ sink.stored.length < content.length := by
  constructor
  · rintro ⟨k, rfl, hk⟩
    rw [h.stored, clip, List.length_take]
    omega
  · intro hlt
    by_contra hfits
    rw [h.stored_eq hfits] at hlt
    omega

/-- A full sink takes no byte. -/
theorem Holds.write_of_exceeds (h : Holds capacity content sink) (hx : Exceeds capacity content)
    (bytes : Bytes) :
    (sink.write bytes).1 = (if bytes = [] then .ok () else .error (.io fullMessage))
      ∧ Holds capacity content (sink.write bytes).2 := by
  obtain ⟨k, rfl, hk⟩ := hx
  have hroom : k - sink.stored.length = 0 := by
    rw [h.stored, clip, List.length_take]
    omega
  have hnil : bytes.length ≤ 0 ↔ bytes = [] := by simp
  rw [write_limited h.room, hroom, if_congr hnil rfl rfl]
  exact ⟨rfl, h.room, by simp [h.stored]⟩

end Sink

/-! ## Steps of writing -/

namespace Encoder

/-- The step gives the bytes out, as far as there is room, and does nothing else. -/
def Writes (capacity : Option Nat) (bytes : Bytes) (step : Step Unit) : Prop :=
  ∀ (encoder : Encoder) (content : Bytes), encoder.sink.Holds capacity content →
    ¬ Sink.Exceeds capacity content →
    ∃ sink, Sink.Holds capacity (content ++ bytes) sink ∧ step encoder =
      (if Sink.Exceeds capacity (content ++ bytes) then .error (.io Sink.fullMessage) else .ok (),
        { encoder with sink })

variable {capacity : Option Nat}

theorem writes_put (bytes : Bytes) : Writes capacity bytes (put bytes) := by
  intro encoder content h hfits
  obtain ⟨hresult, hholds⟩ := h.write hfits bytes
  exact ⟨_, hholds, Prod.ext hresult rfl⟩

theorem Writes.seq {front back : Bytes} {first second : Step Unit}
    (hf : Writes capacity front first) (hs : Writes capacity back second) :
    Writes capacity (front ++ back) (first >>= fun _ => second) := by
  intro encoder content h hfits
  obtain ⟨sink, hholds, hfirst⟩ := hf encoder content h hfits
  rw [← List.append_assoc]
  by_cases hx : Sink.Exceeds capacity (content ++ front)
  · rw [if_pos hx] at hfirst
    refine ⟨sink, hholds.append_of_exceeds hx back, ?_⟩
    rw [bind_of_error hfirst, if_pos (hx.append back)]
  · rw [if_neg hx] at hfirst
    obtain ⟨sink', hholds', hsecond⟩ := hs { encoder with sink } _ hholds hx
    exact ⟨sink', hholds', by rw [bind_of_ok hfirst, hsecond]⟩

/-! ## Announcements -/

/-- Gives a text frame out, part by part. -/
def putText (id : Int32) (bytes : Bytes) : Step Unit := do
  put [textTag]
  put (Bytes.ofInt32 id)
  put (Bytes.ofWord32 (UInt32.ofNat bytes.length))
  put bytes

theorem writes_putText (id : Int32) {bytes : Bytes} (h : bytes.length ≤ maxTextLength) :
    Writes capacity (Frame.text id bytes h).bytes (putText id bytes) := by
  have hcontent : Writes capacity (Bytes.ofWord32 (.ofNat bytes.length) ++ bytes) (do
      put (Bytes.ofWord32 (.ofNat bytes.length)); put bytes) :=
    (writes_put _).seq (writes_put bytes)
  have hparts : Writes capacity
      (Bytes.ofInt32 id ++ (Bytes.ofWord32 (.ofNat bytes.length) ++ bytes)) (do
        put (Bytes.ofInt32 id); put (Bytes.ofWord32 (.ofNat bytes.length)); put bytes) :=
    (writes_put _).seq hcontent
  exact (writes_put [textTag]).seq hparts

variable {encoder : Encoder} {text : String}

/-- The fault that keeps a text from being announced: it is too long, or it is new and there is no
number left for it. -/
inductive Refuses (table : StringTable) (text : String) : Fault → Prop
  | tooLong (h : maxTextLength < (Bytes.ofText text).length) :
    Refuses table text (.stringTooLong (-1) (Bytes.ofText text).length)
  | noNumber (hmax : (Bytes.ofText text).length ≤ maxTextLength) (hnew : table.idOf? text = none)
    (hlast : table.nextId = Int32.maxValue) : Refuses table text .noNumberLeft

/-- A text that is to be announced has a number, takes the next one, or is refused. -/
inductive Announcing (table : StringTable) (text : String) : Prop
  | known (hmax : (Bytes.ofText text).length ≤ maxTextLength) {id : Int32}
    (hid : table.idOf? text = some id)
  | new (hmax : (Bytes.ofText text).length ≤ maxTextLength) (hnew : table.idOf? text = none)
    (hnext : table.nextId ≠ Int32.maxValue)
  | refused {fault : Fault} (h : Refuses table text fault)

theorem announcing (table : StringTable) (text : String) : Announcing table text := by
  by_cases hmax : (Bytes.ofText text).length ≤ maxTextLength
  · cases hid : table.idOf? text with
    | some id => exact .known hmax hid
    | none =>
      by_cases hlast : table.nextId = Int32.maxValue
      · exact .refused (.noNumber hmax hid hlast)
      · exact .new hmax hid hlast
  · exact .refused (.tooLong (Nat.lt_of_not_le hmax))

theorem announce_known {id : Int32} (hmax : (Bytes.ofText text).length ≤ maxTextLength)
    (hid : encoder.table.idOf? text = some id) : announce text encoder = (.ok (), encoder) := by
  simp only [announce, if_neg (Nat.not_lt.mpr hmax)]
  have hintern : intern text encoder = (.ok (id, false), encoder) := by
    simp [intern, StringTable.intern_known hid]
  rw [bind_of_ok hintern]
  rfl

theorem announce_new (hmax : (Bytes.ofText text).length ≤ maxTextLength)
    (hnew : encoder.table.idOf? text = none) (hnext : encoder.table.nextId ≠ Int32.maxValue) :
    announce text encoder = putText encoder.table.nextId (Bytes.ofText text)
      { encoder with table := (encoder.table.intern text).2 } := by
  simp only [announce, if_neg (Nat.not_lt.mpr hmax)]
  have hintern : intern text encoder = (.ok (encoder.table.nextId, true),
      { encoder with table := (encoder.table.intern text).2 }) := by
    simp [intern, (StringTable.intern_of_unknown hnew hnext).1]
  rw [bind_of_ok hintern]
  rfl

/-- A text that is refused leaves nothing behind. -/
theorem announce_refused {fault : Fault} (h : Refuses encoder.table text fault) :
    announce text encoder = (.error fault, encoder) := by
  cases h with
  | tooLong hlong =>
    simp only [announce, if_pos hlong]
    rfl
  | noNumber hmax hnew hlast =>
    simp only [announce, if_neg (Nat.not_lt.mpr hmax)]
    have hintern : intern text encoder = (.error .noNumberLeft, encoder) := by
      simp [intern, StringTable.intern_of_last hnew hlast]
    rw [bind_of_error hintern]

end Encoder

end CallTrace.Log
