import CallTrace.Proofs.Index
import CallTrace.StringTable
import Mathlib.Data.List.Basic

/-!
# What string tables know

* Announcing a number (`register`) adds at most the one binding and never changes a bound number.
* Numbering texts (`intern`) is described by the list of the texts in the order of their numbers
  (`Numbers`): a text and its position in the list are found from each other.
* In a table of numbered texts the numbers and the texts agree (`Agrees`), and no text has two
  numbers (`IsUnaliased`). Announcing may give a text a second number.
-/

namespace CallTrace.StringTable

variable {table : StringTable} {id i : Int32} {text known : String}

@[simp] theorem text?_empty (i : Int32) : ({} : StringTable).text? i = none := by
  simp [text?]

@[simp] theorem idOf?_empty (text : String) : ({} : StringTable).idOf? text = none := by
  simp [idOf?]

/-! ## Agreement -/

/-- The number that a text is found by is bound to it, and every text that is bound has one. -/
structure Agrees (table : StringTable) : Prop where
  text?_of_idOf? : ∀ text id, table.idOf? text = some id → table.text? id = some text
  isSome_idOf? : ∀ id text, table.text? id = some text → (table.idOf? text).isSome

/-- No text is bound to two numbers. -/
def IsUnaliased (table : StringTable) : Prop :=
  ∀ i j text, table.text? i = some text → table.text? j = some text → i = j

/-- Without aliases the number of a text is the only one that is bound to it. -/
theorem Agrees.idOf?_of_text? (h : table.Agrees) (hunaliased : table.IsUnaliased)
    (hid : table.text? id = some text) : table.idOf? text = some id := by
  obtain ⟨known, hknown⟩ := Option.isSome_iff_exists.mp (h.isSome_idOf? id text hid)
  rw [hknown, hunaliased known id text (h.text?_of_idOf? text known hknown) hid]

/-! ## Announced numbers -/

theorem register_of_neg (h : id < 0) : table.register id text = (false, table) := by
  simp [register, h]

theorem register_of_bound (h0 : ¬ id < 0) (h : table.text? id = some known) :
    table.register id text = (known == text, table) := by
  simp [register, h0, h]

theorem register_of_unbound (h0 : ¬ id < 0) (h : table.text? id = none) :
    (table.register id text).1 = true := by
  simp [register, h0, h]

/-- A free number is bound to the text, and nothing else changes. -/
theorem text?_register_of_unbound (h0 : ¬ id < 0) (h : table.text? id = none) (i : Int32) :
    (table.register id text).2.text? i = if id = i then some text else table.text? i := by
  simp only [register, h0, if_false, h]
  simp [text?, Std.ExtTreeMap.getElem?_insert]

/-- A bound number stays bound to its text. -/
theorem text?_register_mono (h : table.text? i = some known) :
    (table.register id text).2.text? i = some known := by
  by_cases h0 : id < 0
  · rw [register_of_neg h0, h]
  · cases hid : table.text? id with
    | some other => rw [register_of_bound h0 hid, h]
    | none =>
      rw [text?_register_of_unbound h0 hid, if_neg, h]
      rintro rfl
      rw [hid] at h
      cases h

/-! ## Numbered texts -/

/-- The number is the position of the text in the list. -/
def IsNumberOf (texts : List String) (id : Int32) (text : String) : Prop :=
  ∃ n, texts[n]? = some text ∧ .ofNat n = id

theorem isNumberOf_append {texts : List String} {new : String} :
    IsNumberOf (texts ++ [new]) id text
      ↔ IsNumberOf texts id text ∨ text = new ∧ id = .ofNat texts.length := by
  constructor
  · rintro ⟨n, hn, rfl⟩
    rcases Nat.lt_or_ge n texts.length with hlt | hge
    · exact Or.inl ⟨n, by rwa [List.getElem?_append_left hlt] at hn, rfl⟩
    · rw [List.getElem?_append_right hge, List.getElem?_singleton] at hn
      split at hn
      · exact Or.inr ⟨by simpa using hn.symm, by rw [show n = texts.length by omega]⟩
      · cases hn
  · rintro (⟨n, hn, rfl⟩ | ⟨rfl, rfl⟩)
    · exact ⟨n, by rw [List.getElem?_append_left (List.getElem?_eq_some_iff.mp hn).1, hn], rfl⟩
    · exact ⟨texts.length, by simp, rfl⟩

/-- The table numbers these texts, each with its position. -/
structure Numbers (table : StringTable) (texts : List String) : Prop where
  nodup : texts.Nodup
  idOf?_iff : ∀ text id, table.idOf? text = some id ↔ IsNumberOf texts id text
  text?_iff : ∀ id text, table.text? id = some text ↔ IsNumberOf texts id text
  nextId : table.nextId = .ofNat texts.length

theorem numbers_empty : Numbers {} [] where
  nodup := List.nodup_nil
  idOf?_iff := by simp [IsNumberOf]
  text?_iff := by simp [IsNumberOf]
  nextId := rfl

/-- A text that has a number keeps it. -/
theorem intern_known (h : table.idOf? text = some id) :
    table.intern text = (some (id, false), table) := by
  simp [intern, h]

/-- The greatest number is given to no text. -/
theorem intern_of_last (h : table.idOf? text = none) (hlast : table.nextId = Int32.maxValue) :
    table.intern text = (none, table) := by
  simp [intern, h, hlast]

section
variable (h : table.idOf? text = none) (hnext : table.nextId ≠ Int32.maxValue)
include h hnext

theorem intern_of_unknown :
    (table.intern text).1 = some (table.nextId, true)
      ∧ (table.intern text).2.nextId = table.nextId + 1 := by
  simp [intern, h, hnext]

theorem text?_intern_of_unknown (i : Int32) :
    (table.intern text).2.text? i = if table.nextId = i then some text else table.text? i := by
  simp only [intern, h, if_neg hnext]
  simp [text?, Std.ExtTreeMap.getElem?_insert]

theorem idOf?_intern_of_unknown (t : String) :
    (table.intern text).2.idOf? t = if text = t then some table.nextId else table.idOf? t := by
  simp only [intern, h, if_neg hnext]
  simp [idOf?, Std.ExtTreeMap.getElem?_insert]

end

namespace Numbers

variable {texts : List String}

theorem mem_iff (h : Numbers table texts) : text ∈ texts ↔ ∃ id, table.idOf? text = some id := by
  simp only [h.idOf?_iff, IsNumberOf, List.mem_iff_getElem?]
  exact ⟨fun ⟨n, hn⟩ => ⟨_, n, hn, rfl⟩, fun ⟨_, n, hn, _⟩ => ⟨n, hn⟩⟩

theorem not_mem (h : Numbers table texts) (hnew : table.idOf? text = none) : text ∉ texts := by
  rw [h.mem_iff, hnew]
  simp

theorem text?_of_idOf? (h : Numbers table texts) (hid : table.idOf? text = some id) :
    table.text? id = some text :=
  (h.text?_iff id text).mpr ((h.idOf?_iff text id).mp hid)

theorem agrees (h : Numbers table texts) : table.Agrees where
  text?_of_idOf? _ _ := h.text?_of_idOf?
  isSome_idOf? id text hid := by
    rw [(h.idOf?_iff text id).mpr ((h.text?_iff id text).mp hid)]
    rfl

theorem isUnaliased (h : Numbers table texts) : table.IsUnaliased := by
  intro i j text hi hj
  have hi := (h.idOf?_iff text i).mpr ((h.text?_iff i text).mp hi)
  have hj := (h.idOf?_iff text j).mpr ((h.text?_iff j text).mp hj)
  rw [hi] at hj
  exact Option.some.inj hj

/-- The number that comes next is free as long as there are numbers left. -/
theorem text?_nextId (h : Numbers table texts) (hlt : texts.length < 2 ^ 31) :
    table.text? table.nextId = none := by
  cases ht : table.text? table.nextId with
  | none => rfl
  | some text =>
    obtain ⟨n, hn, hid⟩ := (h.text?_iff _ _).mp ht
    obtain ⟨hn, _⟩ := List.getElem?_eq_some_iff.mp hn
    have := Index.inj (by omega) hlt (hid.trans h.nextId)
    omega

theorem nextId_nonneg (h : Numbers table texts) (hlt : texts.length < 2 ^ 31) :
    ¬ table.nextId < 0 := by
  rw [h.nextId]
  exact Index.not_neg hlt

/-- As long as there are at least two numbers left, the next one is not the greatest. -/
theorem nextId_ne_maxValue (h : Numbers table texts) (hlt : texts.length + 1 < 2 ^ 31) :
    table.nextId ≠ Int32.maxValue := by
  rw [h.nextId]
  exact Index.ne_maxValue hlt

/-- A new text comes last. -/
theorem intern (h : Numbers table texts) (hnew : table.idOf? text = none)
    (hlt : texts.length + 1 < 2 ^ 31) : Numbers (table.intern text).2 (texts ++ [text]) := by
  have hnext := h.nextId_ne_maxValue hlt
  have hmem := h.not_mem hnew
  refine ⟨?_, ?_, ?_, ?_⟩
  · rw [List.nodup_append]
    exact ⟨h.nodup, by simp, fun a ha b hb e => hmem (by simp_all)⟩
  · intro t id
    rw [idOf?_intern_of_unknown hnew hnext, isNumberOf_append, ← h.idOf?_iff, ← h.nextId]
    by_cases ht : text = t
    · subst ht
      simp [hnew, eq_comm]
    · simp [ht, Ne.symm ht]
  · intro id t
    rw [text?_intern_of_unknown hnew hnext, isNumberOf_append, ← h.text?_iff, ← h.nextId]
    by_cases hid : table.nextId = id
    · subst hid
      simp [h.text?_nextId (by omega), eq_comm]
    · simp [hid, Ne.symm hid]
  · rw [(intern_of_unknown hnew hnext).2, h.nextId, List.length_append, List.length_singleton]
    simp

end Numbers

end CallTrace.StringTable
