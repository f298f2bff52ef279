import CallTrace.Proofs.StringTable

/-!
# Numbers stay bound

A table may be filled by a writer and by a reader in turn: some texts get the next number, others
the number that a log announces. In every mix of the two, numbers and texts are found from each
other, a bound number stays bound to its text, and a new text gets a number that was free
(`bindings_last`). A call changes nothing or binds one free number (`IsSound.perform_binds`), and
the next number always lies above all bound ones or is the greatest one (`IsSound.above`).

The greatest number is given to no text. So once it or the one below it has been announced, no new
text can be numbered any more, however many numbers are free (`no_number_after_greatest`).
-/

namespace CallTrace.StringTable

variable {table table' : StringTable} {id i : Int32} {text v : String}

/-! ## Numbers and texts -/

/-- Numbers and texts are found from each other, and numbers are not negative. -/
structure IsBidirectional (table : StringTable) : Prop extends table.Agrees where
  nonneg : ∀ i v, table.text? i = some v → 0 ≤ i

/-- Moreover the next number lies above all bound ones, unless it is the greatest one, and it is
zero or follows a bound one. -/
structure IsSound (table : StringTable) : Prop extends table.IsBidirectional where
  nextId_nonneg : 0 ≤ table.nextId
  above : table.nextId ≠ Int32.maxValue → ∀ i v, table.text? i = some v → i < table.nextId
  follows : table.nextId = 0 ∨ ∃ i v, table.text? i = some v ∧ table.nextId = successor i

/-- The greatest number or the one below it is bound. -/
def IsExhausted (table : StringTable) : Prop :=
  ∃ i v, table.text? i = some v ∧ Int32.maxValue - 1 ≤ i

theorem isSound_empty : IsSound {} where
  text?_of_idOf? := by simp
  isSome_idOf? := by simp
  nonneg := by simp
  nextId_nonneg := by decide
  above := by simp
  follows := .inl rfl

/-- A text without a number is the text of no number. -/
theorem Agrees.idOf?_eq_none_iff (h : table.Agrees) :
    table.idOf? text = none ↔ ∀ i, table.text? i ≠ some text := by
  constructor
  · intro hnew i htext
    have hsome := h.isSome_idOf? i text htext
    rw [hnew] at hsome
    cases hsome
  · intro hnone
    cases hid : table.idOf? text with
    | none => rfl
    | some i => exact absurd (h.text?_of_idOf? text i hid) (hnone i)

theorem IsSound.text?_nextId (h : table.IsSound) (hnext : table.nextId ≠ Int32.maxValue) :
    table.text? table.nextId = none := by
  cases hbound : table.text? table.nextId with
  | none => rfl
  | some v => exact absurd (h.above hnext _ v hbound) Int32.lt_irrefl

theorem lt_successor (h : i ≠ Int32.maxValue) : i < successor i := by
  rw [successor, if_neg h]
  exact Index.lt_add_one_of_ne h

theorem le_successor (i : Int32) : i ≤ successor i := by
  by_cases h : i = Int32.maxValue
  · rw [successor, if_pos h]
    exact Int32.le_refl i
  · exact Int32.le_of_lt (lt_successor h)

theorem successor_eq_maxValue_iff :
    successor i = Int32.maxValue ↔ Int32.maxValue - 1 ≤ i := by
  have hlast : (Int32.maxValue - 1).toInt + 1 = Int32.maxValue.toInt := rfl
  rw [Int32.le_iff_toInt_le, ← Int32.toInt_inj, successor]
  split
  case isTrue h =>
    rw [h]
    exact iff_of_true rfl (by omega)
  case isFalse h =>
    have hne : i.toInt ≠ Int32.maxValue.toInt := fun he => h (Int32.toInt_inj.mp he)
    have hle := Index.toInt_le_maxValue i
    rw [Index.toInt_add_one h]
    omega

/-- The next number is the greatest one only after it or the one below it has been announced. -/
theorem IsSound.nextId_eq_maxValue_iff (h : table.IsSound) :
    table.nextId = Int32.maxValue ↔ table.IsExhausted := by
  constructor
  · intro hlast
    rcases h.follows with hzero | ⟨i, v, hi, hnext⟩
    · exact absurd (hzero.symm.trans hlast) (by decide)
    · exact ⟨i, v, hi, successor_eq_maxValue_iff.mp (hnext.symm.trans hlast)⟩
  · rintro ⟨i, v, hi, hle⟩
    by_contra hnext
    have hlt := Int32.lt_of_le_of_lt hle (h.above hnext i v hi)
    have hmax := Index.toInt_le_maxValue table.nextId
    have hlast : (Int32.maxValue - 1).toInt + 1 = Int32.maxValue.toInt := rfl
    rw [Int32.lt_iff_toInt_lt] at hlt
    exact hnext (Int32.toInt_inj.mp (by omega))

/-! ## New bindings -/

/-- A free number is bound to the text, and nothing else changes. A text that has a number is still
found by the old number. The next number lies behind the new one. -/
structure Binds (table : StringTable) (id : Int32) (text : String) (table' : StringTable) :
    Prop where
  free : table.text? id = none
  text? : ∀ i, table'.text? i = if id = i then some text else table.text? i
  idOf? : ∀ v, table'.idOf? v
    = if text = v then some ((table.idOf? v).getD id) else table.idOf? v
  nextId : table'.nextId = max table.nextId (successor id)

namespace Binds

theorem text?_mono (h : Binds table id text table') (hi : table.text? i = some v) :
    table'.text? i = some v := by
  rw [h.text?, if_neg, hi]
  rintro rfl
  rw [h.free] at hi
  cases hi

theorem text?_self (h : Binds table id text table') : table'.text? id = some text := by
  rw [h.text?, if_pos rfl]

theorem isBidirectional (h : Binds table id text table') (hid : 0 ≤ id)
    (ht : table.IsBidirectional) : table'.IsBidirectional where
  text?_of_idOf? v i hv := by
    rw [h.idOf?] at hv
    split at hv
    case isFalse => exact h.text?_mono (ht.text?_of_idOf? v i hv)
    case isTrue htext =>
      subst htext
      cases hold : table.idOf? text with
      | none =>
        rw [hold] at hv
        cases hv
        exact h.text?_self
      | some old =>
        rw [hold] at hv
        cases hv
        exact h.text?_mono (ht.text?_of_idOf? text old hold)
  isSome_idOf? i v hi := by
    rw [h.text?] at hi
    rw [h.idOf?]
    split
    case isTrue => rfl
    case isFalse hne =>
      split at hi
      case isTrue => exact absurd (Option.some.inj hi) hne
      case isFalse => exact ht.isSome_idOf? i v hi
  nonneg i v hi := by
    rw [h.text?] at hi
    split at hi
    case isTrue heq => exact heq ▸ hid
    case isFalse => exact ht.nonneg i v hi

theorem isSound (h : Binds table id text table') (hid : 0 ≤ id) (ht : table.IsSound) :
    table'.IsSound where
  toIsBidirectional := h.isBidirectional hid ht.toIsBidirectional
  nextId_nonneg := by
    rw [h.nextId]
    exact Int32.le_trans ht.nextId_nonneg (Index.left_le_max _ _)
  above hnext i v hi := by
    rw [h.nextId] at hnext ⊢
    rw [h.text?] at hi
    split at hi
    case isTrue heq =>
      subst heq
      have hne : id ≠ Int32.maxValue := by
        rintro rfl
        rw [successor, if_pos rfl] at hnext
        exact hnext (Int32.le_antisymm (Index.le_maxValue _) (Index.right_le_max _ _))
      exact Int32.lt_of_lt_of_le (lt_successor hne) (Index.right_le_max _ _)
    case isFalse =>
      have hne : table.nextId ≠ Int32.maxValue := by
        intro hlast
        rw [hlast, Index.maxValue_max] at hnext
        exact hnext rfl
      exact Int32.lt_of_lt_of_le (ht.above hne i v hi) (Index.left_le_max _ _)
  follows := by
    rw [h.nextId, Index.max_eq]
    split
    case isTrue => exact .inr ⟨id, text, h.text?_self, rfl⟩
    case isFalse =>
      rcases ht.follows with hzero | ⟨i, v, hi, hnext⟩
      · exact .inl hzero
      · exact .inr ⟨i, v, h.text?_mono hi, hnext⟩

end Binds

theorem intern_binds (hnew : table.idOf? text = none) (hnext : table.nextId ≠ Int32.maxValue)
    (hfree : table.text? table.nextId = none) :
    Binds table table.nextId text (table.intern text).2 where
  free := hfree
  text? := text?_intern_of_unknown hnew hnext
  idOf? v := by
    rw [idOf?_intern_of_unknown hnew hnext]
    split
    case isTrue htext => rw [← htext, hnew, Option.getD_none]
    case isFalse => rfl
  nextId := by
    rw [(intern_of_unknown hnew hnext).2, Index.max_eq, if_pos (le_successor _), successor,
      if_neg hnext]

theorem register_binds (h0 : ¬ id < 0) (hfree : table.text? id = none) :
    Binds table id text (table.register id text).2 where
  free := hfree
  text? := text?_register_of_unbound h0 hfree
  idOf? v := by
    have hids : (table.register id text).2.idOf? v = (table.ids.insertIfNew text id)[v]? := by
      simp [register, h0, hfree, StringTable.idOf?]
    have hmem : text ∈ table.ids ↔ (table.idOf? text).isSome :=
      Std.ExtTreeMap.mem_iff_isSome_getElem?
    rw [hids, Std.ExtTreeMap.getElem?_insertIfNew, ← StringTable.idOf?]
    by_cases htext : text = v
    · subst htext
      cases hold : table.idOf? text with
      | none => simp [hmem, hold]
      | some old => simp [hmem, hold]
    · simp [htext]
  nextId := by simp [register, h0, hfree]

/-! ## Calls -/

/-- What a writer or a reader asks of a table. -/
inductive Call where
  /-- The writer numbers a text. -/
  | intern (text : String)
  /-- The reader is told a number. -/
  | register (id : Int32) (text : String)

/-- The table after the call, also if the call has no answer. -/
def Call.perform (table : StringTable) : Call → StringTable
  | .intern text => (table.intern text).2
  | .register id text => (table.register id text).2

/-- The table after all the calls. -/
def performAll (table : StringTable) (calls : List Call) : StringTable :=
  calls.foldl Call.perform table

theorem performAll_append (before after : List Call) :
    table.performAll (before ++ after) = (table.performAll before).performAll after :=
  List.foldl_append

namespace IsSound

/-- **A call leaves the table as it was, or binds one free number.** -/
theorem perform_binds (h : table.IsSound) (call : Call) :
    call.perform table = table
      ∨ ∃ id text, 0 ≤ id ∧ Binds table id text (call.perform table) := by
  cases call with
  | intern text =>
    cases hknown : table.idOf? text with
    | some id => exact .inl (by rw [Call.perform, intern_known hknown])
    | none =>
      by_cases hlast : table.nextId = Int32.maxValue
      · exact .inl (by rw [Call.perform, intern_of_last hknown hlast])
      · exact .inr ⟨table.nextId, text, h.nextId_nonneg,
          intern_binds hknown hlast (h.text?_nextId hlast)⟩
  | register id text =>
    by_cases h0 : id < 0
    · exact .inl (by rw [Call.perform, register_of_neg h0])
    · cases hid : table.text? id with
      | some known => exact .inl (by rw [Call.perform, register_of_bound h0 hid])
      | none => exact .inr ⟨id, text, Int32.not_lt.mp h0, register_binds h0 hid⟩

theorem perform (h : table.IsSound) (call : Call) : (call.perform table).IsSound := by
  rcases h.perform_binds call with hsame | ⟨id, text, hid, hbinds⟩
  · rwa [hsame]
  · exact hbinds.isSound hid h

theorem text?_perform (h : table.IsSound) (call : Call) (hi : table.text? i = some v) :
    (call.perform table).text? i = some v := by
  rcases h.perform_binds call with hsame | ⟨id, text, -, hbinds⟩
  · rwa [hsame]
  · exact hbinds.text?_mono hi

theorem performAll (h : table.IsSound) (calls : List Call) : (table.performAll calls).IsSound := by
  induction calls generalizing table with
  | nil => exact h
  | cons call calls ih => exact ih (h.perform call)

theorem text?_performAll (h : table.IsSound) (calls : List Call) (hi : table.text? i = some v) :
    (table.performAll calls).text? i = some v := by
  induction calls generalizing table with
  | nil => exact hi
  | cons call calls ih => exact ih (h.perform call) (h.text?_perform call hi)

end IsSound

/-! ## The numbering of a text -/

/-- An answer says whether the text had no number. If so, then the number in it was free. Afterwards
this number has the text. There is no answer just for a new text in an exhausted table, which stays
as it was. -/
structure NumbersRightly (table : StringTable) (text : String) : Prop where
  isNew_iff : ∀ id isNew, (table.intern text).1 = some (id, isNew) →
    (isNew = true ↔ ∀ i, table.text? i ≠ some text)
  free : ∀ id, (table.intern text).1 = some (id, true) → table.text? id = none
  text?_id : ∀ id isNew, (table.intern text).1 = some (id, isNew) →
    (table.intern text).2.text? id = some text
  eq_none_iff : (table.intern text).1 = none
    ↔ (∀ i, table.text? i ≠ some text) ∧ table.IsExhausted
  unchanged : (table.intern text).1 = none → (table.intern text).2 = table

theorem IsSound.numbersRightly (h : table.IsSound) (text : String) :
    table.NumbersRightly text := by
  cases hknown : table.idOf? text with
  | some id =>
    have htext := h.text?_of_idOf? text id hknown
    have hold : ¬ ∀ i, table.text? i ≠ some text := fun hnew => hnew id htext
    constructor <;> simp only [intern_known hknown]
    · rintro _ _ ⟨⟩
      exact iff_of_false Bool.false_ne_true hold
    · rintro _ ⟨⟩
    · rintro _ _ ⟨⟩
      exact htext
    · exact iff_of_false (Option.some_ne_none _) fun hnone => hold hnone.1
    · rintro ⟨⟩
  | none =>
    have hnew := h.idOf?_eq_none_iff.mp hknown
    by_cases hlast : table.nextId = Int32.maxValue
    · have hexhausted := h.nextId_eq_maxValue_iff.mp hlast
      constructor <;> simp only [intern_of_last hknown hlast]
      · rintro _ _ ⟨⟩
      · rintro _ ⟨⟩
      · rintro _ _ ⟨⟩
      · exact iff_of_true trivial ⟨hnew, hexhausted⟩
      · exact fun _ => trivial
    · have hfree := h.text?_nextId hlast
      have hnumbered := (intern_of_unknown hknown hlast).1
      have hbinds := intern_binds hknown hlast hfree
      constructor <;> simp only [hnumbered]
      · rintro _ _ ⟨⟩
        exact iff_of_true rfl hnew
      · rintro _ ⟨⟩
        exact hfree
      · rintro _ _ ⟨⟩
        exact hbinds.text?_self
      · refine iff_of_false (Option.some_ne_none _) fun hnone => hlast ?_
        exact h.nextId_eq_maxValue_iff.mpr hnone.2
      · rintro ⟨⟩

/-- **Numbers stay bound.** Let a table without texts be filled by any calls of both kinds. After
the calls `before`, numbers and texts are found from each other; what is bound stays bound through
the calls `after`; and a text that is numbered next gets a number that was free if it is new, and
the answer says whether it is. But a new text gets no number at all when the greatest number or the
one below it has been announced. -/
theorem bindings_last (before after : List Call) :
    (performAll {} before).IsBidirectional
      ∧ (∀ i v, (performAll {} before).text? i = some v →
          (performAll {} (before ++ after)).text? i = some v)
      ∧ ∀ text, (performAll {} before).NumbersRightly text := by
  have hsound := isSound_empty.performAll before
  refine ⟨hsound.toIsBidirectional, ?_, hsound.numbersRightly⟩
  intro i v hi
  rw [performAll_append]
  exact hsound.text?_performAll after hi

/-- A reader is told the numbers 2 and 7. Then the text `a` gets the number 8, and `x` keeps its
own. -/
example :
    ((performAll {} [.register 2 "x", .register 7 "y"]).intern "a").1 = some (8, true)
      ∧ ((performAll {} [.register 2 "x", .register 7 "y"]).intern "x").1 = some (2, false) := by
  decide

/-- Only the greatest number has been announced. The next new text gets no number, although the
number zero is free. -/
theorem no_number_after_greatest :
    (performAll {} [.register 2147483647 "x"]).idOf? "y" = none
      ∧ (performAll {} [.register 2147483647 "x"]).text? 0 = none
      ∧ ((performAll {} [.register 2147483647 "x"]).intern "y").1 = none := by
  decide

end CallTrace.StringTable
