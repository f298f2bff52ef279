import CallTrace.Text.Blank
import Mathlib.Data.String.Basic

/-!
# Pieces, words and slices

* A text falls into pieces at its separators (`splitBy_append`), and into words at its blanks
  (`words_append`).
* A slice of a text is given by two byte offsets. It does not exist if they are in the wrong order,
  outside the text or within a character (`slice?`). Between the offsets at which characters are
  found there is always one (`slice?_append`).
-/

namespace CallTrace.Text

variable {p : Char → Bool} {c : Char} {n : Nat} {word text before after : List Char}

theorem free_of_not_mem (h : c ∉ text) : ∀ d ∈ text, decide (d = c) = false := by
  intro d hd
  exact decide_eq_false fun heq => h (heq ▸ hd)

/-! ## Pieces -/

theorem splitBy_of_free (hfree : ∀ c ∈ text, p c = false) : splitBy p text = [text] := by
  induction text with
  | nil => rfl
  | cons c text ih =>
    rw [List.forall_mem_cons] at hfree
    simp [splitBy, hfree.1, ih hfree.2]

/-- The first piece ends at the first separator. -/
theorem splitBy_append (hfree : ∀ c ∈ before, p c = false) (hc : p c = true) :
    splitBy p (before ++ c :: after) = before :: splitBy p after := by
  induction before with
  | nil => simp [splitBy, hc]
  | cons d before ih =>
    rw [List.forall_mem_cons] at hfree
    simp [splitBy, hfree.1, ih hfree.2]

/-! ## Words -/

theorem words_cons_blank (hc : isBlank c = true) : words (c :: text) = words text := by
  simp [words, splitBy, hc]

theorem words_of_free (hne : word ≠ []) (hfree : ∀ c ∈ word, isBlank c = false) :
    words word = [word] := by
  simp [words, splitBy_of_free hfree, hne]

/-- The first word ends at the first blank. -/
theorem words_append (hne : word ≠ []) (hfree : ∀ c ∈ word, isBlank c = false)
    (hc : isBlank c = true) : words (word ++ c :: after) = word :: words after := by
  simp [words, splitBy_append hfree hc, hne]

/-! ## Slices -/

/-- The text between two byte offsets. -/
def slice? (text : String) (start stop : Nat) : Option String :=
  let start : String.Pos.Raw := ⟨start⟩
  let stop : String.Pos.Raw := ⟨stop⟩
  if start ≤ stop ∧ start.IsValid text ∧ stop.IsValid text then some (start.extract text stop)
  else none

/-- The byte offset of the first character that satisfies `p`. -/
def firstOffset? (p : Char → Bool) : List Char → Option Nat
  | [] => none
  | c :: rest => if p c then some 0 else (firstOffset? p rest).map (· + c.utf8Size)

/-- The byte offset of the last character that satisfies `p`. -/
def lastOffset? (p : Char → Bool) : List Char → Option Nat
  | [] => none
  | c :: rest =>
    match lastOffset? p rest with
    | some offset => some (offset + c.utf8Size)
    | none => if p c then some 0 else none

theorem isValid_append (before after : List Char) :
    String.Pos.Raw.IsValid (String.ofList (before ++ after)) ⟨String.utf8Len before⟩ :=
  String.Pos.Raw.isValid_iff_exists_append.mpr
    ⟨String.ofList before, String.ofList after, String.ofList_append,
      (String.rawEndPos_ofList before).symm⟩

theorem slice?_append (before middle after : List Char) :
    slice? (String.ofList (before ++ middle ++ after)) (String.utf8Len before)
        (String.utf8Len (before ++ middle)) = some (String.ofList middle) := by
  have hstart := isValid_append before (middle ++ after)
  have hstop := isValid_append (before ++ middle) after
  rw [← List.append_assoc] at hstart
  rw [String.utf8Len_append] at hstop ⊢
  have hle : (⟨String.utf8Len before⟩ : String.Pos.Raw)
      ≤ ⟨String.utf8Len before + String.utf8Len middle⟩ := Nat.le_add_right _ _
  rw [slice?, if_pos ⟨hle, hstart, hstop⟩, String.extract_of_valid]

theorem firstOffset?_of_free (hfree : ∀ c ∈ text, p c = false) : firstOffset? p text = none := by
  induction text with
  | nil => rfl
  | cons c text ih =>
    rw [List.forall_mem_cons] at hfree
    simp [firstOffset?, hfree.1, ih hfree.2]

theorem firstOffset?_append (hfree : ∀ c ∈ before, p c = false) (hc : p c = true) :
    firstOffset? p (before ++ c :: after) = some (String.utf8Len before) := by
  induction before with
  | nil => simp [firstOffset?, hc]
  | cons d before ih =>
    rw [List.forall_mem_cons] at hfree
    simp [firstOffset?, hfree.1, ih hfree.2]

theorem lastOffset?_of_free (hfree : ∀ c ∈ text, p c = false) : lastOffset? p text = none := by
  induction text with
  | nil => rfl
  | cons c text ih =>
    rw [List.forall_mem_cons] at hfree
    simp [lastOffset?, hfree.1, ih hfree.2]

theorem lastOffset?_append_of_free (hfree : ∀ c ∈ after, p c = false) :
    lastOffset? p (before ++ after) = lastOffset? p before := by
  induction before with
  | nil => exact lastOffset?_of_free hfree
  | cons c before ih => simp only [List.cons_append, lastOffset?, ih]

theorem lastOffset?_append (hc : p c = true) (hfree : ∀ c ∈ after, p c = false) :
    lastOffset? p (before ++ c :: after) = some (String.utf8Len before) := by
  induction before with
  | nil => simp [lastOffset?, lastOffset?_of_free hfree, hc]
  | cons d before ih => simp [lastOffset?, ih]

/-- A text is free of `p`, or there is a last character that satisfies `p`. -/
theorem free_or_eq_append (p : Char → Bool) (text : List Char) :
    (∀ c ∈ text, p c = false) ∨ ∃ before c after,
      text = before ++ c :: after ∧ p c = true ∧ ∀ c ∈ after, p c = false := by
  induction text with
  | nil => exact .inl (by simp)
  | cons d text ih =>
    obtain hfree | ⟨before, c, after, rfl, hc, hfree⟩ := ih
    · cases hd : p d with
      | false => exact .inl (List.forall_mem_cons.mpr ⟨hd, hfree⟩)
      | true => exact .inr ⟨[], d, text, rfl, hd, hfree⟩
    · exact .inr ⟨d :: before, c, after, rfl, hc, hfree⟩

theorem lastOffset?_lt (h : lastOffset? p text = some n) : n < String.utf8Len text := by
  obtain hfree | ⟨before, c, after, rfl, hc, hfree⟩ := free_or_eq_append p text
  · rw [lastOffset?_of_free hfree] at h
    cases h
  · rw [lastOffset?_append hc hfree] at h
    cases h
    have hpos := c.utf8Size_pos
    rw [String.utf8Len_append, String.utf8Len_cons]
    omega

end CallTrace.Text
