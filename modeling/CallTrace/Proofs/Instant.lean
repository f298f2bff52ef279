import CallTrace.Instant
import CallTrace.Proofs.Numeral

/-!
# Points in time, written and read

The text of a point in time is read as the point in time again (`ofText?_toText`). Each field is
taken from the front of a text, up to the character behind it, which is never a digit; the reader of
the whole puts them one behind the other (`Takes.bind`).
-/

namespace CallTrace.Instant

open Numeral (decimal ofDigits isDigit)

variable {α β : Type} {c : Char} {digits text rest after : List Char} {k n width : Nat}

/-- The fields name a day and a time of day, and the fraction is less than a second. -/
structure IsProper (t : Instant) : Prop where
  isValid : t.isValid = true
  nanos_lt : t.nanos < 1000000000

/-! ## Readers -/

/-- The reader takes the value from the front of the text and leaves the rest. -/
def Takes (read : TextReader α) (text : List Char) (value : α) (rest : List Char) : Prop :=
  read text = some (value, rest)

theorem takes_pure (value : α) (text : List Char) : Takes (pure value) text value text := rfl

theorem Takes.bind {read : TextReader α} {next : α → TextReader β} {value : α} {result : β}
    (h : Takes read text value rest) (hnext : Takes (next value) rest result after) :
    Takes (read >>= next) text result after := by
  show (read text).bind (fun found => next found.1 found.2) = _
  rw [h]
  exact hnext

theorem takes_get (text : List Char) : Takes get text text text := rfl

theorem takes_literal (c : Char) (rest : List Char) : Takes (literal c) (c :: rest) () rest := by
  rw [Takes, literal, if_pos rfl]

/-- Blanks are skipped only where there are some. -/
theorem takes_blanks (h : Text.isBlank c = false) (rest : List Char) :
    Takes blanks (c :: rest) () (c :: rest) := by
  show some ((), (c :: rest).dropWhile Text.isBlank) = _
  rw [List.dropWhile_cons_of_neg (by simp [h])]

/-- A character that stands between two fields is passed. -/
theorem takes_mark {next : TextReader β} {result : β} (h : Text.isBlank c = false)
    (hnext : Takes next rest result after) :
    Takes (do blanks; literal c; next) (c :: rest) result after :=
  (takes_blanks h rest).bind ((takes_literal c rest).bind hnext)

/-! ## Numbers -/

/-- Digits that stand before these characters end there. -/
def EndsDigits (rest : List Char) : Prop := ∀ c ∈ rest.head?, isDigit c = false

theorem endsDigits_cons (h : isDigit c = false) (rest : List Char) : EndsDigits (c :: rest) := by
  intro d hd
  cases hd
  exact h

theorem takes_number (hne : digits ≠ []) (hdigits : ∀ c ∈ digits, isDigit c = true)
    (hlength : digits.length ≤ width) (hrest : EndsDigits rest) :
    Takes (number width) (digits ++ rest) digits rest := by
  have hend : (rest.take (width - digits.length)).takeWhile isDigit = [] := by
    cases rest with
    | nil => simp
    | cons c rest =>
      cases width - digits.length with
      | zero => rfl
      | succ k => exact List.takeWhile_cons_of_neg (by simp [hrest c rfl])
  have hfound : ((digits ++ rest).take width).takeWhile isDigit = digits := by
    rw [List.take_append, List.take_of_length_le hlength, List.takeWhile_append_of_pos hdigits,
      hend, List.append_nil]
  rw [Takes, number]
  simp [hfound, hne]

theorem isBlank_of_isDigit (h : isDigit c = true) : Text.isBlank c = false := by
  simp only [isDigit, Bool.and_eq_true, decide_eq_true_eq] at h
  have hmin : 48 ≤ c.toNat := UInt32.le_iff_toNat_le.mp h.1
  have hmax : c.toNat ≤ 57 := UInt32.le_iff_toNat_le.mp h.2
  simp [Text.isBlank]
  omega

/-- A numeral has a first digit. -/
theorem exists_cons_decimal (hwidth : 0 < width) (n : Nat) :
    ∃ c digits, (decimal width n).toList = c :: digits ∧ isDigit c = true := by
  obtain ⟨c, digits, hcons⟩ : ∃ c digits, (decimal width n).toList = c :: digits := by
    refine List.exists_cons_of_ne_nil ?_
    rw [Numeral.toList_decimal hwidth]
    simp
  exact ⟨c, digits, hcons, Numeral.isDigit_of_mem_decimal hwidth (hcons ▸ List.mem_cons_self)⟩

theorem takes_decimal (hwidth : 0 < width) (hlength : (decimal width n).toList.length ≤ k)
    (hrest : EndsDigits rest) :
    Takes (number k) ((decimal width n).toList ++ rest) (decimal width n).toList rest := by
  obtain ⟨c, digits, hcons, -⟩ := exists_cons_decimal hwidth n
  refine takes_number (by simp [hcons]) ?_ hlength hrest
  exact fun _ => Numeral.isDigit_of_mem_decimal hwidth

theorem takes_blanks_decimal (hwidth : 0 < width) (n : Nat) (rest : List Char) :
    Takes blanks ((decimal width n).toList ++ rest) () ((decimal width n).toList ++ rest) := by
  obtain ⟨c, digits, hcons, hc⟩ := exists_cons_decimal hwidth n
  rw [hcons]
  exact takes_blanks (isBlank_of_isDigit hc) _

/-- A numeral as it stands in the text of a point in time. -/
theorem takes_numberField (hwidth : 0 < width) (h : n < 10 ^ width) (hrest : EndsDigits rest) :
    Takes (numberField width) ((decimal width n).toList ++ rest) n rest := by
  refine (takes_blanks_decimal hwidth n rest).bind
    ((takes_decimal hwidth (Nat.le_of_eq (Numeral.length_decimal hwidth h)) hrest).bind ?_)
  rw [Numeral.ofDigits_decimal hwidth]
  exact takes_pure n rest

/-! ## Years -/

/-- A year without a sign is four digits. -/
theorem takes_unsignedYear (h : n < 10 ^ 4) (hrest : EndsDigits rest) :
    Takes yearField ((decimal 4 n).toList ++ rest) n rest := by
  have hnumber : Takes (number 4) ((decimal 4 n).toList ++ rest) (decimal 4 n).toList rest :=
    takes_decimal (by decide) (Nat.le_of_eq (Numeral.length_decimal (by decide) h)) hrest
  obtain ⟨c, digits, hcons, hc⟩ := exists_cons_decimal (by decide : 0 < 4) n
  refine (takes_blanks_decimal (by decide) n rest).bind ((takes_get _).bind ?_)
  -- a digit is neither of the signs that are looked for
  rw [hcons, List.cons_append, List.head?_cons]
  split
  next heq => cases heq; cases hc
  next heq => cases heq; cases hc
  next =>
    rw [← List.cons_append, ← hcons]
    refine hnumber.bind ?_
    rw [Numeral.ofDigits_decimal (by decide)]
    exact takes_pure _ rest

/-- After its sign, a year is read up to the character behind its digits. -/
theorem takes_signedYear (n : Nat) (hrest : EndsDigits rest) (sign : Int → Int) :
    Takes (do return sign (Int.ofNat (ofDigits (← number (← get).length))))
      ((decimal 4 n).toList ++ rest) (sign n) rest := by
  have hdigits : Takes (number ((decimal 4 n).toList ++ rest).length)
      ((decimal 4 n).toList ++ rest) (decimal 4 n).toList rest :=
    takes_decimal (by decide) (by simp) hrest
  refine (takes_get _).bind (hdigits.bind ?_)
  rw [Numeral.ofDigits_decimal (by decide)]
  exact takes_pure _ rest

theorem takes_yearField (year : Int) (hrest : EndsDigits rest) :
    Takes yearField ((yearText year).toList ++ rest) year rest := by
  rw [yearText]
  split
  next hshort =>
    simp only [Bool.and_eq_true, decide_eq_true_eq] at hshort
    obtain ⟨n, rfl⟩ := Int.eq_ofNat_of_zero_le hshort.1
    exact takes_unsignedYear (by omega) hrest
  next hlong =>
    rw [String.toList_append, List.append_assoc]
    split
    next hneg =>
      refine (takes_blanks (by decide) _).bind ((takes_get _).bind ?_)
      have hsigned := takes_signedYear year.natAbs hrest Neg.neg
      rw [show -(year.natAbs : Int) = year by omega] at hsigned
      exact (takes_literal '-' _).bind hsigned
    next hpos =>
      refine (takes_blanks (by decide) _).bind ((takes_get _).bind ?_)
      have hsigned := takes_signedYear year.natAbs hrest id
      rw [show id (year.natAbs : Int) = year from Int.natAbs_of_nonneg (by omega)] at hsigned
      exact (takes_literal '+' _).bind hsigned

/-! ## Fractions -/

theorem takes_fractionDigits (hwidth : 0 < width) (hle : width ≤ 9) (h : n < 10 ^ width)
    (rest : List Char) :
    Takes fractionField ('.' :: ((decimal width n).toList ++ 'Z' :: rest))
      (n * 10 ^ (9 - width)) ('Z' :: rest) := by
  have hlength := Numeral.length_decimal hwidth h
  have hdigits : Takes (number 9) ((decimal width n).toList ++ 'Z' :: rest)
      (decimal width n).toList ('Z' :: rest) :=
    takes_decimal hwidth (by omega) (endsDigits_cons (by decide) rest)
  refine (takes_get _).bind ?_
  rw [List.head?_cons, if_pos rfl]
  refine (takes_literal '.' _).bind (hdigits.bind ?_)
  rw [Numeral.ofDigits_decimal hwidth, hlength]
  rfl

/-- The text of a fraction is empty, or a point with three, six or nine digits. -/
theorem fractionText_cases (h : n < 1000000000) :
    fractionText n = "" ∧ n = 0 ∨ ∃ width k, 0 < width ∧ width ≤ 9 ∧ k < 10 ^ width
      ∧ fractionText n = "." ++ decimal width k ∧ k * 10 ^ (9 - width) = n := by
  rw [fractionText]
  by_cases hzero : n = 0
  · exact Or.inl ⟨if_pos hzero, hzero⟩
  rw [if_neg hzero]
  right
  by_cases hmillis : n % 1000000 = 0
  · exact ⟨3, n / 1000000, by omega, by omega, by omega, if_pos hmillis, by omega⟩
  rw [if_neg hmillis]
  by_cases hmicros : n % 1000 = 0
  · exact ⟨6, n / 1000, by omega, by omega, by omega, if_pos hmicros, by omega⟩
  · exact ⟨9, n, by omega, by omega, by omega, if_neg hmicros, by omega⟩

theorem endsDigits_fractionText (h : n < 1000000000) (rest : List Char) :
    EndsDigits ((fractionText n).toList ++ 'Z' :: rest) := by
  rcases fractionText_cases h with ⟨htext, -⟩ | ⟨width, k, -, -, -, htext, -⟩
  · rw [htext]
    exact endsDigits_cons (by decide) rest
  · rw [htext, String.toList_append]
    exact endsDigits_cons (by decide) _

/-- A fraction of a second is read up to the letter behind it. -/
theorem takes_fractionField (h : n < 1000000000) (rest : List Char) :
    Takes fractionField ((fractionText n).toList ++ 'Z' :: rest) n ('Z' :: rest) := by
  rcases fractionText_cases h with ⟨htext, rfl⟩ | ⟨width, k, hwidth, hle, hk, htext, rfl⟩
  · rfl
  · rw [htext, String.toList_append, List.append_assoc]
    exact takes_fractionDigits hwidth hle hk rest

theorem takes_offsetField : Takes offsetField ['Z'] 0 [] := rfl

theorem takes_separator (rest : List Char) : Takes separator ('T' :: rest) () rest := rfl

/-! ## The whole text -/

theorem toList_toText (t : Instant) :
    t.toText.toList = (yearText t.year).toList ++ '-' :: ((decimal 2 t.month).toList ++ '-' ::
      ((decimal 2 t.day).toList ++ 'T' :: ((decimal 2 t.hour).toList ++ ':' ::
      ((decimal 2 t.minute).toList ++ ':' :: ((decimal 2 t.second).toList ++
      ((fractionText t.nanos).toList ++ ['Z'])))))) := by
  simp [toText]

theorem daysInMonth_le (year : Int) (month : Nat) : daysInMonth year month ≤ 31 := by
  unfold daysInMonth
  split
  case h_1 => split <;> decide
  all_goals decide

theorem IsProper.takes_reader {t : Instant} (h : t.IsProper) :
    Takes reader t.toText.toList t [] := by
  have hvalid := h.isValid
  simp only [Instant.isValid, Bool.and_eq_true, decide_eq_true_eq] at hvalid
  have hdays := daysInMonth_le t.year t.month
  have hdash : ∀ rest, EndsDigits ('-' :: rest) := endsDigits_cons (by decide)
  have hcolon : ∀ rest, EndsDigits (':' :: rest) := endsDigits_cons (by decide)
  rw [toList_toText]
  refine (takes_yearField t.year (hdash _)).bind ?_
  refine takes_mark (by decide) ?_
  refine (takes_numberField (by decide) (by omega) (hdash _)).bind ?_
  refine takes_mark (by decide) ?_
  refine (takes_numberField (by decide) (by omega) (endsDigits_cons (by decide) _)).bind ?_
  refine (takes_separator _).bind ?_
  refine (takes_numberField (by decide) (by omega) (hcolon _)).bind ?_
  refine takes_mark (by decide) ?_
  refine (takes_numberField (by decide) (by omega) (hcolon _)).bind ?_
  refine takes_mark (by decide) ?_
  refine (takes_numberField (by decide) (by omega) (endsDigits_fractionText h.nanos_lt _)).bind ?_
  refine (takes_fractionField h.nanos_lt []).bind ?_
  refine (takes_blanks (by decide) _).bind (takes_offsetField.bind ?_)
  -- without an offset the point in time stays as it is
  show Takes (if t.isValid && t.isValid then pure t else failure) [] t []
  rw [if_pos (by simp [h.isValid])]
  exact takes_pure t []

/-- **The text of a point in time is read as the point in time.** -/
theorem ofText?_toText {t : Instant} (h : t.IsProper) : ofText? t.toText = some t := by
  have htakes : reader.run t.toText.toList = some (t, []) := h.takes_reader
  rw [ofText?, htakes]
  rfl

end CallTrace.Instant
