import CallTrace.Json.Parser
import CallTrace.Json.Printer
import CallTrace.Proofs.Numeral

/-!
# Documents, written and read

A document of data without floating-point numbers is read as the data again, in either layout
(`parse?_render`). The proof follows the readers: from the parts of a number and of a text to
values, and from the values to the items and the members that they stand in.

A reader takes what it reads from the front of a text, whatever comes behind it. Only a number has
to be told where it ends (`EndsNumber`); in a document a comma, a bracket or a blank does so. The
bound on the depth of the calls is twice the length of the text: the brackets around items are two
characters, and so pay for the call that reads the array and for the calls that read its items.
-/

namespace CallTrace.Json

variable {c : Char} {text rest blanks : List Char} {n : Nat}

/-! ## Blanks -/

/-- The blanks that a document is laid out with. -/
def AreBlanks (blanks : List Char) : Prop := ∀ c ∈ blanks, c = ' ' ∨ c = '\n'

/-- The character is none of the blanks that are skipped. -/
def IsSolid (c : Char) : Prop := c ≠ ' ' ∧ c ≠ '\n' ∧ c ≠ '\t' ∧ c ≠ '\r'

instance (c : Char) : Decidable (IsSolid c) :=
  inferInstanceAs (Decidable (c ≠ ' ' ∧ c ≠ '\n' ∧ c ≠ '\t' ∧ c ≠ '\r'))

theorem skipBlanks_append (h : AreBlanks blanks) (text : List Char) :
    skipBlanks (blanks ++ text) = skipBlanks text := by
  refine List.dropWhile_append_of_pos fun c hc => ?_
  rcases h c hc with rfl | rfl <;> rfl

theorem skipBlanks_cons (h : IsSolid c) (text : List Char) :
    skipBlanks (c :: text) = c :: text := by
  obtain ⟨h1, h2, h3, h4⟩ := h
  exact List.dropWhile_cons_of_neg (by simp [h1, h2, h3, h4])

theorem areBlanks_lineStart (layout : Layout) (depth : Nat) :
    AreBlanks (layout.lineStart depth).toList := by
  cases layout with
  | oneLine => simp [AreBlanks, Layout.lineStart]
  | indented =>
    intro c hc
    simp only [Layout.lineStart, String.toList_append, String.toList_ofList, List.mem_append,
      List.mem_replicate] at hc
    rcases hc with hc | ⟨-, rfl⟩
    · exact Or.inr (by simpa using hc)
    · exact Or.inl rfl

/-! ## Numbers -/

/-- A number that stands before these characters ends there. -/
def EndsNumber (rest : List Char) : Prop :=
  ∀ c ∈ rest.head?, Numeral.isDigit c = false ∧ c ≠ '.' ∧ c ≠ 'e' ∧ c ≠ 'E'

theorem takeDigits?_append {digits : List Char} (hne : digits ≠ [])
    (hdigits : ∀ c ∈ digits, Numeral.isDigit c = true) (hrest : EndsNumber rest) :
    takeDigits? (digits ++ rest) = some (digits, rest) := by
  have htake : rest.takeWhile Numeral.isDigit = [] ∧ rest.dropWhile Numeral.isDigit = rest := by
    cases rest with
    | nil => exact ⟨rfl, rfl⟩
    | cons c rest =>
      have hc := (hrest c rfl).1
      exact ⟨List.takeWhile_cons_of_neg (by simp [hc]),
        List.dropWhile_cons_of_neg (by simp [hc])⟩
  rw [takeDigits?, List.takeWhile_append_of_pos hdigits, List.dropWhile_append_of_pos hdigits,
    htake.1, htake.2, List.append_nil]
  simp [hne]

theorem takeDigits?_toDigits (n : Nat) (hrest : EndsNumber rest) :
    takeDigits? (Nat.toDigits 10 n ++ rest) = some (Nat.toDigits 10 n, rest) :=
  takeDigits?_append Nat.toDigits_ne_nil (fun _ => Numeral.isDigit_of_mem_toDigits) hrest

/-- A numeral has no zero in front. -/
theorem not_leading_zero (n : Nat) :
    (1 < (Nat.toDigits 10 n).length && (Nat.toDigits 10 n).head? == some '0') = false := by
  rcases Nat.eq_zero_or_pos n with rfl | hn
  · rfl
  · simp [Numeral.head?_toDigits_ne hn]

theorem toDigits_append_ne_minus (n : Nat) (rest after : List Char) :
    Nat.toDigits 10 n ++ rest ≠ '-' :: after := by
  intro heq
  obtain ⟨c, digits, h, hc⟩ := Numeral.exists_cons_toDigits n
  rw [h] at heq
  cases heq
  cases hc

/-- The sign of a number. -/
def signOf (isNegative : Bool) : List Char := if isNegative then ['-'] else []

/-- A whole number is read up to what ends it. -/
theorem number?_whole (isNegative : Bool) (n : Nat) (hrest : EndsNumber rest) :
    number? (signOf isNegative ++ (Nat.toDigits 10 n ++ rest))
      = some (numberData isNegative (Nat.toDigits 10 n) [] none, rest) := by
  unfold number?
  split
  next sign body hsign =>
    have hparts : sign = isNegative ∧ body = Nat.toDigits 10 n ++ rest := by
      cases isNegative with
      | true =>
        cases hsign
        exact ⟨rfl, rfl⟩
      | false =>
        split at hsign
        case h_1 hminus => exact absurd hminus (toDigits_append_ne_minus n rest _)
        case h_2 =>
          cases hsign
          exact ⟨rfl, rfl⟩
    obtain ⟨rfl, rfl⟩ := hparts
    simp only [takeDigits?_toDigits n hrest, bind, Option.bind]
    rw [not_leading_zero, if_neg Bool.false_ne_true]
    cases rest with
    | nil => rfl
    | cons c rest =>
      obtain ⟨-, hpoint, he, hE⟩ := hrest c rfl
      simp [hpoint, he, hE]

theorem numberData_nonneg (h : n < UInt64.size) :
    numberData false (Nat.toDigits 10 n) [] none = .int n := by
  simp only [numberData, Numeral.ofDigits_toDigits]
  exact if_pos (decide_eq_true h)

theorem numberData_negative (hpos : 0 < n) (h : Int64.minValue.toInt ≤ -(n : Int)) :
    numberData true (Nat.toDigits 10 n) [] none = .int (-n) := by
  have hfits : (decide (0 < n) && decide (Int64.minValue.toInt ≤ -Int.ofNat n)) = true :=
    Bool.and_eq_true_iff.mpr ⟨decide_eq_true hpos, decide_eq_true h⟩
  simp only [numberData, Numeral.ofDigits_toDigits]
  exact if_pos hfits

/-- **An integer of 64 bits is read as itself.** -/
theorem number?_toString {n : Int} (hmin : Int64.minValue.toInt ≤ n) (hmax : n < UInt64.size)
    (hrest : EndsNumber rest) :
    number? ((toString n).toList ++ rest) = some (.int n, rest) := by
  cases n with
  | ofNat n =>
    have htext : (toString (Int.ofNat n)).toList = signOf false ++ Nat.toDigits 10 n :=
      Nat.toList_repr
    rw [htext, List.append_assoc, number?_whole false n hrest,
      numberData_nonneg (Int.ofNat_lt.mp hmax)]
    rfl
  | negSucc n =>
    have htext : (toString (Int.negSucc n)).toList = signOf true ++ Nat.toDigits 10 (n + 1) := by
      show ("-" ++ (n + 1).repr).toList = _
      rw [String.toList_append, Nat.toList_repr]
      rfl
    rw [htext, List.append_assoc, number?_whole true (n + 1) hrest,
      numberData_negative (Nat.succ_pos n) hmin]
    rfl

/-! ## Texts -/

/-- The part of a text that is read for the character. -/
structure IsPieceOf (piece : Piece) (c : Char) : Prop where
  pieces? : ∀ text, pieces? (escape c ++ text)
    = (Json.pieces? text).map fun found => (piece :: found.1, found.2)
  chars? : ∀ pieces, chars? (piece :: pieces) = (Json.chars? pieces).map (c :: ·)

/-- A control character is escaped by its number in four digits. -/
theorem toList_lowerHex_control (h : n < 0x20) :
    ∃ a b c d, (Numeral.lowerHex 4 n).toList = [a, b, c, d]
      ∧ Numeral.ofDigitsIn? 16 [a, b, c, d] = some n := by
  have hall : ∀ m < 0x20,
      (List.replicate (4 - (Nat.toDigits 16 m).length) '0' ++ Nat.toDigits 16 m).length = 4
        ∧ Numeral.ofDigitsIn? 16
            (List.replicate (4 - (Nat.toDigits 16 m).length) '0' ++ Nat.toDigits 16 m)
          = some m := by decide
  obtain ⟨hlength, hvalue⟩ := hall n h
  rw [← Numeral.toList_padded (by decide) (by decide) (by decide)] at hlength hvalue
  obtain ⟨a, b, c, d, htext⟩ := List.length_eq_four.mp hlength
  rw [htext] at hvalue
  exact ⟨a, b, c, d, htext, hvalue⟩

theorem isPieceOf_unit (hescape : escape c = '\\' :: 'u' :: (Numeral.lowerHex 4 c.toNat).toList)
    (h : c.toNat < 0x20) : IsPieceOf (.unit c.toNat) c where
  pieces? text := by
    obtain ⟨a, b, d, e, htext, hvalue⟩ := toList_lowerHex_control h
    rw [hescape, htext]
    show Json.pieces? ('\\' :: 'u' :: a :: b :: d :: e :: text) = _
    rw [Json.pieces?, hvalue]
    cases Json.pieces? text <;> rfl
  chars? pieces := by
    have hlow : ¬ (0xd800 ≤ c.toNat ∧ c.toNat < 0xdc00) := by omega
    have hhigh : ¬ (0xdc00 ≤ c.toNat ∧ c.toNat < 0xe000) := by omega
    rw [Json.chars?.eq_def]
    show (if _ then _ else _) = _
    rw [if_neg hlow, if_neg hhigh, Char.ofNat_toNat]

theorem isPieceOf_short {short : Char} (hescape : escape c = ['\\', short])
    (hshort : escaped? short = some c) (hu : short ≠ 'u') : IsPieceOf (.char c) c where
  pieces? text := by
    rw [hescape]
    show Json.pieces? ('\\' :: short :: text) = _
    rw [Json.pieces?, hshort]
    · cases Json.pieces? text <;> rfl
    · exact fun _ _ _ _ _ heq => absurd heq hu
  chars? pieces := rfl

theorem isPieceOf_self (hescape : escape c = [c]) (hquote : c ≠ '"') (hslash : c ≠ '\\')
    (h : ¬ c.toNat < 0x20) : IsPieceOf (.char c) c where
  pieces? text := by
    rw [hescape]
    show Json.pieces? (c :: text) = _
    rw [Json.pieces?, if_neg (by simp [h, hslash])]
    · cases Json.pieces? text <;> rfl
    · exact hquote
    · exact fun _ _ _ _ _ heq => absurd heq hslash
    · exact fun _ _ heq => absurd heq hslash
  chars? pieces := rfl

theorem exists_isPieceOf (c : Char) : ∃ piece, IsPieceOf piece c := by
  have hescape := escape.eq_def c
  split at hescape
  case h_8 _ hquote hslash _ _ _ _ _ =>
    by_cases hcontrol : c.toNat < 0x20
    · rw [if_pos hcontrol] at hescape
      exact ⟨_, isPieceOf_unit hescape hcontrol⟩
    · rw [if_neg hcontrol] at hescape
      exact ⟨_, isPieceOf_self hescape hquote hslash hcontrol⟩
  all_goals exact ⟨_, isPieceOf_short hescape rfl (by decide)⟩

/-- **A text is read from its escaped characters and the quote behind them.** -/
theorem text?_escaped (text : String) (rest : List Char) :
    text? (text.toList.flatMap escape ++ '"' :: rest) = some (some text, rest) := by
  -- the parts are found first, and only then joined to a text
  have hpieces : ∀ cs : List Char, ∃ pieces,
      pieces? (cs.flatMap escape ++ '"' :: rest) = some (pieces, rest)
        ∧ chars? pieces = some cs := by
    intro cs
    induction cs with
    | nil => exact ⟨[], rfl, rfl⟩
    | cons c cs ih =>
      obtain ⟨pieces, hpieces, hchars⟩ := ih
      obtain ⟨piece, hpiece⟩ := exists_isPieceOf c
      refine ⟨piece :: pieces, ?_, ?_⟩
      · rw [List.flatMap_cons, List.append_assoc, hpiece.pieces?, hpieces]
        rfl
      · rw [hpiece.chars?, hchars]
        rfl
  obtain ⟨pieces, hpieces, hchars⟩ := hpieces text.toList
  rw [text?, hpieces]
  show some ((chars? pieces).map String.ofList, rest) = _
  rw [hchars, Option.map_some, String.ofList_toList]

theorem toList_quoted (text : String) :
    (quoted text).toList = '"' :: (text.toList.flatMap escape ++ ['"']) := by
  simp [quoted]

/-! ## Values -/

/-- Data that a document says exactly: there are no floating-point numbers and no unusable parts,
and the integers have 64 bits. -/
inductive IsExact : Data → Prop where
  | null : IsExact .null
  | bool (value : Bool) : IsExact (.bool value)
  | int {n : Int} (hmin : Int64.minValue.toInt ≤ n) (hmax : n < UInt64.size) : IsExact (.int n)
  | text (value : String) : IsExact (.text value)
  | array {items : List Data} (h : ∀ item ∈ items, IsExact item) : IsExact (.array items)
  | object {members : List (String × Data)} (h : ∀ member ∈ members, IsExact member.2) :
    IsExact (.object members)

variable {layout : Layout} {depth fuel : Nat} {data item : Data} {items : List Data}
  {members : List (String × Data)}

theorem value?_blanks (h : AreBlanks blanks) (fuel : Nat) (text : List Char) :
    value? fuel (blanks ++ text) = value? fuel text := by
  cases fuel with
  | zero => rw [value?, value?]
  | succ fuel => rw [value?, value?, skipBlanks_append h]

/-- What is read as a value starts with a character that is neither skipped nor a closing
bracket. -/
def StartsValue (text : List Char) : Prop := ∃ c rest, text = c :: rest ∧ IsSolid c ∧ c ≠ ']'

/-- A number starts with such a character. -/
def StartsNumber (c : Char) : Prop := c = '-' ∨ Numeral.isDigit c = true

theorem exists_cons_toString (n : Int) :
    ∃ c text, (toString n).toList = c :: text ∧ StartsNumber c := by
  cases n with
  | ofNat n =>
    obtain ⟨c, digits, h, hc⟩ := Numeral.exists_cons_toDigits n
    exact ⟨c, digits, Nat.toList_repr.trans h, Or.inr hc⟩
  | negSucc n =>
    refine ⟨'-', (n + 1).repr.toList, ?_, Or.inl rfl⟩
    show ("-" ++ (n + 1).repr).toList = _
    rw [String.toList_append]
    rfl

/-- What starts a number starts no other value, and it is neither skipped nor a bracket. -/
theorem StartsNumber.ne {other : Char} (h : StartsNumber c)
    (hother : other ≠ '-' ∧ Numeral.isDigit other = false) : c ≠ other := by
  rintro rfl
  rcases h with h | h
  · exact hother.1 h
  · exact Bool.false_ne_true (hother.2.symm.trans h)

theorem StartsNumber.isSolid (h : StartsNumber c) : IsSolid c :=
  ⟨h.ne (by decide), h.ne (by decide), h.ne (by decide), h.ne (by decide)⟩

/-- The items of an array, or the members of an object, with commas between them. -/
def joined (parts : List String) : List Char := (",".intercalate parts).toList

@[simp] theorem joined_singleton (part : String) : joined [part] = part.toList := by
  simp [joined]

@[simp] theorem joined_cons_cons (part next : String) (parts : List String) :
    joined (part :: next :: parts) = part.toList ++ ',' :: joined (next :: parts) := by
  simp [joined]

theorem exists_joined_cons (part : String) (parts : List String) :
    ∃ more, joined (part :: parts) = part.toList ++ more := by
  cases parts with
  | nil => exact ⟨[], by simp⟩
  | cons next parts => exact ⟨_, joined_cons_cons part next parts⟩

theorem toList_renderAt_array (layout : Layout) (depth : Nat) (h : items ≠ []) :
    (renderAt layout depth (.array items)).toList
      = '[' :: (joined (renderItems layout (depth + 1) items)
          ++ ((layout.lineStart depth).toList ++ [']'])) := by
  cases items with
  | nil => exact absurd rfl h
  | cons item items =>
    rw [renderAt]
    · simp [joined]
    · simp

theorem toList_renderAt_object (layout : Layout) (depth : Nat) (h : members ≠ []) :
    (renderAt layout depth (.object members)).toList
      = '\x7b' :: (joined (renderMembers layout (depth + 1) members)
          ++ ((layout.lineStart depth).toList ++ ['\x7d'])) := by
  cases members with
  | nil => exact absurd rfl h
  | cons member members =>
    rw [renderAt]
    · simp [joined]
    · simp

theorem startsValue_renderAt (h : IsExact data) (layout : Layout) (depth : Nat) :
    StartsValue (renderAt layout depth data).toList := by
  cases h with
  | null => exact ⟨'n', ['u', 'l', 'l'], by simp [renderAt], by decide, by decide⟩
  | bool value =>
    cases value with
    | true => exact ⟨'t', ['r', 'u', 'e'], by simp [renderAt], by decide, by decide⟩
    | false => exact ⟨'f', ['a', 'l', 's', 'e'], by simp [renderAt], by decide, by decide⟩
  | @int n =>
    obtain ⟨c, text, htext, hc⟩ := exists_cons_toString n
    rw [renderAt]
    exact ⟨c, text, htext, hc.isSolid, hc.ne (by decide)⟩
  | text value =>
    rw [renderAt, toList_quoted]
    exact ⟨'"', _, rfl, by decide, by decide⟩
  | @array items =>
    by_cases hitems : items = []
    · subst hitems
      exact ⟨'[', [']'], by simp [renderAt], by decide, by decide⟩
    · rw [toList_renderAt_array layout depth hitems]
      exact ⟨'[', _, rfl, by decide, by decide⟩
  | @object members =>
    by_cases hmembers : members = []
    · subst hmembers
      exact ⟨'\x7b', ['\x7d'], by simp [renderAt], by decide, by decide⟩
    · rw [toList_renderAt_object layout depth hmembers]
      exact ⟨'\x7b', _, rfl, by decide, by decide⟩

/-- The document of the data is read as the data wherever it stands, if the depth of the calls is
bounded by twice its length or more. -/
def IsReadBack (layout : Layout) (data : Data) : Prop :=
  ∀ depth fuel rest, 2 * (renderAt layout depth data).toList.length ≤ fuel → EndsNumber rest →
    value? fuel ((renderAt layout depth data).toList ++ rest) = some (data, rest)

theorem endsNumber_cons
    (h : Numeral.isDigit c = false ∧ c ≠ '.' ∧ c ≠ 'e' ∧ c ≠ 'E') (rest : List Char) :
    EndsNumber (c :: rest) := by
  intro d hd
  cases hd
  exact h

/-- A number ends before blanks if it ends before what comes behind them. -/
theorem EndsNumber.blanks_append (h : AreBlanks blanks) (hrest : EndsNumber rest) :
    EndsNumber (blanks ++ rest) := by
  cases blanks with
  | nil => exact hrest
  | cons c blanks =>
    rcases h c List.mem_cons_self with rfl | rfl
    · exact endsNumber_cons (by decide) _
    · exact endsNumber_cons (by decide) _

/-- An item is read up to the comma or the bracket behind it. -/
theorem IsReadBack.value?_item (h : IsReadBack layout item)
    (hfuel : 2 * (renderAt layout depth item).toList.length ≤ fuel) (hrest : EndsNumber rest) :
    value? fuel ((layout.lineStart depth ++ renderAt layout depth item).toList ++ rest)
      = some (item, rest) := by
  rw [String.toList_append, List.append_assoc, value?_blanks (areBlanks_lineStart layout depth)]
  exact h depth fuel rest hfuel hrest

theorem items?_last {after : List Char} (hvalue : value? fuel text = some (item, rest))
    (hend : skipBlanks rest = ']' :: after) : items? (fuel + 1) text = some ([item], after) := by
  rw [items?, hvalue]
  simp only [bind, Option.bind, hend]
  rfl

theorem items?_more {after text' : List Char} (hvalue : value? fuel text = some (item, rest))
    (hcomma : skipBlanks rest = ',' :: after) (hitems : items? fuel after = some (items, text')) :
    items? (fuel + 1) text = some (item :: items, text') := by
  rw [items?, hvalue]
  simp only [bind, Option.bind, hcomma, hitems]
  rfl

/-- The items of an array are read up to the bracket behind them. -/
theorem items?_joined (hne : items ≠ []) (hitems : ∀ item ∈ items, IsReadBack layout item)
    (hblanks : AreBlanks blanks) (rest : List Char)
    (hfuel : 2 * (joined (renderItems layout depth items)).length + 1 ≤ fuel) :
    items? fuel (joined (renderItems layout depth items) ++ (blanks ++ ']' :: rest))
      = some (items, rest) := by
  induction items generalizing fuel with
  | nil => exact absurd rfl hne
  | cons item items ih =>
    rw [List.forall_mem_cons] at hitems
    -- the comma behind an item pays for this call and for the one that reads the items after it
    obtain ⟨fuel, rfl⟩ : ∃ k, fuel = k + 1 := ⟨fuel - 1, by omega⟩
    cases items with
    | nil =>
      simp only [renderItems, joined_singleton, String.toList_append, List.length_append] at hfuel
      have hends : EndsNumber (blanks ++ ']' :: rest) :=
        (endsNumber_cons (by decide) rest).blanks_append hblanks
      rw [renderItems, renderItems, joined_singleton]
      exact items?_last (hitems.1.value?_item (by omega) hends)
        ((skipBlanks_append hblanks _).trans (skipBlanks_cons (by decide) _))
    | cons next items =>
      simp only [renderItems, joined_cons_cons, String.toList_append, List.length_append,
        List.length_cons] at hfuel
      have hmore : items? fuel (joined (renderItems layout depth (next :: items))
          ++ (blanks ++ ']' :: rest)) = some (next :: items, rest) :=
        ih (by simp) hitems.2 (by simp only [renderItems]; omega)
      rw [renderItems, renderItems, joined_cons_cons, List.append_assoc, List.cons_append]
      refine items?_more (hitems.1.value?_item (by omega) ?_) (skipBlanks_cons (by decide) _) hmore
      exact endsNumber_cons (by decide) _

/-! ## Members -/

/-- The key, the colon and the value of a member are read up to what comes behind them. -/
def ReadsMember (fuel : Nat) (text : List Char) (member : String × Data) (rest : List Char) :
    Prop :=
  ∃ key afterKey afterColon, skipBlanks text = '"' :: key
    ∧ text? key = some (some member.1, afterKey)
    ∧ skipBlanks afterKey = ':' :: afterColon
    ∧ value? fuel afterColon = some (member.2, rest)

theorem ReadsMember.last {member : String × Data} {after : List Char}
    (h : ReadsMember fuel text member rest) (hend : skipBlanks rest = '\x7d' :: after) :
    members? (fuel + 1) text = some ([(some member.1, member.2)], after) := by
  obtain ⟨key, afterKey, afterColon, hquote, hkey, hcolon, hvalue⟩ := h
  rw [members?, hquote]
  simp only [bind, Option.bind, hkey, hcolon, hvalue, hend]
  rfl

theorem ReadsMember.more {member : String × Data} {after text' : List Char}
    {members : List (Option String × Data)} (h : ReadsMember fuel text member rest)
    (hcomma : skipBlanks rest = ',' :: after)
    (hmembers : members? fuel after = some (members, text')) :
    members? (fuel + 1) text = some ((some member.1, member.2) :: members, text') := by
  obtain ⟨key, afterKey, afterColon, hquote, hkey, hcolon, hvalue⟩ := h
  rw [members?, hquote]
  simp only [bind, Option.bind, hkey, hcolon, hvalue, hcomma, hmembers]
  rfl

theorem exists_toList_colon (layout : Layout) :
    ∃ blanks, layout.colon.toList = ':' :: blanks ∧ AreBlanks blanks := by
  cases layout with
  | oneLine => exact ⟨[], rfl, by simp [AreBlanks]⟩
  | indented => exact ⟨[' '], rfl, by simp [AreBlanks]⟩

/-- The text of a member. -/
def memberText (layout : Layout) (depth : Nat) (member : String × Data) : String :=
  layout.lineStart depth ++ quoted member.1 ++ layout.colon ++ renderAt layout depth member.2

theorem renderMembers_eq (layout : Layout) (depth : Nat) (members : List (String × Data)) :
    renderMembers layout depth members = members.map (memberText layout depth) := by
  induction members with
  | nil => rw [renderMembers, List.map_nil]
  | cons member members ih => rw [renderMembers, ih, List.map_cons, memberText]

theorem IsReadBack.readsMember {member : String × Data} (h : IsReadBack layout member.2)
    (hfuel : 2 * (memberText layout depth member).toList.length ≤ fuel)
    (hrest : EndsNumber rest) :
    ReadsMember fuel ((memberText layout depth member).toList ++ rest) member rest := by
  obtain ⟨blanks, hcolon, hblanks⟩ := exists_toList_colon layout
  have htext : (memberText layout depth member).toList ++ rest
      = (layout.lineStart depth).toList ++ ('"' :: (member.1.toList.flatMap escape ++ '"' ::
          (':' :: (blanks ++ ((renderAt layout depth member.2).toList ++ rest))))) := by
    simp [memberText, toList_quoted, hcolon]
  simp only [memberText, String.toList_append, List.length_append] at hfuel
  refine ⟨_, _, blanks ++ ((renderAt layout depth member.2).toList ++ rest), ?_,
    text?_escaped member.1 _, skipBlanks_cons (by decide) _, ?_⟩
  · rw [htext, skipBlanks_append (areBlanks_lineStart layout depth)]
    exact skipBlanks_cons (by decide) _
  · rw [value?_blanks hblanks]
    exact h depth fuel rest (by omega) hrest

/-- The members of an object are read up to the brace behind them. -/
theorem members?_joined (hne : members ≠ [])
    (hmembers : ∀ member ∈ members, IsReadBack layout member.2)
    (hblanks : AreBlanks blanks) (rest : List Char)
    (hfuel : 2 * (joined (renderMembers layout depth members)).length + 1 ≤ fuel) :
    members? fuel (joined (renderMembers layout depth members) ++ (blanks ++ '\x7d' :: rest))
      = some (members.map fun member => (some member.1, member.2), rest) := by
  rw [renderMembers_eq] at hfuel ⊢
  induction members generalizing fuel with
  | nil => exact absurd rfl hne
  | cons member members ih =>
    rw [List.forall_mem_cons] at hmembers
    obtain ⟨fuel, rfl⟩ : ∃ k, fuel = k + 1 := ⟨fuel - 1, by omega⟩
    cases members with
    | nil =>
      simp only [List.map_cons, List.map_nil, joined_singleton] at hfuel ⊢
      have hends : EndsNumber (blanks ++ '\x7d' :: rest) :=
        (endsNumber_cons (by decide) rest).blanks_append hblanks
      exact (hmembers.1.readsMember (by omega) hends).last
        ((skipBlanks_append hblanks _).trans (skipBlanks_cons (by decide) _))
    | cons next members =>
      simp only [List.map_cons, joined_cons_cons, List.length_append, List.length_cons]
        at hfuel ih ⊢
      have hmore := @ih fuel (by simp) hmembers.2 (by omega)
      rw [List.append_assoc, List.cons_append]
      refine (hmembers.1.readsMember (by omega) ?_).more (skipBlanks_cons (by decide) _) hmore
      exact endsNumber_cons (by decide) _

theorem objectData_some (members : List (String × Data)) :
    objectData (members.map fun member => (some member.1, member.2)) = .object members := by
  have hall : (members.map fun member => (some member.1, member.2)).mapM member?
      = some members := by
    induction members with
    | nil => rfl
    | cons member members ih => simp [List.mapM_cons, member?, ih]
  rw [objectData, hall]
  rfl

/-! ## Documents -/

theorem value?_array {after : List Char} (hstart : skipBlanks text = c :: after) (hc : c ≠ ']')
    (hitems : items? fuel text = some (items, rest)) :
    value? (fuel + 1) ('[' :: text) = some (.array items, rest) := by
  rw [value?, skipBlanks_cons (by decide)]
  simp only [hstart]
  split
  next heq =>
    cases heq
    exact absurd rfl hc
  next => rw [hitems]; rfl

theorem value?_object {after : List Char} {found : List (Option String × Data)}
    (hstart : skipBlanks text = c :: after) (hc : c ≠ '\x7d')
    (hmembers : members? fuel text = some (found, rest)) :
    value? (fuel + 1) ('\x7b' :: text) = some (objectData found, rest) := by
  rw [value?, skipBlanks_cons (by decide)]
  simp only [hstart]
  split
  next heq =>
    cases heq
    exact absurd rfl hc
  next => rw [hmembers]; rfl

/-- The first item of an array is not a closing bracket. -/
theorem exists_skipBlanks_items (hne : items ≠ []) (h : ∀ item ∈ items, IsExact item)
    (layout : Layout) (depth : Nat) (rest : List Char) :
    ∃ c after, skipBlanks (joined (renderItems layout depth items) ++ rest) = c :: after
      ∧ c ≠ ']' := by
  obtain ⟨item, items, rfl⟩ := List.exists_cons_of_ne_nil hne
  obtain ⟨c, text, htext, hsolid, hc⟩ :=
    startsValue_renderAt (h item List.mem_cons_self) layout depth
  obtain ⟨more, hmore⟩ := exists_joined_cons
    (layout.lineStart depth ++ renderAt layout depth item) (renderItems layout depth items)
  refine ⟨c, text ++ more ++ rest, ?_, hc⟩
  rw [renderItems, hmore, String.toList_append, List.append_assoc, List.append_assoc,
    skipBlanks_append (areBlanks_lineStart layout depth), htext, List.cons_append,
    skipBlanks_cons hsolid, List.append_assoc]

/-- The first member of an object is not a closing brace. -/
theorem exists_skipBlanks_members (hne : members ≠ []) (layout : Layout) (depth : Nat)
    (rest : List Char) :
    ∃ after, skipBlanks (joined (renderMembers layout depth members) ++ rest) = '"' :: after := by
  obtain ⟨member, members, rfl⟩ := List.exists_cons_of_ne_nil hne
  obtain ⟨more, hmore⟩ := exists_joined_cons (memberText layout depth member)
    (renderMembers layout depth members)
  obtain ⟨after, htext⟩ : ∃ after, (memberText layout depth member).toList
      = (layout.lineStart depth).toList ++ '"' :: after :=
    ⟨_, by simp [memberText, toList_quoted]; rfl⟩
  refine ⟨after ++ more ++ rest, ?_⟩
  rw [renderMembers_eq, List.map_cons, ← renderMembers_eq, hmore, htext, List.append_assoc,
    List.append_assoc, skipBlanks_append (areBlanks_lineStart layout depth), List.cons_append,
    skipBlanks_cons (by decide), List.append_assoc]

/-- No document is empty, so a first call is always within the bound. -/
theorem IsExact.isReadBack (hexact : IsExact data)
    (h : ∀ depth fuel rest, 2 * (renderAt layout depth data).toList.length ≤ fuel + 1 →
      EndsNumber rest →
        value? (fuel + 1) ((renderAt layout depth data).toList ++ rest) = some (data, rest)) :
    IsReadBack layout data := by
  intro depth fuel rest hfuel hrest
  obtain ⟨c, text, htext, -⟩ := startsValue_renderAt hexact layout depth
  have hlength := congrArg List.length htext
  rw [List.length_cons] at hlength
  obtain ⟨fuel, rfl⟩ : ∃ k, fuel = k + 1 := ⟨fuel - 1, by omega⟩
  exact h depth fuel rest hfuel hrest

/-- An array is read back if its items are. -/
theorem isReadBack_array (hexact : ∀ item ∈ items, IsExact item)
    (h : ∀ item ∈ items, IsReadBack layout item) : IsReadBack layout (.array items) := by
  refine (IsExact.array hexact).isReadBack fun depth fuel rest hfuel _ => ?_
  by_cases hne : items = []
  · subst hne
    simp [renderAt, value?, skipBlanks]
  · rw [toList_renderAt_array layout depth hne] at hfuel ⊢
    simp only [List.length_cons, List.length_append] at hfuel
    rw [List.cons_append, List.append_assoc, List.append_assoc]
    obtain ⟨c, after, hstart, hc⟩ := exists_skipBlanks_items hne hexact layout (depth + 1) _
    exact value?_array hstart hc
      (items?_joined hne h (areBlanks_lineStart layout depth) rest (by omega))

/-- An object is read back if the values of its members are. -/
theorem isReadBack_object (hexact : ∀ member ∈ members, IsExact member.2)
    (h : ∀ member ∈ members, IsReadBack layout member.2) :
    IsReadBack layout (.object members) := by
  refine (IsExact.object hexact).isReadBack fun depth fuel rest hfuel _ => ?_
  by_cases hne : members = []
  · subst hne
    simp [renderAt, value?, skipBlanks]
  · rw [toList_renderAt_object layout depth hne] at hfuel ⊢
    simp only [List.length_cons, List.length_append] at hfuel
    rw [List.cons_append, List.append_assoc, List.append_assoc, ← objectData_some]
    obtain ⟨after, hstart⟩ := exists_skipBlanks_members hne layout (depth + 1) _
    exact value?_object hstart (by decide)
      (members?_joined hne h (areBlanks_lineStart layout depth) rest (by omega))

theorem isReadBack_text (text : String) : IsReadBack layout (.text text) := by
  refine (IsExact.text text).isReadBack fun depth fuel rest _ _ => ?_
  rw [renderAt, toList_quoted, List.cons_append, List.append_assoc, value?,
    skipBlanks_cons (by decide)]
  show (text? (text.toList.flatMap escape ++ '"' :: rest)).bind _ = _
  rw [text?_escaped]
  rfl

theorem value?_number (hc : StartsNumber c) (fuel : Nat) (text : List Char) :
    value? (fuel + 1) (c :: text) = number? (c :: text) := by
  rw [value?, skipBlanks_cons hc.isSolid]
  split
  case h_7 => rfl
  all_goals
    next heq => exact absurd (List.cons.inj heq).1 (hc.ne (by decide))

theorem isReadBack_int {n : Int} (hmin : Int64.minValue.toInt ≤ n) (hmax : n < UInt64.size) :
    IsReadBack layout (.int n) := by
  refine (IsExact.int hmin hmax).isReadBack fun depth fuel rest _ hrest => ?_
  have hnumber := number?_toString hmin hmax hrest
  obtain ⟨c, text, htext, hc⟩ := exists_cons_toString n
  rw [htext] at hnumber
  rw [renderAt, htext]
  exact (value?_number hc fuel _).trans hnumber

/-- **What is said exactly is read back.** -/
theorem isReadBack_of_isExact (layout : Layout) (h : IsExact data) : IsReadBack layout data := by
  induction h with
  | null =>
    refine IsExact.null.isReadBack fun depth fuel rest _ _ => ?_
    simp [renderAt, value?, skipBlanks]
  | bool value =>
    refine (IsExact.bool value).isReadBack fun depth fuel rest _ _ => ?_
    cases value <;> simp [renderAt, value?, skipBlanks]
  | int hmin hmax => exact isReadBack_int hmin hmax
  | text value => exact isReadBack_text value
  | array hexact ih => exact isReadBack_array hexact ih
  | object hexact ih => exact isReadBack_object hexact ih

/-- **A document of exact data is read as the data**, however it is laid out. -/
theorem parse?_render (layout : Layout) (h : IsExact data) :
    parse? (render layout data) = some data := by
  have hvalue := isReadBack_of_isExact layout h 0 (2 * (render layout data).toList.length + 2) []
    (by rw [render]; omega) (fun c hc => by cases hc)
  rw [List.append_nil] at hvalue
  simp only [parse?, render] at hvalue ⊢
  rw [hvalue]
  rfl

end CallTrace.Json
