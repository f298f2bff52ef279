import CallTrace.Bytes

/-!
# Words and their bytes

The readers of words are the inverses of their writers, on both sides: what was written is read
back together with the bytes behind it, and every front of four or eight bytes is what some word
writes.
-/

namespace CallTrace.Bytes

/-! ## Texts -/

/-- Different texts have different bytes. -/
theorem ofText_injective {text other : String} (h : ofText text = ofText other) : text = other := by
  have htext := congrArg toText? h
  rw [toText?_ofText, toText?_ofText] at htext
  exact Option.some.inj htext

/-! ## 32 bits -/

/-- The four bytes of a word make up its value. -/
theorem ofWord32_value (w : UInt32) :
    (UInt8.ofNat (w.toNat / 16777216)).toNat * 16777216
      + (UInt8.ofNat (w.toNat / 65536)).toNat * 65536
      + (UInt8.ofNat (w.toNat / 256)).toNat * 256 + (UInt8.ofNat w.toNat).toNat = w.toNat := by
  have hw := w.toNat_lt
  simp only [UInt8.toNat_ofNat']
  omega

@[simp] theorem takeWord32_ofWord32 (w : UInt32) (rest : Bytes) :
    takeWord32 (ofWord32 w ++ rest) = some (w, rest) := by
  show some (UInt32.ofNat _, rest) = _
  rw [ofWord32_value, UInt32.ofNat_toNat]

/-- Four bytes are the bytes of the word that they make up. -/
theorem ofWord32_ofNat (a b c d : UInt8) :
    ofWord32 (UInt32.ofNat (a.toNat * 16777216 + b.toNat * 65536 + c.toNat * 256 + d.toNat))
      = [a, b, c, d] := by
  have hbyte : ∀ x : UInt8, x.toNat < 256 := UInt8.toNat_lt
  have := hbyte a
  have := hbyte b
  have := hbyte c
  have := hbyte d
  simp only [ofWord32, UInt32.toNat_ofNat', List.cons.injEq, and_true]
  refine ⟨?_, ?_, ?_, ?_⟩ <;> apply UInt8.toNat_inj.mp <;> simp only [UInt8.toNat_ofNat'] <;> omega

theorem exists_ofWord32 {bytes : Bytes} (h : bytes.length = 4) : ∃ w, bytes = ofWord32 w := by
  match bytes, h with
  | [a, b, c, d], _ => exact ⟨_, (ofWord32_ofNat a b c d).symm⟩

/-! ## 64 bits -/

theorem takeWord64_append (high low : UInt32) (rest : Bytes) :
    takeWord64 (ofWord32 high ++ ofWord32 low ++ rest)
      = some (UInt64.ofNat (high.toNat * 4294967296 + low.toNat), rest) := by
  simp [takeWord64]

@[simp] theorem takeWord64_ofWord64 (w : UInt64) (rest : Bytes) :
    takeWord64 (ofWord64 w ++ rest) = some (w, rest) := by
  have hw := w.toNat_lt
  have hvalue : (UInt32.ofNat (w.toNat / 4294967296)).toNat * 4294967296
      + (UInt32.ofNat w.toNat).toNat = w.toNat := by
    simp only [UInt32.toNat_ofNat']
    omega
  rw [ofWord64, takeWord64_append, hvalue]
  simp

theorem exists_ofWord64 {bytes : Bytes} (h : bytes.length = 8) : ∃ w, bytes = ofWord64 w := by
  obtain ⟨high, hhigh⟩ := exists_ofWord32 (show (bytes.take 4).length = 4 by simp [h])
  obtain ⟨low, hlow⟩ := exists_ofWord32 (show (bytes.drop 4).length = 4 by simp [h])
  refine ⟨UInt64.ofNat (high.toNat * 4294967296 + low.toNat), ?_⟩
  have hh := high.toNat_lt
  have hl := low.toNat_lt
  have hnat : (high.toNat * 4294967296 + low.toNat) % 2 ^ 64
      = high.toNat * 4294967296 + low.toNat := Nat.mod_eq_of_lt (by omega)
  have hhigh' : UInt32.ofNat ((high.toNat * 4294967296 + low.toNat) / 4294967296) = high := by
    rw [show (high.toNat * 4294967296 + low.toNat) / 4294967296 = high.toNat by omega]
    simp
  have hlow' : UInt32.ofNat (high.toNat * 4294967296 + low.toNat) = low := by
    apply UInt32.toNat_inj.mp
    simp only [UInt32.toNat_ofNat']
    omega
  rw [ofWord64, UInt64.toNat_ofNat', hnat, hhigh', hlow', ← hhigh, ← hlow, List.take_append_drop]

/-! ## Signed integers -/

@[simp] theorem takeInt32_ofInt32 (i : Int32) (rest : Bytes) :
    takeInt32 (ofInt32 i ++ rest) = some (i, rest) := by
  simp [takeInt32, ofInt32]

@[simp] theorem takeInt64_ofInt64 (i : Int64) (rest : Bytes) :
    takeInt64 (ofInt64 i ++ rest) = some (i, rest) := by
  simp [takeInt64, ofInt64]

theorem exists_ofInt32 {bytes : Bytes} (h : bytes.length = 4) : ∃ i, bytes = ofInt32 i := by
  obtain ⟨w, rfl⟩ := exists_ofWord32 h
  exact ⟨w.toInt32, by simp [ofInt32]⟩

theorem exists_ofInt64 {bytes : Bytes} (h : bytes.length = 8) : ∃ i, bytes = ofInt64 i := by
  obtain ⟨w, rfl⟩ := exists_ofWord64 h
  exact ⟨w.toInt64, by simp [ofInt64]⟩

theorem ofInt32_append_inj {i j : Int32} {x y : Bytes} (h : ofInt32 i ++ x = ofInt32 j ++ y) :
    i = j ∧ x = y := by
  have := congrArg takeInt32 h
  simpa using this

theorem ofInt64_append_inj {i j : Int64} {x y : Bytes} (h : ofInt64 i ++ x = ofInt64 j ++ y) :
    i = j ∧ x = y := by
  have := congrArg takeInt64 h
  simpa using this

theorem ofWord32_append_inj {v w : UInt32} {x y : Bytes} (h : ofWord32 v ++ x = ofWord32 w ++ y) :
    v = w ∧ x = y := by
  have := congrArg takeWord32 h
  simpa using this

/-- A field of four bytes, taken off the front. -/
theorem exists_cons_ofInt32 {bytes : Bytes} {n : Nat} (h : bytes.length = 4 + n) :
    ∃ i rest, bytes = ofInt32 i ++ rest ∧ rest.length = n := by
  obtain ⟨i, hi⟩ := exists_ofInt32 (show (bytes.take 4).length = 4 by simp [h])
  exact ⟨i, bytes.drop 4, by rw [← hi, List.take_append_drop], by simp [h]⟩

/-- A field of eight bytes, taken off the front. -/
theorem exists_cons_ofInt64 {bytes : Bytes} {n : Nat} (h : bytes.length = 8 + n) :
    ∃ i rest, bytes = ofInt64 i ++ rest ∧ rest.length = n := by
  obtain ⟨i, hi⟩ := exists_ofInt64 (show (bytes.take 8).length = 8 by simp [h])
  exact ⟨i, bytes.drop 8, by rw [← hi, List.take_append_drop], by simp [h]⟩

end CallTrace.Bytes
