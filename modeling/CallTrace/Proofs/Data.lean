import CallTrace.Data
import Mathlib.Data.List.Nodup
import Std.Data.ExtTreeMap
import Std.Data.ExtTreeSet

/-!
# Structured data, written and read

Numbers, optional values and lists are read from the data that they are written as. A structure is
written as an object whose keys are its fields, and all of its members are given to the reader
(`fields?_object`), which finds each of them under its key (`Fields.read?_of_lookup`). Maps and sets
are written in the order of their keys, and are the same when they are built from that list again.
-/

namespace CallTrace.Data

variable {α β : Type} {key : String} {data : Data}

/-! ## Values -/

theorem word64?_ofWord64 (n : UInt64) : word64? (.ofWord64 n) = some n := by
  have hfits : 0 ≤ (n.toNat : Int) ∧ (n.toNat : Int).toNat < UInt64.size :=
    ⟨Int.natCast_nonneg _, by rw [Int.toNat_natCast]; exact n.toNat_lt_size⟩
  show (if _ then some (UInt64.ofNat (n.toNat : Int).toNat) else none) = _
  rw [if_pos hfits, Int.toNat_natCast, UInt64.ofNat_toNat]

theorem int64?_ofInt64 (n : Int64) : int64? (.ofInt64 n) = some n := by
  have hfits : Int64.minValue.toInt ≤ n.toInt ∧ n.toInt ≤ Int64.maxValue.toInt :=
    ⟨n.minValue_le_toInt, n.toInt_le⟩
  show (if _ then some (Int64.ofInt n.toInt) else none) = _
  rw [if_pos hfits, Int64.ofInt_toInt]

theorem optional?_ofText? (value : Option String) :
    optional? text? (.ofText? value) = some value := by
  cases value <;> rfl

theorem optional?_ofInt? (value : Option Int64) :
    optional? int64? (.ofInt? value) = some value := by
  cases value with
  | none => rfl
  | some n => exact congrArg (Option.map some) (int64?_ofInt64 n)

/-- Items are read one by one. -/
theorem list?_map {read : Data → Option α} {write : α → Data} {values : List α}
    (h : ∀ value ∈ values, read (write value) = some value) :
    list? read (.array (values.map write)) = some values := by
  show (values.map write).mapM read = some values
  induction values with
  | nil => rfl
  | cons value values ih =>
    rw [List.forall_mem_cons] at h
    rw [List.map_cons, List.mapM_cons, h.1, ih h.2]
    rfl

theorem list?_text (values : List String) :
    list? text? (.array (values.map .text)) = some values :=
  list?_map fun _ _ => rfl

/-! ## Structures -/

/-- A reader that takes a step after the other succeeds where each step does. -/
theorem bind_eq_some {step : Option α} {next : α → Option β} {value : α} {result : β}
    (h : step = some value) (hnext : next value = some result) : step >>= next = some result := by
  rw [h]
  exact hnext

/-- Where every member is a field and none is repeated, all members are given. -/
theorem fields?_object {members : List (String × Data)} {keys : List String} (surplus : Bool)
    (hkeys : members.map (·.1) = keys) (hnodup : keys.Nodup) :
    (object members).fields? surplus keys = some { named := true, given := members } := by
  subst hkeys
  have hall : members.filter (fun member => (members.map (·.1)).contains member.1) = members := by
    refine List.filter_eq_self.mpr fun member hmember => ?_
    simpa using ⟨member.2, hmember⟩
  have honce : ((members.map (·.1)).all fun key =>
      decide ((members.filter fun member => decide (member.1 = key)).length ≤ 1)) = true := by
    rw [List.all_eq_true]
    intro key _
    have hcount := List.nodup_iff_count_le_one.mp hnodup key
    rw [List.count, List.countP_map, List.countP_eq_length_filter] at hcount
    exact decide_eq_true hcount
  rw [fields?, known?, hall, if_pos honce]
  rfl

namespace Fields

variable {fields : Fields}

theorem read?_of_lookup {read : Data → Option α} {value : α}
    (hlookup : fields.given.lookup key = some data) (hread : read data = some value) :
    fields.read? key read = some value := by
  rw [read?, hlookup, Option.bind_some, hread]

theorem readOptional?_of_lookup {read : Data → Option α} {value : Option α}
    (hlookup : fields.given.lookup key = some data) (hread : data.optional? read = some value) :
    fields.readOptional? key read = some value := by
  rw [readOptional?, hlookup]
  exact hread

theorem readD?_of_lookup {read : Data → Option α} {value standard : α}
    (hlookup : fields.given.lookup key = some data) (hread : read data = some value) :
    fields.readD? key read standard = some value := by
  rw [readD?, hlookup]
  exact hread

end Fields

/-! ## Nesting -/

theorem isUsable_text (depth : Nat) (value : String) : isUsable depth (.text value) = true := by
  cases depth <;> rfl

theorem isUsable_texts (depth : Nat) (values : List String) :
    isUsable (depth + 1) (.array (values.map .text)) = true := by
  show (values.map Data.text).all (isUsable depth) = true
  simp [isUsable_text]

/-! ## Maps and sets -/

theorem ofList_toList_map (map : Std.ExtTreeMap String α) : .ofList map.toList compare = map := by
  refine Std.ExtTreeMap.ext_getElem? fun key => ?_
  cases hvalue : map[key]? with
  | none =>
    refine Std.ExtTreeMap.getElem?_ofList_of_contains_eq_false ?_
    simpa using hvalue
  | some value =>
    exact Std.ExtTreeMap.getElem?_ofList_of_mem Std.ReflCmp.compare_self
      Std.ExtTreeMap.distinct_keys_toList
      (Std.ExtTreeMap.mem_toList_iff_getElem?_eq_some.mpr hvalue)

/-- The entries of a map are read and inserted one by one. -/
theorem foldlM_insert {read : Data → Option α} {write : α → Data}
    (h : ∀ value, read (write value) = some value) (map : Std.ExtTreeMap String α) :
    (map.toList.map fun entry => (entry.1, write entry.2)).foldlM
      (fun found member => do return found.insert member.1 (← read member.2))
      (∅ : Std.ExtTreeMap String α) = some map := by
  rw [List.foldlM_map]
  simp only [h, Option.bind_eq_bind, Option.bind_some]
  rw [List.foldlM_pure, ← Std.ExtTreeMap.ofList_eq_foldl, ofList_toList_map]
  rfl

theorem ofList_toList_set (set : Std.ExtTreeSet String) : .ofList set.toList compare = set := by
  refine Std.ExtTreeSet.ext_mem fun value => ?_
  simp [Std.ExtTreeSet.mem_ofList]

end CallTrace.Data
