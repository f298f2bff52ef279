import CallTrace.Model
import CallTrace.Proofs.Model.Execution
import Mathlib.Data.List.Dedup
import Mathlib.Data.Nat.Find

/-!
# Several sources in one execution model

Any number of sources may account for calls and dataflows in the same execution model, one upsert at
a time. What the model holds in the end depends on which upserts there were, and not on their order.

## What makes the order immaterial

* **Durations.** Saturating sums of durations are commutative because no duration is negative
  (`Saturating.add_clamp`).
* **Directions.** Merging one observation after the other gives an edge the direction that all its
  observations share, and both directions if they share none (`Direction.combined?_concat`). The
  order of the observations makes no difference to that (`Direction.combined?_of_perm`).

The three kinds of entries are looked at as one (`Entry`), so that an upsert changes the entry at
its key and no other one (`entryAt?_apply`). A model that is the aggregate of some upserts
(`Aggregates`) is the aggregate of them in any order and is determined by that
(`Aggregates.of_perm`, `Aggregates.unique`).
-/

namespace CallTrace

namespace Direction

/-! ## Directions -/

@[simp] theorem merge_self (a : Direction) : a.merge a = a := if_pos rfl

/-- What the observations of an edge amount to: reading or writing if nothing else was observed. -/
def combined? (observed : List Direction) : Option Direction :=
  if observed = [] then none
  else if ∀ d ∈ observed, d = .read then some .read
  else if ∀ d ∈ observed, d = .write then some .write
  else some .both

theorem combined?_of_perm {observed others : List Direction} (h : observed.Perm others) :
    combined? observed = combined? others := by
  have hempty : observed = [] ↔ others = [] :=
    ⟨fun hnil => (hnil ▸ h).nil_eq.symm, fun hnil => (hnil ▸ h).eq_nil⟩
  simp only [combined?, hempty, h.mem_iff]

theorem combined?_concat (observed : List Direction) (d : Direction) :
    combined? (observed ++ [d]) = some ((combined? observed).elim d (·.merge d)) := by
  have hall : ∀ p : Direction → Prop,
      (∀ x ∈ observed ++ [d], p x) ↔ (∀ x ∈ observed, p x) ∧ p d := by
    intro p
    simp [or_imp, forall_and]
  unfold combined?
  simp only [List.append_eq_nil_iff, List.cons_ne_self, and_false, if_false, hall]
  by_cases hnil : observed = []
  · subst hnil
    cases d <;> simp
  obtain ⟨x, hx⟩ := List.exists_mem_of_ne_nil observed hnil
  rw [if_neg hnil]
  by_cases hread : ∀ d ∈ observed, d = .read
  · have hwrite : ¬∀ d ∈ observed, d = .write := by
      intro h
      exact absurd ((hread x hx).symm.trans (h x hx)) (by decide)
    simp only [eq_true hread, eq_false hwrite, true_and, false_and, if_false]
    cases d <;> rfl
  · by_cases hwrite : ∀ d ∈ observed, d = .write
    · simp only [eq_true hwrite, eq_false hread, true_and, false_and, if_false]
      cases d <;> rfl
    · simp only [eq_false hwrite, eq_false hread, false_and, if_false]
      cases d <;> rfl

end Direction

namespace Model

/-! ## Statistics -/

namespace Statistics

variable {s other : Statistics} {durations others : List (Option Int64)}

/-- The durations that are known. -/
def known (durations : List (Option Int64)) : List Int := durations.filterMap (·.map Int64.toInt)

/-- The statistics of occurrences that came with a duration or without one. -/
structure Tells (s : Statistics) (durations : List (Option Int64)) : Prop where
  count : s.count = .ofNat durations.length
  timedCount : s.timedCount = .ofNat (known durations).length
  total : s.total.toInt = Min.min (known durations).sum Int64.maxValue.toInt
  min : s.min.map Int64.toInt = (known durations).min?
  max : s.max.map Int64.toInt = (known durations).max?

/-- The statistics of those occurrences alone that came with a duration. -/
def timed (s : Statistics) : Statistics := { s with count := s.timedCount }

theorem known_nonneg (h : ∀ duration ∈ durations, ∀ d ∈ duration, 0 ≤ d.toInt) :
    ∀ n ∈ known durations, 0 ≤ n := by
  intro n hn
  obtain ⟨duration, hmem, heq⟩ := List.mem_filterMap.mp hn
  obtain ⟨d, hd, rfl⟩ := Option.map_eq_some_iff.mp heq
  exact h duration hmem d hd

theorem toInt_eq_min_iff {x : Int64} {n : Int} (hn : 0 ≤ n) :
    x.toInt = Min.min n Int64.maxValue.toInt ↔ x = Saturating.clamp n := by
  have hmin : Int64.minValue.toInt ≤ 0 := by decide
  rw [← Int64.toInt_inj]
  by_cases h : n ≤ Int64.maxValue.toInt
  · rw [Saturating.toInt_clamp ⟨Int.le_trans hmin hn, h⟩, Int.min_eq_left h]
  · have hlt : Int64.maxValue.toInt < n := Int.not_le.mp h
    rw [Saturating.clamp_of_lt hlt, Int.min_eq_right (Int.le_of_lt hlt)]

/-- Apart from the count, the occurrences without a duration leave no trace. -/
theorem tells_iff (h : ∀ duration ∈ durations, ∀ d ∈ duration, 0 ≤ d.toInt) :
    Tells s durations
      ↔ s.count = .ofNat durations.length ∧ s.timed.Summarizes (known durations) := by
  have hsum : 0 ≤ (known durations).sum := List.sum_nonneg (known_nonneg h)
  constructor
  · intro htells
    exact ⟨htells.count, htells.timedCount, htells.timedCount,
      (toInt_eq_min_iff hsum).mp htells.total, htells.min, htells.max⟩
  · rintro ⟨hcount, hsummarizes⟩
    exact ⟨hcount, hsummarizes.timedCount, (toInt_eq_min_iff hsum).mpr hsummarizes.total,
      hsummarizes.min, hsummarizes.max⟩

theorem tells_nil : Tells {} [] := (tells_iff (by simp)).mpr ⟨rfl, summarizes_nil⟩

theorem Tells.of_perm (h : Tells s durations) (hperm : durations.Perm others) :
    Tells s others where
  count := hperm.length_eq ▸ h.count
  timedCount := (hperm.filterMap _).length_eq ▸ h.timedCount
  total := by
    rw [h.total, known, known, (hperm.filterMap _).sum_eq]
  min := by
    rw [h.min]
    refine Option.ext fun d => ?_
    simp only [List.min?_eq_some_iff, known, (hperm.filterMap _).mem_iff]
  max := by
    rw [h.max]
    refine Option.ext fun d => ?_
    simp only [List.max?_eq_some_iff, known, (hperm.filterMap _).mem_iff]

/-- There is only one way to summarize durations. -/
theorem Tells.unique (h : Tells s durations) (hother : Tells other durations) : s = other := by
  have hinj : Function.Injective (Option.map Int64.toInt) :=
    Option.map_injective fun _ _ => Int64.toInt_inj.mp
  obtain ⟨count, timedCount, total, min, max⟩ := s
  obtain ⟨count', timedCount', total', min', max'⟩ := other
  obtain rfl : count = count' := h.count.trans hother.count.symm
  obtain rfl : timedCount = timedCount' := h.timedCount.trans hother.timedCount.symm
  obtain rfl : total = total' := Int64.toInt_inj.mp (h.total.trans hother.total.symm)
  obtain rfl : min = min' := hinj (h.min.trans hother.min.symm)
  obtain rfl : max = max' := hinj (h.max.trans hother.max.symm)
  rfl

theorem Tells.record (h : Tells s durations)
    (hdurations : ∀ duration ∈ durations, ∀ d ∈ duration, 0 ≤ d.toInt) {duration : Option Int64}
    (hduration : ∀ d ∈ duration, 0 ≤ d.toInt) :
    Tells (s.record duration) (durations ++ [duration]) := by
  obtain ⟨hcount, htimed⟩ := (tells_iff hdurations).mp h
  have hall : ∀ duration' ∈ durations ++ [duration], ∀ d ∈ duration', 0 ≤ d.toInt := by
    simpa [or_imp, forall_and] using And.intro hdurations hduration
  have hrecord : (s.record duration).count = .ofNat (durations ++ [duration]).length := by
    have hone : (s.record duration).count = s.count + 1 := by cases duration <;> rfl
    rw [hone, hcount, List.length_append]
    exact (UInt64.ofNat_add _ _).symm
  refine (tells_iff hall).mpr ⟨hrecord, ?_⟩
  cases duration with
  | none =>
    have hknown : known (durations ++ [none]) = known durations := by
      simp [known, List.filterMap_append]
    rw [hknown]
    exact htimed
  | some d =>
    have hknown : known (durations ++ [some d]) = known durations ++ [d.toInt] := by
      simp [known, List.filterMap_append]
    rw [hknown]
    exact htimed.record (known_nonneg hdurations) (hduration d rfl)

end Statistics

/-! ## Entries -/

/-- An entry of an execution model, whatever its kind. -/
structure Entry where
  endpoints : Entity
  /-- The direction of a dataflow; an invocation has none. -/
  direction : Option Direction
  statistics : Statistics
  deriving DecidableEq, Repr

namespace Entry

/-- An invocation as an entry. -/
def ofInvocation (entry : Invocation) : Entry where
  endpoints := .invocation entry.caller entry.callee
  direction := none
  statistics := entry.statistics

/-- A dataflow between operations as an entry. -/
def ofOperationDataflow (entry : OperationDataflow) : Entry where
  endpoints := .operationDataflow entry.source entry.target
  direction := some entry.direction
  statistics := entry.statistics

/-- A dataflow to or from a storage as an entry. -/
def ofStorageDataflow (entry : StorageDataflow) : Entry where
  endpoints := .storageDataflow entry.source entry.storage
  direction := some entry.direction
  statistics := entry.statistics

theorem ofInvocation_injective : Function.Injective ofInvocation := by
  rintro ⟨_, _, _⟩ ⟨_, _, _⟩ h
  simpa [ofInvocation, and_assoc] using h

theorem ofOperationDataflow_injective : Function.Injective ofOperationDataflow := by
  rintro ⟨_, _, _, _⟩ ⟨_, _, _, _⟩ h
  simpa [ofOperationDataflow, and_assoc] using h

theorem ofStorageDataflow_injective : Function.Injective ofStorageDataflow := by
  rintro ⟨_, _, _, _⟩ ⟨_, _, _, _⟩ h
  simpa [ofStorageDataflow, and_assoc] using h

end Entry

namespace ExecutionModel

/-- The entry at a key. -/
def entryAt? (model : ExecutionModel) : Entity → Option Entry
  | .invocation caller callee => (model.invocation? caller callee).map .ofInvocation
  | .operationDataflow source target =>
    (model.operationDataflow? source target).map .ofOperationDataflow
  | .storageDataflow source storage =>
    (model.storageDataflow? source storage).map .ofStorageDataflow
  | .component _ | .operation _ => none

/-- All entries. -/
def entries (model : ExecutionModel) : List Entry :=
  model.invocations.toList.map (Entry.ofInvocation ·.2)
    ++ model.operationDataflows.toList.map (Entry.ofOperationDataflow ·.2)
    ++ model.storageDataflows.toList.map (Entry.ofStorageDataflow ·.2)

theorem ext_entryAt? {model other : ExecutionModel}
    (h : ∀ key, model.entryAt? key = other.entryAt? key) :
    model = other := by
  obtain ⟨invocations, operationDataflows, storageDataflows⟩ := model
  obtain ⟨invocations', operationDataflows', storageDataflows'⟩ := other
  congr 1
  · refine Std.ExtTreeMap.ext_getElem? fun edge => ?_
    exact Option.map_injective Entry.ofInvocation_injective
      (h (.invocation edge.source edge.target))
  · refine Std.ExtTreeMap.ext_getElem? fun edge => ?_
    exact Option.map_injective Entry.ofOperationDataflow_injective
      (h (.operationDataflow edge.source edge.target))
  · refine Std.ExtTreeMap.ext_getElem? fun edge => ?_
    exact Option.map_injective Entry.ofStorageDataflow_injective
      (h (.storageDataflow edge.source edge.storage))

theorem mem_entries {model : ExecutionModel} {entry : Entry} :
    entry ∈ model.entries ↔ ∃ key, model.entryAt? key = some entry := by
  simp only [entries, List.mem_append, List.mem_map, Prod.exists,
    Std.ExtTreeMap.mem_toList_iff_getElem?_eq_some]
  constructor
  · rintro ((⟨edge, e, he, rfl⟩ | ⟨edge, e, he, rfl⟩) | ⟨edge, e, he, rfl⟩)
    · exact ⟨.invocation edge.source edge.target, Option.map_eq_some_iff.mpr ⟨e, he, rfl⟩⟩
    · exact ⟨.operationDataflow edge.source edge.target, Option.map_eq_some_iff.mpr ⟨e, he, rfl⟩⟩
    · exact ⟨.storageDataflow edge.source edge.storage, Option.map_eq_some_iff.mpr ⟨e, he, rfl⟩⟩
  · rintro ⟨key, hkey⟩
    cases key with
    | component | operation => exact absurd hkey (by simp [entryAt?])
    | invocation caller callee =>
      obtain ⟨e, he, rfl⟩ := Option.map_eq_some_iff.mp hkey
      exact .inl (.inl ⟨⟨caller, callee⟩, e, he, rfl⟩)
    | operationDataflow source target =>
      obtain ⟨e, he, rfl⟩ := Option.map_eq_some_iff.mp hkey
      exact .inl (.inr ⟨⟨source, target⟩, e, he, rfl⟩)
    | storageDataflow source storage =>
      obtain ⟨e, he, rfl⟩ := Option.map_eq_some_iff.mp hkey
      exact .inr ⟨⟨source, storage⟩, e, he, rfl⟩

end ExecutionModel

/-! ## Upserts -/

/-- What a source may account for in the execution model. -/
inductive Upsert where
  | call (caller callee : OperationRef) (duration : Option Int64)
  | operationDataflow (source target : OperationRef) (direction : Direction)
  | storageDataflow (source : OperationRef) (storage : StorageRef) (direction : Direction)
  deriving DecidableEq, Repr

namespace Upsert

variable {model : ExecutionModel}

/-- The entry that is looked up. -/
def key : Upsert → Entity
  | call caller callee _ => .invocation caller callee
  | operationDataflow source target _ => .operationDataflow source target
  | storageDataflow source storage _ => .storageDataflow source storage

/-- The duration of what is accounted for. A dataflow has none. -/
def duration? : Upsert → Option Int64
  | call _ _ duration => duration
  | operationDataflow .. | storageDataflow .. => none

/-- The direction of what is accounted for. A call has none. -/
def direction? : Upsert → Option Direction
  | call .. => none
  | operationDataflow _ _ direction | storageDataflow _ _ direction => some direction

/-- Carries an upsert out; the flag says whether the entry is new. -/
def apply (model : ExecutionModel) : Upsert → Bool × ExecutionModel
  | call caller callee duration => model.addCall caller callee duration
  | operationDataflow source target direction =>
    model.addOperationDataflow source target direction
  | storageDataflow source storage direction => model.addStorageDataflow source storage direction

end Upsert

/-- An entry after one more upsert at its key. -/
def Entry.update (entry : Entry) (upsert : Upsert) : Entry :=
  { entry with
    direction := upsert.direction?.elim entry.direction fun d =>
      some (entry.direction.elim d (·.merge d))
    statistics := entry.statistics.record upsert.duration? }

namespace ExecutionModel

variable {model other : ExecutionModel} {upserts others : List Upsert}

/-- An upsert makes or updates the entry at its key. -/
theorem entryAt?_apply (model : ExecutionModel) (upsert : Upsert) (key : Entity) :
    (upsert.apply model).2.entryAt? key
      = if upsert.key = key then
          some (((model.entryAt? key).getD
            { endpoints := key, direction := none, statistics := {} }).update upsert)
        else model.entryAt? key := by
  cases upsert with
  | call caller callee duration =>
    cases key with
    | component | operation | operationDataflow | storageDataflow => rfl
    | invocation otherCaller otherCallee =>
      simp only [Upsert.apply, entryAt?, invocation?_addCall, Upsert.key, Entity.invocation.injEq,
        Edge.mk.injEq]
      split
      · next h =>
        obtain ⟨rfl, rfl⟩ := h
        cases model.invocation? caller callee <;> rfl
      · rfl
  | operationDataflow source target direction =>
    cases key with
    | component | operation | invocation | storageDataflow => rfl
    | operationDataflow otherSource otherTarget =>
      simp only [Upsert.apply, entryAt?, addOperationDataflow, operationDataflow?, Upsert.key,
        Std.ExtTreeMap.getElem?_insert, Std.LawfulEqCmp.compare_eq_iff_eq,
        Entity.operationDataflow.injEq, Edge.mk.injEq]
      split
      · next h =>
        obtain ⟨rfl, rfl⟩ := h
        cases model.operationDataflows[(⟨source, target⟩ : Edge)]? with
        | none =>
          simp [Entry.ofOperationDataflow, Entry.update, Upsert.direction?, Upsert.duration?]
        | some entry => rfl
      · rfl
  | storageDataflow source storage direction =>
    cases key with
    | component | operation | invocation | operationDataflow => rfl
    | storageDataflow otherSource otherStorage =>
      simp only [Upsert.apply, entryAt?, addStorageDataflow, storageDataflow?, Upsert.key,
        Std.ExtTreeMap.getElem?_insert, Std.LawfulEqCmp.compare_eq_iff_eq,
        Entity.storageDataflow.injEq, StorageEdge.mk.injEq]
      split
      · next h =>
        obtain ⟨rfl, rfl⟩ := h
        cases model.storageDataflows[(⟨source, storage⟩ : StorageEdge)]? with
        | none => simp [Entry.ofStorageDataflow, Entry.update, Upsert.direction?, Upsert.duration?]
        | some entry => rfl
      · rfl

/-- An entry is new if there was none at its key. -/
theorem fst_apply (model : ExecutionModel) (upsert : Upsert) :
    (upsert.apply model).1 = (model.entryAt? upsert.key).isNone := by
  cases upsert with
  | call => exact Option.isNone_map.symm
  | operationDataflow => exact Option.isNone_map.symm
  | storageDataflow => exact Option.isNone_map.symm

end ExecutionModel

/-! ## Aggregates -/

/-- The entry sums up these upserts. -/
structure Entry.SumsUp (entry : Entry) (upserts : List Upsert) : Prop where
  direction : entry.direction = Direction.combined? (upserts.filterMap Upsert.direction?)
  statistics : entry.statistics.Tells (upserts.map Upsert.duration?)

theorem Entry.SumsUp.update {entry : Entry} {upserts : List Upsert} (h : entry.SumsUp upserts)
    (hupserts : ∀ upsert ∈ upserts, ∀ d ∈ upsert.duration?, 0 ≤ d.toInt) {upsert : Upsert}
    (hupsert : ∀ d ∈ upsert.duration?, 0 ≤ d.toInt) :
    (entry.update upsert).SumsUp (upserts ++ [upsert]) where
  direction := by
    rw [List.filterMap_append]
    show upsert.direction?.elim entry.direction _ = _
    cases hdirection : upsert.direction? with
    | none => simpa [hdirection] using h.direction
    | some d =>
      simp only [List.filterMap_cons, hdirection, List.filterMap_nil, Direction.combined?_concat,
        ← h.direction]
      rfl
  statistics := by
    rw [List.map_append]
    refine h.statistics.record ?_ hupsert
    intro duration hduration
    obtain ⟨known, hknown, rfl⟩ := List.mem_map.mp hduration
    exact hupserts known hknown

namespace ExecutionModel

variable {model other : ExecutionModel} {upserts others : List Upsert}

/-- The upserts on an entry. -/
def upsertsOn (key : Entity) (upserts : List Upsert) : List Upsert := upserts.filter (·.key = key)

/-- The model is what these upserts make of an empty one: it has an entry at each key that occurs
among them, which stands between the endpoints that the key tells and sums up the upserts on it. -/
structure Aggregates (model : ExecutionModel) (upserts : List Upsert) : Prop where
  isSome_entryAt? : ∀ key, (model.entryAt? key).isSome ↔ key ∈ upserts.map Upsert.key
  entry : ∀ key entry, model.entryAt? key = some entry →
    entry.endpoints = key ∧ entry.SumsUp (upsertsOn key upserts)

theorem aggregates_empty : Aggregates {} [] where
  isSome_entryAt? key := by
    cases key <;> simp [entryAt?, invocation?, operationDataflow?, storageDataflow?]
  entry key entry h := by
    cases key <;> simp [entryAt?, invocation?, operationDataflow?, storageDataflow?] at h

/-- **The order of the upserts makes no difference.** -/
theorem Aggregates.of_perm (h : Aggregates model upserts) (hperm : upserts.Perm others) :
    Aggregates model others where
  isSome_entryAt? key := (h.isSome_entryAt? key).trans (hperm.map _).mem_iff
  entry key entry hentry := by
    have hon : (upsertsOn key upserts).Perm (upsertsOn key others) := hperm.filter _
    obtain ⟨hendpoints, hsum⟩ := h.entry key entry hentry
    exact ⟨hendpoints, hsum.direction.trans (Direction.combined?_of_perm (hon.filterMap _)),
      hsum.statistics.of_perm (hon.map _)⟩

/-- **Upserts make only one model.** -/
theorem Aggregates.unique (h : Aggregates model upserts) (hother : Aggregates other upserts) :
    model = other := by
  refine ext_entryAt? fun key => ?_
  have hsome : (model.entryAt? key).isSome ↔ (other.entryAt? key).isSome :=
    (h.isSome_entryAt? key).trans (hother.isSome_entryAt? key).symm
  cases hentry : model.entryAt? key with
  | none =>
    rw [hentry] at hsome
    cases hentry' : other.entryAt? key with
    | none => rfl
    | some entry' => simp [hentry'] at hsome
  | some entry =>
    rw [hentry] at hsome
    obtain ⟨entry', hentry'⟩ := Option.isSome_iff_exists.mp (hsome.mp rfl)
    obtain ⟨hendpoints, hsum⟩ := h.entry key entry hentry
    obtain ⟨hendpoints', hsum'⟩ := hother.entry key entry' hentry'
    obtain ⟨endpoints, direction, statistics⟩ := entry
    obtain ⟨endpoints', direction', statistics'⟩ := entry'
    obtain rfl : endpoints = endpoints' := hendpoints.trans hendpoints'.symm
    obtain rfl : direction = direction' := hsum.direction.trans hsum'.direction.symm
    obtain rfl : statistics = statistics' := hsum.statistics.unique hsum'.statistics
    exact hentry'.symm

theorem upsertsOn_concat (key : Entity) (upserts : List Upsert) (upsert : Upsert) :
    upsertsOn key (upserts ++ [upsert])
      = upsertsOn key upserts ++ if upsert.key = key then [upsert] else [] := by
  rw [upsertsOn, List.filter_append]
  congr 1
  split
  · next h => simp [h]
  · next h => simp [h]

theorem Aggregates.apply (h : Aggregates model upserts)
    (hupserts : ∀ upsert ∈ upserts, ∀ d ∈ upsert.duration?, 0 ≤ d.toInt) {upsert : Upsert}
    (hupsert : ∀ d ∈ upsert.duration?, 0 ≤ d.toInt) :
    Aggregates (upsert.apply model).2 (upserts ++ [upsert]) where
  isSome_entryAt? key := by
    rw [entryAt?_apply]
    split
    · next hsame => simp [← hsame]
    · next hother => simp [h.isSome_entryAt?, Ne.symm hother]
  entry key entry hentry := by
    rw [entryAt?_apply] at hentry
    rw [upsertsOn_concat]
    split at hentry
    · next hsame =>
      obtain rfl := Option.some.inj hentry
      rw [if_pos hsame]
      have hon : ∀ upsert ∈ upsertsOn key upserts, ∀ d ∈ upsert.duration?, 0 ≤ d.toInt :=
        fun upsert hmem => hupserts upsert (List.mem_of_mem_filter hmem)
      cases hknown : model.entryAt? key with
      -- without an entry there was no upsert at the key yet, so the entry starts with this one
      | none =>
        have hnil : upsertsOn key upserts = [] := by
          have hnone := (h.isSome_entryAt? key).not
          rw [hknown] at hnone
          rw [upsertsOn, List.filter_eq_nil_iff]
          intro known hmem hkey
          exact hnone.mp (by simp) (of_decide_eq_true hkey ▸ List.mem_map_of_mem hmem)
        rw [hnil] at hon ⊢
        exact ⟨rfl, Entry.SumsUp.update ⟨rfl, Statistics.tells_nil⟩ hon hupsert⟩
      | some known =>
        obtain ⟨hendpoints, hsum⟩ := h.entry key known hknown
        exact ⟨hendpoints, hsum.update hon hupsert⟩
    · next hother =>
      rw [if_neg hother, List.append_nil]
      exact h.entry key entry hentry

/-- The entries of a map do not share their endpoints when the keys tell the endpoints. -/
theorem nodup_map_toList {α β : Type} [Ord α] [Std.TransOrd α] [Std.LawfulEqOrd α]
    (map : Std.ExtTreeMap α β) (toEntry : β → Entry) (ofKey : α → Entity)
    (hinjective : Function.Injective ofKey)
    (hendpoints : ∀ key value, map[key]? = some value → (toEntry value).endpoints = ofKey key) :
    (map.toList.map fun item => (toEntry item.2).endpoints).Nodup := by
  refine List.pairwise_map.mpr (Std.ExtTreeMap.distinct_keys_toList.imp_of_mem ?_)
  rintro ⟨key, value⟩ ⟨key', value'⟩ hmem hmem' hne heq
  have hkey := hendpoints key value (Std.ExtTreeMap.mem_toList_iff_getElem?_eq_some.mp hmem)
  have hkey' := hendpoints key' value' (Std.ExtTreeMap.mem_toList_iff_getElem?_eq_some.mp hmem')
  exact hne (Std.LawfulEqCmp.compare_eq_iff_eq.mpr (hinjective (hkey.symm.trans (heq.trans hkey'))))

theorem Aggregates.nodup_endpoints (h : Aggregates model upserts) :
    (model.entries.map Entry.endpoints).Nodup := by
  have hinvocations : (model.invocations.toList.map fun item =>
      (Entry.ofInvocation item.2).endpoints).Nodup := by
    refine nodup_map_toList _ .ofInvocation (fun edge => .invocation edge.source edge.target) ?_ ?_
    · rintro ⟨_, _⟩ ⟨_, _⟩ heq
      simpa using heq
    · intro edge entry hentry
      exact (h.entry (.invocation edge.source edge.target) _
        (Option.map_eq_some_iff.mpr ⟨entry, hentry, rfl⟩)).1
  have hoperation : (model.operationDataflows.toList.map fun item =>
      (Entry.ofOperationDataflow item.2).endpoints).Nodup := by
    refine nodup_map_toList _ .ofOperationDataflow
      (fun edge => .operationDataflow edge.source edge.target) ?_ ?_
    · rintro ⟨_, _⟩ ⟨_, _⟩ heq
      simpa using heq
    · intro edge entry hentry
      exact (h.entry (.operationDataflow edge.source edge.target) _
        (Option.map_eq_some_iff.mpr ⟨entry, hentry, rfl⟩)).1
  have hstorage : (model.storageDataflows.toList.map fun item =>
      (Entry.ofStorageDataflow item.2).endpoints).Nodup := by
    refine nodup_map_toList _ .ofStorageDataflow
      (fun edge => .storageDataflow edge.source edge.storage) ?_ ?_
    · rintro ⟨_, _⟩ ⟨_, _⟩ heq
      simpa using heq
    · intro edge entry hentry
      exact (h.entry (.storageDataflow edge.source edge.storage) _
        (Option.map_eq_some_iff.mpr ⟨entry, hentry, rfl⟩)).1
  simp only [entries, List.map_append, List.map_map]
  refine (hinvocations.append hoperation ?_).append hstorage ?_
  · intro key hcall hflow
    obtain ⟨_, -, rfl⟩ := List.mem_map.mp hcall
    obtain ⟨_, -, heq⟩ := List.mem_map.mp hflow
    cases heq
  · intro key hother hflow
    obtain ⟨_, -, rfl⟩ := List.mem_map.mp hflow
    rcases List.mem_append.mp hother with h | h
    · obtain ⟨_, -, heq⟩ := List.mem_map.mp h
      cases heq
    · obtain ⟨_, -, heq⟩ := List.mem_map.mp h
      cases heq

/-- There is one entry for each key that occurs among the upserts. -/
theorem Aggregates.endpoints_perm (h : Aggregates model upserts) :
    (model.entries.map Entry.endpoints).Perm (upserts.map Upsert.key).dedup := by
  refine (List.perm_ext_iff_of_nodup h.nodup_endpoints (List.nodup_dedup _)).mpr fun key => ?_
  rw [List.mem_dedup, ← h.isSome_entryAt?, Option.isSome_iff_exists, List.mem_map]
  constructor
  · rintro ⟨entry, hmem, rfl⟩
    obtain ⟨key, hkey⟩ := mem_entries.mp hmem
    obtain ⟨rfl, -⟩ := h.entry key entry hkey
    exact ⟨entry, hkey⟩
  · rintro ⟨entry, hentry⟩
    exact ⟨entry, mem_entries.mpr ⟨key, hentry⟩, (h.entry key entry hentry).1⟩

end ExecutionModel

/-! ## Requests -/

/-- An upsert that a source asks for at some time. -/
structure Request where
  now : Instant
  /-- The label under which the models remember the source. -/
  label : String
  upsert : Upsert

namespace Request

variable {requests others : List Request}

/-- The entry that is looked up. -/
def key (request : Request) : Entity := request.upsert.key

/-- Carries out what a source asks for; the flag says whether the entry is new. -/
def perform (request : Request) (models : Models) : Bool × Models :=
  match request.upsert with
  | .call caller callee duration =>
    models.addCall request.now request.label caller callee duration
  | .operationDataflow source target direction =>
    models.addOperationDataflow request.now request.label source target direction
  | .storageDataflow source storage direction =>
    models.addStorageDataflow request.now request.label source storage direction

/-- Carries requests out one after the other and collects the answers. -/
def performAll : List Request → Models → List Bool × Models
  | [], models => ([], models)
  | request :: requests, models =>
    let (created, models) := request.perform models
    let (answers, models) := performAll requests models
    (created :: answers, models)

theorem execution_perform (request : Request) (models : Models) :
    (request.perform models).2.execution = (request.upsert.apply models.execution).2 := by
  unfold perform
  cases request.upsert <;> rfl

theorem fst_perform (request : Request) (models : Models) :
    (request.perform models).1 = (models.execution.entryAt? request.key).isNone := by
  rw [key, ← ExecutionModel.fst_apply]
  unfold perform
  cases request.upsert <;> rfl

theorem aggregates_performAll (requests : List Request) {models : Models} {upserts : List Upsert}
    (h : models.execution.Aggregates upserts)
    (hupserts : ∀ upsert ∈ upserts, ∀ d ∈ upsert.duration?, 0 ≤ d.toInt)
    (hrequests : ∀ request ∈ requests, ∀ d ∈ request.upsert.duration?, 0 ≤ d.toInt) :
    (performAll requests models).2.execution.Aggregates (upserts ++ requests.map upsert) := by
  induction requests generalizing models upserts with
  | nil => simpa [performAll] using h
  | cons request requests ih =>
    have hrequest := hrequests request List.mem_cons_self
    have hnext : (request.perform models).2.execution.Aggregates (upserts ++ [request.upsert]) := by
      rw [execution_perform]
      exact h.apply hupserts hrequest
    rw [List.map_cons, List.append_cons]
    refine ih hnext ?_ fun r hr => hrequests r (List.mem_cons_of_mem _ hr)
    simpa [or_imp, forall_and] using And.intro hupserts hrequest

/-- An entry is new unless it was there from the beginning or an earlier request made it. -/
theorem getElem?_answers (requests : List Request) (models : Models) (i : Nat) :
    (performAll requests models).1[i]? = (requests.map key)[i]?.map fun key =>
      (models.execution.entryAt? key).isNone
        && decide (key ∉ (requests.map Request.key).take i) := by
  induction requests generalizing models i with
  | nil => rfl
  | cons request requests ih =>
    cases i with
    | zero =>
      show some (request.perform models).1 = _
      simp [fst_perform]
    | succ i =>
      show (performAll requests (request.perform models).2).1[i]? = _
      rw [ih, execution_perform, List.map_cons, List.getElem?_cons_succ]
      refine congrFun (congrArg _ (funext fun key => ?_)) _
      rw [ExecutionModel.entryAt?_apply]
      by_cases hkey : request.upsert.key = key
      · simp [hkey, Request.key]
      · simp [hkey, Ne.symm hkey, Request.key]

/-- A key that occurs occurs for the first time somewhere, and only there. -/
theorem existsUnique_first {keys : List Entity} {key : Entity} (h : key ∈ keys) :
    ∃! i : Nat, keys[i]? = some key ∧ key ∉ keys.take i := by
  have hexists : ∃ i, keys[i]? = some key := List.mem_iff_getElem?.mp h
  have hearlier : ∀ i, key ∈ keys.take i ↔ ∃ j < i, keys[j]? = some key := by
    intro i
    simp only [List.mem_iff_getElem?, List.getElem?_take]
    constructor
    · rintro ⟨j, hj⟩
      split at hj
      · next hlt => exact ⟨j, hlt, hj⟩
      · cases hj
    · rintro ⟨j, hlt, hj⟩
      exact ⟨j, by rw [if_pos hlt, hj]⟩
  refine ⟨Nat.find hexists, ⟨Nat.find_spec hexists, ?_⟩, ?_⟩
  · rw [hearlier]
    rintro ⟨j, hlt, hj⟩
    exact Nat.find_min hexists hlt hj
  · rintro i ⟨hi, hfirst⟩
    refine Nat.le_antisymm (Nat.not_lt.mp fun hlt => ?_) (Nat.find_min' hexists hi)
    exact hfirst ((hearlier i).mpr ⟨_, hlt, Nat.find_spec hexists⟩)

/-- **What several sources make of an execution model does not depend on the order in which they
come to it.** In every order the model becomes the same one, the aggregate of all upserts; it has
one entry for each key; and of the requests with the same key the first one, and only this one, is
told that the entry is new. -/
theorem performAll_is_order_independent (types : TypeModel) (sources : SourceModel)
    (requests : List Request)
    (hrequests : ∀ request ∈ requests, ∀ d ∈ request.upsert.duration?, 0 ≤ d.toInt) :
    let start : Models := { types, sources }
    let keys := requests.map key
    let answers := (performAll requests start).1
    let final := (performAll requests start).2.execution
    (∀ others, others.Perm requests → (performAll others start).2.execution = final)
      ∧ final.Aggregates (requests.map upsert)
      ∧ (final.entries.map Entry.endpoints).Perm keys.dedup
      ∧ (∀ i, answers[i]? = keys[i]?.map fun key => decide (key ∉ keys.take i))
      ∧ ∀ key ∈ keys, ∃! i : Nat, keys[i]? = some key ∧ answers[i]? = some true := by
  have haggregates : ∀ others : List Request, others.Perm requests →
      (performAll others { types, sources }).2.execution.Aggregates (requests.map upsert) := by
    intro others hperm
    have hempty : (Models.execution { types, sources }).Aggregates [] :=
      ExecutionModel.aggregates_empty
    have h := aggregates_performAll others hempty (by simp)
      fun r hr => hrequests r (hperm.mem_iff.mp hr)
    exact h.of_perm (hperm.map _)
  have hfinal := haggregates requests (.refl _)
  have hanswers : ∀ i, (performAll requests { types, sources }).1[i]?
      = (requests.map key)[i]?.map fun key => decide (key ∉ (requests.map Request.key).take i) := by
    intro i
    rw [getElem?_answers]
    refine congrFun (congrArg _ (funext fun key => ?_)) _
    have hnone : (ExecutionModel.entryAt? {} key).isNone := by
      have h := (ExecutionModel.aggregates_empty.isSome_entryAt? key).not.mpr (by simp)
      simpa using h
    show ((ExecutionModel.entryAt? {} key).isNone && _) = _
    rw [hnone, Bool.true_and]
  refine ⟨fun others hperm => (haggregates others hperm).unique hfinal, hfinal, ?_, hanswers, ?_⟩
  · have h := hfinal.endpoints_perm
    rwa [List.map_map] at h
  · intro key hkey
    obtain ⟨i, ⟨hi, hfirst⟩, hunique⟩ := existsUnique_first hkey
    refine ⟨i, ⟨hi, ?_⟩, ?_⟩
    · show (performAll requests _).1[i]? = _
      rw [hanswers, hi, Option.map_some, decide_eq_true hfirst]
    · rintro j ⟨hj, hanswer⟩
      refine hunique j ⟨hj, ?_⟩
      have h : (performAll requests { types, sources }).1[j]? = some true := hanswer
      rw [hanswers, hj, Option.map_some, Option.some_inj] at h
      exact of_decide_eq_true h

/-- Two sources that tell of a call, a dataflow and the same call again. -/
theorem performAll_two_sources_swapped :
    let call : Upsert := .call ⟨"A", "f()"⟩ ⟨"B", "g()"⟩ (some 5)
    let again : Upsert := .call ⟨"A", "f()"⟩ ⟨"B", "g()"⟩ none
    let flow : Upsert := .storageDataflow ⟨"A", "f()"⟩ ⟨"db"⟩ .read
    let requests : List Request :=
      [⟨default, "log-1", call⟩, ⟨default, "log-2", flow⟩, ⟨default, "log-2", again⟩]
    (∀ request ∈ requests, ∀ d ∈ request.upsert.duration?, 0 ≤ d.toInt)
      ∧ (performAll requests.reverse {}).2.execution = (performAll requests {}).2.execution
      ∧ (performAll requests {}).1 = [true, true, false] := by
  intro call again flow requests
  have hrequests : ∀ request ∈ requests, ∀ d ∈ request.upsert.duration?, 0 ≤ d.toInt := by
    simp [requests, call, again, flow, Upsert.duration?]
  obtain ⟨hsame, -, -, hanswers, -⟩ := performAll_is_order_independent {} {} requests hrequests
  refine ⟨hrequests, hsame _ (List.reverse_perm _), List.ext_getElem? fun i => ?_⟩
  rw [hanswers]
  match i with
  | 0 | 1 | 2 => decide
  | _ + 3 => rfl

end Request

end Model

end CallTrace
