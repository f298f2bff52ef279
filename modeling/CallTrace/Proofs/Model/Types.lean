import CallTrace.Model.Types
import Mathlib.Data.List.Nodup

/-!
# What the type model knows

After operations have been added, in whatever order and however often, the model knows just these
operations and their components, each as its signature tells (`holds_ensureAll`). Each of them
counts once, when it is new (`operationCount_ensureOperation`).
-/

namespace CallTrace.Model

namespace ComponentType

variable {component : ComponentType} {signature other : String}

/-- A component without its operations. -/
def head (component : ComponentType) : ComponentType := { component with operations := ∅ }

theorem head_ofSignature (signature : String) :
    (ofSignature signature).head = ofSignature signature := by
  unfold ofSignature
  split <;> rfl

theorem signature_ofSignature (signature : String) :
    (ofSignature signature).signature = signature := by
  unfold ofSignature
  split <;> rfl

theorem operation?_ofSignature (signature other : String) :
    (ofSignature signature).operation? other = none := by
  unfold ofSignature operation?
  split <;> simp

theorem head_ensureOperation (component : ComponentType) (signature : String) :
    (component.ensureOperation signature).2.head = component.head := by
  unfold ensureOperation
  split <;> rfl

theorem operation?_ensureOperation (component : ComponentType) (signature other : String) :
    (component.ensureOperation signature).2.operation? other
      = if signature = other then some ((component.operation? other).getD (.ofSignature other))
        else component.operation? other := by
  unfold ensureOperation
  by_cases hknown : component.operations.contains signature
  · rw [if_pos hknown]
    split
    · next hsame =>
      obtain ⟨known, hlookup⟩ := Option.isSome_iff_exists.mp
        (Std.ExtTreeMap.isSome_getElem?_iff_mem.mpr (Std.ExtTreeMap.mem_iff_contains.mpr hknown))
      rw [← hsame, operation?, hlookup]
      rfl
    · rfl
  · rw [if_neg hknown, operation?, Std.ExtTreeMap.getElem?_insert]
    simp only [Std.LawfulEqCmp.compare_eq_iff_eq]
    split
    · next hsame =>
      have hnone : component.operations[other]? = none :=
        Std.ExtTreeMap.getElem?_eq_none fun h =>
          hknown (Std.ExtTreeMap.mem_iff_contains.mp (hsame ▸ h))
      rw [operation?, hnone, hsame]
      rfl
    · rfl

/-- The flag says whether the operation is new. -/
theorem fst_ensureOperation (component : ComponentType) (signature : String) :
    (component.ensureOperation signature).1 = (component.operation? signature).isNone := by
  unfold ensureOperation
  split
  · next hknown =>
    have hmem := Std.ExtTreeMap.mem_iff_contains.mpr hknown
    exact (Option.isNone_eq_false_iff.mpr
      (Std.ExtTreeMap.isSome_getElem?_iff_mem.mpr hmem)).symm
  · next hnew =>
    rw [operation?, Std.ExtTreeMap.getElem?_eq_none
      fun h => hnew (Std.ExtTreeMap.mem_iff_contains.mp h)]
    rfl

end ComponentType

namespace TypeModel

variable {model : TypeModel} {refs : List OperationRef} {ref : OperationRef}

/-- The model knows exactly these operations: the components are theirs, and each operation is as
its signature tells. -/
structure Holds (model : TypeModel) (refs : List OperationRef) : Prop where
  component? : ∀ signature, (model.component? signature).map ComponentType.head
    = if ∃ ref ∈ refs, ref.component = signature then some (.ofSignature signature) else none
  operation? : ∀ ref, model.operation? ref
    = if ref ∈ refs then some (.ofSignature ref.operation) else none

theorem component?_ensureOperation (model : TypeModel) (ref : OperationRef) (signature : String) :
    (model.ensureOperation ref).2.component? signature
      = if ref.component = signature then
          some ((model.component? signature).getD (.ofSignature signature)
            |>.ensureOperation ref.operation).2
        else model.component? signature := by
  simp only [ensureOperation, component?, Std.ExtTreeMap.getElem?_insert,
    Std.LawfulEqCmp.compare_eq_iff_eq]
  split
  · next h => rw [h]
  · rfl

/-- Adding an operation leaves the other ones alone. -/
theorem operation?_ensureOperation (model : TypeModel) (ref other : OperationRef) :
    (model.ensureOperation ref).2.operation? other
      = if ref = other then some ((model.operation? other).getD (.ofSignature other.operation))
        else model.operation? other := by
  obtain ⟨component, operation⟩ := ref
  obtain ⟨otherComponent, otherOperation⟩ := other
  simp only [operation?, component?_ensureOperation, OperationRef.mk.injEq]
  by_cases hcomponent : component = otherComponent
  · simp only [hcomponent, if_true, true_and, Option.bind_eq_bind, Option.bind_some,
      ComponentType.operation?_ensureOperation]
    cases model.component? otherComponent with
    | none => simp [ComponentType.operation?_ofSignature]
    | some known => simp
  · simp [hcomponent]

theorem holds_empty : Holds {} [] where
  component? signature := by simp [TypeModel.component?]
  operation? ref := by simp [TypeModel.operation?, TypeModel.component?]

theorem Holds.ensureOperation (h : Holds model refs) (ref : OperationRef) :
    Holds (model.ensureOperation ref).2 (refs ++ [ref]) where
  component? signature := by
    have hbefore := h.component? signature
    rw [component?_ensureOperation]
    by_cases hsame : ref.component = signature
    -- whether the component is new or not, it has the head that its signature tells
    · have hmem : ∃ r ∈ refs ++ [ref], r.component = signature := ⟨ref, by simp, hsame⟩
      rw [if_pos hsame, if_pos hmem, Option.map_some, ComponentType.head_ensureOperation]
      cases hc : model.component? signature with
      | none => rw [Option.getD_none, ComponentType.head_ofSignature]
      | some known =>
        rw [hc, Option.map_some] at hbefore
        split at hbefore
        · exact hbefore
        · cases hbefore
    · rw [if_neg hsame, hbefore]
      simp [hsame, or_and_right, exists_or]
  operation? other := by
    rw [operation?_ensureOperation, h.operation? other]
    by_cases hsame : ref = other
    · subst hsame
      rw [if_pos rfl, if_pos (show ref ∈ refs ++ [ref] by simp)]
      split <;> rfl
    · simp [hsame, Ne.symm hsame]

/-- Adds operations one after the other. -/
def ensureAll (model : TypeModel) (refs : List OperationRef) : TypeModel :=
  refs.foldl (fun model ref => (model.ensureOperation ref).2) model

/-- **The model knows exactly the operations that were added to it.** -/
theorem holds_ensureAll (refs : List OperationRef) : Holds (ensureAll {} refs) refs := by
  suffices h : ∀ (model : TypeModel) (known : List OperationRef), Holds model known →
      Holds (model.ensureAll refs) (known ++ refs) from h {} [] holds_empty
  induction refs with
  | nil =>
    intro model known h
    rwa [List.append_nil]
  | cons ref refs ih =>
    intro model known h
    rw [List.append_cons]
    exact ih _ _ (h.ensureOperation ref)

/-- A component stands at its own signature. -/
theorem Holds.component_signature (h : Holds model refs) {key : String} {component : ComponentType}
    (hcomponent : model.component? key = some component) : component.signature = key := by
  have hhead := h.component? key
  rw [hcomponent, Option.map_some] at hhead
  split at hhead
  · have hsignature := congrArg ComponentType.signature (Option.some.inj hhead)
    rwa [ComponentType.signature_ofSignature] at hsignature
  · cases hhead

/-- In its component an operation stands at its own signature. -/
theorem Holds.operation_signature (h : Holds model refs) {key name : String}
    {component : ComponentType} {operation : OperationType}
    (hcomponent : model.component? key = some component)
    (hoperation : component.operation? name = some operation) : operation.signature = name := by
  have hknown := h.operation? ⟨key, name⟩
  rw [TypeModel.operation?, hcomponent] at hknown
  replace hknown := hoperation.symm.trans hknown
  split at hknown
  · exact congrArg OperationType.signature (Option.some.inj hknown)
  · cases hknown

/-! ## Counting operations -/

/-- The operations that the model knows. -/
def knownRefs (model : TypeModel) : List OperationRef :=
  model.components.toList.flatMap fun (name, component) =>
    component.operations.toList.map fun (operation, _) => ⟨name, operation⟩

theorem mem_knownRefs : ref ∈ model.knownRefs ↔ (model.operation? ref).isSome := by
  simp only [knownRefs, List.mem_flatMap, List.mem_map, Prod.exists,
    Std.ExtTreeMap.mem_toList_iff_getElem?_eq_some, operation?, component?,
    ComponentType.operation?, Option.bind_eq_bind, Option.isSome_bind, Option.any_eq_true,
    Option.isSome_iff_exists]
  constructor
  · rintro ⟨name, component, hcomponent, operation, type, htype, rfl⟩
    exact ⟨component, hcomponent, type, htype⟩
  · rintro ⟨component, hcomponent, type, htype⟩
    exact ⟨ref.component, component, hcomponent, ref.operation, type, htype, rfl⟩

theorem nodup_knownRefs (model : TypeModel) : model.knownRefs.Nodup := by
  rw [knownRefs, List.nodup_flatMap]
  constructor
  · rintro ⟨name, component⟩ -
    refine List.pairwise_map.mpr (Std.ExtTreeMap.distinct_keys_toList.imp ?_)
    rintro ⟨a, _⟩ ⟨b, _⟩ hne heq
    exact hne (Std.LawfulEqCmp.compare_eq_iff_eq.mpr (OperationRef.mk.inj heq).2)
  · refine Std.ExtTreeMap.distinct_keys_toList.imp ?_
    rintro ⟨a, first⟩ ⟨b, second⟩ hne ref hfirst hsecond
    obtain ⟨_, -, rfl⟩ := List.mem_map.mp hfirst
    obtain ⟨_, -, heq⟩ := List.mem_map.mp hsecond
    exact hne (Std.LawfulEqCmp.compare_eq_iff_eq.mpr (OperationRef.mk.inj heq).1.symm)

theorem operationCount_eq (model : TypeModel) : model.operationCount = model.knownRefs.length := by
  rw [operationCount, knownRefs, List.length_flatMap]
  simp only [List.length_map, Std.ExtTreeMap.length_toList]
  rw [List.sum_eq_foldl, List.foldl_map]

/-- The flag says whether the operation is new. -/
theorem fst_ensureOperation (model : TypeModel) (ref : OperationRef) :
    (model.ensureOperation ref).1 = (model.operation? ref).isNone := by
  show (((model.component? ref.component).getD _).ensureOperation ref.operation).1 = _
  rw [ComponentType.fst_ensureOperation, operation?]
  cases model.component? ref.component with
  | none => simp [ComponentType.operation?_ofSignature]
  | some component => rfl

/-- Only a new operation is counted. -/
theorem operationCount_ensureOperation (model : TypeModel) (ref : OperationRef) :
    (model.ensureOperation ref).2.operationCount
      = model.operationCount + (model.ensureOperation ref).1.toNat := by
  have hmem : ∀ other, other ∈ (model.ensureOperation ref).2.knownRefs
      ↔ other = ref ∨ other ∈ model.knownRefs := by
    intro other
    rw [mem_knownRefs, mem_knownRefs, operation?_ensureOperation]
    by_cases hsame : ref = other
    · simp [hsame]
    · simp [hsame, Ne.symm hsame]
  have hnodup := model.nodup_knownRefs
  rw [operationCount_eq, operationCount_eq, fst_ensureOperation]
  by_cases hknown : ref ∈ model.knownRefs
  · have hperm : (model.ensureOperation ref).2.knownRefs.Perm model.knownRefs := by
      refine (List.perm_ext_iff_of_nodup (nodup_knownRefs _) hnodup).mpr fun other => ?_
      rw [hmem]
      exact or_iff_right_of_imp fun heq => heq ▸ hknown
    rw [hperm.length_eq, Option.isNone_eq_false_iff.mpr (mem_knownRefs.mp hknown)]
    rfl
  · have hperm : (model.ensureOperation ref).2.knownRefs.Perm (ref :: model.knownRefs) := by
      refine (List.perm_ext_iff_of_nodup (nodup_knownRefs _)
        (List.nodup_cons.mpr ⟨hknown, hnodup⟩)).mpr fun other => ?_
      rw [hmem, List.mem_cons]
    have hnew : (model.operation? ref).isNone = true := by
      rw [mem_knownRefs] at hknown
      simpa using hknown
    rw [hperm.length_eq, hnew]
    rfl

end TypeModel

end CallTrace.Model
