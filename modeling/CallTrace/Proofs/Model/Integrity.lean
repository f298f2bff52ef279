import CallTrace.Model
import CallTrace.Proofs.Model.Execution
import CallTrace.Proofs.Model.Types
import Mathlib.Data.List.DropRight

/-!
# Models that fit together

The two models are filled separately, but they belong together: who calls or is called in the
execution model is an operation of the type model (`Models.IsConsistent`). In the type model
everything stands at its own signature, and a signature has no blanks at its ends and is not empty,
because that is how signatures are normalized (`isSignature_normalize`).
-/

namespace CallTrace

/-! ## Signatures -/

namespace Text

theorem trimChars_eq (text : List Char) :
    trimChars text = (text.dropWhile isBlank).rdropWhile isBlank := rfl

/-- What has no blanks at its ends is not trimmed any further. -/
theorem trimChars_trimChars (text : List Char) : trimChars (trimChars text) = trimChars text := by
  have hstart : (trimChars text).dropWhile isBlank = trimChars text := by
    rw [List.dropWhile_eq_self_iff]
    intro hpos
    obtain ⟨rest, hrest⟩ : trimChars text <+: text.dropWhile isBlank :=
      List.rdropWhile_prefix _ _
    have hpos' : 0 < (text.dropWhile isBlank).length := by
      rw [← hrest, List.length_append]
      omega
    have hhead : (trimChars text)[0] = (text.dropWhile isBlank)[0] := by
      simp only [← hrest, List.getElem_append_left hpos]
    rw [hhead]
    exact List.dropWhile_get_zero_not isBlank text hpos'
  rw [trimChars_eq (trimChars text), hstart, trimChars_eq, List.rdropWhile_idempotent]

theorem trim_trim (text : String) : trim (trim text) = trim text := by
  simp only [trim, String.toList_ofList, trimChars_trimChars]

end Text

namespace Model

/-- A text under which something can stand in the type model. -/
structure IsSignature (text : String) : Prop where
  nonempty : text ≠ ""
  trimmed : Text.trim text = text

theorem isSignature_unknownSignature : IsSignature unknownSignature :=
  ⟨by decide, by decide⟩

/-- **A normalized signature can stand in the type model.** -/
theorem isSignature_normalize (signature : String) : IsSignature (normalize signature) := by
  unfold normalize
  dsimp only
  split
  · exact isSignature_unknownSignature
  · next hempty =>
    refine ⟨?_, Text.trim_trim signature⟩
    rintro h
    rw [h] at hempty
    exact hempty rfl

/-! ## The type model -/

namespace TypeModel

variable {model : TypeModel} {refs : List OperationRef}

/-- Everything in the model stands at its own signature, and no component is without operations. -/
structure IsSound (model : TypeModel) : Prop where
  component : ∀ key component, model.component? key = some component →
    component.signature = key ∧ IsSignature key ∧ ∃ name, (component.operation? name).isSome
  operation : ∀ key component name operation, model.component? key = some component →
    component.operation? name = some operation → operation.signature = name ∧ IsSignature name

/-- **A model of operations with normalized signatures is sound.** -/
theorem Holds.isSound (h : Holds model refs)
    (hrefs : ∀ ref ∈ refs, IsSignature ref.component ∧ IsSignature ref.operation) :
    model.IsSound where
  component key component hcomponent := by
    have hhead := h.component? key
    rw [hcomponent, Option.map_some] at hhead
    split at hhead
    · next hknown =>
      obtain ⟨ref, href, rfl⟩ := hknown
      refine ⟨h.component_signature hcomponent, (hrefs ref href).1, ref.operation, ?_⟩
      have hoperation := h.operation? ref
      rw [if_pos href, TypeModel.operation?, hcomponent] at hoperation
      exact Option.isSome_iff_exists.mpr ⟨_, hoperation⟩
    · cases hhead
  operation key component name operation hcomponent hoperation := by
    refine ⟨h.operation_signature hcomponent hoperation, ?_⟩
    have hknown := h.operation? ⟨key, name⟩
    rw [TypeModel.operation?, hcomponent] at hknown
    replace hknown := hoperation.symm.trans hknown
    split at hknown
    · next href => exact (hrefs _ href).2
    · cases hknown

end TypeModel

/-! ## Both models -/

namespace Models

variable {models : Models} {refs : List OperationRef} {calls : List (Edge × Int64)}

/-- The type model is sound, and whoever calls or is called is an operation of it. -/
structure IsConsistent (models : Models) : Prop where
  types : models.types.IsSound
  caller : ∀ invocation ∈ models.execution.allInvocations,
    (models.types.operation? invocation.caller).isSome
  callee : ∀ invocation ∈ models.execution.allInvocations,
    (models.types.operation? invocation.callee).isSome

/-- **Calls between known operations make consistent models.** -/
theorem isConsistent_of_calls (htypes : models.types = .ensureAll {} refs)
    (hexecution : models.execution = .addAll {} calls)
    (hrefs : ∀ ref ∈ refs, IsSignature ref.component ∧ IsSignature ref.operation)
    (hnonneg : ∀ call ∈ calls, 0 ≤ call.2.toInt)
    (hends : ∀ call ∈ calls, call.1.source ∈ refs ∧ call.1.target ∈ refs) :
    models.IsConsistent := by
  have hholds : models.types.Holds refs := htypes ▸ TypeModel.holds_ensureAll refs
  have haccounts := ExecutionModel.accounts_addAll calls hnonneg
  rw [← hexecution] at haccounts
  have hknown : ∀ ref ∈ refs, (models.types.operation? ref).isSome := by
    intro ref href
    rw [hholds.operation?, if_pos href]
    rfl
  have hinvocation : ∀ invocation ∈ models.execution.allInvocations,
      invocation.caller ∈ refs ∧ invocation.callee ∈ refs := by
    intro invocation hmem
    obtain ⟨⟨⟨source, target⟩, _⟩, hentry, rfl⟩ := List.mem_map.mp hmem
    have hlookup : models.execution.invocation? source target = some _ :=
      Std.ExtTreeMap.mem_toList_iff_getElem?_eq_some.mp hentry
    obtain ⟨hcaller, hcallee, -⟩ := haccounts.invocation source target _ hlookup
    obtain ⟨duration, hcall⟩ := (haccounts.isSome_invocation? source target).mp
      (Option.isSome_iff_exists.mpr ⟨_, hlookup⟩)
    obtain ⟨call, hmem, heq⟩ := List.mem_map.mp hcall
    obtain ⟨hedge, -⟩ := Prod.mk.inj heq
    rw [hcaller, hcallee]
    simpa only [hedge] using hends call hmem
  exact ⟨hholds.isSound hrefs, fun i hi => hknown _ (hinvocation i hi).1,
    fun i hi => hknown _ (hinvocation i hi).2⟩

end Models

end Model

end CallTrace
