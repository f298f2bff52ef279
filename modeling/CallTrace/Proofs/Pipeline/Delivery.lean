import CallTrace.Pipeline.Lifecycle

/-!
# What callbacks and deliveries do

The run of a callback follows its actions: one callback after the other runs the second one on what
the first one has left. A delivery to a stage that is free performs its callback and puts the stage
back.
-/

namespace CallTrace.Pipeline

namespace Callback

variable {W α β S : Type} {get : S → W} {set : W → S → S} {emit : String → Event → S → Bool × S}

theorem run_bind (callback : Callback W α) (f : α → Callback W β) (state : S) :
    (callback >>= f).run get set emit state
      = (f (callback.run get set emit state).1).run get set emit
          (callback.run get set emit state).2 := by
  induction callback generalizing state with
  | done result => rfl
  | emit port event next ih => exact ih _ _
  | update change next ih => exact ih _
  | observe next ih => exact ih _ _

/-- All results that a callback can have, whatever it is answered and sees, are so. -/
def All (P : α → Prop) : Callback W α → Prop
  | done result => P result
  | Callback.emit _ _ next => ∀ accepted, (next accepted).All P
  | update _ next => next.All P
  | observe next => ∀ world, (next world).All P

theorem all_true (callback : Callback W α) : callback.All fun _ => True := by
  induction callback with
  | done result => trivial
  | emit port event next ih => exact ih
  | update change next ih => exact ih
  | observe next ih => exact ih

theorem All.bind {P : α → Prop} {Q : β → Prop} {callback : Callback W α} {f : α → Callback W β}
    (h : callback.All P) (hf : ∀ result, P result → (f result).All Q) :
    (callback >>= f).All Q := by
  induction callback with
  | done result => exact hf result h
  | emit port event next ih => exact fun accepted => ih accepted (h accepted)
  | update change next ih => exact ih h
  | observe next ih => exact fun world => ih world (h world)

theorem All.within {part : V → W} {replace : W → V → V} {P : α → Prop} {callback : Callback W α}
    (h : callback.All P) : (callback.within part replace).All P := by
  induction callback with
  | done result => exact h
  | emit port event next ih => exact fun accepted => ih accepted (h accepted)
  | update change next ih => exact ih h
  | observe next ih => exact fun v => ih (part v) (h (part v))

theorem All.run {P : α → Prop} {callback : Callback W α} (h : callback.All P) (state : S) :
    P (callback.run get set emit state).1 := by
  induction callback generalizing state with
  | done result => exact h
  | emit port event next ih => exact ih _ (h _) _
  | update change next ih => exact ih h _
  | observe next ih => exact ih _ (h _) _

end Callback

namespace System

variable {W σ ρ α β : Type} {system : System W σ ρ}

theorem perform_bind {emit : String → Event → System W σ ρ → Bool × System W σ ρ}
    (callback : Callback W α) (f : α → Callback W β) (system : System W σ ρ) :
    system.perform (callback >>= f) emit
      = (system.perform callback emit).2.perform (f (system.perform callback emit).1) emit :=
  Callback.run_bind callback f system

theorem perform_all {P : α → Prop} {callback : Callback W α} (h : callback.All P)
    (emit : String → Event → System W σ ρ → Bool × System W σ ρ) (system : System W σ ρ) :
    P (system.perform callback emit).1 :=
  h.run system

/-- An event that the port declares goes to every subscriber. -/
theorem broadcast_eq {source : StageId} {port : Port} {event : Event}
    (hport : system.pipeline.outputFor? source port.name event.type = some port)
    (deliver : StageId → String → Event → System W σ ρ → System W σ ρ) :
    broadcast deliver source port.name event system
      = (true, (system.pipeline.subscribers source port.name).foldl
          (fun system s => deliver s.target s.input event system)
          (system.note (.emitted source port.name event true))) := by
  rw [broadcast, hport]

/-- A slot that is put back as it was leaves the pipeline as it was. -/
theorem modifySlot_of_eq_self {pipeline : Pipeline σ ρ} {id : StageId} {slot : Slot σ ρ}
    {f : Slot σ ρ → Slot σ ρ} (hslot : pipeline.slot? id = some slot) (hsame : f slot = slot) :
    pipeline.modifySlot id f = pipeline := by
  have hslots : pipeline.slots.modify id.index f = pipeline.slots := by
    refine List.ext_getElem? fun index => ?_
    rw [List.getElem?_modify]
    split
    · next hindex =>
      rw [← hindex, show pipeline.slots[id.index]? = some slot from hslot]
      exact congrArg some hsame
    · exact id_map' _
  rw [modifySlot, hslots]

/-- A stage that is put back as it was leaves the pipeline as it was. -/
theorem modifySlot_eq_self {pipeline : Pipeline σ ρ} {id : StageId} {stage : σ}
    (hstage : (pipeline.slot? id).bind Slot.stage? = some stage) :
    pipeline.modifySlot id ({ · with member := .stage stage }) = pipeline := by
  obtain ⟨slot, hslot, hstage⟩ := Option.bind_eq_some_iff.mp hstage
  refine modifySlot_of_eq_self hslot ?_
  obtain ⟨name, ports, member, isPoisoned, subscribers⟩ := slot
  unfold Slot.stage? at hstage
  split at hstage
  · next hmember _ =>
    cases hstage
    rw [← hmember]
  · cases hstage

/-! ## One member after the other -/

section Members

variable {step : System W σ ρ → StageId → Ending × System W σ ρ} {ids more : List StageId}

theorem forMembers_append {after : System W σ ρ} (h : forMembers step ids system = (true, after)) :
    forMembers step (ids ++ more) system = forMembers step more after := by
  induction ids generalizing system with
  | nil =>
    obtain rfl : system = after := (Prod.mk.inj h).2
    rfl
  | cons id ids ih =>
    rw [List.cons_append, forMembers]
    rw [forMembers] at h
    split at h
    · cases (Prod.mk.inj h).1
    · exact ih h

/-- What no member destroys holds after all of them. -/
theorem forMembers_invariant {P : System W σ ρ → Prop} (ids : List StageId)
    (hstep : ∀ id ∈ ids, ∀ system, P system →
      ∃ after, step system id = (.returned, after) ∧ P after)
    (h : P system) : ∃ after, forMembers step ids system = (true, after) ∧ P after := by
  induction ids generalizing system with
  | nil => exact ⟨system, rfl, h⟩
  | cons id ids ih =>
    obtain ⟨next, hnext, hP⟩ := hstep id List.mem_cons_self system h
    rw [forMembers, hnext]
    exact ih (fun id hid => hstep id (List.mem_cons_of_mem _ hid)) hP

/-- What each member keeps up, whichever way it ends, holds after all of them. -/
theorem forMembers_keeps {P : System W σ ρ → Prop}
    (hstep : ∀ id system, P system → P (step system id).2) (ids : List StageId) (h : P system) :
    P (forMembers step ids system).2 := by
  induction ids generalizing system with
  | nil => exact h
  | cons id ids ih =>
    have hfirst := hstep id system h
    rw [forMembers]
    generalize step system id = result at hfirst ⊢
    obtain ⟨ending, next⟩ := result
    cases ending with
    | panicked => exact hfirst
    | returned | failed => exact ih hfirst

/-- What each reader keeps up holds when all of them have come to their ends. -/
theorem joinAll_keeps [Stage W σ] [Reader W ρ] {P : System W σ ρ → Prop}
    (hstep : ∀ id (system : System W σ ρ), P system → P (system.runReader id).2)
    (ids : List StageId) (h : P system) : P (joinAll ids system).2 := by
  induction ids generalizing system with
  | nil => exact h
  | cons id ids ih => exact ih (hstep id system h)

end Members

/-! ## Deliveries -/

variable [Stage W σ]

/-- A delivery to a free stage performs its callback and puts the stage back. -/
theorem deliver_eq {depth : Nat} {held : List StageId} {target : StageId} {input : String}
    {event : Event} {stage : σ}
    (hstage : (system.pipeline.slot? target).bind Slot.stage? = some stage)
    (hfree : target ∉ held) :
    deliver (depth + 1) held target input event system
      = ((system.note (.called { stage := target, occasion := .event input event, held })).perform
          (Stage.onEvent (system.surroundings target) input event stage)
          (broadcast (deliver depth (target :: held)) target)).2.setMember target (.stage
            ((system.note
                (.called { stage := target, occasion := .event input event, held })).perform
              (Stage.onEvent (system.surroundings target) input event stage)
              (broadcast (deliver depth (target :: held)) target)).1.2) := by
  obtain ⟨⟨name, ports, member, isPoisoned, subscribers⟩, hslot, hstage⟩ :=
    Option.bind_eq_some_iff.mp hstage
  unfold Slot.stage? at hstage
  split at hstage
  · next hmember husable =>
    cases hstage
    obtain rfl : member = .stage stage := hmember
    obtain rfl : isPoisoned = false := husable
    rw [deliver, hslot]
    simp only [List.contains_eq_mem, hfree, decide_false, Bool.false_eq_true, if_false]
    rfl
  · cases hstage

/-- A delivery to a free slot without a usable stage does nothing. -/
theorem deliver_of_unusable {depth : Nat} {held : List StageId} {target : StageId} {input : String}
    {event : Event} (hstage : (system.pipeline.slot? target).bind Slot.stage? = none)
    (hfree : target ∉ held) : deliver (depth + 1) held target input event system = system := by
  rw [deliver]
  split
  · next stage isPoisoned _ hslot =>
    rw [hslot] at hstage
    cases isPoisoned with
    | false => cases hstage
    | true => simp [hfree]
  · rfl

/-- A callback that returns puts its member back. -/
theorem callBack_eq {μ : Type} {id : StageId} {occasion : Occasion}
    {callback : Surroundings → Callback W (Ending × μ)} {value : μ} {next : System W σ ρ}
    (h : (system.note (.called { stage := id, occasion, held := [] })).perform
      (callback (system.surroundings id)) (emitFrom [id] id) = ((.returned, value), next))
    (member : μ → Member σ ρ) :
    system.callBack id occasion callback member
      = (.returned, next.setMember id (member value)) := by
  have h' : (system.note (.called { stage := id, occasion, held := [] })).perform
      (callback ((system.note (.called { stage := id, occasion, held := [] })).surroundings id))
      (emitFrom [id] id) = ((.returned, value), next) := h
  simp only [callBack, h']

end System

end CallTrace.Pipeline
