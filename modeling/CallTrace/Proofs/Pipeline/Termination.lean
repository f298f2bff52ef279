import CallTrace.Proofs.Pipeline.Isolation
import CallTrace.Proofs.Pipeline.Order

/-!
# How a pipeline terminates

The first termination tells every member once, in the order of execution; nothing else ever tells a
member anything like that (`Quiet`), so that no later command does so again. What a member emits
when it is told goes along connections, and thus only to members that come later in the order
(`tellAll_tells`).

A member that a panic has made unusable is passed over (`passed_over_when_poisoned`); until the end,
only panics at the start, on a change of a setting or while reading do that (`ReturnsUntilTheEnd`).
-/

namespace CallTrace.Pipeline

open Relation

variable {W σ ρ α : Type} {p q : Pipeline σ ρ} {id : StageId}

/-! ## What the journal says of the end -/

/-- The member that was told that the pipeline terminates. -/
def Entry.told? : Entry → Option StageId
  | .called { stage, occasion := .terminate, .. } => some stage
  | _ => none

/-- The members that were told that the pipeline terminates, the latest one first. -/
def told (journal : List Entry) : List StageId := journal.filterMap Entry.told?

/-- The callback called last from outside of all others. -/
def outermost? (journal : List Entry) : Option Activation :=
  (journal.filterMap Entry.activation?).find? (·.held.isEmpty)

/-- What members emit when they are told that the pipeline terminates reaches, directly or through
others, only members that were not told before. Journals have the latest entry first. -/
def Orderly (journal : List Entry) : Prop :=
  ∀ a earlier, .called a :: earlier <:+ journal → a.held ≠ [] →
    ∀ b, outermost? earlier = some b → b.occasion = .terminate → a.stage ∉ told earlier

section Journals

variable {journal inside earlier later : List Entry} {entry : Entry} {a : Activation}

theorem told?_of_ne (h : a.occasion ≠ .terminate) : Entry.told? (.called a) = none := by
  obtain ⟨stage, occasion, held⟩ := a
  cases occasion with
  | terminate => exact absurd rfl h
  | start | event | read => rfl

theorem told_terminate (stage : StageId) (held : List StageId) (journal : List Entry) :
    told (.called { stage, occasion := .terminate, held } :: journal) = stage :: told journal := rfl

theorem orderly_nil : Orderly [] := by
  intro a earlier h
  cases List.suffix_nil.mp h

theorem orderly_cons (h : Orderly journal)
    (hentry : ∀ a, entry = .called a → a.held ≠ [] →
      ∀ b, outermost? journal = some b → b.occasion = .terminate → a.stage ∉ told journal) :
    Orderly (entry :: journal) := by
  intro a earlier hsuffix
  rcases List.suffix_cons_iff.mp hsuffix with heq | hsuffix
  · obtain ⟨rfl, rfl⟩ := List.cons.inj heq
    exact hentry a rfl
  · exact h a earlier hsuffix

/-- An entry that says nothing of a callback within another one. -/
theorem orderly_cons_outside (h : Orderly journal) (hentry : ∀ a, entry = .called a → a.held = []) :
    Orderly (entry :: journal) :=
  orderly_cons h fun a ha hheld => absurd (hentry a ha) hheld

theorem outermost?_called (h : a.held = []) :
    outermost? (.called a :: journal) = some a := by
  simp [outermost?, Entry.activation?, h]

/-- Nothing is said of the end between two journals. -/
structure Hushed (before after : List Entry) : Prop where
  told : told after = told before
  orderly : Orderly before → Orderly after

namespace Hushed

theorem refl (journal : List Entry) : Hushed journal journal := ⟨rfl, id⟩

theorem trans (h : Hushed journal earlier) (hlater : Hushed earlier later) :
    Hushed journal later :=
  ⟨hlater.told.trans h.told, fun horderly => hlater.orderly (h.orderly horderly)⟩

theorem emitted (source : StageId) (output : String) (event : Event) (accepted : Bool) :
    Hushed journal (.emitted source output event accepted :: journal) :=
  ⟨rfl, fun h => orderly_cons_outside h nofun⟩

theorem called (h : a.occasion ≠ .terminate) (hheld : a.held = []) :
    Hushed journal (.called a :: journal) where
  told := by rw [Pipeline.told, List.filterMap_cons_none (told?_of_ne h), Pipeline.told]
  orderly := fun horderly =>
    orderly_cons_outside horderly fun b hb => Entry.called.inj hb ▸ hheld

end Hushed

/-- What is called within another callback, and not to be told of the end. -/
def IsInside (inside : List Entry) : Prop :=
  ∀ a, .called a ∈ inside → a.held ≠ [] ∧ a.occasion ≠ .terminate

theorem IsInside.told_eq (h : IsInside inside) : told (inside ++ journal) = told journal := by
  rw [told, List.filterMap_append, List.filterMap_eq_nil_iff.mpr, List.nil_append, ← told]
  intro entry hentry
  cases entry with
  | emitted => rfl
  | called a => exact told?_of_ne (h a hentry).2

theorem IsInside.outermost?_eq (h : IsInside inside) :
    outermost? (inside ++ journal) = outermost? journal := by
  have hnone : (inside.filterMap Entry.activation?).find? (·.held.isEmpty) = none := by
    refine List.find?_eq_none.mpr fun a ha hempty => ?_
    obtain ⟨entry, hentry, hactivation⟩ := List.mem_filterMap.mp ha
    cases entry with
    | emitted => cases hactivation
    | called b =>
      obtain rfl := Option.some.inj hactivation
      exact (h b hentry).1 (List.isEmpty_iff.mp hempty)
  rw [outermost?, List.filterMap_append, List.find?_append, hnone, Option.none_or, ← outermost?]

/-- What is called within a callback keeps the order if it was not told of the end before, in case
the callback was. -/
theorem IsInside.hushed (h : IsInside inside)
    (hspared : ∀ b, outermost? journal = some b → b.occasion = .terminate →
      ∀ a, .called a ∈ inside → a.stage ∉ told journal) :
    Hushed journal (inside ++ journal) := by
  refine ⟨h.told_eq, fun horderly => ?_⟩
  induction inside with
  | nil => exact horderly
  | cons entry inside ih =>
    have hrest : IsInside inside := fun a ha => h a (List.mem_cons_of_mem _ ha)
    rw [List.cons_append]
    refine orderly_cons (ih hrest fun b hb hend a ha =>
      hspared b hb hend a (List.mem_cons_of_mem _ ha)) ?_
    rintro a rfl - b hb hend
    rw [hrest.outermost?_eq] at hb
    rw [hrest.told_eq]
    exact hspared b hb hend a List.mem_cons_self

end Journals

/-! ## Deliveries say nothing of the end -/

namespace Conforms

variable {l : Pipeline Unit Unit} {part : Part} {entries : List Entry}

/-- Deliveries call handlers of events only. -/
theorem occasion_eq (h : Conforms l part entries) :
    ∀ a, .called a ∈ entries → ∃ input event, a.occasion = .event input event := by
  induction h with
  | refused _ => simp
  | accepted _ _ ih => exact fun a ha => ih a (by simpa using ha)
  | delivered => simp
  | next _ _ ihfirst ihlater | emits _ _ ihfirst ihlater =>
    intro a ha
    rcases List.mem_append.mp ha with ha | ha
    · exact ihfirst a ha
    · exact ihlater a ha
  | passedOver _ => simp
  | handled _ _ ih =>
    intro a ha
    rcases List.mem_cons.mp ha with ha | ha
    · cases ha
      exact ⟨_, _, rfl⟩
    · exact ih a ha
  | returned => simp

/-- What is done while something is held is inside. -/
theorem isInside (h : Conforms l part entries) (hheld : part.held ≠ []) :
    IsInside entries.reverse := by
  intro a ha
  have hmem := List.mem_reverse.mp ha
  obtain ⟨input, event, hoccasion⟩ := h.occasion_eq a hmem
  refine ⟨fun hnil => ?_, by simp [hoccasion]⟩
  have hsuffix := h.held_suffix a hmem
  rw [hnil, List.suffix_nil] at hsuffix
  exact hheld hsuffix

/-- What is done within a callback that is not about the end. -/
theorem hushed_inside {journal : List Entry} {a : Activation} (h : Conforms l part entries)
    (hheld : part.held ≠ []) (ha : a.held = []) (hoccasion : a.occasion ≠ .terminate) :
    Hushed journal (entries.reverse ++ .called a :: journal) := by
  refine (Hushed.called hoccasion ha).trans ((h.isInside hheld).hushed fun b hb hend => ?_)
  rw [outermost?_called ha] at hb
  exact absurd (Option.some.inj hb ▸ hend) hoccasion

/-- Deliveries from outside say nothing of the end. -/
theorem hushed (h : Conforms l part entries) (hheld : part.held = []) (journal : List Entry) :
    Hushed journal (entries.reverse ++ journal) := by
  induction h generalizing journal with
  | refused _ => exact .emitted ..
  | accepted _ _ ih =>
    rw [List.reverse_cons, List.append_assoc]
    exact (Hushed.emitted ..).trans (ih hheld _)
  | delivered | passedOver _ => exact .refl journal
  | next _ _ ihfirst ihlater =>
    rw [List.reverse_append, List.append_assoc]
    exact (ihfirst hheld journal).trans (ihlater hheld _)
  | handled _ hinside _ =>
    rw [List.reverse_cons, List.append_assoc]
    exact hinside.hushed_inside (List.cons_ne_nil _ _) hheld nofun
  | returned | emits => cases hheld

end Conforms

/-! ## Members that can be told -/

/-- Whether the member with an id is there and can be used. -/
def isIntact (p : Pipeline σ ρ) (id : StageId) : Bool := (p.slot? id).any (!·.isPoisoned)

/-- All members can be used. -/
def AllIntact (p : Pipeline σ ρ) : Prop := ∀ id, id.index < p.size → p.isIntact id

theorem isIntact_layout (p : Pipeline σ ρ) (id : StageId) :
    p.layout.isIntact id = p.isIntact id := by
  rw [isIntact, slot?_layout, Option.any_map]
  rfl

theorem isIntact_of_layout_eq (h : q.layout = p.layout) (id : StageId) :
    q.isIntact id = p.isIntact id := by
  rw [← isIntact_layout, h, isIntact_layout]

theorem lt_size_of_isIntact (h : p.isIntact id) : id.index < p.size := by
  obtain ⟨slot, hslot, -⟩ := (Option.any_eq_true _ _).mp h
  exact lt_size_of_slot?_eq_some hslot

theorem AllIntact.of_layout_eq (hp : p.AllIntact) (h : q.layout = p.layout) : q.AllIntact := by
  intro id hlt
  rw [isIntact_of_layout_eq h]
  rw [← size_layout, h, size_layout] at hlt
  exact hp id hlt

theorem AllIntact.layout (hp : p.AllIntact) : p.layout.AllIntact := by
  intro id hlt
  rw [isIntact_layout]
  exact hp id (size_layout p ▸ hlt)

theorem AllIntact.of_slots_eq (hp : p.AllIntact) (h : q.slots = p.slots) : q.AllIntact := by
  unfold AllIntact isIntact slot? size
  rw [h]
  exact hp

/-- Until the end, no stage and no reader panics outside of deliveries. -/
structure ReturnsUntilTheEnd (W σ ρ : Type) [Stage W σ] [Reader W ρ] : Prop where
  onStart : ∀ surroundings (stage : σ),
    (Stage.onStart surroundings stage).All (·.1 ≠ .panicked)
  onSetting : ∀ key value (stage : σ) (world : W),
    (Stage.onSetting key value stage world).1.1 ≠ .panicked
  read : ∀ surroundings (reader : ρ), (Reader.read surroundings reader).All (·.1 ≠ .panicked)

/-- No stage and no reader panics when it is told that the pipeline terminates. -/
structure ReturnsAtTheEnd (W σ ρ : Type) [Stage W σ] [Reader W ρ] : Prop where
  stage : ∀ surroundings (stage : σ),
    (Stage.onTerminate surroundings stage).All (·.1 ≠ .panicked)
  reader : ∀ surroundings (reader : ρ),
    (Reader.onTerminate surroundings reader).All (·.1 ≠ .panicked)

/-! ## One callback -/

/-- A callback from outside of deliveries and what it leaves behind. -/
structure CalledBack (id : StageId) (occasion : Occasion) (ending : Ending)
    (before after : System W σ ρ) (inside : List Entry) : Prop where
  conforms : Conforms before.pipeline.layout (.callback id []) inside
  journal : after.journal
    = inside.reverse ++ .called { stage := id, occasion, held := [] } :: before.journal
  isClosed : after.pipeline.isClosed = before.pipeline.isClosed
  layout : ending ≠ .panicked → after.pipeline.layout = before.pipeline.layout

theorem isClosed_of_layout_eq (h : q.layout = p.layout) : q.isClosed = p.isClosed :=
  congrArg (fun l : Pipeline Unit Unit => l.isClosed) h

namespace System

variable [Stage W σ] {system : System W σ ρ}

theorem callBack_calledBack {μ : Type} (member : μ → Member σ ρ)
    (hp : system.pipeline.WellConnected) {slot : Slot σ ρ}
    (hslot : system.pipeline.slot? id = some slot)
    (hkind : ∀ value, slot.member.kind = (member value).kind) (occasion : Occasion)
    (callback : Surroundings → Callback W (Ending × μ)) :
    ∃ inside, CalledBack id occasion (system.callBack id occasion callback member).1 system
      (system.callBack id occasion callback member).2 inside := by
  let entry := Entry.called { stage := id, occasion, held := [] }
  obtain ⟨inside, hwrites, hconforms⟩ :=
    performAlone_writes hp hslot occasion (callback ((system.note entry).surroundings id))
  unfold callBack
  dsimp only
  generalize System.perform _ _ _ = performed at hwrites ⊢
  obtain ⟨⟨ending, value⟩, next⟩ := performed
  have hput : (next.setMember id (member value)).pipeline.layout = system.pipeline.layout := by
    refine (layout_modifySlot_member fun slot' hslot' => ?_).trans hwrites.layout
    exact (kind_of_layout_eq hwrites.layout hslot hslot').trans (hkind value)
  refine ⟨inside, ?_⟩
  cases ending with
  | returned | failed =>
    exact ⟨hconforms, hwrites.journal, isClosed_of_layout_eq hput, fun _ => hput⟩
  | panicked =>
    exact ⟨hconforms, hwrites.journal, (isClosed_of_layout_eq hput :), absurd rfl⟩

/-- A callback none of whose results is a panic does not panic. -/
theorem callBack_ne_panicked {μ : Type} (member : μ → Member σ ρ) (occasion : Occasion)
    {callback : Surroundings → Callback W (Ending × μ)}
    (h : ∀ surroundings, (callback surroundings).All (·.1 ≠ .panicked)) :
    (system.callBack id occasion callback member).1 ≠ .panicked := by
  have hresult := perform_all (h (system.surroundings id)) (emitFrom [id] id)
    (system.note (.called { stage := id, occasion, held := [] }))
  unfold callBack
  dsimp only
  split
  · next hpanicked => exact absurd hpanicked hresult
  · exact hresult

end System

/-! ## What says nothing of the end -/

/-- An operation that says nothing of the end. If it is `calm`, members that can be used stay so. -/
structure Quiet (calm : Prop) (before after : System W σ ρ) : Prop where
  isClosed : after.pipeline.isClosed = before.pipeline.isClosed
  hushed : Hushed before.journal after.journal
  intact : calm → before.pipeline.AllIntact → after.pipeline.AllIntact

namespace Quiet

variable {calm : Prop} {before between after : System W σ ρ}

theorem refl (system : System W σ ρ) : Quiet calm system system := ⟨rfl, .refl _, fun _ h => h⟩

theorem trans (h : Quiet calm before between) (hlater : Quiet calm between after) :
    Quiet calm before after where
  isClosed := hlater.isClosed.trans h.isClosed
  hushed := h.hushed.trans hlater.hushed
  intact := fun hcalm hintact => hlater.intact hcalm (h.intact hcalm hintact)

/-- Changing neither slots nor journal. -/
theorem of_slots_eq (hslots : after.pipeline.slots = before.pipeline.slots)
    (hclosed : after.pipeline.isClosed = before.pipeline.isClosed)
    (hjournal : after.journal = before.journal) : Quiet calm before after where
  isClosed := hclosed
  hushed := hjournal ▸ .refl _
  intact := fun _ h => h.of_slots_eq hslots

end Quiet

namespace CalledBack

variable {occasion : Occasion} {ending : Ending} {before after : System W σ ρ}
  {inside : List Entry}

theorem quiet {calm : Prop} (h : CalledBack id occasion ending before after inside)
    (hoccasion : occasion ≠ .terminate) (hcalm : calm → ending ≠ .panicked) :
    Quiet calm before after where
  isClosed := h.isClosed
  hushed := by
    rw [h.journal]
    exact h.conforms.hushed_inside (List.cons_ne_nil _ _) rfl hoccasion
  intact := fun hc hintact => hintact.of_layout_eq (h.layout (hcalm hc))

end CalledBack

namespace System

variable [Stage W σ] [Reader W ρ] {system : System W σ ρ}

theorem startMember_quiet (id : StageId) (hp : system.pipeline.WellConnected) :
    Quiet (ReturnsUntilTheEnd W σ ρ) system (system.startMember id).2 := by
  unfold startMember
  split
  · next stage hstage =>
    obtain ⟨slot, hslot, _⟩ := Option.bind_eq_some_iff.mp hstage
    have husable : system.pipeline.isUsable id := by rw [isUsable, hstage]; rfl
    obtain ⟨inside, hcalled⟩ := callBack_calledBack .stage hp hslot
      (fun _ => kind_of_isUsable husable slot hslot) .start (Stage.onStart · stage)
    exact hcalled.quiet (by simp) fun hcalm => callBack_ne_panicked _ _ (hcalm.onStart · stage)
  · exact .refl system

theorem startMembers_quiet (ids : List StageId) (hp : system.pipeline.WellConnected) :
    Quiet (ReturnsUntilTheEnd W σ ρ) system (forMembers startMember ids system).2 := by
  have hall : (forMembers startMember ids system).2.pipeline.WellConnected
      ∧ Quiet (ReturnsUntilTheEnd W σ ρ) system (forMembers startMember ids system).2 := by
    refine forMembers_keeps (P := fun after => after.pipeline.WellConnected
      ∧ Quiet (ReturnsUntilTheEnd W σ ρ) system after) ?_ ids ⟨hp, .refl system⟩
    rintro id next ⟨hnext, hquiet⟩
    have hafter := (startMember_proceeds id hnext).wellConnected hnext
    exact ⟨hafter, hquiet.trans (startMember_quiet id hnext)⟩
  exact hall.2

theorem start_quiet (hp : system.pipeline.WellConnected) :
    Quiet (ReturnsUntilTheEnd W σ ρ) system system.start.2 := by
  unfold start
  split
  · exact .refl system
  · let started : System W σ ρ :=
      { system with pipeline := { system.pipeline with isStarted := true } }
    have hset : Quiet (ReturnsUntilTheEnd W σ ρ) system started := .of_slots_eq rfl rfl rfl
    have hp' : started.pipeline.WellConnected := hp.of_wiring_eq rfl
    have hall := hset.trans (startMembers_quiet started.pipeline.order hp')
    dsimp only
    split
    · next hcase =>
      rw [hcase] at hall
      exact hall
    · next hcase =>
      rw [hcase] at hall
      exact hall.trans (.of_slots_eq rfl rfl rfl)

theorem runReader_quiet (id : StageId) (hp : system.pipeline.WellConnected) :
    Quiet (ReturnsUntilTheEnd W σ ρ) system (system.runReader id).2 := by
  unfold runReader
  split
  · next reader _ hslot =>
    obtain ⟨inside, hcalled⟩ := callBack_calledBack .reader hp hslot (fun _ => rfl) .read
      (Reader.read · reader)
    have hquiet : Quiet (ReturnsUntilTheEnd W σ ρ) system _ :=
      hcalled.quiet nofun fun hcalm => callBack_ne_panicked _ _ (hcalm.read · reader)
    split <;> next hcase => rw [hcase] at hquiet; exact hquiet
  · exact .refl system

theorem joinAll_quiet (ids : List StageId) (hp : system.pipeline.WellConnected) :
    Quiet (ReturnsUntilTheEnd W σ ρ) system (joinAll ids system).2 := by
  have hall : (joinAll ids system).2.pipeline.WellConnected
      ∧ Quiet (ReturnsUntilTheEnd W σ ρ) system (joinAll ids system).2 := by
    refine joinAll_keeps (P := fun after => after.pipeline.WellConnected
      ∧ Quiet (ReturnsUntilTheEnd W σ ρ) system after) ?_ ids ⟨hp, .refl system⟩
    rintro id next ⟨hnext, hquiet⟩
    have hproceeds : Proceeds True next (next.runReader id).2 := runReader_proceeds id hnext
    exact ⟨hproceeds.wellConnected hnext, hquiet.trans (runReader_quiet id hnext)⟩
  exact hall.2

theorem join_quiet (hp : system.pipeline.WellConnected) :
    Quiet (ReturnsUntilTheEnd W σ ρ) system system.join.2 := by
  have hset : Quiet (ReturnsUntilTheEnd W σ ρ) system
      { system with pipeline := { system.pipeline with running := [] } } :=
    .of_slots_eq rfl rfl rfl
  exact hset.trans (joinAll_quiet _ (hp.of_wiring_eq rfl))

theorem configure_quiet (id : StageId) (key : String) (value : Setting) :
    Quiet (ReturnsUntilTheEnd W σ ρ) system (system.configure id key value).2 := by
  unfold configure
  split
  · exact .refl system
  · exact .refl system
  · exact .refl system
  · next stage _ hslot =>
    dsimp only
    have hlayout : (system.pipeline.modifySlot id ({ · with
        member := .stage (Stage.onSetting key value stage system.world).1.2 })).layout
          = system.pipeline.layout := by
      refine layout_modifySlot_member fun slot' hslot' => ?_
      obtain rfl := Option.some.inj (hslot.symm.trans hslot')
      rfl
    split
    · exact ⟨rfl, .refl _, fun _ h => h.of_layout_eq hlayout⟩
    · exact ⟨rfl, .refl _, fun _ h => h.of_layout_eq hlayout⟩
    · next hpanicked =>
      exact ⟨rfl, .refl _, fun hcalm => absurd hpanicked (hcalm.onSetting key value stage _)⟩

omit [Reader W ρ] in
theorem answer_quiet {calm : Prop} (hp : system.pipeline.WellConnected) (request : Request) :
    Quiet calm system (system.answer request).2 := by
  obtain ⟨entries, hwrites, hanswers⟩ := answer_writes hp request
  refine ⟨isClosed_of_layout_eq hwrites.layout, ?_, fun _ h => h.of_layout_eq hwrites.layout⟩
  rw [hwrites.journal]
  unfold Request.Answers at hanswers
  split at hanswers
  · exact hanswers.hushed rfl _
  · obtain ⟨port, -, -, hconforms⟩ := hanswers
    exact hconforms.hushed rfl _
  · obtain ⟨-, rfl⟩ := hanswers
    exact .refl _

end System

/-! ## Construction -/

/-- A step that closes nothing and makes no member unusable. -/
def Step.IsQuiet (step : Step σ ρ α) : Prop :=
  ∀ p : Pipeline σ ρ, (step.run p).2.isClosed = p.isClosed
    ∧ (p.AllIntact → (step.run p).2.AllIntact)

theorem addSlot_isQuiet {slot : Slot σ ρ} (hfresh : slot.isPoisoned = false) :
    Step.IsQuiet (addSlot slot) := by
  intro p
  rw [addSlot_eq]
  split
  · exact ⟨rfl, id⟩
  · refine ⟨rfl, fun h other hlt => ?_⟩
    rw [isIntact, slot?_append]
    split
    · simp [hfresh]
    · next hne =>
      refine h other ?_
      have hle : other.index < p.slots.length + 1 := by simpa [size] using hlt
      have hindex : other.index ≠ p.slots.length := hne
      exact (by omega : other.index < p.slots.length)

theorem isIntact_addConnection (p : Pipeline σ ρ) (c : Connection) (id : StageId) :
    (p.addConnection c).isIntact id = p.isIntact id := by
  rw [isIntact, show (p.addConnection c).slot? id = _ from slot?_modifySlot p c.source id _]
  split
  · exact Option.any_map
  · rfl

theorem tryConnect_isQuiet (source : StageId) (output : String) (target : StageId)
    (input : String) :
    Step.IsQuiet (tryConnect source output target input : Step σ ρ ConnectionId) := by
  intro p
  rw [tryConnect_eq]
  split
  · exact ⟨rfl, id⟩
  · refine ⟨rfl, fun h other hlt => ?_⟩
    rw [isIntact_addConnection]
    exact h other (by simpa [size, addConnection, modifySlot] using hlt)

theorem System.construct_quiet {calm : Prop} {step : Step σ ρ α} (h : step.IsQuiet)
    (given : α → Answer) (system : System W σ ρ) :
    Quiet calm system (system.construct step given).2 :=
  ⟨(h system.pipeline).1, .refl _, fun _ => (h system.pipeline).2⟩

/-! ## The end -/

/-- Together with the members that are done, all are done that lead to them. -/
def IsUpward (connections : List Connection) (done : List StageId) : Prop :=
  ∀ b ∈ done, ∀ a, Feeds connections a b → a ∈ done

theorem IsUpward.mem_of_transGen {connections : List Connection} {done : List StageId}
    (h : IsUpward connections done) {a b : StageId} (hway : TransGen (Feeds connections) a b)
    (hb : b ∈ done) : a ∈ done := by
  induction hway using TransGen.head_induction_on with
  | single hstep => exact h _ hb _ hstep
  | head hstep _ ih => exact h _ ih _ hstep

/-- Where the end of a pipeline of a certain layout stands: the members that are done, the latest
one first, were told if they can be used. -/
structure Telling (l : Pipeline Unit Unit) (done : List StageId) (system : System W σ ρ) :
    Prop where
  layout : system.pipeline.layout = l
  told : told system.journal = done.filter (l.isIntact ·)
  orderly : Orderly system.journal
  upward : IsUpward l.connections done

namespace Telling

variable {l : Pipeline Unit Unit} {done : List StageId} {system after : System W σ ρ}
  {ending : Ending} {inside : List Entry}

/-- A member that cannot be used is passed over. -/
theorem pass (h : Telling l done system) (hbefore : ∀ a, Feeds l.connections a id → a ∈ done)
    (hintact : l.isIntact id = false) : Telling l (id :: done) system where
  layout := h.layout
  told := by rw [h.told, List.filter_cons_of_neg (by simp [hintact])]
  orderly := h.orderly
  upward := by
    rintro b hb a hfeeds
    rcases List.mem_cons.mp hb with rfl | hb
    · exact List.mem_cons_of_mem _ (hbefore a hfeeds)
    · exact List.mem_cons_of_mem _ (h.upward b hb a hfeeds)

/-- A member is told that can be used. What it causes reaches none of those that are done: these
would have to come after it. -/
theorem tell (h : Telling l done system) (hl : l.WellConnected) (hnew : id ∉ done)
    (hbefore : ∀ a, Feeds l.connections a id → a ∈ done) (hintact : l.isIntact id)
    (hcalled : CalledBack id .terminate ending system after inside) :
    Orderly after.journal ∧ (ending ≠ .panicked → Telling l (id :: done) after) := by
  let called : Activation := { stage := id, occasion := .terminate, held := [] }
  have hconforms : Conforms l (.callback id []) inside := h.layout ▸ hcalled.conforms
  have htold : Pipeline.told (.called called :: system.journal)
      = id :: done.filter (l.isIntact ·) := by
    rw [told_terminate, h.told]
  have hspared : ∀ a, .called a ∈ inside.reverse → a.stage ∉ id :: done := by
    intro a ha hdone
    have hmem := List.mem_reverse.mp ha
    have hchain := hconforms.isCallChain hl (.singleton (lt_size_of_isIntact hintact)) a hmem
    have hheld : id ∈ a.held := (hconforms.held_suffix a hmem).subset List.mem_cons_self
    have hway : TransGen (Feeds l.connections) id a.stage :=
      (List.pairwise_cons.mp (pairwise_of_isPath hchain.path)).1 id hheld
    rcases List.mem_cons.mp hdone with heq | hdone
    · exact hl.acyclic id (heq ▸ hway)
    · exact hnew (h.upward.mem_of_transGen hway hdone)
  have hhushed : Hushed (.called called :: system.journal) after.journal := by
    rw [hcalled.journal]
    refine (hconforms.isInside (List.cons_ne_nil _ _)).hushed fun b _ _ a ha htoldBefore => ?_
    rw [htold] at htoldBefore
    refine hspared a ha ?_
    rcases List.mem_cons.mp htoldBefore with heq | hmem
    · exact heq ▸ List.mem_cons_self
    · exact List.mem_cons_of_mem _ (List.mem_filter.mp hmem).1
  have horderly : Orderly after.journal :=
    hhushed.orderly (orderly_cons_outside h.orderly fun a ha => Entry.called.inj ha ▸ rfl)
  refine ⟨horderly, fun hcalm => ?_⟩
  refine ⟨(hcalled.layout hcalm).trans h.layout, ?_, horderly, ?_⟩
  · rw [hhushed.told, htold, List.filter_cons_of_pos hintact]
  · rintro b hb a hfeeds
    rcases List.mem_cons.mp hb with rfl | hb
    · exact List.mem_cons_of_mem _ (hbefore a hfeeds)
    · exact List.mem_cons_of_mem _ (h.upward b hb a hfeeds)

end Telling

namespace System

variable [Stage W σ] [Reader W ρ] {system : System W σ ρ} {l : Pipeline Unit Unit}
  {done rest : List StageId}

theorem terminateMember_cases (id : StageId) (hp : system.pipeline.WellConnected) :
    (system.pipeline.isIntact id = false ∧ system.terminateMember id = (.returned, system))
      ∨ (system.pipeline.isIntact id ∧ ∃ inside, CalledBack id .terminate
          (system.terminateMember id).1 system (system.terminateMember id).2 inside) := by
  unfold terminateMember
  split
  · next hslot =>
    refine .inr ⟨by rw [isIntact, hslot]; rfl, ?_⟩
    exact callBack_calledBack .stage hp hslot (fun _ => rfl) _ _
  · next hslot =>
    refine .inr ⟨by rw [isIntact, hslot]; rfl, ?_⟩
    exact callBack_calledBack .reader hp hslot (fun _ => rfl) _ _
  · next hstage hreader =>
    refine .inl ⟨?_, rfl⟩
    unfold isIntact
    cases hslot : system.pipeline.slot? id with
    | none => rfl
    | some slot =>
      obtain ⟨name, ports, member, isPoisoned, subscribers⟩ := slot
      cases isPoisoned with
      | true => rfl
      | false =>
        cases member with
        | stage stage => exact absurd hslot (hstage _ _ _ _)
        | reader reader => exact absurd hslot (hreader _ _ _ _)

/-- **The members are told one after the other**, and what each of them emits then reaches only
those that are still to come. -/
theorem tellAll_tells (hl : l.WellConnected) (h : Telling l done system)
    (hrest : ComesInOrder l.connections done rest) :
    Orderly (forMembers terminateMember rest system).2.journal
      ∧ (forMembers terminateMember rest system).2.pipeline.isClosed = l.isClosed
      ∧ ((forMembers terminateMember rest system).1 = true →
          Telling l (rest.reverse ++ done) (forMembers terminateMember rest system).2) := by
  induction rest generalizing done system with
  | nil => exact ⟨h.orderly, congrArg (·.isClosed) h.layout, fun _ => h⟩
  | cons id rest ih =>
    obtain ⟨hnew, hbefore, hrest⟩ := hrest
    have hp : system.pipeline.WellConnected :=
      hl.of_wiring_eq (by rw [← wiring_layout, h.layout])
    have hintact : l.isIntact id = system.pipeline.isIntact id := by
      rw [← h.layout, isIntact_layout]
    rw [forMembers, List.reverse_cons, List.append_assoc]
    rcases terminateMember_cases id hp with ⟨hbroken, heq⟩ | ⟨hsound, inside, hcalled⟩
    · rw [heq]
      exact ih (h.pass hbefore (hintact.trans hbroken)) hrest
    · obtain ⟨horderly, hnext⟩ := h.tell hl hnew hbefore (hintact.trans hsound) hcalled
      have hclosed := hcalled.isClosed
      generalize system.terminateMember id = result at horderly hnext hclosed ⊢
      obtain ⟨ending, next⟩ := result
      cases ending with
      | panicked =>
        refine ⟨horderly, hclosed.trans (congrArg (·.isClosed) h.layout), ?_⟩
        intro hcompleted
        cases hcompleted
      | returned | failed => exact ih (hnext (by simp)) hrest

end System

theorem order_layout (p : Pipeline σ ρ) : p.layout.order = p.order := by
  rw [order, size_layout]
  rfl

/-- The end of a pipeline: if it was `completed`, every member that can be used has been told once,
and no other. -/
structure Closes (calm completed : Prop) (before after : System W σ ρ) : Prop where
  isClosed : after.pipeline.isClosed
  orderly : Orderly after.journal
  count : completed → ∀ id,
    (told after.journal).count id = if after.pipeline.isIntact id then 1 else 0
  intact : calm → completed → before.pipeline.AllIntact → after.pipeline.AllIntact

theorem Closes.mono {calm completed completed' : Prop} {before after : System W σ ρ}
    (h : Closes calm completed before after) (himp : completed' → completed) :
    Closes calm completed' before after where
  isClosed := h.isClosed
  orderly := h.orderly
  count := fun hcompleted => h.count (himp hcompleted)
  intact := fun hcalm hcompleted => h.intact hcalm (himp hcompleted)

theorem Quiet.closes {calm completed : Prop} {before between after : System W σ ρ}
    (h : Quiet calm before between) (hlater : Closes calm completed between after) :
    Closes calm completed before after where
  isClosed := hlater.isClosed
  orderly := hlater.orderly
  count := hlater.count
  intact := fun hcalm hcompleted hintact =>
    hlater.intact hcalm hcompleted (h.intact hcalm hintact)

/-- All members of a pipeline were told that can be used. -/
theorem Telling.closes {l : Pipeline Unit Unit} {calm completed : Prop}
    {before after : System W σ ρ} (h : Telling l (l.order.reverse ++ []) after)
    (hl : l.WellConnected) (hclosed : l.isClosed)
    (hintact : before.pipeline.AllIntact → l.AllIntact) : Closes calm completed before after where
  isClosed := by
    rw [← h.layout] at hclosed
    exact hclosed
  orderly := h.orderly
  count := by
    intro _ id
    have hnodup := (List.nodup_reverse.mpr hl.order_comesInOrder.nodup).filter (l.isIntact ·)
    rw [h.told, List.append_nil, ← isIntact_layout, h.layout]
    split
    · next hsound =>
      refine List.count_eq_one_of_mem hnodup (List.mem_filter.mpr ⟨?_, hsound⟩)
      exact List.mem_reverse.mpr (hl.mem_order.mpr (lt_size_of_isIntact hsound))
    · next hbroken =>
      exact List.count_eq_zero.mpr fun hmem => hbroken (List.mem_filter.mp hmem).2
  intact := fun _ _ hbefore id hlt => by
    rw [← isIntact_layout, h.layout]
    rw [← size_layout, h.layout] at hlt
    exact hintact hbefore id hlt

namespace System

section Terminate

variable [Stage W σ] [Reader W ρ] {system : System W σ ρ}

/-- Terminating a pipeline again says nothing of the end. -/
theorem terminate_quiet {calm : Prop} (hclosed : system.pipeline.isClosed) :
    Quiet calm system system.terminate.2 := by
  rw [show system.terminate = _ from if_pos hclosed]
  exact .of_slots_eq rfl rfl rfl

/-- **Terminating a pipeline for the first time closes it.** -/
theorem terminate_closes {calm : Prop} (hp : system.pipeline.WellConnected)
    (hopen : ¬ system.pipeline.isClosed) (horderly : Orderly system.journal)
    (hnone : told system.journal = []) :
    Closes calm (system.terminate.1 ≠ .panicked) system system.terminate.2 := by
  let closed : System W σ ρ := { system with
    pipeline := { system.pipeline with isTerminated := true, isClosed := true } }
  let l := closed.pipeline.layout
  have hl : l.WellConnected := WellConnected.layout (hp.of_wiring_eq rfl)
  have heq : system.terminate
      = (if (forMembers terminateMember l.order closed).1 then .done else .panicked,
        (forMembers terminateMember l.order closed).2) := by
    rw [show l.order = closed.pipeline.order from order_layout _]
    exact if_neg hopen
  obtain ⟨hafter, hclosed, hcompleted⟩ := tellAll_tells hl
    (⟨rfl, hnone, horderly, nofun⟩ : Telling l [] closed) hl.order_comesInOrder
  rw [heq]
  cases hcase : (forMembers terminateMember l.order closed).1 with
  | false => exact ⟨hclosed, hafter, absurd rfl, fun _ => absurd rfl⟩
  | true =>
    refine (hcompleted hcase).closes hl rfl fun h => ?_
    exact AllIntact.layout (h.of_slots_eq rfl)

omit [Stage W σ] [Reader W ρ] in
theorem forMembers_eq_true {step : System W σ ρ → StageId → Ending × System W σ ρ}
    (hstep : ∀ system id, (step system id).1 ≠ .panicked) (ids : List StageId) :
    (forMembers step ids system).1 = true := by
  induction ids generalizing system with
  | nil => rfl
  | cons id ids ih =>
    rw [forMembers]
    split
    · next hcase => exact absurd (congrArg Prod.fst hcase) (hstep system id)
    · exact ih

/-- If no member panics when it is told, all are told. -/
theorem terminate_eq_done (hcalm : ReturnsAtTheEnd W σ ρ) : system.terminate.1 = .done := by
  have hstep : ∀ (system : System W σ ρ) id, (system.terminateMember id).1 ≠ .panicked := by
    intro system id
    unfold terminateMember
    split
    · exact callBack_ne_panicked _ _ (hcalm.stage · _)
    · exact callBack_ne_panicked _ _ (hcalm.reader · _)
    · nofun
  unfold terminate
  dsimp only
  split
  · rfl
  · exact if_pos (forMembers_eq_true hstep _)

theorem join_ne_panicked (system : System W σ ρ) : system.join.1 ≠ .panicked := by
  show Option.elim _ Reply.done Reply.refused ≠ .panicked
  cases (joinAll system.pipeline.running { system with
    pipeline := { system.pipeline with running := [] } }).1 with
  | none | some => exact nofun

/-- Running a pipeline that can be started ends as terminating it does. -/
theorem run_of_start {started : System W σ ρ} (h : system.start = (.done, started)) :
    system.run.2 = started.join.2.terminate.2
      ∧ (system.run.1 = .panicked ↔ started.join.2.terminate.1 = .panicked) := by
  rw [run, h]
  dsimp only
  split
  · next hcase =>
    rw [hcase]
    exact ⟨rfl, iff_of_false (join_ne_panicked started) nofun⟩
  · next hcase =>
    rw [hcase]
    exact ⟨rfl, Iff.rfl⟩

end Terminate

/-! ## Commands -/

variable [Stage W σ] [Reader W ρ] {system : System W σ ρ}

/-- What holds of the end whatever was asked of a pipeline. -/
structure Tidy (system : System W σ ρ) : Prop extends Sound system where
  orderly : Orderly system.journal
  untold : ¬ system.pipeline.isClosed → told system.journal = []
  intact : ReturnsUntilTheEnd W σ ρ → ¬ system.pipeline.isClosed → system.pipeline.AllIntact

theorem tidy_empty (world : W) : (empty world : System W σ ρ).Tidy :=
  ⟨sound_empty world, orderly_nil, fun _ => rfl, fun _ _ => nofun⟩

/-- What terminating a pipeline does to the end. -/
theorem terminate_cases (hp : system.pipeline.WellConnected) (horderly : Orderly system.journal)
    (huntold : ¬ system.pipeline.isClosed → told system.journal = []) :
    Quiet (ReturnsUntilTheEnd W σ ρ) system system.terminate.2 ∧ system.pipeline.isClosed
      ∨ ¬ system.pipeline.isClosed ∧ Closes (ReturnsUntilTheEnd W σ ρ)
          (system.terminate.1 ≠ .panicked) system system.terminate.2 := by
  by_cases hclosed : system.pipeline.isClosed
  · exact .inl ⟨terminate_quiet hclosed, hclosed⟩
  · exact .inr ⟨hclosed, terminate_closes hp hclosed horderly (huntold hclosed)⟩

/-- What running a pipeline that can be started does to the end. -/
theorem Tidy.run_cases (h : system.Tidy) (hstart : system.start.1 = .done) :
    Quiet (ReturnsUntilTheEnd W σ ρ) system system.run.2 ∧ system.pipeline.isClosed
      ∨ ¬ system.pipeline.isClosed ∧ Closes (ReturnsUntilTheEnd W σ ρ)
          (system.run.1 ≠ .panicked) system system.run.2 := by
  have hstarted : system.start = (.done, system.start.2) := Prod.ext hstart rfl
  obtain ⟨heq, hpanicked⟩ := run_of_start hstarted
  have hp := (start_proceeds h.wellConnected).1.wellConnected h.wellConnected
  have hjoin : Proceeds True system.start.2 system.start.2.join.2 := join_proceeds hp
  have hquiet := (start_quiet h.wellConnected).trans (join_quiet hp)
  have huntold : ¬ system.start.2.join.2.pipeline.isClosed →
      told system.start.2.join.2.journal = [] := by
    intro hopen
    rw [hquiet.hushed.told]
    exact h.untold (hquiet.isClosed ▸ hopen)
  rw [heq, ne_eq, hpanicked, ← hquiet.isClosed]
  refine (terminate_cases (hjoin.wellConnected hp) (hquiet.hushed.orderly h.orderly)
    huntold).imp ?_ ?_
  · exact fun ⟨hagain, hclosed⟩ => ⟨hquiet.trans hagain, hclosed⟩
  · exact fun ⟨hopen, hcloses⟩ => ⟨hopen, hquiet.closes hcloses⟩

/-- A command says nothing of the end, or closes the pipeline. -/
theorem Tidy.execute_cases (h : system.Tidy) (command : Command σ ρ) :
    Quiet (ReturnsUntilTheEnd W σ ρ) system (system.execute command).2
      ∨ ¬ system.pipeline.isClosed ∧ Closes (ReturnsUntilTheEnd W σ ρ)
          ((system.execute command).1 ≠ .reply .panicked) system (system.execute command).2 := by
  have hp := h.wellConnected
  have hreply : ∀ {reply : Reply}, Answer.reply reply ≠ .reply .panicked → reply ≠ .panicked :=
    fun hcalm hpanicked => hcalm (congrArg Answer.reply hpanicked)
  cases command with
  | addStage stage => exact .inl (construct_quiet (addSlot_isQuiet rfl) _ _)
  | addReader reader => exact .inl (construct_quiet (addSlot_isQuiet rfl) _ _)
  | connect source output target input =>
    exact .inl (construct_quiet (tryConnect_isQuiet source output target input) _ _)
  | start => exact .inl (start_quiet hp)
  | join => exact .inl (join_quiet hp)
  | configure stage key value => exact .inl (configure_quiet stage key value)
  | request request => exact .inl (answer_quiet hp request)
  | terminate =>
    refine (terminate_cases hp h.orderly h.untold).imp And.left ?_
    exact fun ⟨hopen, hcloses⟩ => ⟨hopen, hcloses.mono hreply⟩
  | run =>
    by_cases hstart : system.start.1 = .done
    · refine (h.run_cases hstart).imp And.left ?_
      exact fun ⟨hopen, hcloses⟩ => ⟨hopen, hcloses.mono hreply⟩
    · refine .inl ?_
      have heq : system.run.2 = system.start.2 := by
        unfold run
        split
        · next hcase => exact absurd (congrArg Prod.fst hcase) hstart
        · next hcase => rw [hcase]
      show Quiet _ system system.run.2
      rw [heq]
      exact start_quiet hp

theorem Tidy.execute (h : system.Tidy) (command : Command σ ρ) :
    (system.execute command).2.Tidy := by
  rcases h.execute_cases command with hquiet | ⟨hopen, hcloses⟩
  · refine ⟨h.toSound.execute command, hquiet.hushed.orderly h.orderly, ?_, ?_⟩
    · intro hopen
      rw [hquiet.hushed.told]
      exact h.untold (hquiet.isClosed ▸ hopen)
    · intro hcalm hopen
      exact hquiet.intact hcalm (h.intact hcalm (hquiet.isClosed ▸ hopen))
  · exact ⟨h.toSound.execute command, hcloses.orderly, absurd hcloses.isClosed,
      fun _ => absurd hcloses.isClosed⟩

theorem Tidy.executeAll (h : system.Tidy) (commands : List (Command σ ρ)) :
    (executeAll commands system).2.Tidy := by
  induction commands generalizing system with
  | nil => exact h
  | cons command commands ih => exact ih (h.execute command)

/-- Once a pipeline is closed, no member is told any more. -/
theorem Tidy.told_executeAll (h : system.Tidy) (hclosed : system.pipeline.isClosed)
    (commands : List (Command σ ρ)) :
    told (System.executeAll commands system).2.journal = told system.journal := by
  induction commands generalizing system with
  | nil => rfl
  | cons command commands ih =>
    rcases h.execute_cases command with hquiet | ⟨hopen, -⟩
    · exact (ih (h.execute command) (hquiet.isClosed.trans hclosed)).trans hquiet.hushed.told
    · exact absurd hclosed hopen

/-! ## Main statement -/

/-- **The end is orderly.** After any commands to a new pipeline, nothing emitted by a member that
is told that the pipeline terminates has reached, directly or through others, a member that was told
before. No member is told until a termination closes the pipeline, and none afterwards, whatever is
asked of it. If the closing command was not cut off by a panic, it has told every member once whose
slot no panic has made unusable, and no other; only panics at the start, on a change of a setting or
while reading could have done that. Terminating always closes the pipeline, as does running it if it
can be started, and nothing cuts that off if no member panics when it is told. -/
theorem termination_is_orderly (world : W) (commands : List (Command σ ρ)) :
    let system : System W σ ρ := (executeAll commands (empty world)).2
    Orderly system.journal
    ∧ (¬ system.pipeline.isClosed → told system.journal = [])
    ∧ (system.pipeline.isClosed → ∀ later,
        told (executeAll later system).2.journal = told system.journal)
    ∧ (∀ command answer after, system.execute command = (answer, after) →
        ¬ system.pipeline.isClosed → after.pipeline.isClosed → answer ≠ .reply .panicked →
        (∀ id, (told after.journal).count id = if after.pipeline.isIntact id then 1 else 0)
          ∧ (ReturnsUntilTheEnd W σ ρ → after.pipeline.AllIntact))
    ∧ (system.execute .terminate).2.pipeline.isClosed
    ∧ (system.start.1 = .done → (system.execute .run).2.pipeline.isClosed)
    ∧ (ReturnsAtTheEnd W σ ρ → (system.execute .terminate).1 ≠ .reply .panicked
        ∧ (system.start.1 = .done → (system.execute .run).1 ≠ .reply .panicked)) := by
  intro system
  have htidy : system.Tidy := (tidy_empty world).executeAll commands
  refine ⟨htidy.orderly, htidy.untold, htidy.told_executeAll, ?_, ?_, ?_, ?_⟩
  · intro command answer after heq hopen hclosed hcalm
    rcases htidy.execute_cases command with hquiet | ⟨-, hcloses⟩
    · rw [heq] at hquiet
      exact absurd (hquiet.isClosed ▸ hclosed) hopen
    · rw [heq] at hcloses
      exact ⟨hcloses.count hcalm, fun h => hcloses.intact h hcalm (htidy.intact h hopen)⟩
  · rcases terminate_cases htidy.wellConnected htidy.orderly htidy.untold with
      ⟨hquiet, hclosed⟩ | ⟨-, hcloses⟩
    · exact hquiet.isClosed.trans hclosed
    · exact hcloses.isClosed
  · intro hstart
    rcases htidy.run_cases hstart with ⟨hquiet, hclosed⟩ | ⟨-, hcloses⟩
    · exact hquiet.isClosed.trans hclosed
    · exact hcloses.isClosed
  · intro hcalm
    have hdone : ∀ system : System W σ ρ, system.terminate.1 ≠ .panicked := by
      intro system
      rw [terminate_eq_done hcalm]
      nofun
    refine ⟨fun hpanicked => hdone system (Answer.reply.inj hpanicked), ?_⟩
    intro hstart hpanicked
    have hstarted : system.start = (.done, system.start.2) := Prod.ext hstart rfl
    exact hdone _ ((run_of_start hstarted).2.mp (Answer.reply.inj hpanicked))

/-- A stage that counts the events it hands on, and hands on one more at the end. -/
@[reducible]
def flushing : Stage Unit Nat where
  name _ := "flusher"
  ports _ := [.input "in" [], .output "out" []]
  onEvent _ _ event count := do
    let _ ← Callback.send "out" event
    return (.returned, count + 1)
  onTerminate _ count := do
    let _ ← Callback.send "out" (.call default)
    return (.returned, count)

/-- A reader that fails after its first event. -/
@[reducible]
def failing : Reader Unit Unit where
  name _ := "reader"
  ports _ := [.output "out" []]
  read _ _ := do
    let _ ← Callback.send "out" (.call default)
    return (.failed (.invalidSetting "source" "broken"), ())

/-- A reader that feeds a stage, which feeds two others, the first of which feeds the second. -/
def fedDiamond : List (Command Nat Unit) :=
  [.addReader (), .addStage 0, .addStage 0, .addStage 0, .connect ⟨0⟩ "out" ⟨1⟩ "in",
    .connect ⟨1⟩ "out" ⟨2⟩ "in", .connect ⟨1⟩ "out" ⟨3⟩ "in", .connect ⟨2⟩ "out" ⟨3⟩ "in"]

/-- Although the reader fails, a run tells every member once and in order: besides the event of the
reader, the last ones of the stages before them have reached those behind. -/
theorem told_once_in_diamond :
    let system := (@executeAll _ _ _ flushing failing fedDiamond (empty ())).2
    let ran := @execute _ _ _ flushing failing system .run
    ¬ system.pipeline.isClosed ∧ ran.2.pipeline.isClosed
      ∧ ran.1 = .reply (.refused (.readerFailed ⟨0⟩ "Invalid config 'source': broken"))
      ∧ (∀ id, (told ran.2.journal).count id = if ran.2.pipeline.isIntact id then 1 else 0)
      ∧ told ran.2.journal = [⟨3⟩, ⟨2⟩, ⟨1⟩, ⟨0⟩]
      ∧ ran.2.pipeline.slots.map Slot.stage? = [none, some 1, some 2, some 5] := by
  intro system ran
  have hopen : ¬ system.pipeline.isClosed := by decide +kernel
  have hclosed : ran.2.pipeline.isClosed := by decide +kernel
  have hanswer : ran.1
      = .reply (.refused (.readerFailed ⟨0⟩ "Invalid config 'source': broken")) := by
    decide +kernel
  obtain ⟨-, -, -, hcount, -⟩ := @termination_is_orderly _ _ _ flushing failing () fedDiamond
  refine ⟨hopen, hclosed, hanswer, ?_, by decide +kernel, by decide +kernel⟩
  exact (hcount .run ran.1 ran.2 rfl hopen hclosed (by rw [hanswer]; nofun)).1

/-- A stage whose start panics. -/
@[reducible]
def panicking : Stage Unit Unit where
  name _ := "starter"
  ports _ := []
  onStart _ _ := pure (.panicked, ())
  onEvent _ _ _ _ := pure (.returned, ())

/-- A member may be passed over at the end although no member panics when it is told: a stage whose
start has panicked is there when the pipeline is closed, and was not told. -/
theorem passed_over_when_poisoned :
    let run := @executeAll _ _ _ panicking noReader [.addStage (), .start, .terminate] (empty ())
    @ReturnsAtTheEnd _ _ Empty panicking noReader
      ∧ run.1 = [.stage ⟨0⟩, .reply .panicked, .reply .done]
      ∧ run.2.pipeline.isClosed ∧ run.2.pipeline.size = 1
      ∧ (told run.2.journal).count ⟨0⟩ = 0 := by
  refine ⟨@ReturnsAtTheEnd.mk _ _ _ panicking noReader (fun _ _ => nofun) nofun, ?_⟩
  decide +kernel

end System

end CallTrace.Pipeline
