import CallTrace.Pipeline.Lifecycle
import CallTrace.Proofs.Pipeline.Journal

/-!
# What the life of a pipeline leaves alone

Starting, waiting, terminating, changing settings and answering requests never touch the wiring of a
well-connected pipeline, never get stuck, and call callbacks only while a call chain is held
(`Proceeds`). A stage becomes unusable only by a panic that is reported.
-/

namespace CallTrace.Pipeline

variable {W σ ρ : Type} {p : Pipeline σ ρ} {id : StageId}

namespace IsCallChain

variable {σ' ρ' : Type} {q : Pipeline σ' ρ'} {stages : List StageId}

/-- Call chains stay call chains when stages and connections are added. -/
theorem mono (h : p.IsCallChain stages) (hconnections : p.connections ⊆ q.connections)
    (hsize : p.size ≤ q.size) : q.IsCallChain stages where
  path := h.path.imp fun _ _ ⟨c, hc, hends⟩ => ⟨c, hconnections hc, hends⟩
  lt_size := fun id hid => (h.lt_size id hid).trans_le hsize

theorem of_wiring_eq (h : p.IsCallChain stages) (hwiring : q.wiring = p.wiring) :
    q.IsCallChain stages :=
  h.mono (connections_of_wiring_eq hwiring ▸ List.Subset.refl _) (size_of_wiring_eq hwiring).ge

end IsCallChain

theorem WellConnected.layout (h : p.WellConnected) : p.layout.WellConnected :=
  h.of_wiring_eq (wiring_layout p)

theorem isUsable_modifySlot_of_ne {other : StageId} (h : other ≠ id)
    (f : Slot σ ρ → Slot σ ρ) : (p.modifySlot other f).isUsable id = p.isUsable id := by
  rw [isUsable, isUsable, slot?_modifySlot, if_neg h]

/-! ## One step -/

/-- What one operation on a pipeline that is put together leaves alone. If it is `calm`, usable
stages stay so. -/
structure Proceeds (calm : Prop) (before after : System W σ ρ) : Prop where
  wiring : after.pipeline.wiring = before.pipeline.wiring
  isStarted : before.pipeline.isStarted → after.pipeline.isStarted
  usable : calm → ∀ id, before.pipeline.isUsable id → after.pipeline.isUsable id
  isStuck : after.isStuck = before.isStuck
  journal : ∃ entries, after.journal = entries ++ before.journal
    ∧ ∀ a, Entry.called a ∈ entries → before.pipeline.IsCallChain (a.stage :: a.held)

namespace Proceeds

variable {calm : Prop} {before between after system : System W σ ρ}

theorem refl (system : System W σ ρ) : Proceeds calm system system :=
  ⟨rfl, fun h => h, fun _ _ h => h, rfl, [], rfl, by simp⟩

theorem trans (h : Proceeds calm before between) (hlater : Proceeds calm between after) :
    Proceeds calm before after := by
  obtain ⟨first, hfirst, hchains⟩ := h.journal
  obtain ⟨later, hnext, hmore⟩ := hlater.journal
  refine ⟨hlater.wiring.trans h.wiring, fun hstarted => hlater.isStarted (h.isStarted hstarted),
    fun hcalm id hid => hlater.usable hcalm id (h.usable hcalm id hid),
    hlater.isStuck.trans h.isStuck, later ++ first, ?_, ?_⟩
  · rw [hnext, hfirst, List.append_assoc]
  · intro a ha
    rcases List.mem_append.mp ha with ha | ha
    · exact (hmore a ha).of_wiring_eq h.wiring.symm
    · exact hchains a ha

theorem mono {calmer : Prop} (h : Proceeds calm before after) (himp : calmer → calm) :
    Proceeds calmer before after :=
  ⟨h.wiring, h.isStarted, fun hcalm => h.usable (himp hcalm), h.isStuck, h.journal⟩

theorem wellConnected {c : Prop} (h : Proceeds c before after)
    (hp : before.pipeline.WellConnected) : after.pipeline.WellConnected :=
  hp.of_wiring_eq h.wiring

/-- Changing what does not matter to deliveries. -/
theorem of_slots_eq (hslots : after.pipeline.slots = before.pipeline.slots)
    (hconnections : after.pipeline.connections = before.pipeline.connections)
    (hstarted : before.pipeline.isStarted → after.pipeline.isStarted)
    (hstuck : after.isStuck = before.isStuck) (hjournal : after.journal = before.journal) :
    Proceeds calm before after where
  wiring := by rw [Pipeline.wiring, Pipeline.wiring, hslots, hconnections]
  isStarted := hstarted
  usable := fun _ id h => by
    rw [isUsable, slot?] at h ⊢
    rwa [hslots]
  isStuck := hstuck
  journal := ⟨[], hjournal, by simp⟩

theorem of_writes (entries : List Entry) (h : Writes before after entries)
    (hchains : ∀ a, Entry.called a ∈ entries → before.pipeline.IsCallChain (a.stage :: a.held)) :
    Proceeds calm before after where
  wiring := by rw [← wiring_layout, h.layout, wiring_layout]
  isStarted := fun hstarted => by
    have : after.pipeline.isStarted = before.pipeline.isStarted :=
      congrArg (fun l : Pipeline Unit Unit => l.isStarted) h.layout
    rwa [this]
  usable := fun _ id hid => by
    rw [← isUsable_layout, h.layout, isUsable_layout]
    exact hid
  isStuck := h.isStuck
  journal := ⟨entries.reverse, h.journal, fun a ha => hchains a (List.mem_reverse.mp ha)⟩

/-- What conforms to the form of the journal, from a call chain on. -/
theorem of_conforms {part : Part} {entries : List Entry} (hp : before.pipeline.WellConnected)
    (h : Writes before after entries) (hconforms : Conforms before.pipeline.layout part entries)
    (hpart : part.IsChained before.pipeline.layout) : Proceeds calm before after :=
  .of_writes entries h fun a ha => (hconforms.isCallChain hp.layout hpart a ha).of_wiring_eq
    (wiring_layout before.pipeline).symm

end Proceeds

/-! ## Callbacks outside of deliveries -/

theorem kind_of_layout_eq {q : Pipeline σ ρ} {slot slot' : Slot σ ρ} (h : q.layout = p.layout)
    (hslot : p.slot? id = some slot) (hslot' : q.slot? id = some slot') :
    slot'.member.kind = slot.member.kind := by
  have hboth := congrArg (fun l => (l.slot? id).map (·.member)) h
  simp only [slot?_layout, hslot, hslot', Option.map_some, Option.some.injEq] at hboth
  exact hboth

theorem isStage_of_isUsable (h : p.isUsable id) : p.isStage id := by
  obtain ⟨stage, hstage⟩ := Option.isSome_iff_exists.mp h
  obtain ⟨slot, hslot, hstage⟩ := Option.bind_eq_some_iff.mp hstage
  rw [isStage, hslot, Option.any_some, Slot.isReader]
  unfold Slot.stage? at hstage
  split at hstage
  · next hmember _ => rw [hmember]; rfl
  · cases hstage

namespace System

variable {system : System W σ ρ}

/-- Putting a member of the same kind back. -/
theorem setMember_proceeds {calm : Prop} {member : Member σ ρ}
    (hkind : ∀ slot, system.pipeline.slot? id = some slot → slot.member.kind = member.kind) :
    Proceeds calm system (system.setMember id member) :=
  .of_writes [] ⟨layout_modifySlot_member hkind, rfl, rfl⟩ fun _ ha => nomatch ha

theorem poison_proceeds {calm : Prop} (h : calm → ¬ system.pipeline.isUsable id) :
    Proceeds calm system (system.poison id) where
  wiring := wiring_modifySlot fun _ _ => rfl
  isStarted := fun h => h
  usable := fun hcalm other hother => by
    rcases eq_or_ne id other with rfl | hne
    · exact absurd hother (h hcalm)
    · exact (isUsable_modifySlot_of_ne hne _).trans hother
  isStuck := rfl
  journal := ⟨[], rfl, by simp⟩

variable [Stage W σ]

omit [Stage W σ] in
theorem isCallChain_of_slot?_eq_some {slot : Slot σ ρ}
    (hslot : system.pipeline.slot? id = some slot) :
    system.pipeline.layout.IsCallChain [id] := by
  refine .singleton ?_
  rw [size_layout]
  exact lt_size_of_slot?_eq_some hslot

/-- What a callback outside of deliveries writes down. -/
theorem performAlone_writes {α : Type} (hp : system.pipeline.WellConnected) {slot : Slot σ ρ}
    (hslot : system.pipeline.slot? id = some slot) (occasion : Occasion)
    (callback : Callback W α) :
    ∃ inside, Writes (system.note (.called { stage := id, occasion, held := [] }))
        ((system.note (.called { stage := id, occasion, held := [] })).perform callback
          (emitFrom [id] id)).2 inside
      ∧ Conforms system.pipeline.layout (.callback id []) inside := by
  have hchain := isCallChain_of_slot?_eq_some hslot
  have hlayout : (system.note (.called { stage := id, occasion, held := [] })).pipeline.layout
      = system.pipeline.layout := rfl
  refine perform_writes ?_ callback hlayout
  intro output event system h
  exact emitFrom_writes hp.layout hchain (by simp) output event h

/-- A callback holds its stage or reader. -/
theorem callBack_proceeds {μ : Type} (member : μ → Member σ ρ) (hp : system.pipeline.WellConnected)
    {slot : Slot σ ρ} (hslot : system.pipeline.slot? id = some slot)
    (hkind : ∀ value, slot.member.kind = (member value).kind) (occasion : Occasion)
    (callback : Surroundings → Callback W (Ending × μ)) {calm : Prop}
    (hcalm : calm → (system.callBack id occasion callback member).1 = .panicked → slot.isReader) :
    Proceeds calm system (system.callBack id occasion callback member).2 := by
  let entry := Entry.called { stage := id, occasion, held := [] }
  have hchain := isCallChain_of_slot?_eq_some hslot
  obtain ⟨inside, hwrites, hconforms⟩ :=
    performAlone_writes hp hslot occasion (callback ((system.note entry).surroundings id))
  have hnote : Proceeds calm system (system.note entry) := by
    refine .of_writes [entry] (.note system entry) fun a ha => ?_
    obtain rfl := Entry.called.inj (List.mem_singleton.mp ha)
    exact hchain.of_wiring_eq (wiring_layout system.pipeline).symm
  unfold callBack at hcalm ⊢
  dsimp only at hcalm ⊢
  generalize System.perform _ _ _ = performed at hwrites hcalm ⊢
  obtain ⟨⟨ending, value⟩, next⟩ := performed
  have hput : Proceeds calm system (next.setMember id (member value)) := by
    refine hnote.trans (.trans (.of_conforms hp hwrites hconforms hchain)
      (setMember_proceeds fun slot' hslot' => ?_))
    exact (kind_of_layout_eq hwrites.layout hslot hslot').trans (hkind value)
  cases ending with
  | returned | failed => exact hput
  | panicked =>
    refine hput.trans (poison_proceeds fun h husable => ?_)
    have hstage := isStage_of_isUsable husable
    rw [isStage_of_wiring_eq hput.wiring, isStage, hslot, Option.any_some, hcalm h rfl] at hstage
    cases hstage

/-! ## One member after the other -/

omit [Stage W σ] in
/-- Visiting members is calm if it comes to its end. -/
theorem forMembers_proceeds (step : System W σ ρ → StageId → Ending × System W σ ρ)
    (hstep : ∀ id (system : System W σ ρ), system.pipeline.WellConnected →
      Proceeds ((step system id).1 ≠ .panicked) system (step system id).2)
    (ids : List StageId) (hp : system.pipeline.WellConnected) :
    Proceeds ((forMembers step ids system).1 = true) system (forMembers step ids system).2 := by
  induction ids generalizing system with
  | nil => exact .refl system
  | cons id ids ih =>
    have hfirst := hstep id system hp
    rw [forMembers]
    generalize step system id = result at hfirst ⊢
    obtain ⟨ending, next⟩ := result
    cases ending with
    | panicked => exact hfirst.mono (by simp)
    | returned | failed => exact (hfirst.mono (by simp)).trans (ih (hfirst.wellConnected hp))

theorem startMember_proceeds (id : StageId) (hp : system.pipeline.WellConnected) :
    Proceeds ((system.startMember id).1 ≠ .panicked) system (system.startMember id).2 := by
  unfold startMember
  split
  · next stage hstage =>
    obtain ⟨slot, hslot, _⟩ := Option.bind_eq_some_iff.mp hstage
    have husable : system.pipeline.isUsable id := by rw [isUsable, hstage]; rfl
    exact callBack_proceeds .stage hp hslot (fun _ => kind_of_isUsable husable slot hslot) _ _
      fun h hpanicked => absurd hpanicked h
  · exact .refl system

variable [Reader W ρ]

theorem terminateMember_proceeds (id : StageId) (hp : system.pipeline.WellConnected) :
    Proceeds ((system.terminateMember id).1 ≠ .panicked) system (system.terminateMember id).2 := by
  unfold terminateMember
  split
  · next hslot =>
    exact callBack_proceeds .stage hp hslot (fun _ => rfl) _ _ fun h hpanicked => absurd hpanicked h
  · next hslot =>
    exact callBack_proceeds .reader hp hslot (fun _ => rfl) _ _
      fun h hpanicked => absurd hpanicked h
  · exact .refl system

/-! ## Start, wait and end -/

omit [Reader W ρ] in
theorem start_proceeds (hp : system.pipeline.WellConnected) :
    Proceeds (system.start.1 ≠ .panicked) system system.start.2
      ∧ system.start.2.pipeline.isStarted := by
  unfold start
  split
  · next hstarted => exact ⟨.refl system, hstarted⟩
  · have hset : ∀ {c : Prop}, Proceeds c system
        { system with pipeline := { system.pipeline with isStarted := true } } :=
      .of_slots_eq rfl rfl (fun _ => rfl) rfl rfl
    have hall := forMembers_proceeds startMember (fun id _ hp => startMember_proceeds id hp)
      ({ system.pipeline with isStarted := true } : Pipeline σ ρ).order
      (hset.wellConnected (c := True) hp)
    dsimp only at hall ⊢
    split
    · next hcase =>
      rw [hcase] at hall
      exact ⟨hset.trans (hall.mono (absurd rfl)), hall.isStarted rfl⟩
    · next hcase =>
      rw [hcase] at hall
      exact ⟨hset.trans ((hall.mono fun _ => rfl).trans (.of_slots_eq rfl rfl id rfl rfl)),
        hall.isStarted rfl⟩

theorem runReader_proceeds {calm : Prop} (id : StageId) (hp : system.pipeline.WellConnected) :
    Proceeds calm system (system.runReader id).2 := by
  unfold runReader
  split
  · next reader _ hslot =>
    have hback := callBack_proceeds .reader hp hslot (fun _ => rfl) .read (Reader.read · reader)
      fun (_ : calm) _ => rfl
    split <;> next hcase => rw [hcase] at hback; exact hback
  · exact .refl system

theorem joinAll_proceeds {calm : Prop} (ids : List StageId) (hp : system.pipeline.WellConnected) :
    Proceeds calm system (joinAll ids system).2 := by
  induction ids generalizing system with
  | nil => exact .refl system
  | cons id ids ih =>
    have hfirst : Proceeds calm system (system.runReader id).2 := runReader_proceeds id hp
    exact hfirst.trans (ih (hfirst.wellConnected hp))

theorem join_proceeds {calm : Prop} (hp : system.pipeline.WellConnected) :
    Proceeds calm system system.join.2 := by
  have hset : Proceeds calm system
      { system with pipeline := { system.pipeline with running := [] } } :=
    .of_slots_eq rfl rfl id rfl rfl
  exact hset.trans (joinAll_proceeds system.pipeline.running (hset.wellConnected hp))

theorem terminate_proceeds (hp : system.pipeline.WellConnected) :
    Proceeds (system.terminate.1 ≠ .panicked) system system.terminate.2 := by
  have hset : ∀ {c : Prop}, Proceeds c system
      { system with pipeline := { system.pipeline with isTerminated := true } } :=
    .of_slots_eq rfl rfl id rfl rfl
  unfold terminate
  dsimp only
  split
  · exact hset
  · have hclosed : ∀ {c : Prop}, Proceeds c system { system with
        pipeline := { system.pipeline with isTerminated := true, isClosed := true } } :=
      .of_slots_eq rfl rfl id rfl rfl
    have hall := forMembers_proceeds terminateMember
      (fun id _ hp => terminateMember_proceeds id hp) system.pipeline.order
      (hclosed.wellConnected (c := True) hp)
    refine hclosed.trans (hall.mono ?_)
    intro hcalm
    by_contra hnot
    exact hcalm (if_neg hnot)

theorem run_proceeds (hp : system.pipeline.WellConnected) :
    Proceeds (system.run.1 ≠ .panicked) system system.run.2
      ∧ system.run.2.pipeline.isStarted := by
  obtain ⟨hstart, hstarted⟩ := start_proceeds hp
  unfold run
  split
  · next started hcase =>
    rw [hcase] at hstart hstarted
    have hjoin : ∀ {c : Prop}, Proceeds c started started.join.2 :=
      join_proceeds (hstart.wellConnected hp)
    have hterminate := terminate_proceeds
      (hjoin.wellConnected (c := True) (hstart.wellConnected hp))
    have hfirst : ∀ {c : Prop}, Proceeds c system started := hstart.mono (by simp)
    dsimp only
    split
    · next hcase =>
      rw [hcase] at hterminate
      have hrest : ∀ {c : Prop}, Proceeds c started _ := hjoin.trans (hterminate.mono (by simp))
      exact ⟨hfirst.trans hrest, (hrest (c := True)).isStarted hstarted⟩
    · next hcase =>
      rw [hcase] at hterminate
      exact ⟨hfirst.trans (hjoin.trans hterminate), (hjoin.trans hterminate).isStarted hstarted⟩
  · next hcase =>
    rw [hcase] at hstart hstarted
    exact ⟨hstart, hstarted⟩

omit [Reader W ρ] in
theorem configure_proceeds (id : StageId) (key : String) (value : Setting) :
    Proceeds ((system.configure id key value).1 ≠ .panicked) system
      (system.configure id key value).2 := by
  unfold configure
  split
  · exact .refl system
  · exact .refl system
  · exact .refl system
  · next stage _ hslot =>
    dsimp only
    have hput : ∀ {c : Prop}, Proceeds c system (System.setMember
        { system with world := (Stage.onSetting key value stage system.world).2 } id
        (.stage (Stage.onSetting key value stage system.world).1.2)) := by
      intro c
      have hworld : Proceeds c system
          { system with world := (Stage.onSetting key value stage system.world).2 } :=
        .of_slots_eq rfl rfl (fun h => h) rfl rfl
      refine hworld.trans (setMember_proceeds fun slot' hslot' => ?_)
      obtain rfl := Option.some.inj (hslot.symm.trans hslot')
      rfl
    split
    · exact hput
    · exact hput
    · exact hput.trans (poison_proceeds fun h => absurd rfl h)

end System

end CallTrace.Pipeline
