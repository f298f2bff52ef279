import CallTrace.Proofs.Pipeline.Construction
import CallTrace.Proofs.Pipeline.Delivery

/-!
# Another reader in the same place

No event is ever delivered to a reader, so the stages of a pipeline do not notice which reader
stands before them. Two systems that differ in the reader in the first slot, in its connections and
in what is written down (`Twins`) stay so, whatever is delivered to their stages, and when they are
started and terminated.
-/

namespace CallTrace.Pipeline

variable {W σ ρ α V : Type} {p : Pipeline σ ρ} {front : Slot σ ρ} {connections : List Connection}
  {id : StageId}

/-! ## Pipelines -/

/-- The pipeline with another first slot and other connections. -/
def withFront (front : Slot σ ρ) (connections : List Connection) (p : Pipeline σ ρ) :
    Pipeline σ ρ :=
  { p with slots := front :: p.slots.tail, connections }

theorem slot?_withFront_zero : (p.withFront front connections).slot? ⟨0⟩ = some front := rfl

theorem slot?_withFront (hid : id ≠ ⟨0⟩) :
    (p.withFront front connections).slot? id = p.slot? id := by
  obtain ⟨index⟩ := id
  cases index with
  | zero => exact absurd rfl hid
  | succ index =>
    show p.slots.tail[index]? = p.slots[index + 1]?
    rw [List.getElem?_tail]

theorem subscribers_withFront (hid : id ≠ ⟨0⟩) (output : String) :
    (p.withFront front connections).subscribers id output = p.subscribers id output := by
  rw [subscribers, slot?_withFront hid, subscribers]

theorem outputFor?_withFront (hid : id ≠ ⟨0⟩) (output : String) (type : EventType) :
    (p.withFront front connections).outputFor? id output type = p.outputFor? id output type := by
  rw [outputFor?, output?, slot?_withFront hid, outputFor?, output?]

theorem modifySlot_withFront (hid : id ≠ ⟨0⟩) (f : Slot σ ρ → Slot σ ρ) :
    (p.withFront front connections).modifySlot id f
      = (p.modifySlot id f).withFront front connections := by
  obtain ⟨index⟩ := id
  cases index with
  | zero => exact absurd rfl hid
  | succ index =>
    have htail : ((front :: p.slots.tail).modify (index + 1) f)
        = front :: (p.slots.modify (index + 1) f).tail := by
      cases p.slots <;> simp [List.modify_succ_cons]
    exact congrArg (fun slots => { p with slots, connections }) htail

theorem modifySlot_zero_withFront (f : Slot σ ρ → Slot σ ρ) :
    (p.withFront front connections).modifySlot ⟨0⟩ f = p.withFront (f front) connections :=
  rfl

/-- There is a reader in the first slot. -/
def StartsWithReader (p : Pipeline σ ρ) : Prop := ∃ slot, p.slot? ⟨0⟩ = some slot ∧ slot.isReader

theorem StartsWithReader.modifySlot (h : p.StartsWithReader) (hid : id ≠ ⟨0⟩)
    (f : Slot σ ρ → Slot σ ρ) : (p.modifySlot id f).StartsWithReader := by
  obtain ⟨slot, hslot, hreader⟩ := h
  exact ⟨slot, by rw [slot?_modifySlot, if_neg hid, hslot], hreader⟩

theorem StartsWithReader.size_withFront (h : p.StartsWithReader) :
    (p.withFront front connections).size = p.size := by
  obtain ⟨slot, hslot, -⟩ := h
  have hpos : 0 < p.size := lt_size_of_slot?_eq_some hslot
  show p.slots.tail.length + 1 = p.slots.length
  rw [List.length_tail]
  exact Nat.sub_add_cancel hpos

/-! ## Systems -/

namespace System

/-- The second system is the first one with another reader in front. -/
structure Twins (front : Slot σ ρ) (connections : List Connection) (system twin : System W σ ρ) :
    Prop where
  pipeline : twin.pipeline = system.pipeline.withFront front connections
  world : twin.world = system.world
  reader : system.pipeline.StartsWithReader
  front : front.isReader

namespace Twins

variable {system twin : System W σ ρ}

theorem note (h : Twins front connections system twin) (entry other : Entry) :
    Twins front connections (system.note entry) (twin.note other) :=
  ⟨h.pipeline, h.world, h.reader, h.front⟩

theorem setWorld (h : Twins front connections system twin) (world : W) :
    Twins front connections { system with world } { twin with world } :=
  ⟨h.pipeline, rfl, h.reader, h.front⟩

theorem setStuck (h : Twins front connections system twin) (isStuck : Bool) :
    Twins front connections { system with isStuck } { twin with isStuck } :=
  ⟨h.pipeline, h.world, h.reader, h.front⟩

theorem modifySlot (h : Twins front connections system twin) (hid : id ≠ ⟨0⟩)
    (f : Slot σ ρ → Slot σ ρ) :
    Twins front connections { system with pipeline := system.pipeline.modifySlot id f }
      { twin with pipeline := twin.pipeline.modifySlot id f } where
  pipeline := by
    rw [h.pipeline]
    exact modifySlot_withFront hid f
  world := h.world
  reader := h.reader.modifySlot hid f
  front := h.front

theorem setMember (h : Twins front connections system twin) (hid : id ≠ ⟨0⟩)
    (member : Member σ ρ) :
    Twins front connections (system.setMember id member) (twin.setMember id member) :=
  h.modifySlot hid _

/-- The reader in front may change. -/
theorem modifyFront (h : Twins front connections system twin) {f : Slot σ ρ → Slot σ ρ}
    (hf : (f front).isReader) :
    Twins (f front) connections system
      { twin with pipeline := twin.pipeline.modifySlot ⟨0⟩ f } where
  pipeline := by
    rw [h.pipeline]
    exact modifySlot_zero_withFront f
  world := h.world
  reader := h.reader
  front := hf

theorem surroundings (h : Twins front connections system twin) (id : StageId) :
    twin.surroundings id = system.surroundings id := by
  rw [System.surroundings, h.pipeline]
  rfl

theorem slot? (h : Twins front connections system twin) (hid : id ≠ ⟨0⟩) :
    twin.pipeline.slot? id = system.pipeline.slot? id := by
  rw [h.pipeline, slot?_withFront hid]

theorem size (h : Twins front connections system twin) :
    twin.pipeline.size = system.pipeline.size := by
  rw [h.pipeline, h.reader.size_withFront]

theorem readers_eq (h : Twins front connections system twin) : twin.readers = system.readers := by
  rw [readers, readers, h.size]
  refine List.filter_congr fun id _ => ?_
  by_cases hid : id = ⟨0⟩
  · obtain ⟨slot, hslot, hreader⟩ := h.reader
    rw [hid, h.pipeline, slot?_withFront_zero, hslot, Option.any_some, Option.any_some, h.front,
      hreader]
  · rw [h.slot? hid]

/-- The same callback has the same result. -/
theorem perform {emit emit' : String → Event → System W σ ρ → Bool × System W σ ρ}
    (hemit : ∀ output event (system twin : System W σ ρ), Twins front connections system twin →
      (emit' output event twin).1 = (emit output event system).1
        ∧ Twins front connections (emit output event system).2 (emit' output event twin).2)
    (callback : Callback W α) (h : Twins front connections system twin) :
    (twin.perform callback emit').1 = (system.perform callback emit).1
      ∧ Twins front connections (system.perform callback emit).2
        (twin.perform callback emit').2 := by
  unfold System.perform
  induction callback generalizing system twin with
  | done result => exact ⟨rfl, h⟩
  | emit output event next ih =>
    obtain ⟨haccepted, hnext⟩ := hemit output event system twin h
    rw [Callback.run, Callback.run]
    generalize emit output event system = result at haccepted hnext ⊢
    generalize emit' output event twin = result' at haccepted hnext ⊢
    obtain ⟨accepted, after⟩ := result
    obtain ⟨accepted', after'⟩ := result'
    obtain rfl : accepted' = accepted := haccepted
    exact ih _ hnext
  | update change next ih =>
    rw [Callback.run, Callback.run, h.world]
    exact ih (h.setWorld _)
  | observe next ih =>
    rw [Callback.run, Callback.run, h.world]
    exact ih _ h

theorem broadcast {deliver : StageId → String → Event → System W σ ρ → System W σ ρ}
    (hdeliver : ∀ target input event (system twin : System W σ ρ),
      Twins front connections system twin →
      Twins front connections (deliver target input event system) (deliver target input event twin))
    {source : StageId} (hsource : source ≠ ⟨0⟩) (output : String) (event : Event)
    (h : Twins front connections system twin) :
    (System.broadcast deliver source output event twin).1
        = (System.broadcast deliver source output event system).1
      ∧ Twins front connections (System.broadcast deliver source output event system).2
        (System.broadcast deliver source output event twin).2 := by
  unfold System.broadcast
  rw [h.pipeline, outputFor?_withFront hsource]
  split
  · next port _ =>
    refine ⟨rfl, ?_⟩
    dsimp only
    rw [subscribers_withFront hsource]
    have hnoted := h.note (.emitted source output event true) (.emitted source output event true)
    generalize system.pipeline.subscribers source port.name = subscribers
    generalize system.note (.emitted source output event true) = noted at hnoted ⊢
    generalize twin.note (.emitted source output event true) = notedTwin at hnoted ⊢
    induction subscribers generalizing noted notedTwin with
    | nil => exact hnoted
    | cons subscriber subscribers ih => exact ih _ _ (hdeliver _ _ _ _ _ hnoted)
  · exact ⟨rfl, h.note _ _⟩

/-- A callback puts its member back. -/
theorem serve {μ : Type} {emit emit' : String → Event → System W σ ρ → Bool × System W σ ρ}
    (hemit : ∀ output event (system twin : System W σ ρ), Twins front connections system twin →
      (emit' output event twin).1 = (emit output event system).1
        ∧ Twins front connections (emit output event system).2 (emit' output event twin).2)
    (callback : Surroundings → Callback W (Ending × μ)) (member : μ → Member σ ρ) (hid : id ≠ ⟨0⟩)
    (h : Twins front connections system twin) :
    let result := system.perform (callback (system.surroundings id)) emit
    let result' := twin.perform (callback (twin.surroundings id)) emit'
    result'.1 = result.1 ∧ Twins front connections (result.2.setMember id (member result.1.2))
      (result'.2.setMember id (member result'.1.2)) := by
  intro result result'
  obtain ⟨hresult, hafter⟩ : result'.1 = result.1 ∧ Twins front connections result.2 result'.2 := by
    have htwin : result' = twin.perform (callback (system.surroundings id)) emit' :=
      congrArg (fun surroundings => twin.perform (callback surroundings) emit') (h.surroundings id)
    rw [htwin]
    exact h.perform hemit _
  rw [hresult]
  exact ⟨rfl, hafter.setMember hid _⟩

theorem forMembers {step : System W σ ρ → StageId → Ending × System W σ ρ}
    (hstep : ∀ id (system twin : System W σ ρ), Twins front connections system twin →
      (step twin id).1 = (step system id).1
        ∧ Twins front connections (step system id).2 (step twin id).2)
    (ids : List StageId) (h : Twins front connections system twin) :
    (System.forMembers step ids twin).1 = (System.forMembers step ids system).1
      ∧ Twins front connections (System.forMembers step ids system).2
        (System.forMembers step ids twin).2 := by
  induction ids generalizing system twin with
  | nil => exact ⟨rfl, h⟩
  | cons id ids ih =>
    obtain ⟨hending, hafter⟩ := hstep id system twin h
    rw [System.forMembers, System.forMembers]
    generalize step system id = result at hending hafter ⊢
    generalize step twin id = result' at hending hafter ⊢
    obtain ⟨ending, after⟩ := result
    obtain ⟨ending', after'⟩ := result'
    obtain rfl : ending' = ending := hending
    cases ending' with
    | panicked => exact ⟨rfl, hafter⟩
    | returned | failed => exact ih hafter

variable [Stage W σ]

/-- **The stages do not notice which reader is in front.** -/
theorem deliver (depth : Nat) (held : List StageId) (target : StageId) (input : String)
    (event : Event) (h : Twins front connections system twin) :
    Twins front connections (System.deliver depth held target input event system)
      (System.deliver depth held target input event twin) := by
  induction depth generalizing held target input event system twin with
  | zero => exact h.setStuck true
  | succ depth ih =>
    by_cases htarget : target = ⟨0⟩
    · subst htarget
      -- a reader takes no events
      have hsame : ∀ {system : System W σ ρ}, system.pipeline.StartsWithReader →
          System.deliver (depth + 1) held ⟨0⟩ input event system = system := by
        rintro system ⟨⟨_, _, member, _, _⟩, hslot, hreader⟩
        rw [System.deliver, hslot]
        cases member with
        | stage => cases hreader
        | reader => rfl
      rw [hsame h.reader, hsame ⟨front, by rw [h.pipeline]; rfl, h.front⟩]
      exact h
    · rw [System.deliver, System.deliver, h.slot? htarget]
      split
      · next stage isPoisoned _ _ =>
        split
        · exact h.setStuck true
        · split
          · exact h
          · have hcalled := h.note
              (.called { stage := target, occasion := .event input event, held })
              (.called { stage := target, occasion := .event input event, held })
            refine (hcalled.serve ?_ (Stage.onEvent · input event stage) .stage htarget).2
            intro output event system twin h
            exact h.broadcast (fun target' input event _ _ h => ih _ target' input event h) htarget
              output event
      · exact h

/-! ## Callbacks outside of deliveries -/

theorem emitFrom (held : List StageId) {source : StageId} (hsource : source ≠ ⟨0⟩)
    (output : String) (event : Event) (h : Twins front connections system twin) :
    (System.emitFrom held source output event twin).1
        = (System.emitFrom held source output event system).1
      ∧ Twins front connections (System.emitFrom held source output event system).2
        (System.emitFrom held source output event twin).2 := by
  rw [System.emitFrom, System.emitFrom, h.size]
  exact h.broadcast (fun target input event _ _ h => h.deliver _ held target input event) hsource
    output event

theorem callBack {μ : Type} (hid : id ≠ ⟨0⟩) (occasion : Occasion)
    (callback : Surroundings → Callback W (Ending × μ)) (member : μ → Member σ ρ)
    (h : Twins front connections system twin) :
    (twin.callBack id occasion callback member).1 = (system.callBack id occasion callback member).1
      ∧ Twins front connections (system.callBack id occasion callback member).2
        (twin.callBack id occasion callback member).2 := by
  have hcalled := h.note (.called { stage := id, occasion, held := [] })
    (.called { stage := id, occasion, held := [] })
  obtain ⟨hresult, hafter⟩ := hcalled.serve
    (fun output event _ _ h => h.emitFrom [id] hid output event) callback member hid
  unfold System.callBack
  dsimp only at hresult hafter ⊢
  generalize (system.note _).perform _ _ = result at hresult hafter ⊢
  generalize (twin.note _).perform _ _ = result' at hresult hafter ⊢
  obtain ⟨⟨ending, value⟩, after⟩ := result
  obtain ⟨⟨ending', value'⟩, after'⟩ := result'
  obtain ⟨rfl, rfl⟩ := Prod.mk.inj hresult
  cases ending' with
  | returned | failed => exact ⟨rfl, hafter⟩
  | panicked => exact ⟨rfl, hafter.modifySlot hid _⟩

theorem startMember (id : StageId) (h : Twins front connections system twin) :
    (twin.startMember id).1 = (system.startMember id).1
      ∧ Twins front connections (system.startMember id).2 (twin.startMember id).2 := by
  rw [System.startMember, System.startMember]
  by_cases hid : id = ⟨0⟩
  · have hnone : ∀ {slot : Slot σ ρ}, slot.isReader → slot.stage? = none := by
      rintro ⟨_, _, member, _, _⟩ hreader
      cases member with
      | stage => cases hreader
      | reader => rfl
    obtain ⟨slot, hslot, hreader⟩ := h.reader
    rw [hid, h.pipeline, slot?_withFront_zero, hslot, Option.bind_some, Option.bind_some,
      hnone hreader, hnone h.front]
    exact ⟨rfl, h⟩
  · rw [h.slot? hid]
    split
    · exact h.callBack hid _ _ _
    · exact ⟨rfl, h⟩

theorem terminateMember_of_ne [Reader W ρ] (hid : id ≠ ⟨0⟩)
    (h : Twins front connections system twin) :
    (twin.terminateMember id).1 = (system.terminateMember id).1
      ∧ Twins front connections (system.terminateMember id).2 (twin.terminateMember id).2 := by
  rw [System.terminateMember, System.terminateMember, h.slot? hid]
  split
  · exact h.callBack hid _ _ _
  · exact h.callBack hid _ _ _
  · exact ⟨rfl, h⟩

/-! ## Start and end -/

theorem start (horder : twin.pipeline.order = system.pipeline.order)
    (h : Twins front connections system twin) :
    twin.start.1 = system.start.1 ∧ Twins front connections system.start.2 twin.start.2 := by
  have hstarted : twin.pipeline.isStarted = system.pipeline.isStarted := by
    rw [h.pipeline]
    rfl
  unfold System.start
  rw [hstarted]
  split
  · exact ⟨rfl, h⟩
  · have hbegun : Twins front connections
        { system with pipeline := { system.pipeline with isStarted := true } }
        { twin with pipeline := { twin.pipeline with isStarted := true } } :=
      ⟨by rw [h.pipeline]; rfl, h.world, h.reader, h.front⟩
    have hsame : ({ twin.pipeline with isStarted := true } : Pipeline σ ρ).order
        = ({ system.pipeline with isStarted := true } : Pipeline σ ρ).order := horder
    dsimp only
    rw [hsame]
    generalize { system with pipeline := { system.pipeline with isStarted := true } } = begun
      at hbegun ⊢
    generalize { twin with pipeline := { twin.pipeline with isStarted := true } } = begunTwin
      at hbegun ⊢
    obtain ⟨hcompleted, hafter⟩ := hbegun.forMembers (fun id _ _ h => h.startMember id)
      ({ system.pipeline with isStarted := true } : Pipeline σ ρ).order
    generalize System.forMembers _ _ begun = result at hcompleted hafter ⊢
    generalize System.forMembers _ _ begunTwin = result' at hcompleted hafter ⊢
    obtain ⟨completed, after⟩ := result
    obtain ⟨completed', after'⟩ := result'
    obtain rfl : completed' = completed := hcompleted
    cases completed' with
    | false => exact ⟨rfl, hafter⟩
    | true =>
      refine ⟨rfl, ?_, hafter.world, hafter.reader, hafter.front⟩
      show { after'.pipeline with running := after'.readers } = _
      rw [hafter.readers_eq, hafter.pipeline]
      rfl

/-- A reader that does nothing in the end leaves the system as it was, apart from what is written
down. -/
theorem terminateMember_zero [Reader W ρ]
    (hidle : ∀ surroundings (reader : ρ), Reader.onTerminate surroundings reader
      = (pure (.returned, reader) : Callback W (Ending × ρ)))
    (h : system.pipeline.StartsWithReader) :
    ∃ journal, system.terminateMember ⟨0⟩ = (.returned, { system with journal }) := by
  obtain ⟨⟨name, ports, member, isPoisoned, subscribers⟩, hslot, hreader⟩ := h
  cases member with
  | stage stage => cases hreader
  | reader reader =>
    rw [System.terminateMember, hslot]
    cases isPoisoned with
    | true => exact ⟨_, rfl⟩
    | false =>
      dsimp only
      rw [callBack_eq (by rw [hidle]; rfl)]
      refine ⟨_, congrArg (Prod.mk _) (congrArg (fun pipeline => System.mk pipeline _ _ _)
        (modifySlot_of_eq_self hslot rfl))⟩

theorem terminate [Reader W ρ]
    (hidle : ∀ surroundings (reader : ρ), Reader.onTerminate surroundings reader
      = (pure (.returned, reader) : Callback W (Ending × ρ)))
    (horder : twin.pipeline.order = system.pipeline.order)
    (h : Twins front connections system twin) :
    twin.terminate.1 = system.terminate.1
      ∧ Twins front connections system.terminate.2 twin.terminate.2 := by
  have hclosed : twin.pipeline.isClosed = system.pipeline.isClosed := by
    rw [h.pipeline]
    rfl
  have hstep : ∀ id (system twin : System W σ ρ), Twins front connections system twin →
      (twin.terminateMember id).1 = (system.terminateMember id).1
        ∧ Twins front connections (system.terminateMember id).2 (twin.terminateMember id).2 := by
    intro id system twin h
    by_cases hid : id = ⟨0⟩
    · obtain ⟨_, hsystem⟩ := terminateMember_zero hidle h.reader
      have hreader : twin.pipeline.StartsWithReader := ⟨front, by rw [h.pipeline]; rfl, h.front⟩
      obtain ⟨_, htwin⟩ := terminateMember_zero hidle hreader
      rw [hid, hsystem, htwin]
      exact ⟨rfl, h.pipeline, h.world, h.reader, h.front⟩
    · exact h.terminateMember_of_ne hid
  unfold System.terminate
  dsimp only
  rw [hclosed]
  split
  · exact ⟨rfl, by rw [h.pipeline]; rfl, h.world, h.reader, h.front⟩
  · have hbegun : Twins front connections
        { system with pipeline := { system.pipeline with isTerminated := true, isClosed := true } }
        { twin with pipeline := { twin.pipeline with isTerminated := true, isClosed := true } } :=
      ⟨by rw [h.pipeline]; rfl, h.world, h.reader, h.front⟩
    have hsame :
        ({ twin.pipeline with isTerminated := true, isClosed := true } : Pipeline σ ρ).order
          = ({ system.pipeline with
              isTerminated := true, isClosed := true } : Pipeline σ ρ).order :=
      horder
    rw [hsame]
    obtain ⟨hcompleted, hafter⟩ := hbegun.forMembers hstep
      ({ system.pipeline with isTerminated := true, isClosed := true } : Pipeline σ ρ).order
    refine ⟨?_, hafter⟩
    exact congrArg (fun completed : Bool => if completed then Reply.done else .panicked) hcompleted

end Twins

end System

end CallTrace.Pipeline
