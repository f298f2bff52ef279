import CallTrace.Proofs.Pipeline.Commands

/-!
# Events and the ports they arrive at

A delivery looks at no types. That every event is nevertheless one that the input port declares is
due to two checks, one where the event is given out and one where the connection was made: what an
output gives out may pass every input it fits (`accepts_of_canConnectTo`), because assignability is
transitive.

So stages may rely on their ports. What their callbacks keep up under this assumption holds in every
run (`executeAll_typed`); with nothing to keep up, what is left is that the types are right.
-/

namespace CallTrace.Pipeline

variable {V W σ ρ α β : Type}

/-! ## Types of ports -/

namespace EventType

theorem lineage_subset : ∀ {special general : EventType}, general ∈ special.lineage →
    general.lineage ⊆ special.lineage := by
  intro special general h
  cases special <;> cases general <;> revert h <;> decide

theorem isAssignableFrom_trans {a b c : EventType} (hab : a.isAssignableFrom b)
    (hbc : b.isAssignableFrom c) : a.isAssignableFrom c := by
  simp only [isAssignableFrom, List.contains_iff_mem] at hab hbc ⊢
  exact lineage_subset hbc hab

theorem isAssignableFrom_any (type : EventType) : any.isAssignableFrom type := by
  cases type <;> decide

end EventType

namespace Port

theorem accepts_iff {port : Port} {type : EventType} :
    port.accepts type
      ↔ port.types = [] ∨ ∃ declared ∈ port.types, declared.isAssignableFrom type := by
  simp [accepts, acceptsAny]

/-- **What an output gives out may pass every input it can be connected to.** -/
theorem accepts_of_canConnectTo {output input : Port} {type : EventType}
    (hfits : output.canConnectTo input) (haccepts : output.accepts type) : input.accepts type := by
  unfold canConnectTo at hfits
  split at hfits
  · next hany => exact accepts_iff.mpr (.inl (List.isEmpty_iff.mp hany))
  · split at hfits
    · have hmem := List.contains_iff_mem.mp hfits
      exact accepts_iff.mpr (.inr ⟨.any, hmem, EventType.isAssignableFrom_any type⟩)
    · next hsome =>
      rcases accepts_iff.mp haccepts with hnil | ⟨out, hout, htype⟩
      · exact absurd (List.isEmpty_iff.mpr hnil) hsome
      · obtain ⟨inp, hinp, hassignable⟩ := List.any_eq_true.mp (List.all_eq_true.mp hfits out hout)
        exact accepts_iff.mpr (.inr ⟨inp, hinp, EventType.isAssignableFrom_trans hassignable htype⟩)

theorem find?_eq_some {ports : List Port} {name : String} {direction : PortDirection} {port : Port}
    (h : find? ports name direction = some port) :
    port ∈ ports ∧ port.name = name ∧ port.direction = direction := by
  have hthis := List.find?_some h
  simp only [Bool.and_eq_true, beq_iff_eq] at hthis
  exact ⟨List.mem_of_find?_eq_some h, hthis⟩

end Port

/-! ## What arrives -/

section Takes

variable {p q : Pipeline σ ρ} {target : StageId} {input : String} {type : EventType}

/-- An input port is there and declares a type. -/
def Takes (p : Pipeline σ ρ) (target : StageId) (input : String) (type : EventType) : Prop :=
  ∃ port, p.input? target input = some port ∧ port.accepts type

theorem Takes.of_wiring_eq (h : p.Takes target input type) (hwiring : q.wiring = p.wiring) :
    q.Takes target input type := by
  unfold Takes
  rw [input?_of_wiring_eq hwiring]
  exact h

/-- The subscribers of an output take what it gives out. -/
theorem WellConnected.takes (hp : p.WellConnected) {source : StageId} {output : String}
    {port : Port} (hport : p.outputFor? source output type = some port) {s : Subscriber}
    (hs : s ∈ p.subscribers source port.name) : p.Takes s.target s.input type := by
  obtain ⟨hout, haccepts⟩ := Option.filter_eq_some_iff.mp hport
  rw [hp.subscribers] at hs
  obtain ⟨c, hc, rfl⟩ := List.mem_map.mp hs
  obtain ⟨hmem, hleaves⟩ := List.mem_filter.mp hc
  simp only [Connection.leaves, Bool.and_eq_true, decide_eq_true_eq] at hleaves
  obtain ⟨out, inp, hjoins⟩ := hp.joins c hmem
  refine ⟨inp, hjoins.input, Port.accepts_of_canConnectTo hjoins.fits ?_⟩
  have heq := hjoins.output
  rw [hleaves.1, hleaves.2, name_of_output?_eq_some hout, hout] at heq
  exact Option.some.inj heq ▸ haccepts

end Takes

/-! ## What callbacks keep up -/

namespace Callback

/-- Whatever a callback is answered, it keeps up an invariant of the world, and its results are
so. -/
def Keeps (I : W → Prop) (P : α → Prop) : Callback W α → Prop
  | done result => P result
  | Callback.emit _ _ next => ∀ accepted, (next accepted).Keeps I P
  | update change next => (∀ world, I world → I (change world)) ∧ next.Keeps I P
  | observe next => ∀ world, I world → (next world).Keeps I P

variable {I : W → Prop}

/-- A callback on a part of a larger world keeps up what concerns the rest of it. -/
theorem All.keeps_within {J : V → Prop} {part : V → W} {replace : W → V → V} {P : α → Prop}
    (hreplace : ∀ w v, J v → J (replace w v)) {callback : Callback W α} (h : callback.All P) :
    (callback.within part replace).Keeps J P := by
  induction callback with
  | done result => exact h
  | emit port event next ih => exact fun accepted => ih accepted (h accepted)
  | update change next ih => exact ⟨fun v hv => hreplace _ _ hv, ih h⟩
  | observe next ih => exact fun v _ => ih (part v) (h (part v))

theorem Keeps.mono {P Q : α → Prop} {callback : Callback W α} (h : callback.Keeps I P)
    (himp : ∀ result, P result → Q result) : callback.Keeps I Q := by
  induction callback with
  | done result => exact himp result h
  | emit port event next ih => exact fun accepted => ih accepted (h accepted)
  | update change next ih => exact ⟨h.1, ih h.2⟩
  | observe next ih => exact fun world hworld => ih world (h world hworld)

theorem Keeps.bind {P : α → Prop} {Q : β → Prop} {callback : Callback W α} {f : α → Callback W β}
    (h : callback.Keeps I P) (hf : ∀ result, P result → (f result).Keeps I Q) :
    (callback >>= f).Keeps I Q := by
  induction callback with
  | done result => exact hf result h
  | emit port event next ih => exact fun accepted => ih accepted (h accepted)
  | update change next ih => exact ⟨h.1, ih h.2⟩
  | observe next ih => exact fun world hworld => ih world (h world hworld)

end Callback

/-- Stages stay in line with the ports of their slots, and stages and readers keep up an invariant
of the world, as long as handlers are given only events that the input port declares. -/
structure RelyOnPorts (I : W → Prop) (Suits : List Port → σ → Prop) (ρ : Type) [Stage W σ]
    [Reader W ρ] : Prop where
  added : ∀ stage : σ, Suits (Stage.ports stage) stage
  onStart : ∀ surroundings ports (stage : σ), Suits ports stage →
    (Stage.onStart surroundings stage).Keeps I fun result => Suits ports result.2
  onEvent : ∀ surroundings ports (stage : σ) input port event, Suits ports stage →
    Port.find? ports input .input = some port → port.accepts event.type →
    (Stage.onEvent surroundings input event stage).Keeps I fun result => Suits ports result.2
  onTerminate : ∀ surroundings ports (stage : σ), Suits ports stage →
    (Stage.onTerminate surroundings stage).Keeps I fun result => Suits ports result.2
  onSetting : ∀ key value ports (stage : σ) world, Suits ports stage → I world →
    Suits ports (Stage.onSetting key value stage world).1.2
      ∧ I (Stage.onSetting key value stage world).2
  read : ∀ surroundings (reader : ρ), (Reader.read surroundings reader).Keeps I fun _ => True
  readerOnTerminate : ∀ surroundings (reader : ρ),
    (Reader.onTerminate surroundings reader).Keeps I fun _ => True

/-- All stages are in line with the ports of their slots. -/
def AllSuit (Suits : List Port → σ → Prop) (p : Pipeline σ ρ) : Prop :=
  ∀ id slot stage, p.slot? id = some slot → slot.member = .stage stage → Suits slot.ports stage

/-- A pipeline at work in which everything is as stages may rely on. -/
structure Typed (I : W → Prop) (Suits : List Port → σ → Prop) (system : System W σ ρ) : Prop where
  wellConnected : system.pipeline.WellConnected
  suits : AllSuit Suits system.pipeline
  world : I system.world
  takes : ∀ a input event, Entry.called a ∈ system.journal → a.occasion = .event input event →
    system.pipeline.Takes a.stage input event.type

/-- An operation after which everything is as stages may rely on, and wired as before. -/
structure Stays (I : W → Prop) (Suits : List Port → σ → Prop) (before after : System W σ ρ) :
    Prop where
  typed : Typed I Suits after
  wiring : after.pipeline.wiring = before.pipeline.wiring

variable {I : W → Prop} {Suits : List Port → σ → Prop} {system before between after : System W σ ρ}
  {id : StageId}

theorem Typed.stays (h : Typed I Suits system) : Stays I Suits system system := ⟨h, rfl⟩

theorem Stays.trans (h : Stays I Suits before between) (hlater : Stays I Suits between after) :
    Stays I Suits before after :=
  ⟨hlater.typed, hlater.wiring.trans h.wiring⟩

namespace Typed

/-- Changing neither slots nor connections, world and journal. -/
theorem of_slots_eq (h : Typed I Suits before)
    (hslots : after.pipeline.slots = before.pipeline.slots)
    (hconnections : after.pipeline.connections = before.pipeline.connections)
    (hworld : after.world = before.world) (hjournal : after.journal = before.journal) :
    Stays I Suits before after := by
  have hwiring : after.pipeline.wiring = before.pipeline.wiring := by
    rw [Pipeline.wiring, Pipeline.wiring, hslots, hconnections]
  refine ⟨⟨h.wellConnected.of_wiring_eq hwiring, ?_, hworld ▸ h.world, ?_⟩, hwiring⟩
  · unfold AllSuit slot?
    rw [hslots]
    exact h.suits
  · intro a input event ha hoccasion
    exact (h.takes a input event (hjournal ▸ ha) hoccasion).of_wiring_eq hwiring

theorem setWorld (h : Typed I Suits system) {world : W} (hworld : I world) :
    Typed I Suits { system with world } :=
  ⟨h.wellConnected, h.suits, hworld, h.takes⟩

theorem note (h : Typed I Suits system) {entry : Entry}
    (hentry : ∀ a input event, entry = .called a → a.occasion = .event input event →
      system.pipeline.Takes a.stage input event.type) :
    Stays I Suits system (system.note entry) := by
  refine ⟨⟨h.wellConnected, h.suits, h.world, ?_⟩, rfl⟩
  intro a input event ha hoccasion
  rcases List.mem_cons.mp ha with heq | ha
  · exact hentry a input event heq.symm hoccasion
  · exact h.takes a input event ha hoccasion

theorem noteEmitted (h : Typed I Suits system) (source : StageId) (output : String) (event : Event)
    (accepted : Bool) :
    Stays I Suits system (system.note (.emitted source output event accepted)) := by
  refine h.note ?_
  rintro _ _ _ ⟨⟩

/-- Changing a slot, but neither its wiring nor what its stage is in line with. -/
theorem modifySlot (h : Typed I Suits system) {f : Slot σ ρ → Slot σ ρ}
    (hwiring : ∀ slot, system.pipeline.slot? id = some slot → (f slot).wiring = slot.wiring)
    (hsuits : ∀ slot stage, system.pipeline.slot? id = some slot → (f slot).member = .stage stage →
      Suits (f slot).ports stage) :
    Stays I Suits system { system with pipeline := system.pipeline.modifySlot id f } := by
  have heq := wiring_modifySlot hwiring
  refine ⟨⟨h.wellConnected.of_wiring_eq heq, ?_, h.world, ?_⟩, heq⟩
  · intro other slot stage hslot hmember
    rw [slot?_modifySlot] at hslot
    split at hslot
    · next hid =>
      obtain ⟨old, hold, rfl⟩ := Option.map_eq_some_iff.mp hslot
      exact hsuits old stage (hid ▸ hold) hmember
    · exact h.suits other slot stage hslot hmember
  · intro a input event ha hoccasion
    exact (h.takes a input event ha hoccasion).of_wiring_eq heq

theorem poison (h : Typed I Suits system) (id : StageId) :
    Stays I Suits system (system.poison id) :=
  h.modifySlot (fun _ _ => rfl) fun slot stage hslot => h.suits id slot stage hslot

/-- Putting back a member that is in line with the ports of its slot. -/
theorem setMember (h : Typed I Suits system) {member : Member σ ρ}
    (hkind : ∀ slot, system.pipeline.slot? id = some slot → slot.member.kind = member.kind)
    (hsuits : ∀ slot stage, system.pipeline.slot? id = some slot → member = .stage stage →
      Suits slot.ports stage) :
    Stays I Suits system (system.setMember id member) := by
  refine h.modifySlot (fun slot hslot => ?_) hsuits
  have hreader : slot.isReader = ({ slot with member } : Slot σ ρ).isReader := by
    have hsame := hkind slot hslot
    unfold Slot.isReader
    cases hmember : slot.member <;> cases member <;> rw [hmember] at hsame
      <;> first | rfl | cases hsame
  rw [Slot.wiring, Slot.wiring, hreader]

end Typed

/-! ## Deliveries -/

namespace System

/-- A callback that keeps something up, with emissions that do. -/
theorem perform_stays {P : α → Prop} {emit : String → Event → System W σ ρ → Bool × System W σ ρ}
    (hemit : ∀ output event (system : System W σ ρ), Typed I Suits system →
      Stays I Suits system (emit output event system).2)
    {callback : Callback W α} (h : callback.Keeps I P) (hs : Typed I Suits system) :
    Stays I Suits system (system.perform callback emit).2
      ∧ P (system.perform callback emit).1 := by
  unfold perform
  induction callback generalizing system with
  | done result => exact ⟨hs.stays, h⟩
  | emit output event next ih =>
    have hfirst := hemit output event system hs
    obtain ⟨hrest, hresult⟩ := ih (emit output event system).1 (h _) hfirst.typed
    exact ⟨hfirst.trans hrest, hresult⟩
  | update change next ih =>
    obtain ⟨hrest, hresult⟩ := ih h.2 (hs.setWorld (h.1 system.world hs.world))
    exact ⟨⟨hrest.typed, hrest.wiring⟩, hresult⟩
  | observe next ih => exact ih system.world (h system.world hs.world) hs

/-- An event goes to subscribers that take it. -/
theorem broadcast_stays {deliver : StageId → String → Event → System W σ ρ → System W σ ρ}
    (hdeliver : ∀ target input event (system : System W σ ρ), Typed I Suits system →
      system.pipeline.Takes target input event.type →
      Stays I Suits system (deliver target input event system))
    (source : StageId) (output : String) (event : Event) (hs : Typed I Suits system) :
    Stays I Suits system (broadcast deliver source output event system).2 := by
  have hall : ∀ (subscribers : List Subscriber) (system : System W σ ρ), Typed I Suits system →
      (∀ s ∈ subscribers, system.pipeline.Takes s.target s.input event.type) →
      Stays I Suits system
        (subscribers.foldl (fun system s => deliver s.target s.input event system) system) := by
    intro subscribers
    induction subscribers with
    | nil => exact fun system hs _ => hs.stays
    | cons s subscribers ih =>
      intro system hs htakes
      have hfirst := hdeliver s.target s.input event system hs (htakes s List.mem_cons_self)
      refine hfirst.trans (ih _ hfirst.typed fun other hother => ?_)
      exact (htakes other (List.mem_cons_of_mem _ hother)).of_wiring_eq hfirst.wiring
  unfold broadcast
  split
  · next port hport =>
    have hnoted := hs.noteEmitted source output event true
    exact hnoted.trans (hall _ _ hnoted.typed fun s hmem => hs.wellConnected.takes hport hmem)
  · exact hs.noteEmitted source output event false

theorem kind_of_wiring_eq {p q : Pipeline σ ρ} {slot slot' : Slot σ ρ} (h : q.wiring = p.wiring)
    (hslot : p.slot? id = some slot) (hslot' : q.slot? id = some slot') :
    slot'.ports = slot.ports ∧ slot'.member.kind = slot.member.kind := by
  have hsame := wiring_slot? h id
  rw [hslot, hslot', Option.map_some, Option.map_some, Option.some.injEq] at hsame
  refine ⟨congrArg (·.ports) hsame, ?_⟩
  have hreader : slot'.isReader = slot.isReader := congrArg (·.isReader) hsame
  unfold Slot.isReader at hreader
  cases hmember : slot.member <;> cases hmember' : slot'.member
    <;> rw [hmember, hmember'] at hreader <;> first | rfl | cases hreader

variable [Stage W σ] [Reader W ρ]

omit [Reader W ρ] in
/-- **A delivery to a port that takes the event.** What the handler gives out goes to ports that
take it, too. -/
theorem deliver_stays (h : ∀ surroundings ports (stage : σ) input port event, Suits ports stage →
      Port.find? ports input .input = some port → port.accepts event.type →
      (Stage.onEvent surroundings input event stage).Keeps I fun result => Suits ports result.2)
    (depth : Nat) (held : List StageId) (target : StageId) (input : String) (event : Event)
    {system : System W σ ρ} (hs : Typed I Suits system)
    (htakes : system.pipeline.Takes target input event.type) :
    Stays I Suits system (deliver depth held target input event system) := by
  induction depth generalizing held target input event system with
  | zero => exact hs.of_slots_eq rfl rfl rfl rfl
  | succ depth ih =>
    unfold deliver
    split
    · next name ports stage isPoisoned subscribers hslot =>
      split
      · exact hs.of_slots_eq rfl rfl rfl rfl
      · split
        · exact hs.stays
        · obtain ⟨port, hport, haccepts⟩ := htakes
          have hfind : Port.find? ports input .input = some port := by
            rw [input?, hslot] at hport
            exact hport
          have hnoted : Stays I Suits system (system.note
              (.called { stage := target, occasion := .event input event, held })) := by
            refine hs.note fun a other given ha hoccasion => ?_
            cases ha
            cases hoccasion
            exact ⟨port, hport, haccepts⟩
          obtain ⟨hperformed, hsuits⟩ := perform_stays
            (fun output event system hs => broadcast_stays
              (fun target input event system hs htakes => ih _ target input event hs htakes)
              target output event hs)
            (h (system.surroundings target) ports stage input port event
              (hs.suits target _ stage hslot rfl) hfind haccepts)
            hnoted.typed
          have hboth := hnoted.trans hperformed
          refine hboth.trans (hperformed.typed.setMember ?_ ?_)
          · intro slot' hslot'
            exact (kind_of_wiring_eq hboth.wiring hslot hslot').2
          · rintro slot' stage' hslot' ⟨⟩
            rw [(kind_of_wiring_eq hboth.wiring hslot hslot').1]
            exact hsuits
    · exact hs.stays

variable (h : RelyOnPorts I Suits ρ)
include h

theorem emitFrom_stays (held : List StageId) (source : StageId) (output : String) (event : Event)
    (hs : Typed I Suits system) :
    Stays I Suits system (system.emitFrom held source output event).2 :=
  broadcast_stays (fun target input event _ hs htakes =>
    deliver_stays h.onEvent _ held target input event hs htakes) source output event hs

theorem answer_stays (hs : Typed I Suits system) (request : Request) :
    Stays I Suits system (system.answer request).2 := by
  cases request with
  | emit source output event =>
    cases event with
    | none => exact hs.stays
    | some event => exact emitFrom_stays h [] source output event hs
  | inject target input event =>
    rw [answer, inject]
    split
    · exact hs.stays
    · next port hport =>
      split
      · next haccepts =>
        rw [name_of_input?_eq_some hport]
        exact deliver_stays h.onEvent _ [] target input event hs ⟨port, hport, haccepts⟩
      · exact hs.stays

/-! ## Lifecycle -/

/-- A callback outside of deliveries. -/
theorem callBack_stays {μ : Type} (member : μ → Member σ ρ) (hs : Typed I Suits system)
    {slot : Slot σ ρ} (hslot : system.pipeline.slot? id = some slot)
    (hkind : ∀ value, slot.member.kind = (member value).kind) (occasion : Occasion)
    (hoccasion : ∀ input event, occasion ≠ .event input event)
    {callback : Surroundings → Callback W (Ending × μ)}
    (hback : ∀ surroundings, (callback surroundings).Keeps I fun result =>
      ∀ stage, member result.2 = .stage stage → Suits slot.ports stage) :
    Stays I Suits system (system.callBack id occasion callback member).2 := by
  have hnoted : Stays I Suits system
      (system.note (.called { stage := id, occasion, held := [] })) := by
    refine hs.note fun a input event ha hthis => ?_
    cases ha
    exact absurd hthis (hoccasion input event)
  obtain ⟨hperformed, hsuits⟩ := perform_stays
    (fun output event system hs => emitFrom_stays h [id] id output event hs)
    (hback ((system.note (.called { stage := id, occasion, held := [] })).surroundings id))
    hnoted.typed
  unfold callBack
  dsimp only
  generalize System.perform _ _ _ = performed at hperformed hsuits ⊢
  obtain ⟨⟨ending, value⟩, next⟩ := performed
  have hboth := hnoted.trans hperformed
  have hput : Stays I Suits system (next.setMember id (member value)) := by
    refine hboth.trans (hperformed.typed.setMember ?_ ?_)
    · intro slot' hslot'
      exact (kind_of_wiring_eq hboth.wiring hslot hslot').2.trans (hkind value)
    · intro slot' stage hslot' hmember
      rw [(kind_of_wiring_eq hboth.wiring hslot hslot').1]
      exact hsuits stage hmember
  cases ending with
  | returned | failed => exact hput
  | panicked => exact hput.trans (hput.typed.poison id)

omit [Stage W σ] [Reader W ρ] h in
/-- One member after the other. -/
theorem forMembers_stays {step : System W σ ρ → StageId → Ending × System W σ ρ}
    (hstep : ∀ id (system : System W σ ρ), Typed I Suits system →
      Stays I Suits system (step system id).2)
    (ids : List StageId) (hs : Typed I Suits system) :
    Stays I Suits system (forMembers step ids system).2 := by
  refine forMembers_keeps ?_ ids hs.stays
  intro id next hnext
  exact hnext.trans (hstep id next hnext.typed)

theorem startMember_stays (id : StageId) (hs : Typed I Suits system) :
    Stays I Suits system (system.startMember id).2 := by
  unfold startMember
  split
  · next stage hstage =>
    obtain ⟨slot, hslot, hthis⟩ := Option.bind_eq_some_iff.mp hstage
    have hmember : slot.member = .stage stage := by
      unfold Slot.stage? at hthis
      split at hthis
      · next heq _ => exact heq.trans (congrArg Member.stage (Option.some.inj hthis))
      · cases hthis
    refine callBack_stays h .stage hs hslot (fun _ => by rw [hmember]; rfl) .start
      (fun _ _ => nofun) fun s => ?_
    refine (h.onStart s slot.ports stage (hs.suits id slot stage hslot hmember)).mono ?_
    rintro result hsuits after ⟨⟩
    exact hsuits
  · exact hs.stays

theorem terminateMember_stays (id : StageId) (hs : Typed I Suits system) :
    Stays I Suits system (system.terminateMember id).2 := by
  unfold terminateMember
  split
  · next stage _ hslot =>
    refine callBack_stays h .stage hs hslot (fun _ => rfl) .terminate (fun _ _ => nofun)
      fun s => ?_
    refine (h.onTerminate s _ stage (hs.suits id _ stage hslot rfl)).mono ?_
    rintro result hsuits after ⟨⟩
    exact hsuits
  · next reader _ hslot =>
    refine callBack_stays h .reader hs hslot (fun _ => rfl) .terminate (fun _ _ => nofun)
      fun s => ?_
    exact (h.readerOnTerminate s reader).mono fun _ _ => nofun
  · exact hs.stays

theorem start_stays (hs : Typed I Suits system) : Stays I Suits system system.start.2 := by
  unfold start
  split
  · exact hs.stays
  · let started : System W σ ρ :=
      { system with pipeline := { system.pipeline with isStarted := true } }
    have hset : Stays I Suits system started := hs.of_slots_eq rfl rfl rfl rfl
    have hall := hset.trans (forMembers_stays (fun id _ hs => startMember_stays h id hs)
      started.pipeline.order hset.typed)
    dsimp only
    split
    · next hcase =>
      rw [hcase] at hall
      exact hall
    · next hcase =>
      rw [hcase] at hall
      exact hall.trans (hall.typed.of_slots_eq rfl rfl rfl rfl)

theorem runReader_stays (id : StageId) (hs : Typed I Suits system) :
    Stays I Suits system (system.runReader id).2 := by
  unfold runReader
  split
  · next reader _ hslot =>
    have hback : Stays I Suits system
        (system.callBack id .read (Reader.read · reader) .reader).2 :=
      callBack_stays h .reader hs hslot (fun _ => rfl) .read (fun _ _ => nofun) fun s =>
        (h.read s reader).mono fun _ _ => nofun
    split <;> next hcase => rw [hcase] at hback; exact hback
  · exact hs.stays

theorem joinAll_stays (ids : List StageId) (hs : Typed I Suits system) :
    Stays I Suits system (joinAll ids system).2 := by
  refine joinAll_keeps ?_ ids hs.stays
  intro id next hnext
  exact hnext.trans (runReader_stays h id hnext.typed)

theorem join_stays (hs : Typed I Suits system) : Stays I Suits system system.join.2 := by
  have hset : Stays I Suits system
      { system with pipeline := { system.pipeline with running := [] } } :=
    hs.of_slots_eq rfl rfl rfl rfl
  exact hset.trans (joinAll_stays h system.pipeline.running hset.typed)

theorem terminate_stays (hs : Typed I Suits system) : Stays I Suits system system.terminate.2 := by
  unfold terminate
  dsimp only
  split
  · exact hs.of_slots_eq rfl rfl rfl rfl
  · have hset : Stays I Suits system { system with
        pipeline := { system.pipeline with isTerminated := true, isClosed := true } } :=
      hs.of_slots_eq rfl rfl rfl rfl
    exact hset.trans
      (forMembers_stays (fun id _ hs => terminateMember_stays h id hs) _ hset.typed)

theorem run_stays (hs : Typed I Suits system) : Stays I Suits system system.run.2 := by
  have hstart := start_stays h hs
  unfold run
  split
  · next started hcase =>
    rw [hcase] at hstart
    have hjoin := join_stays h hstart.typed
    have hterminate := terminate_stays h hjoin.typed
    have hall := hstart.trans (hjoin.trans hterminate)
    dsimp only
    split <;> next hcase => rw [hcase] at hall; exact hall
  · next hcase =>
    rw [hcase] at hstart
    exact hstart

theorem configure_stays (id : StageId) (key : String) (value : Setting)
    (hs : Typed I Suits system) : Stays I Suits system (system.configure id key value).2 := by
  unfold configure
  split
  · exact hs.stays
  · exact hs.stays
  · exact hs.stays
  · next name ports stage subscribers hslot =>
    obtain ⟨hsuits, hworld⟩ :=
      h.onSetting key value ports stage system.world (hs.suits id _ stage hslot rfl) hs.world
    let changed : System W σ ρ :=
      { system with world := (Stage.onSetting key value stage system.world).2 }
    have hput : Stays I Suits changed
        (changed.setMember id (.stage (Stage.onSetting key value stage system.world).1.2)) := by
      refine (hs.setWorld hworld).setMember ?_ ?_
      · intro slot' hslot'
        obtain rfl := Option.some.inj (hslot.symm.trans hslot')
        rfl
      · rintro slot' stage' hslot' ⟨⟩
        obtain rfl := Option.some.inj (hslot.symm.trans hslot')
        exact hsuits
    have hput : Stays I Suits system _ := ⟨hput.typed, hput.wiring⟩
    dsimp only
    split
    · exact hput
    · exact hput
    · exact hput.trans (hput.typed.poison id)

end System

/-! ## Construction -/

/-- A step that declares all inputs as before, and adds only stages in line with their ports. -/
def Step.IsTyped (Suits : List Port → σ → Prop) (step : Step σ ρ α) : Prop :=
  ∀ p : Pipeline σ ρ, (∀ id input port, p.input? id input = some port →
      (step.run p).2.input? id input = some port)
    ∧ (AllSuit Suits p → AllSuit Suits (step.run p).2)

theorem addSlot_isTyped {slot : Slot σ ρ}
    (hslot : ∀ stage, slot.member = .stage stage → Suits slot.ports stage) :
    Step.IsTyped Suits (addSlot slot) := by
  intro p
  rw [addSlot_eq]
  split
  · exact ⟨fun _ _ _ => id, id⟩
  · constructor
    · intro id input port hport
      obtain ⟨old, hold, hfind⟩ := Option.bind_eq_some_iff.mp hport
      have hne := Nat.ne_of_lt (lt_size_of_slot?_eq_some hold)
      refine Option.bind_eq_some_iff.mpr ⟨old, ?_, hfind⟩
      rw [slot?_append, if_neg hne]
      exact hold
    · intro h id found stage hfound hmember
      rw [slot?_append] at hfound
      split at hfound
      · obtain rfl := Option.some.inj hfound
        exact hslot stage hmember
      · exact h id found stage hfound hmember

theorem tryConnect_isTyped (source : StageId) (output : String) (target : StageId)
    (input : String) :
    Step.IsTyped Suits (tryConnect source output target input : Step σ ρ ConnectionId) := by
  intro p
  rw [tryConnect_eq]
  split
  · exact ⟨fun _ _ _ => id, id⟩
  · next out inp _ =>
    have hslot : ∀ id, (p.addConnection ⟨⟨p.connections.length⟩, source, out.name, target,
        inp.name⟩).slot? id = _ := fun id => slot?_modifySlot p source id _
    constructor
    · intro id input port hport
      obtain ⟨old, hold, hfind⟩ := Option.bind_eq_some_iff.mp hport
      refine Option.bind_eq_some_iff.mpr ?_
      rw [hslot, hold]
      split
      · exact ⟨_, rfl, hfind⟩
      · exact ⟨old, rfl, hfind⟩
    · intro h id found stage hfound hmember
      rw [hslot] at hfound
      split at hfound
      · obtain ⟨old, hold, rfl⟩ := Option.map_eq_some_iff.mp hfound
        exact h id old stage hold hmember
      · exact h id found stage hfound hmember

namespace System

theorem construct_typed {step : Step σ ρ α} (hsound : step.IsSound) (htyped : step.IsTyped Suits)
    (given : α → Answer) (hs : Typed I Suits system) :
    Typed I Suits (system.construct step given).2 := by
  obtain ⟨hinputs, hsuits⟩ := htyped system.pipeline
  refine ⟨?_, hsuits hs.suits, hs.world, ?_⟩
  · rcases construct_cases hsound given with ⟨refusal, heq, -⟩ | ⟨-, value, q, heq, hextends⟩
    · rw [heq]
      exact hs.wellConnected
    · rw [heq]
      exact hextends.wellConnected hs.wellConnected
  · intro a input event ha hoccasion
    obtain ⟨port, hport, haccepts⟩ := hs.takes a input event ha hoccasion
    exact ⟨port, hinputs a.stage input port hport, haccepts⟩

variable [Stage W σ] [Reader W ρ]

theorem execute_typed (h : RelyOnPorts I Suits ρ) (hs : Typed I Suits system)
    (command : Command σ ρ) : Typed I Suits (system.execute command).2 := by
  cases command with
  | addStage stage =>
    refine construct_typed (addStage_isSound stage) (addSlot_isTyped ?_) .stage hs
    rintro other ⟨⟩
    exact h.added stage
  | addReader reader =>
    exact construct_typed (addReader_isSound reader) (addSlot_isTyped nofun) .stage hs
  | connect source output target input =>
    exact construct_typed (tryConnect_isSound source output target input)
      (tryConnect_isTyped source output target input) .connection hs
  | start => exact (start_stays h hs).typed
  | join => exact (join_stays h hs).typed
  | terminate => exact (terminate_stays h hs).typed
  | run => exact (run_stays h hs).typed
  | configure stage key value => exact (configure_stays h stage key value hs).typed
  | request request => exact (answer_stays h hs request).typed

/-- **Stages may rely on their ports**: what they keep up under the assumption that all events are
ones that the input port declares, holds whatever is asked of a pipeline. -/
theorem executeAll_typed (h : RelyOnPorts I Suits ρ) (hs : Typed I Suits system)
    (commands : List (Command σ ρ)) : Typed I Suits (executeAll commands system).2 := by
  induction commands generalizing system with
  | nil => exact hs
  | cons command commands ih => exact ih (execute_typed h hs command)

omit [Stage W σ] [Reader W ρ] in
theorem typed_empty {world : W} (hworld : I world) :
    Typed I Suits (empty world : System W σ ρ) :=
  ⟨wellConnected_empty, by simp [AllSuit, empty, slot?], hworld, by simp [empty]⟩

end System

end CallTrace.Pipeline
