import CallTrace.Proofs.Pipeline.Construction
import CallTrace.Proofs.Pipeline.Delivery

/-!
# What a well-connected pipeline writes down

Whatever callbacks do, emissions and deliveries leave a journal of one form (`Conforms`): an
accepted event goes to all subscribers in the order of connecting, and all that one of them causes
comes before the next one. On the way no stage is called while it is held, and the bound on the
depth of deliveries is never met (`deliver_writes`, `broadcast_writes`).

That depends on what a pipeline is apart from the state of its members, its layout, which deliveries
leave alone.
-/

namespace CallTrace.Pipeline

variable {W σ ρ α : Type} {p : Pipeline σ ρ} {id : StageId}

theorem mem_and_source_of_leaves {connections : List Connection} {output : String} {c : Connection}
    (h : c ∈ connections.filter (·.leaves id output)) : c ∈ connections ∧ c.source = id := by
  simp only [List.mem_filter, Connection.leaves, Bool.and_eq_true, decide_eq_true_eq] at h
  exact ⟨h.1, h.2.1⟩

/-! ## Layout -/

/-- The kind of a member. -/
def Member.kind : Member σ ρ → Member Unit Unit
  | .stage _ => .stage ()
  | .reader _ => .reader ()

/-- A slot without the state of its member. -/
def Slot.layout (slot : Slot σ ρ) : Slot Unit Unit where
  name := slot.name
  ports := slot.ports
  member := slot.member.kind
  isPoisoned := slot.isPoisoned
  subscribers := slot.subscribers

/-- A pipeline without the states of its members. -/
def layout (p : Pipeline σ ρ) : Pipeline Unit Unit where
  slots := p.slots.map Slot.layout
  connections := p.connections
  isStarted := p.isStarted
  isTerminated := p.isTerminated
  isClosed := p.isClosed
  running := p.running

/-- Whether the slot with an id holds a stage that takes events. -/
def isUsable (p : Pipeline σ ρ) (id : StageId) : Bool := ((p.slot? id).bind Slot.stage?).isSome

theorem slot?_layout (p : Pipeline σ ρ) (id : StageId) :
    p.layout.slot? id = (p.slot? id).map Slot.layout :=
  List.getElem?_map ..

theorem wiring_layout (p : Pipeline σ ρ) : p.layout.wiring = p.wiring := by
  have hslot : ∀ slot : Slot σ ρ, slot.layout.wiring = slot.wiring := by
    rintro ⟨name, ports, member, isPoisoned, subscribers⟩
    cases member <;> rfl
  refine Prod.ext ?_ rfl
  show (p.slots.map Slot.layout).map Slot.wiring = p.slots.map Slot.wiring
  simp only [List.map_map, Function.comp_def, hslot]

theorem size_layout (p : Pipeline σ ρ) : p.layout.size = p.size :=
  size_of_wiring_eq (wiring_layout p)

theorem outputFor?_layout (p : Pipeline σ ρ) : p.layout.outputFor? = p.outputFor? := by
  funext id name type
  rw [outputFor?, output?_of_wiring_eq (wiring_layout p)]
  rfl

theorem subscribers_layout (p : Pipeline σ ρ) : p.layout.subscribers = p.subscribers :=
  subscribers_of_wiring_eq (wiring_layout p)

theorem stage?_layout (slot : Slot σ ρ) : slot.layout.stage?.isSome = slot.stage?.isSome := by
  obtain ⟨name, ports, member, isPoisoned, subscribers⟩ := slot
  cases member <;> cases isPoisoned <;> rfl

theorem isUsable_layout (p : Pipeline σ ρ) (id : StageId) :
    p.layout.isUsable id = p.isUsable id := by
  rw [isUsable, isUsable, slot?_layout]
  cases p.slot? id with
  | none => rfl
  | some slot => exact stage?_layout slot

theorem layout_modifySlot {f : Slot σ ρ → Slot σ ρ}
    (h : ∀ slot, p.slot? id = some slot → (f slot).layout = slot.layout) :
    (p.modifySlot id f).layout = p.layout := by
  rw [layout, map_slots_modifySlot h]
  rfl

/-- A member that is put back leaves the layout as it was. -/
theorem layout_modifySlot_member {member : Member σ ρ}
    (h : ∀ slot, p.slot? id = some slot → slot.member.kind = member.kind) :
    (p.modifySlot id ({ · with member })).layout = p.layout := by
  refine layout_modifySlot fun slot hslot => ?_
  rw [Slot.layout, Slot.layout, h slot hslot]

theorem kind_of_isUsable (h : p.isUsable id) :
    ∀ slot, p.slot? id = some slot → slot.member.kind = .stage () := by
  intro slot hslot
  rw [isUsable, hslot, Option.bind_some, Slot.stage?] at h
  split at h
  · next hmember _ => rw [hmember]; rfl
  · cases h

/-! ## Stages that are held -/

/-- Stages that can be held at one time, the innermost one first: a path through the pipeline. -/
structure IsCallChain (p : Pipeline σ ρ) (stages : List StageId) : Prop where
  path : IsPath p.connections stages
  lt_size : ∀ id ∈ stages, id.index < p.size

namespace IsCallChain

variable {stages : List StageId}

theorem nodup (h : p.IsCallChain stages) (hp : p.WellConnected) : stages.Nodup :=
  hp.acyclic.nodup_of_isPath h.path

/-- No more stages are held than there are. -/
theorem length_le (h : p.IsCallChain stages) (hp : p.WellConnected) : stages.length ≤ p.size :=
  length_le_of_nodup (h.nodup hp) h.lt_size

theorem singleton (h : id.index < p.size) : p.IsCallChain [id] :=
  ⟨List.isChain_singleton id, by simpa using h⟩

/-- Behind the stage that a connection leaves comes the one it leads to. -/
theorem cons (h : p.IsCallChain stages) (hp : p.WellConnected) {c : Connection}
    (hc : c ∈ p.connections) (hhead : ∀ id ∈ stages.head?, id = c.source) :
    p.IsCallChain (c.target :: stages) := by
  obtain ⟨out, inp, hjoins⟩ := hp.joins c hc
  obtain ⟨slot, hslot, _⟩ := Option.bind_eq_some_iff.mp hjoins.input
  refine ⟨List.isChain_cons.mpr ⟨?_, h.path⟩, ?_⟩
  · intro id hid
    exact ⟨c, hc, (hhead id hid).symm, rfl⟩
  · intro id hid
    rcases List.mem_cons.mp hid with rfl | hid
    · exact lt_size_of_slot?_eq_some hslot
    · exact h.lt_size id hid

end IsCallChain

/-! ## The form of the journal -/

/-- What is done while certain stages are held, the innermost one first. -/
inductive Part where
  /-- An event is given out, and accepted or not. -/
  | emission (held : List StageId) (source : StageId) (output : String) (event : Event)
    (accepted : Bool)
  /-- An event is delivered to one subscriber after the other. -/
  | deliveries (held : List StageId) (event : Event) (subscribers : List Subscriber)
  /-- An event is delivered. -/
  | delivery (held : List StageId) (event : Event) (subscriber : Subscriber)
  /-- A callback runs, with its stage held as the innermost one. -/
  | callback (stage : StageId) (held : List StageId)

/-- The entries of what is done in a pipeline of a certain layout, in order of time. -/
inductive Conforms (l : Pipeline Unit Unit) : Part → List Entry → Prop
  | refused {held source output event} (h : l.outputFor? source output event.type = none) :
    Conforms l (.emission held source output event false) [.emitted source output event false]
  | accepted {held source output event port entries}
    (h : l.outputFor? source output event.type = some port)
    (hall : Conforms l (.deliveries held event
      ((l.connections.filter (·.leaves source port.name)).map (·.subscriber))) entries) :
    Conforms l (.emission held source output event true)
      (.emitted source output event true :: entries)
  | delivered {held event} : Conforms l (.deliveries held event []) []
  | next {held event subscriber subscribers first later}
    (hfirst : Conforms l (.delivery held event subscriber) first)
    (hlater : Conforms l (.deliveries held event subscribers) later) :
    Conforms l (.deliveries held event (subscriber :: subscribers)) (first ++ later)
  | passedOver {held event subscriber} (h : l.isUsable subscriber.target = false) :
    Conforms l (.delivery held event subscriber) []
  | handled {held event subscriber inside} (h : l.isUsable subscriber.target)
    (hinside : Conforms l (.callback subscriber.target held) inside) :
    Conforms l (.delivery held event subscriber)
      (.called { stage := subscriber.target, occasion := .event subscriber.input event, held }
        :: inside)
  | returned {stage held} : Conforms l (.callback stage held) []
  | emits {stage held output event accepted first later}
    (hfirst : Conforms l (.emission (stage :: held) stage output event accepted) first)
    (hlater : Conforms l (.callback stage held) later) :
    Conforms l (.callback stage held) (first ++ later)

/-- The callback that an entry reports, if it reports one. -/
def Entry.activation? : Entry → Option Activation
  | .called activation => some activation
  | .emitted .. => none

/-- The callbacks called while exactly certain stages are held. -/
def callsWithin (held : List StageId) (entries : List Entry) : List Activation :=
  (entries.filterMap Entry.activation?).filter (·.held = held)

namespace Part

/-- The stages that are held in a part. -/
def held : Part → List StageId
  | emission held .. | deliveries held .. | delivery held .. => held
  | callback stage held => stage :: held

/-- Whether the stages that are held are a call chain, with those about to be called. -/
def IsChained (l : Pipeline Unit Unit) : Part → Prop
  | emission held source .. => l.IsCallChain held ∧ ∀ id ∈ held.head?, id = source
  | deliveries held _ subscribers => ∀ s ∈ subscribers, l.IsCallChain (s.target :: held)
  | delivery held _ subscriber => l.IsCallChain (subscriber.target :: held)
  | callback stage held => l.IsCallChain (stage :: held)

end Part

namespace Conforms

variable {l : Pipeline Unit Unit} {part : Part} {entries : List Entry} {held : List StageId}
  {event : Event} {subscribers : List Subscriber}

/-- In a part that starts from a call chain every callback is called within one. -/
theorem isCallChain (h : Conforms l part entries) (hl : l.WellConnected)
    (hpart : part.IsChained l) :
    ∀ a, Entry.called a ∈ entries → l.IsCallChain (a.stage :: a.held) := by
  induction h with
  | refused _ => simp
  | accepted _ _ ih =>
    obtain ⟨hchain, hhead⟩ := hpart
    intro a ha
    refine ih ?_ a (by simpa using ha)
    intro s hs
    obtain ⟨c, hc, rfl⟩ := List.mem_map.mp hs
    obtain ⟨hmem, hsource⟩ := mem_and_source_of_leaves hc
    exact hchain.cons hl hmem fun id hid => (hhead id hid).trans hsource.symm
  | delivered => simp
  | next _ _ ihfirst ihlater =>
    intro a ha
    rcases List.mem_append.mp ha with ha | ha
    · exact ihfirst (hpart _ List.mem_cons_self) a ha
    · exact ihlater (fun s hs => hpart s (List.mem_cons_of_mem _ hs)) a ha
  | passedOver _ => simp
  | handled _ _ ih =>
    intro a ha
    rcases List.mem_cons.mp ha with ha | ha
    · cases ha
      exact hpart
    · exact ih hpart a ha
  | returned => simp
  | emits _ _ ihfirst ihlater =>
    intro a ha
    rcases List.mem_append.mp ha with ha | ha
    · exact ihfirst ⟨hpart, fun id hid => (Option.some.inj hid).symm⟩ a ha
    · exact ihlater hpart a ha

/-- What is held in a part is held in all that it causes. -/
theorem held_suffix (h : Conforms l part entries) :
    ∀ a, Entry.called a ∈ entries → part.held <:+ a.held := by
  induction h with
  | refused _ => simp
  | accepted _ _ ih => exact fun a ha => ih a (by simpa using ha)
  | delivered => simp
  | next _ _ ihfirst ihlater | emits _ _ ihfirst ihlater =>
    intro a ha
    rcases List.mem_append.mp ha with ha | ha
    · exact ihfirst a ha
    · exact ihlater a ha
  | passedOver _ => simp
  | handled _ _ ih =>
    intro a ha
    rcases List.mem_cons.mp ha with ha | ha
    · cases ha
      exact List.suffix_rfl
    · exact (List.suffix_cons _ _).trans (ih a ha)
  | returned => simp

/-- What a callback causes is not called within the stages held outside. -/
theorem callsWithin_eq_nil {stage : StageId} (h : Conforms l (.callback stage held) entries) :
    callsWithin held entries = [] := by
  refine List.filter_eq_nil_iff.mpr fun a ha heq => ?_
  obtain ⟨entry, hentry, hactivation⟩ := List.mem_filterMap.mp ha
  cases entry with
  | emitted => cases hactivation
  | called b =>
    obtain rfl : b = a := Option.some.inj hactivation
    have hlength := (h.held_suffix b hentry).length_le
    rw [of_decide_eq_true heq, Part.held, List.length_cons] at hlength
    omega

/-- Every subscriber whose stage is usable is called exactly once, in the order of connecting. -/
theorem callsWithin_eq (h : Conforms l (.deliveries held event subscribers) entries) :
    callsWithin held entries = (subscribers.filter (l.isUsable ·.target)).map fun s =>
      { stage := s.target, occasion := .event s.input event, held } := by
  induction subscribers generalizing entries with
  | nil => cases h; rfl
  | cons s subscribers ih =>
    cases h with
    | next hfirst hlater =>
      rw [callsWithin, List.filterMap_append, List.filter_append, ← callsWithin, ← callsWithin,
        ih hlater]
      cases hfirst with
      | passedOver husable => simp [callsWithin, husable]
      | handled husable hinside =>
        have hnone := hinside.callsWithin_eq_nil
        rw [callsWithin] at hnone
        simp [callsWithin, Entry.activation?, husable, hnone]

end Conforms

/-- What is written down between two states, in order of time; apart from that only members and the
world have changed. -/
structure Writes (before after : System W σ ρ) (entries : List Entry) : Prop where
  layout : after.pipeline.layout = before.pipeline.layout
  isStuck : after.isStuck = before.isStuck
  journal : after.journal = entries.reverse ++ before.journal

namespace Writes

variable {before between after : System W σ ρ} {entries first later : List Entry}

theorem refl (system : System W σ ρ) : Writes system system [] := ⟨rfl, rfl, rfl⟩

theorem note (system : System W σ ρ) (entry : Entry) :
    Writes system (system.note entry) [entry] := ⟨rfl, rfl, rfl⟩

theorem trans (h : Writes before between first) (hlater : Writes between after later) :
    Writes before after (first ++ later) where
  layout := hlater.layout.trans h.layout
  isStuck := hlater.isStuck.trans h.isStuck
  journal := by rw [hlater.journal, h.journal, List.reverse_append, List.append_assoc]

theorem setMember (h : Writes before after entries) (husable : before.pipeline.isUsable id)
    (stage : σ) : Writes before (after.setMember id (.stage stage)) entries where
  layout := by
    rw [← isUsable_layout, ← h.layout, isUsable_layout] at husable
    exact (layout_modifySlot_member (kind_of_isUsable husable)).trans h.layout
  isStuck := h.isStuck
  journal := h.journal

end Writes

/-! ## Emissions and deliveries conform -/

section Runs

variable {l : Pipeline Unit Unit} {held : List StageId} {source stage : StageId}

/-- What a callback writes down is what its emissions do. -/
theorem perform_writes {emit : String → Event → System W σ ρ → Bool × System W σ ρ}
    (hemit : ∀ output event (system : System W σ ρ), system.pipeline.layout = l →
      ∃ entries, Writes system (emit output event system).2 entries
        ∧ Conforms l (.emission (stage :: held) stage output event (emit output event system).1)
            entries)
    (callback : Callback W α) {system : System W σ ρ} (h : system.pipeline.layout = l) :
    ∃ entries, Writes system (system.perform callback emit).2 entries
      ∧ Conforms l (.callback stage held) entries := by
  unfold System.perform
  induction callback generalizing system with
  | done result => exact ⟨[], .refl system, .returned⟩
  | emit output event next ih =>
    obtain ⟨first, hfirst, hconforms⟩ := hemit output event system h
    obtain ⟨later, hlater, hrest⟩ := ih (emit output event system).1 (hfirst.layout.trans h)
    exact ⟨first ++ later, hfirst.trans hlater, .emits hconforms hrest⟩
  | update change next ih =>
    obtain ⟨entries, hwrites, hconforms⟩ := @ih { system with world := change system.world } h
    exact ⟨entries, ⟨hwrites.layout, hwrites.isStuck, hwrites.journal⟩, hconforms⟩
  | observe next ih => exact ih system.world h

/-- What deliveries one after the other write down is what each of them does. -/
theorem deliveries_write {event : Event}
    {deliver : StageId → String → Event → System W σ ρ → System W σ ρ}
    {connections : List Connection}
    (hdeliver : ∀ c ∈ connections, ∀ system : System W σ ρ, system.pipeline.layout = l →
      ∃ entries, Writes system (deliver c.target c.input event system) entries
        ∧ Conforms l (.delivery held event c.subscriber) entries)
    {system : System W σ ρ} (h : system.pipeline.layout = l) :
    ∃ entries, Writes system ((connections.map (·.subscriber)).foldl
        (fun system s => deliver s.target s.input event system) system) entries
      ∧ Conforms l (.deliveries held event (connections.map (·.subscriber))) entries := by
  induction connections generalizing system with
  | nil => exact ⟨[], .refl system, .delivered⟩
  | cons c connections ih =>
    obtain ⟨first, hfirst, hconforms⟩ := hdeliver c List.mem_cons_self system h
    obtain ⟨later, hlater, hrest⟩ :=
      ih (fun d hd => hdeliver d (List.mem_cons_of_mem _ hd)) (hfirst.layout.trans h)
    exact ⟨first ++ later, hfirst.trans hlater, .next hconforms hrest⟩

/-- What an emission writes down is what the deliveries do that it causes. -/
theorem broadcast_writes (hl : l.WellConnected)
    {deliver : StageId → String → Event → System W σ ρ → System W σ ρ}
    (hdeliver : ∀ c ∈ l.connections, c.source = source → ∀ event (system : System W σ ρ),
      system.pipeline.layout = l →
      ∃ entries, Writes system (deliver c.target c.input event system) entries
        ∧ Conforms l (.delivery held event c.subscriber) entries)
    (output : String) (event : Event) {system : System W σ ρ} (h : system.pipeline.layout = l) :
    ∃ entries, Writes system (System.broadcast deliver source output event system).2 entries
      ∧ Conforms l (.emission held source output event
          (System.broadcast deliver source output event system).1) entries := by
  have hport : system.pipeline.outputFor? = l.outputFor? := by rw [← h, outputFor?_layout]
  rw [System.broadcast, hport]
  cases hcase : l.outputFor? source output event.type with
  | none => exact ⟨_, .note system _, .refused hcase⟩
  | some port =>
    have hsubscribers : system.pipeline.subscribers source port.name
        = (l.connections.filter (·.leaves source port.name)).map (·.subscriber) := by
      rw [← hl.subscribers, ← h, subscribers_layout]
    simp only [hsubscribers]
    obtain ⟨entries, hwrites, hconforms⟩ := deliveries_write
      (fun c hc => hdeliver c (mem_and_source_of_leaves hc).1 (mem_and_source_of_leaves hc).2 event)
      (show (system.note (.emitted source output event true)).pipeline.layout = l from h)
    exact ⟨_, (Writes.note system _).trans hwrites, .accepted hcase hconforms⟩

/-- **What a delivery writes down conforms** to the form of the journal, whatever the stages do, if
the stages held form a call chain and the bound on the depth leaves room for all others. The stages
that are held form a call chain again in everything it causes, so that none of them is called. -/
theorem deliver_writes [Stage W σ] (hl : l.WellConnected) {depth : Nat} {target : StageId}
    (hchain : l.IsCallChain (target :: held)) (hdepth : l.size ≤ depth + held.length)
    (input : String) (event : Event) {system : System W σ ρ} (h : system.pipeline.layout = l) :
    ∃ entries, Writes system (System.deliver depth held target input event system) entries
      ∧ Conforms l (.delivery held event { target, input }) entries := by
  induction depth generalizing held target input event system with
  | zero =>
    have := hchain.length_le hl
    rw [List.length_cons] at this
    omega
  | succ depth ih =>
    have hfree : target ∉ held := (List.nodup_cons.mp (hchain.nodup hl)).1
    have husable : l.isUsable target = system.pipeline.isUsable target := by
      rw [← h, isUsable_layout]
    cases hstage : (system.pipeline.slot? target).bind Slot.stage? with
    | none =>
      rw [System.deliver_of_unusable hstage hfree]
      exact ⟨[], .refl system, .passedOver (by rw [husable, isUsable, hstage]; rfl)⟩
    | some stage =>
      have hmine : system.pipeline.isUsable target := by rw [isUsable, hstage]; rfl
      rw [System.deliver_eq hstage hfree]
      -- inside, the target is held too and the events go on along its connections
      have hemit : ∀ output event (system : System W σ ρ), system.pipeline.layout = l →
          ∃ entries, Writes system (System.broadcast (System.deliver depth (target :: held)) target
              output event system).2 entries
            ∧ Conforms l (.emission (target :: held) target output event (System.broadcast
                (System.deliver depth (target :: held)) target output event system).1) entries := by
        intro output event system h
        refine broadcast_writes hl (fun c hc hsource event system h => ?_) output event h
        refine ih (hchain.cons hl hc ?_) (by rw [List.length_cons]; omega) c.input event h
        rintro id hid
        rw [hsource]
        exact (Option.some.inj hid).symm
      obtain ⟨inside, hwrites, hconforms⟩ := perform_writes hemit
        (Stage.onEvent (system.surroundings target) input event stage)
        (show (system.note (.called { stage := target, occasion := .event input event, held })
          ).pipeline.layout = l from h)
      exact ⟨_, ((Writes.note system _).trans hwrites).setMember hmine _,
        .handled (husable ▸ hmine) hconforms⟩

/-- **What an emission writes down conforms** to the form of the journal. -/
theorem emission_writes [Stage W σ] (hl : l.WellConnected) {depth : Nat}
    (hchain : l.IsCallChain held) (hhead : ∀ id ∈ held.head?, id = source)
    (hdepth : l.size ≤ depth + held.length) (output : String) (event : Event)
    {system : System W σ ρ} (h : system.pipeline.layout = l) :
    ∃ entries, Writes system (System.broadcast (System.deliver depth held) source output event
        system).2 entries
      ∧ Conforms l (.emission held source output event
          (System.broadcast (System.deliver depth held) source output event system).1) entries := by
  refine broadcast_writes hl (fun c hc hsource event system h => ?_) output event h
  exact deliver_writes hl (hchain.cons hl hc fun id hid => (hhead id hid).trans hsource.symm)
    hdepth c.input event h

theorem emitFrom_writes [Stage W σ] (hl : l.WellConnected) (hchain : l.IsCallChain held)
    (hhead : ∀ id ∈ held.head?, id = source) (output : String) (event : Event)
    {system : System W σ ρ} (h : system.pipeline.layout = l) :
    ∃ entries, Writes system (system.emitFrom held source output event).2 entries
      ∧ Conforms l (.emission held source output event
          (system.emitFrom held source output event).1) entries := by
  have hsize : l.size = system.pipeline.size := by rw [← h, size_layout]
  exact emission_writes hl hchain hhead (by omega) output event h

/-! ## The bound on the depth -/

theorem perform_congr {emit emit' : String → Event → System W σ ρ → Bool × System W σ ρ}
    (hsame : ∀ output event (system : System W σ ρ), system.pipeline.layout = l →
      emit output event system = emit' output event system)
    (hkeeps : ∀ output event (system : System W σ ρ), system.pipeline.layout = l →
      (emit' output event system).2.pipeline.layout = l)
    (callback : Callback W α) {system : System W σ ρ} (h : system.pipeline.layout = l) :
    system.perform callback emit = system.perform callback emit' := by
  unfold System.perform
  induction callback generalizing system with
  | done result => rfl
  | emit output event next ih =>
    rw [Callback.run, Callback.run, hsame output event system h]
    exact ih _ (hkeeps output event system h)
  | update change next ih => exact @ih { system with world := change system.world } h
  | observe next ih => exact ih system.world h

theorem broadcast_congr (hl : l.WellConnected)
    {deliver deliver' : StageId → String → Event → System W σ ρ → System W σ ρ}
    (hsame : ∀ c ∈ l.connections, c.source = source → ∀ event (system : System W σ ρ),
      system.pipeline.layout = l →
      deliver c.target c.input event system = deliver' c.target c.input event system
        ∧ (deliver' c.target c.input event system).pipeline.layout = l)
    (output : String) (event : Event) {system : System W σ ρ} (h : system.pipeline.layout = l) :
    System.broadcast deliver source output event system
      = System.broadcast deliver' source output event system := by
  have hall : ∀ connections : List Connection,
      (∀ c ∈ connections, c ∈ l.connections ∧ c.source = source) →
      ∀ system : System W σ ρ, system.pipeline.layout = l →
        (connections.map (·.subscriber)).foldl
            (fun system s => deliver s.target s.input event system) system
          = (connections.map (·.subscriber)).foldl
            (fun system s => deliver' s.target s.input event system) system := by
    intro connections
    induction connections with
    | nil => exact fun _ _ _ => rfl
    | cons c connections ih =>
      intro hthese system h
      obtain ⟨hc, hsource⟩ := hthese c List.mem_cons_self
      obtain ⟨heq, hkeeps⟩ := hsame c hc hsource event system h
      rw [List.map_cons, List.foldl_cons, List.foldl_cons,
        show deliver c.subscriber.target c.subscriber.input event system = _ from heq]
      exact ih (fun d hd => hthese d (List.mem_cons_of_mem _ hd)) _ hkeeps
  unfold System.broadcast
  split
  · next port _ =>
    rw [← subscribers_layout, h, hl.subscribers]
    exact congrArg (Prod.mk true) (hall _ (fun c hc => mem_and_source_of_leaves hc) _ h)
  · rfl

/-- **The bound on the depth is never met**: deliveries that may go deeper do the same, so that they
come to their end by themselves. -/
theorem deliver_eq_of_le [Stage W σ] (hl : l.WellConnected) {depth more : Nat} {target : StageId}
    (hchain : l.IsCallChain (target :: held)) (hdepth : l.size ≤ depth + held.length)
    (hle : depth ≤ more) (input : String) (event : Event) {system : System W σ ρ}
    (h : system.pipeline.layout = l) :
    System.deliver more held target input event system
      = System.deliver depth held target input event system := by
  induction depth generalizing more held target input event system with
  | zero =>
    have := hchain.length_le hl
    rw [List.length_cons] at this
    omega
  | succ depth ih =>
    obtain ⟨more, rfl⟩ := Nat.exists_eq_add_of_lt hle
    rw [show depth + more + 1 = (depth + more) + 1 from rfl]
    have hfree : target ∉ held := (List.nodup_cons.mp (hchain.nodup hl)).1
    cases hstage : (system.pipeline.slot? target).bind Slot.stage? with
    | none =>
      rw [System.deliver_of_unusable hstage hfree, System.deliver_of_unusable hstage hfree]
    | some stage =>
      have hroom : l.size ≤ depth + (target :: held).length := by rw [List.length_cons]; omega
      have hhead : ∀ id ∈ (target :: held).head?, id = target := by simp [eq_comm]
      have hinside : ∀ output event (system : System W σ ρ), system.pipeline.layout = l →
          System.broadcast (System.deliver (depth + more) (target :: held)) target output event
              system
            = System.broadcast (System.deliver depth (target :: held)) target output event
              system := by
        refine fun output event system h =>
          broadcast_congr hl (fun c hc hsource event system h => ?_) output event h
        have hnext := hchain.cons hl hc fun id hid => (hhead id hid).trans hsource.symm
        obtain ⟨entries, hwrites, -⟩ := deliver_writes hl hnext hroom c.input event h
        exact ⟨ih hnext hroom (Nat.le_add_right _ _) c.input event h, hwrites.layout.trans h⟩
      have hkeeps : ∀ output event (system : System W σ ρ), system.pipeline.layout = l →
          (System.broadcast (System.deliver depth (target :: held)) target output event
            system).2.pipeline.layout = l := by
        intro output event system h
        obtain ⟨entries, hwrites, -⟩ := emission_writes hl hchain hhead hroom output event h
        exact hwrites.layout.trans h
      have hnoted : (system.note (.called
          { stage := target, occasion := .event input event, held })).pipeline.layout = l := h
      rw [System.deliver_eq hstage hfree, System.deliver_eq hstage hfree,
        perform_congr hinside hkeeps _ hnoted]

end Runs

end CallTrace.Pipeline
