import CallTrace.Pipeline.Lifecycle
import CallTrace.Proofs.Pipeline.Topology

/-!
# Pipelines put together

Whatever steps put a pipeline together, its connections join declared ports that fit, form no cycle
and agree with the subscribers that the slots have noted (`WellConnected`). That depends on the
wiring of a pipeline alone, which nothing but these steps changes.
-/

namespace CallTrace.Pipeline

open Relation

variable {W σ ρ σ' ρ' : Type} {p : Pipeline σ ρ} {q : Pipeline σ' ρ'} {id : StageId}

/-! ## Slots -/

theorem slot?_modifySlot (p : Pipeline σ ρ) (id other : StageId) (f : Slot σ ρ → Slot σ ρ) :
    (p.modifySlot id f).slot? other
      = if id = other then (p.slot? other).map f else p.slot? other := by
  obtain ⟨index⟩ := id
  obtain ⟨target⟩ := other
  show (p.slots.modify index f)[target]? = _
  rw [List.getElem?_modify]
  by_cases h : index = target
  · simp only [h, if_true]
    rfl
  · simp only [h, StageId.mk.injEq, if_false]
    exact id_map _

theorem slot?_append (p : Pipeline σ ρ) (slot : Slot σ ρ) (id : StageId) :
    ({ p with slots := p.slots ++ [slot] } : Pipeline σ ρ).slot? id
      = if id.index = p.size then some slot else p.slot? id := by
  show (p.slots ++ [slot])[id.index]? = _
  by_cases h : id.index = p.size
  · rw [if_pos h, h]
    exact List.getElem?_concat_length
  · rw [if_neg h, List.getElem?_append]
    split
    · rfl
    · next hle =>
      have hlt : p.slots.length < id.index := by
        have : id.index ≠ p.slots.length := h
        omega
      rw [List.getElem?_eq_none (by simp; omega)]
      exact (List.getElem?_eq_none (Nat.le_of_lt hlt)).symm

theorem lt_size_of_slot?_eq_some {slot : Slot σ ρ} (h : p.slot? id = some slot) :
    id.index < p.size :=
  (List.getElem?_eq_some_iff.mp h).1

/-- Whether the slot with an id holds a stage. -/
def isStage (p : Pipeline σ ρ) (id : StageId) : Bool := (p.slot? id).any fun slot => !slot.isReader

/-! ## Wiring -/

/-- What of a slot matters to connections. -/
structure Slot.Wiring where
  ports : List Port
  isReader : Bool
  subscribers : Std.ExtTreeMap String (List Subscriber)

/-- What of a slot matters to connections. -/
def Slot.wiring (slot : Slot σ ρ) : Slot.Wiring where
  ports := slot.ports
  isReader := slot.isReader
  subscribers := slot.subscribers

/-- What of a pipeline matters to connections. -/
def wiring (p : Pipeline σ ρ) : List Slot.Wiring × List Connection :=
  (p.slots.map Slot.wiring, p.connections)

theorem wiring_slot? (h : p.wiring = q.wiring) (id : StageId) :
    (p.slot? id).map Slot.wiring = (q.slot? id).map Slot.wiring := by
  have hslots := congrArg (fun w => w.1[id.index]?) h
  simpa [wiring, slot?] using hslots

theorem connections_of_wiring_eq (h : p.wiring = q.wiring) : p.connections = q.connections :=
  congrArg Prod.snd h

theorem size_of_wiring_eq (h : p.wiring = q.wiring) : p.size = q.size := by
  have hlength := congrArg (fun w => w.1.length) h
  simp only [wiring, List.length_map] at hlength
  exact hlength

theorem output?_of_wiring_eq (h : p.wiring = q.wiring) : p.output? = q.output? := by
  funext id name
  have hslot := congrArg (·.bind fun w => Port.find? w.ports name .output) (wiring_slot? h id)
  simp only [Option.bind_map, Function.comp_def, Slot.wiring] at hslot
  exact hslot

theorem input?_of_wiring_eq (h : p.wiring = q.wiring) : p.input? = q.input? := by
  funext id name
  have hslot := congrArg (·.bind fun w => Port.find? w.ports name .input) (wiring_slot? h id)
  simp only [Option.bind_map, Function.comp_def, Slot.wiring] at hslot
  exact hslot

theorem isStage_of_wiring_eq (h : p.wiring = q.wiring) : p.isStage = q.isStage := by
  funext id
  have hslot := congrArg (·.any fun w => !w.isReader) (wiring_slot? h id)
  simp only [Option.any_map, Slot.wiring] at hslot
  exact hslot

theorem subscribers_of_wiring_eq (h : p.wiring = q.wiring) : p.subscribers = q.subscribers := by
  funext id output
  have hslot := congrArg (·.elim [] fun w => w.subscribers[output]?.getD []) (wiring_slot? h id)
  simp only [Option.elim_map, Function.comp_def, Slot.wiring] at hslot
  exact hslot

/-- What a change of a slot leaves alone, it leaves alone everywhere. -/
theorem map_slots_modifySlot {α : Type} {g : Slot σ ρ → α} {f : Slot σ ρ → Slot σ ρ}
    (h : ∀ slot, p.slot? id = some slot → g (f slot) = g slot) :
    (p.modifySlot id f).slots.map g = p.slots.map g := by
  refine List.ext_getElem? fun index => ?_
  have hslot := slot?_modifySlot p id ⟨index⟩ f
  rw [List.getElem?_map, List.getElem?_map,
    show (p.modifySlot id f).slots[index]? = _ from hslot]
  split
  · next hid =>
    subst hid
    cases hcase : p.slot? ⟨index⟩ with
    | none => rw [show p.slots[index]? = none from hcase]; rfl
    | some slot =>
      rw [show p.slots[index]? = some slot from hcase]
      exact congrArg some (h slot hcase)
  · rfl

/-- Changing a slot without its wiring changes no wiring. -/
theorem wiring_modifySlot {f : Slot σ ρ → Slot σ ρ}
    (h : ∀ slot, p.slot? id = some slot → (f slot).wiring = slot.wiring) :
    (p.modifySlot id f).wiring = p.wiring :=
  Prod.ext (map_slots_modifySlot h) rfl

/-! ## Well-connected pipelines -/

/-- A connection joins a declared output port to a declared input port of a stage, and everything
that the output gives out may pass the input. -/
structure Joins (p : Pipeline σ ρ) (c : Connection) (out inp : Port) : Prop where
  output : p.output? c.source c.output = some out
  input : p.input? c.target c.input = some inp
  stage : p.isStage c.target
  fits : out.canConnectTo inp

/-- The connections of the pipeline are as they have to be. -/
structure WellConnected (p : Pipeline σ ρ) : Prop where
  acyclic : Acyclic p.connections
  joins : ∀ c ∈ p.connections, ∃ out inp, p.Joins c out inp
  subscribers : ∀ source output, p.subscribers source output
    = (p.connections.filter (·.leaves source output)).map (·.subscriber)
  ids : ∀ index (c : Connection), p.connections[index]? = some c → c.id = ⟨index⟩

/-- A connection joins the same ports wherever they are still declared. -/
theorem Joins.mono {c : Connection} {out inp : Port} (h : p.Joins c out inp)
    (hslots : ∀ id slot, p.slot? id = some slot →
      ∃ slot', q.slot? id = some slot' ∧ slot'.ports = slot.ports
        ∧ slot'.isReader = slot.isReader) : q.Joins c out inp := by
  obtain ⟨source, hsource, hout⟩ := Option.bind_eq_some_iff.mp h.output
  obtain ⟨target, htarget, hinp⟩ := Option.bind_eq_some_iff.mp h.input
  obtain ⟨source', hsource', hports, -⟩ := hslots _ _ hsource
  obtain ⟨target', htarget', hports', hreader⟩ := hslots _ _ htarget
  refine ⟨Option.bind_eq_some_iff.mpr ⟨source', hsource', hports ▸ hout⟩,
    Option.bind_eq_some_iff.mpr ⟨target', htarget', hports' ▸ hinp⟩, ?_, h.fits⟩
  have hstage := h.stage
  rw [isStage, htarget] at hstage
  rw [isStage, htarget', Option.any_some, hreader]
  exact hstage

theorem WellConnected.of_wiring_eq (h : p.WellConnected) (hwiring : q.wiring = p.wiring) :
    q.WellConnected := by
  have hconnections := connections_of_wiring_eq hwiring
  refine ⟨hconnections ▸ h.acyclic, ?_, ?_, hconnections ▸ h.ids⟩
  · intro c hc
    obtain ⟨out, inp, hjoins⟩ := h.joins c (hconnections ▸ hc)
    exact ⟨out, inp, hjoins.mono fun id slot hslot => by
      have := wiring_slot? hwiring id
      rw [hslot, Option.map_some, Option.map_eq_some_iff] at this
      obtain ⟨slot', hslot', heq⟩ := this
      exact ⟨slot', hslot', congrArg (·.ports) heq, congrArg (·.isReader) heq⟩⟩
  · rw [hconnections, subscribers_of_wiring_eq hwiring]
    exact h.subscribers

theorem wellConnected_empty : ({} : Pipeline σ ρ).WellConnected where
  acyclic := acyclic_nil
  joins := by simp
  subscribers := by simp [Pipeline.subscribers, slot?]
  ids := by simp

/-! ## Steps -/

theorem addSlot_eq (slot : Slot σ ρ) (p : Pipeline σ ρ) :
    (addSlot slot).run p = if p.isStarted then (.error .alreadyStarted, p)
      else (.ok ⟨p.size⟩, { p with slots := p.slots ++ [slot] }) := by
  show (if p.isStarted then _ else _ : Step σ ρ StageId) p = _
  split <;> rfl

theorem tryConnect_eq (p : Pipeline σ ρ) (source : StageId) (output : String)
    (target : StageId) (input : String) :
    (tryConnect source output target input).run p
      = match p.joined source output target input with
        | .error refusal => (.error refusal, p)
        | .ok (out, inp) =>
          (.ok ⟨p.connections.length⟩,
            p.addConnection ⟨⟨p.connections.length⟩, source, out.name, target, inp.name⟩) := by
  show (match p.joined source output target input with
    | .error refusal => _
    | .ok (out, inp) => _ : Step σ ρ ConnectionId) p = _
  cases p.joined source output target input <;> rfl

theorem joined_of_isStarted (h : p.isStarted) (source : StageId) (output : String)
    (target : StageId) (input : String) :
    p.joined source output target input = .error .alreadyStarted := by
  rw [joined, if_pos h]

theorem reaches_of_joined_eq_cycle {source target : StageId} {output input : String}
    (h : p.joined source output target input = .error .cycle) :
    reaches p.connections target source := by
  unfold joined at h
  repeat' split at h
  all_goals first | assumption | cases h

theorem name_of_output?_eq_some {name : String} {port : Port} (h : p.output? id name = some port) :
    port.name = name := by
  obtain ⟨slot, _, hport⟩ := Option.bind_eq_some_iff.mp h
  have := List.find?_some hport
  simp only [Bool.and_eq_true, beq_iff_eq] at this
  exact this.1

theorem name_of_input?_eq_some {name : String} {port : Port} (h : p.input? id name = some port) :
    port.name = name := by
  obtain ⟨slot, _, hport⟩ := Option.bind_eq_some_iff.mp h
  have := List.find?_some hport
  simp only [Bool.and_eq_true, beq_iff_eq] at this
  exact this.1

theorem names_of_joined {source target : StageId} {output input : String} {out inp : Port}
    (h : p.joined source output target input = .ok (out, inp)) :
    out.name = output ∧ inp.name = input := by
  unfold joined at h
  repeat' split at h
  all_goals try cases h
  next houtput hinput _ => exact ⟨name_of_output?_eq_some houtput, name_of_input?_eq_some hinput⟩

/-- **A connection is made exactly if** the pipeline has not started, it joins declared ports that
fit, and it closes no cycle. -/
theorem joined_eq_ok_iff {c : Connection} {out inp : Port} :
    p.joined c.source c.output c.target c.input = .ok (out, inp)
      ↔ ¬ p.isStarted ∧ p.Joins c out inp ∧ ¬ reaches p.connections c.target c.source := by
  constructor
  · intro h
    unfold joined at h
    repeat' split at h
    all_goals try cases h
    next hstarted _ _ _ _ _ htarget hstage _ _ hback houtput hinput hfits =>
    refine ⟨hstarted, ⟨houtput, hinput, ?_, hfits⟩, hback⟩
    rw [isStage, htarget]
    simpa using hstage
  · rintro ⟨hstarted, hjoins, hback⟩
    obtain ⟨source, hsource, _⟩ := Option.bind_eq_some_iff.mp hjoins.output
    obtain ⟨target, htarget, _⟩ := Option.bind_eq_some_iff.mp hjoins.input
    have hstage : ¬ target.isReader := by simpa [isStage, htarget] using hjoins.stage
    rw [joined, if_neg hstarted, hsource, htarget]
    dsimp only
    rw [if_neg hstage, hjoins.output, hjoins.input]
    dsimp only
    rw [if_neg hback, if_pos hjoins.fits]

theorem WellConnected.addSlot (h : p.WellConnected) {slot : Slot σ ρ}
    (hempty : slot.subscribers = ∅) :
    ({ p with slots := p.slots ++ [slot] } : Pipeline σ ρ).WellConnected := by
  refine ⟨h.acyclic, ?_, ?_, h.ids⟩
  · intro c hc
    obtain ⟨out, inp, hjoins⟩ := h.joins c hc
    refine ⟨out, inp, hjoins.mono fun id found hfound => ⟨found, ?_, rfl, rfl⟩⟩
    rw [slot?_append, if_neg (Nat.ne_of_lt (lt_size_of_slot?_eq_some hfound)), hfound]
  · intro source output
    rw [← h.subscribers, Pipeline.subscribers, Pipeline.subscribers, slot?_append]
    split
    · next hnew =>
      have hnone : p.slot? source = none := by
        rw [slot?, hnew]
        exact List.getElem?_eq_none (Nat.le_refl _)
      simp [hnone, Slot.subscribersAt, hempty]
    · rfl

theorem WellConnected.addConnection (h : p.WellConnected) {c : Connection} {out inp : Port}
    (hjoins : p.Joins c out inp) (hback : ¬ reaches p.connections c.target c.source)
    (hid : c.id = ⟨p.connections.length⟩) : (p.addConnection c).WellConnected := by
  have hslot : ∀ id, (p.addConnection c).slot? id = if c.source = id
      then (p.slot? id).map (·.subscribe c.output c.subscriber) else p.slot? id :=
    fun id => slot?_modifySlot p c.source id _
  have hmono : ∀ {d : Connection} {out inp : Port}, p.Joins d out inp →
      (p.addConnection c).Joins d out inp := by
    intro d out inp hjoins
    refine hjoins.mono fun id found hfound => ?_
    rw [hslot, hfound]
    split
    · exact ⟨_, rfl, rfl, rfl⟩
    · exact ⟨found, rfl, rfl, rfl⟩
  refine ⟨h.acyclic.append (reaches_iff.not.mp hback), ?_, ?_, ?_⟩
  · intro d hd
    rcases List.mem_append.mp hd with hold | hnew
    · obtain ⟨out, inp, hjoins⟩ := h.joins d hold
      exact ⟨out, inp, hmono hjoins⟩
    · exact ⟨out, inp, List.mem_singleton.mp hnew ▸ hmono hjoins⟩
  · intro source output
    show _ = ((p.connections ++ [c]).filter _).map _
    rw [List.filter_append, List.map_append, ← h.subscribers, Pipeline.subscribers,
      Pipeline.subscribers, hslot]
    obtain ⟨slot, hfound, _⟩ := Option.bind_eq_some_iff.mp hjoins.output
    by_cases hsource : c.source = source
    · rw [if_pos hsource, ← hsource, hfound]
      simp only [Option.map_some, Option.elim_some, Slot.subscribersAt_subscribe,
        Connection.leaves, List.filter_singleton]
      by_cases houtput : c.output = output <;> simp [houtput]
    · simp [hsource, Connection.leaves]
  · intro index d hd
    rw [show (p.addConnection c).connections = p.connections ++ [c] from rfl,
      List.getElem?_append] at hd
    split at hd
    · exact h.ids index d hd
    · next hle =>
      rw [List.getElem?_singleton] at hd
      split at hd
      · obtain rfl := Option.some.inj hd
        rw [hid, show index = p.connections.length by omega]
      · cases hd

end CallTrace.Pipeline
