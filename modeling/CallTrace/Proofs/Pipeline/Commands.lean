import CallTrace.Proofs.Pipeline.Lifecycle

/-!
# Whatever is asked of a pipeline

All that can be asked of a pipeline from outside are its commands. Any sequence of them on an empty
pipeline

* leaves its connections free of cycles, between fitting ports and in step with the subscribers, and
  a refused command changes nothing (`construction_laws`);
* lets every delivery come to its end, within a chain of different stages
  (`deliveries_come_to_their_end`).
-/

namespace CallTrace.Pipeline

open Relation

variable {W σ ρ α : Type}

/-! ## Commands -/

/-- What can be asked of the stages of a pipeline. -/
inductive Request where
  | emit (source : StageId) (output : String) (event : Option Event)
  | inject (target : StageId) (input : String) (event : Event)

/-- What can be asked of a pipeline. -/
inductive Command (σ ρ : Type) where
  | addStage (stage : σ)
  | addReader (reader : ρ)
  | connect (source : StageId) (output : String) (target : StageId) (input : String)
  | start
  | join
  | terminate
  | run
  | configure (stage : StageId) (key : String) (value : Setting)
  | request (request : Request)

/-- The answer to a command. -/
inductive Answer where
  | stage (id : StageId)
  | connection (id : ConnectionId)
  | flag (accepted : Bool)
  | reply (reply : Reply)
  deriving DecidableEq, Repr

/-- Whether a command is only for a pipeline that has not started. -/
def Command.isConstruction : Command σ ρ → Bool
  | .addStage _ | .addReader _ | .connect .. | .start => true
  | _ => false

/-- Whether a command starts the pipeline. -/
def Command.isStart : Command σ ρ → Bool
  | .start | .run => true
  | _ => false

/-- The answer that says what a step has given. -/
def Answer.ofStep (given : α → Answer) : Except Refusal α → Answer
  | .ok value => given value
  | .error refusal => .reply (.refused refusal)

namespace System

/-- Puts a pipeline together by one more step. -/
def construct (system : System W σ ρ) (step : Step σ ρ α) (given : α → Answer) :
    Answer × System W σ ρ :=
  let (result, pipeline) := step.run system.pipeline
  (.ofStep given result, { system with pipeline })

/-- Answers a request. -/
def answer [Stage W σ] (system : System W σ ρ) : Request → Bool × System W σ ρ
  | .emit source output event => system.emit? source output event
  | .inject target input event => system.inject target input event

/-- Executes a command. -/
def execute [Stage W σ] [Reader W ρ] (system : System W σ ρ) :
    Command σ ρ → Answer × System W σ ρ
  | .addStage stage => system.construct (addStage stage) .stage
  | .addReader reader => system.construct (addReader reader) .stage
  | .connect source output target input =>
    system.construct (tryConnect source output target input) .connection
  | .start => system.start.map .reply id
  | .join => system.join.map .reply id
  | .terminate => system.terminate.map .reply id
  | .run => system.run.map .reply id
  | .configure stage key value => (system.configure stage key value).map .reply id
  | .request request => (system.answer request).map .flag id

/-- Executes one command after the other. -/
def executeAll [Stage W σ] [Reader W ρ] : List (Command σ ρ) → System W σ ρ →
    List Answer × System W σ ρ
  | [], system => ([], system)
  | command :: commands, system =>
    let (answer, system) := system.execute command
    let (answers, system) := executeAll commands system
    (answer :: answers, system)

/-- A system whose pipeline is empty. -/
def empty (world : W) : System W σ ρ := { pipeline := {}, world }

end System

/-! ## Construction -/

/-- What one step of putting a pipeline together adds. -/
structure Extends (p q : Pipeline σ ρ) : Prop where
  wellConnected : p.WellConnected → q.WellConnected
  connections : p.connections ⊆ q.connections
  size : p.size ≤ q.size
  isStarted : q.isStarted = p.isStarted
  usable : (∀ id, p.isStage id → p.isUsable id) → ∀ id, q.isStage id → q.isUsable id

/-- A step either is refused or adds something to a pipeline that has not started. -/
def Step.IsSound (step : Step σ ρ α) : Prop :=
  ∀ p : Pipeline σ ρ,
    (∃ refusal, step.run p = (.error refusal, p) ∧ (p.isStarted → refusal = .alreadyStarted))
    ∨ ¬ p.isStarted ∧ ∃ value q, step.run p = (.ok value, q) ∧ Extends p q

theorem addSlot_isSound {slot : Slot σ ρ} (hempty : slot.subscribers = ∅)
    (hfresh : slot.isPoisoned = false) : Step.IsSound (addSlot slot) := by
  intro p
  rw [addSlot_eq]
  split
  · exact .inl ⟨_, rfl, fun _ => rfl⟩
  · next hstarted =>
    refine .inr ⟨hstarted, _, _, rfl, fun h => h.addSlot hempty, List.Subset.refl _, ?_, rfl, ?_⟩
    · simp [size]
    · intro husable id
      rw [isStage, isUsable, slot?_append]
      split
      · obtain ⟨name, ports, member, isPoisoned, subscribers⟩ := slot
        obtain rfl : isPoisoned = false := hfresh
        cases member <;> simp [Slot.isReader, Slot.stage?]
      · exact husable id

theorem addStage_isSound [Stage W σ] (stage : σ) :
    Step.IsSound (addStage stage : Step σ ρ StageId) :=
  addSlot_isSound rfl rfl

theorem addReader_isSound [Reader W ρ] (reader : ρ) :
    Step.IsSound (addReader reader : Step σ ρ StageId) :=
  addSlot_isSound rfl rfl

theorem isStage_addConnection (p : Pipeline σ ρ) (c : Connection) (id : StageId) :
    (p.addConnection c).isStage id = p.isStage id := by
  rw [isStage, show (p.addConnection c).slot? id = _ from slot?_modifySlot p c.source id _]
  split
  · exact Option.any_map
  · rfl

theorem isUsable_addConnection (p : Pipeline σ ρ) (c : Connection) (id : StageId) :
    (p.addConnection c).isUsable id = p.isUsable id := by
  rw [isUsable, show (p.addConnection c).slot? id = _ from slot?_modifySlot p c.source id _]
  split
  · rw [Option.bind_map]
    rfl
  · rfl

theorem tryConnect_isSound (source : StageId) (output : String) (target : StageId)
    (input : String) :
    Step.IsSound (tryConnect source output target input : Step σ ρ ConnectionId) := by
  intro p
  rw [tryConnect_eq]
  cases hjoined : p.joined source output target input with
  | error refusal =>
    refine .inl ⟨refusal, rfl, fun hstarted => ?_⟩
    rw [joined_of_isStarted hstarted] at hjoined
    exact (Except.error.inj hjoined).symm
  | ok ports =>
    obtain ⟨out, inp⟩ := ports
    obtain ⟨rfl, rfl⟩ := names_of_joined hjoined
    obtain ⟨hstarted, hjoins, hback⟩ := joined_eq_ok_iff
      (c := ⟨⟨p.connections.length⟩, source, out.name, target, inp.name⟩).mp hjoined
    refine .inr ⟨hstarted, _, _, rfl, fun h => h.addConnection hjoins hback rfl,
      List.subset_append_left _ _, ?_, rfl, ?_⟩
    · simp [size, addConnection, modifySlot]
    · intro husable id hstage
      rw [isUsable_addConnection]
      rw [isStage_addConnection] at hstage
      exact husable id hstage

namespace System

variable {system : System W σ ρ}

theorem construct_cases {step : Step σ ρ α} (hstep : step.IsSound) (given : α → Answer) :
    (∃ refusal, system.construct step given = (.reply (.refused refusal), system)
        ∧ (system.pipeline.isStarted → refusal = .alreadyStarted))
      ∨ ¬ system.pipeline.isStarted ∧ ∃ value q,
          system.construct step given = (given value, { system with pipeline := q })
            ∧ Extends system.pipeline q := by
  unfold construct
  rcases hstep system.pipeline with ⟨refusal, heq, hstarted⟩ | ⟨hstarted, value, q, heq, hextends⟩
  · rw [heq]
    exact .inl ⟨refusal, rfl, hstarted⟩
  · rw [heq]
    exact .inr ⟨hstarted, value, q, rfl, hextends⟩

end System

/-! ## Requests -/

/-- The entries of a request that was answered in a certain way. -/
def Request.Answers (l : Pipeline Unit Unit) (request : Request) (accepted : Bool)
    (entries : List Entry) : Prop :=
  match request, accepted with
  | .emit source output (some event), accepted =>
    Conforms l (.emission [] source output event accepted) entries
  | .inject target input event, true => ∃ port, l.input? target input = some port
    ∧ port.accepts event.type ∧ Conforms l (.delivery [] event { target, input }) entries
  | _, accepted => accepted = false ∧ entries = []

namespace System

variable {system : System W σ ρ}

/-- **What a request writes down** conforms to the form of the journal. -/
theorem answer_writes [Stage W σ] (hp : system.pipeline.WellConnected) (request : Request) :
    ∃ entries, Writes system (system.answer request).2 entries
      ∧ request.Answers system.pipeline.layout (system.answer request).1 entries := by
  cases request with
  | emit source output event =>
    cases event with
    | none => exact ⟨[], .refl system, rfl, rfl⟩
    | some event =>
      exact emitFrom_writes hp.layout ⟨List.isChain_nil, by simp⟩ (by simp) output event rfl
  | inject target input event =>
    rw [answer, inject]
    split
    · exact ⟨[], .refl system, rfl, rfl⟩
    · next port hport =>
      split
      · next haccepts =>
        obtain ⟨slot, hslot, _⟩ := Option.bind_eq_some_iff.mp hport
        obtain ⟨entries, hwrites, hconforms⟩ := deliver_writes hp.layout
          (.singleton (by rw [size_layout]; exact lt_size_of_slot?_eq_some hslot))
          (by rw [size_layout]; exact Nat.le_add_right _ _) port.name event rfl
        rw [name_of_input?_eq_some hport] at hwrites hconforms ⊢
        refine ⟨entries, hwrites, port, ?_, haccepts, hconforms⟩
        rw [input?_of_wiring_eq (wiring_layout system.pipeline)]
        exact hport
      · exact ⟨[], .refl system, rfl, rfl⟩

end System

theorem Request.Answers.isCallChain {l : Pipeline Unit Unit} {request : Request} {accepted : Bool}
    {entries : List Entry} (h : request.Answers l accepted entries) (hl : l.WellConnected) :
    ∀ a, Entry.called a ∈ entries → l.IsCallChain (a.stage :: a.held) := by
  unfold Request.Answers at h
  split at h
  · exact Conforms.isCallChain h hl ⟨⟨List.isChain_nil, by simp⟩, by simp⟩
  · obtain ⟨port, hport, -, hconforms⟩ := h
    obtain ⟨slot, hslot, _⟩ := Option.bind_eq_some_iff.mp hport
    exact hconforms.isCallChain hl (.singleton (lt_size_of_slot?_eq_some hslot))
  · obtain ⟨-, rfl⟩ := h
    simp

/-! ## Runs of commands -/

/-- What holds of a system whatever was asked of it. -/
structure System.Sound (system : System W σ ρ) : Prop where
  wellConnected : system.pipeline.WellConnected
  isStuck : system.isStuck = false
  chains : ∀ a, Entry.called a ∈ system.journal → system.pipeline.IsCallChain (a.stage :: a.held)

namespace System

variable [Stage W σ] [Reader W ρ] {system : System W σ ρ}

omit [Reader W ρ] in
theorem answer_proceeds {calm : Prop} (hp : system.pipeline.WellConnected) (request : Request) :
    Proceeds calm system (system.answer request).2 := by
  obtain ⟨entries, hwrites, hanswers⟩ := answer_writes hp request
  exact .of_writes entries hwrites fun a ha =>
    (hanswers.isCallChain hp.layout a ha).of_wiring_eq (wiring_layout system.pipeline).symm

/-- A command adds to the pipeline, or leaves alone how it is put together. -/
theorem execute_cases (hp : system.pipeline.WellConnected) (command : Command σ ρ) :
    (Proceeds ((system.execute command).1 ≠ .reply .panicked) system (system.execute command).2
      ∧ (command.isStart → (system.execute command).2.pipeline.isStarted))
    ∨ ¬ command.isStart ∧ ∃ q, (system.execute command).2 = { system with pipeline := q }
      ∧ Extends system.pipeline q := by
  have hconstruct : ∀ {α : Type} {step : Step σ ρ α} (given : α → Answer), step.IsSound →
      Proceeds ((system.construct step given).1 ≠ .reply .panicked) system
          (system.construct step given).2
        ∨ ∃ q, (system.construct step given).2 = { system with pipeline := q }
          ∧ Extends system.pipeline q := by
    intro α step given hstep
    rcases construct_cases hstep given with ⟨refusal, heq, -⟩ | ⟨-, value, q, heq, hextends⟩
    · rw [heq]
      exact .inl (.refl system)
    · rw [heq]
      exact .inr ⟨q, rfl, hextends⟩
  have hreply : ∀ {result : Reply × System W σ ρ},
      Proceeds (result.1 ≠ .panicked) system result.2 →
      Proceeds ((result.map Answer.reply id).1 ≠ .reply .panicked) system
        (result.map Answer.reply id).2 := by
    intro result h
    exact h.mono fun hcalm hpanicked => hcalm (congrArg Answer.reply hpanicked)
  cases command with
  | addStage stage =>
    exact (hconstruct .stage (addStage_isSound stage)).imp (⟨·, nofun⟩) (⟨nofun, ·⟩)
  | addReader reader =>
    exact (hconstruct .stage (addReader_isSound reader)).imp (⟨·, nofun⟩) (⟨nofun, ·⟩)
  | connect source output target input =>
    exact (hconstruct .connection (tryConnect_isSound source output target input)).imp
      (⟨·, nofun⟩) (⟨nofun, ·⟩)
  | start => exact .inl ⟨hreply (start_proceeds hp).1, fun _ => (start_proceeds hp).2⟩
  | run => exact .inl ⟨hreply (run_proceeds hp).1, fun _ => (run_proceeds hp).2⟩
  | join => exact .inl ⟨hreply (join_proceeds hp), nofun⟩
  | terminate => exact .inl ⟨hreply (terminate_proceeds hp), nofun⟩
  | configure stage key value => exact .inl ⟨hreply (configure_proceeds stage key value), nofun⟩
  | request request => exact .inl ⟨answer_proceeds hp request, nofun⟩

omit [Stage W σ] [Reader W ρ] in
theorem sound_empty (world : W) : (empty world : System W σ ρ).Sound :=
  ⟨wellConnected_empty, rfl, by simp [empty]⟩

theorem Sound.execute (h : system.Sound) (command : Command σ ρ) :
    (system.execute command).2.Sound := by
  rcases execute_cases h.wellConnected command with ⟨hproceeds, -⟩ | ⟨-, q, heq, hextends⟩
  · obtain ⟨entries, hjournal, hnew⟩ := hproceeds.journal
    refine ⟨hproceeds.wellConnected h.wellConnected, hproceeds.isStuck.trans h.isStuck, ?_⟩
    intro a ha
    refine IsCallChain.of_wiring_eq ?_ hproceeds.wiring
    rw [hjournal] at ha
    rcases List.mem_append.mp ha with ha | ha
    · exact hnew a ha
    · exact h.chains a ha
  · rw [heq]
    exact ⟨hextends.wellConnected h.wellConnected, h.isStuck,
      fun a ha => (h.chains a ha).mono hextends.connections hextends.size⟩

theorem Sound.executeAll (h : system.Sound) (commands : List (Command σ ρ)) :
    (executeAll commands system).2.Sound := by
  induction commands generalizing system with
  | nil => exact h
  | cons command commands ih => exact ih (h.execute command)

theorem isStarted_executeAll (h : system.Sound) {commands : List (Command σ ρ)}
    (hstarted : system.pipeline.isStarted ∨ ∃ command ∈ commands, command.isStart) :
    (executeAll commands system).2.pipeline.isStarted := by
  induction commands generalizing system with
  | nil => exact hstarted.resolve_right (by simp)
  | cons command commands ih =>
    have hfirst : system.pipeline.isStarted ∨ command.isStart →
        (system.execute command).2.pipeline.isStarted := by
      rcases execute_cases h.wellConnected command with
        ⟨hproceeds, hstart⟩ | ⟨hnot, q, heq, hextends⟩
      · exact fun hthis => hthis.elim hproceeds.isStarted hstart
      · rw [heq]
        exact fun hthis => hextends.isStarted.trans (hthis.resolve_right hnot)
    refine ih (h.execute command) ?_
    rcases hstarted with hstarted | ⟨other, hother, hisStart⟩
    · exact .inl (hfirst (.inl hstarted))
    · rcases List.mem_cons.mp hother with rfl | hother
      · exact .inl (hfirst (.inr hisStart))
      · exact .inr ⟨other, hother, hisStart⟩

/-- As long as no command is answered with a panic, all stages take events. -/
theorem isUsable_executeAll (h : system.Sound) {commands : List (Command σ ρ)}
    (husable : ∀ id, system.pipeline.isStage id → system.pipeline.isUsable id)
    (hcalm : ∀ answer ∈ (executeAll commands system).1, answer ≠ .reply .panicked) :
    ∀ id, (executeAll commands system).2.pipeline.isStage id →
      (executeAll commands system).2.pipeline.isUsable id := by
  induction commands generalizing system with
  | nil => exact husable
  | cons command commands ih =>
    have hthis : (system.execute command).1 ≠ .reply .panicked := hcalm _ List.mem_cons_self
    have hnext : ∀ id, (system.execute command).2.pipeline.isStage id →
        (system.execute command).2.pipeline.isUsable id := by
      rcases execute_cases h.wellConnected command with ⟨hproceeds, -⟩ | ⟨-, q, heq, hextends⟩
      · rw [isStage_of_wiring_eq hproceeds.wiring]
        exact fun id hid => hproceeds.usable hthis id (husable id hid)
      · rw [heq]
        exact hextends.usable husable
    exact ih (h.execute command) hnext fun answer hanswer =>
      hcalm answer (List.mem_cons_of_mem _ hanswer)

omit [Reader W ρ] in
theorem start_refused (hstarted : ¬ system.pipeline.isStarted) (refusal : Refusal) :
    system.start.1 ≠ .refused refusal := by
  rw [start, if_neg hstarted]
  dsimp only
  split <;> exact nofun

/-- A construction is refused and changes nothing, which it is once the pipeline has been started;
or else it is not refused. -/
theorem execute_construction {command : Command σ ρ} (h : command.isConstruction) :
    (∃ refusal, system.execute command = (.reply (.refused refusal), system)
        ∧ (system.pipeline.isStarted → refusal = .alreadyStarted))
      ∨ ¬ system.pipeline.isStarted
        ∧ ∀ refusal, (system.execute command).1 ≠ .reply (.refused refusal) := by
  have hconstruct : ∀ {α : Type} {step : Step σ ρ α} (given : α → Answer), step.IsSound →
      (∀ value refusal, given value ≠ .reply (.refused refusal)) →
      (∃ refusal, system.construct step given = (.reply (.refused refusal), system)
          ∧ (system.pipeline.isStarted → refusal = .alreadyStarted))
        ∨ ¬ system.pipeline.isStarted
          ∧ ∀ refusal, (system.construct step given).1 ≠ .reply (.refused refusal) := by
    intro α step given hstep hgiven
    refine (construct_cases hstep given).imp_right ?_
    rintro ⟨hstarted, value, q, heq, -⟩
    exact ⟨hstarted, fun refusal => heq ▸ hgiven value refusal⟩
  cases command with
  | addStage stage => exact (hconstruct .stage (addStage_isSound stage) nofun :)
  | addReader reader => exact (hconstruct .stage (addReader_isSound reader) nofun :)
  | connect source output target input =>
    exact (hconstruct .connection (tryConnect_isSound source output target input) nofun :)
  | start =>
    by_cases hstarted : system.pipeline.isStarted
    · refine .inl ⟨.alreadyStarted, ?_, fun _ => rfl⟩
      rw [execute, start, if_pos hstarted]
      rfl
    · exact .inr ⟨hstarted, fun refusal heq =>
        start_refused hstarted refusal (Answer.reply.inj heq)⟩
  | join | terminate | run | configure | request => cases h

theorem execute_connect (source : StageId) (output : String) (target : StageId)
    (input : String) :
    system.execute (.connect source output target input)
      = match system.pipeline.joined source output target input with
        | .error refusal => (.reply (.refused refusal), system)
        | .ok (out, inp) => (.connection ⟨system.pipeline.connections.length⟩,
            { system with
              pipeline := system.pipeline.addConnection
                { id := ⟨system.pipeline.connections.length⟩, source, output := out.name, target,
                  input := inp.name } }) := by
  rw [execute, construct, tryConnect_eq]
  cases system.pipeline.joined source output target input <;> rfl

/-- A connection is made exactly if it is to be made. -/
theorem exists_execute_connect_iff {c : Connection} :
    (∃ number after, system.execute (.connect c.source c.output c.target c.input)
        = (.connection number, after))
      ↔ ¬ system.pipeline.isStarted ∧ (∃ out inp, system.pipeline.Joins c out inp)
        ∧ ¬ ReflTransGen (Feeds system.pipeline.connections) c.target c.source := by
  rw [execute_connect, ← reaches_iff]
  constructor
  · rintro ⟨number, after, h⟩
    split at h
    · cases h
    · next out inp hjoined =>
      obtain ⟨hstarted, hjoins, hback⟩ := joined_eq_ok_iff.mp hjoined
      exact ⟨hstarted, ⟨out, inp, hjoins⟩, hback⟩
  · rintro ⟨hstarted, ⟨out, inp, hjoins⟩, hback⟩
    rw [joined_eq_ok_iff.mpr ⟨hstarted, hjoins, hback⟩]
    exact ⟨_, _, rfl⟩

/-! ## Main statements -/

/-- **Whatever was asked of a new pipeline**, its connections are as they have to be. A connection
is made exactly if the pipeline has not been started, declared ports that fit are joined and no
cycle is closed; it comes behind all others and gets the next number. A refused construction changes
nothing; once the pipeline has been started, all constructions are refused for that reason. That a
connection closes a cycle is only said if its target leads to its source already. -/
theorem construction_laws (world : W) (commands : List (Command σ ρ)) :
    let system := (executeAll commands (empty world)).2
    system.pipeline.WellConnected
    ∧ (∀ source output target input number after,
        system.execute (.connect source output target input) = (.connection number, after) →
        number = ⟨system.pipeline.connections.length⟩
          ∧ after.pipeline.connections
            = system.pipeline.connections ++ [{ id := number, source, output, target, input }])
    ∧ (∀ c : Connection,
        (∃ number after, system.execute (.connect c.source c.output c.target c.input)
            = (.connection number, after))
          ↔ ¬ system.pipeline.isStarted ∧ (∃ out inp, system.pipeline.Joins c out inp)
            ∧ ¬ ReflTransGen (Feeds system.pipeline.connections) c.target c.source)
    ∧ (∀ command refusal after, command.isConstruction →
        system.execute command = (.reply (.refused refusal), after) → after = system)
    ∧ ((∃ command ∈ commands, command.isStart) → ∀ command, command.isConstruction →
        system.execute command = (.reply (.refused .alreadyStarted), system))
    ∧ ∀ source output target input after,
        system.execute (.connect source output target input) = (.reply (.refused .cycle), after) →
        ReflTransGen (Feeds system.pipeline.connections) target source := by
  intro system
  have hsound : system.Sound := (sound_empty world).executeAll commands
  refine ⟨hsound.wellConnected, ?_, fun c => exists_execute_connect_iff, ?_, ?_, ?_⟩
  · intro source output target input number after h
    rw [execute_connect] at h
    split at h
    · cases h
    · next out inp hjoined =>
      obtain ⟨hnumber, rfl⟩ := Prod.mk.inj h
      obtain ⟨rfl, rfl⟩ := names_of_joined hjoined
      obtain rfl := Answer.connection.inj hnumber
      exact ⟨rfl, rfl⟩
  · intro command refusal after hconstruction h
    rcases execute_construction hconstruction with ⟨other, heq, -⟩ | ⟨-, hnot⟩
    · exact (Prod.mk.inj (h.symm.trans heq)).2
    · exact absurd (congrArg Prod.fst h) (hnot refusal)
  · rintro hstart command hconstruction
    have hstarted : system.pipeline.isStarted :=
      isStarted_executeAll (sound_empty world) (.inr hstart)
    rcases execute_construction hconstruction with ⟨refusal, heq, halready⟩ | ⟨hnot, -⟩
    · rw [heq, halready hstarted]
    · exact absurd hstarted hnot
  · intro source output target input after h
    rw [execute_connect] at h
    split at h
    · next refusal hjoined =>
      obtain ⟨hrefusal, -⟩ := Prod.mk.inj h
      obtain rfl := Reply.refused.inj (Answer.reply.inj hrefusal)
      exact reaches_iff.mp (reaches_of_joined_eq_cycle hjoined)
    · cases h

/-- **Every delivery comes to its end**, whatever the stages do. After any commands on a new
pipeline nothing waits for a stage that cannot become free; whenever a callback was called, the
stages held at that time, with its own, were different stages on one path of connections, no more
than there are; and no delivery would do anything else if it were allowed to go deeper. -/
theorem deliveries_come_to_their_end (world : W) (commands : List (Command σ ρ)) :
    let system := (executeAll commands (empty world)).2
    system.isStuck = false
    ∧ (∀ a, Entry.called a ∈ system.journal →
        IsPath system.pipeline.connections (a.stage :: a.held) ∧ (a.stage :: a.held).Nodup
          ∧ (a.stage :: a.held).length ≤ system.pipeline.size)
    ∧ ∀ held target input event depth, system.pipeline.IsCallChain (target :: held) →
        system.pipeline.size ≤ depth →
        deliver depth held target input event system
          = deliver system.pipeline.size held target input event system := by
  intro system
  have hsound : system.Sound := (sound_empty world).executeAll commands
  refine ⟨hsound.isStuck, fun a ha => ?_, fun held target input event depth hchain hdepth => ?_⟩
  · have hchain := hsound.chains a ha
    exact ⟨hchain.path, hchain.nodup hsound.wellConnected, hchain.length_le hsound.wellConnected⟩
  · exact deliver_eq_of_le hsound.wellConnected.layout
      (hchain.of_wiring_eq (wiring_layout system.pipeline))
      (by rw [size_layout]; exact Nat.le_add_right _ _) hdepth input event rfl

end System

end CallTrace.Pipeline
