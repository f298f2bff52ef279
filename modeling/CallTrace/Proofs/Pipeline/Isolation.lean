import CallTrace.Proofs.Pipeline.Commands

/-!
# How handlers end makes no difference

Two pipelines whose stages handle events alike, except that handlers may fail or panic in one of
them, cannot be told apart by anything they do (`executeAll_congr`). In particular a failure cuts
off no other subscriber and no later event: `failures_are_isolated` says what an answered request
has called.
-/

namespace CallTrace.Pipeline

variable {W σ ρ : Type}

/-! ## Two behaviours that differ in endings only -/

/-- Two behaviours of stages that are the same, apart from how handlers of events end: they emit the
same events, do the same to the world and leave the same stage behind. Endings may depend on all of
these, so that handlers may fail at any chosen calls. -/
structure AgreeUpToEndings (a b : Stage W σ) : Prop where
  name : a.name = b.name
  ports : a.ports = b.ports
  onStart : a.onStart = b.onStart
  onTerminate : a.onTerminate = b.onTerminate
  onSetting : a.onSetting = b.onSetting
  onEvent : ∀ surroundings input event stage,
    Prod.snd <$> a.onEvent surroundings input event stage
      = Prod.snd <$> b.onEvent surroundings input event stage

theorem Request.Answers.activations_eq_nil {l : Pipeline Unit Unit} {request : Request}
    {entries : List Entry} {accepted : Bool} (h : request.Answers l accepted entries)
    (hno : accepted = false) : entries.filterMap Entry.activation? = [] := by
  subst hno
  unfold Request.Answers at h
  split at h
  · cases h with
    | refused _ => rfl
  · contradiction
  · rw [h.2]
    rfl

namespace System

/-! ## What a request calls -/

section Serves

variable [Stage W σ] {system : System W σ ρ}

/-- The entries of a request: whatever a subscriber causes comes before the next one, and no handler
is called if the answer is no. If all stages take events, an accepted emission has called every
subscriber exactly once, in the order of connecting. -/
structure Serves (system : System W σ ρ) (request : Request) (entries : List Entry) : Prop where
  writes : Writes system (system.answer request).2 entries
  answers : request.Answers system.pipeline.layout (system.answer request).1 entries
  declined : (system.answer request).1 = false → entries.filterMap Entry.activation? = []
  served : (∀ id, system.pipeline.isStage id → system.pipeline.isUsable id) →
    ∀ source output event, request = .emit source output (some event) →
      (system.answer request).1 = true →
      callsWithin [] entries
        = (system.pipeline.connections.filter (·.leaves source output)).map fun c =>
          { stage := c.target, occasion := .event c.input event, held := [] }

theorem exists_serves (hp : system.pipeline.WellConnected) (request : Request) :
    ∃ entries, Serves system request entries := by
  obtain ⟨entries, hwrites, hanswers⟩ := answer_writes hp request
  refine ⟨entries, hwrites, hanswers, fun hno => ?_, ?_⟩
  · exact hanswers.activations_eq_nil hno
  · rintro husable source output event rfl haccepted
    rw [haccepted] at hanswers
    cases hanswers with
    | accepted hport hall =>
      have hname := name_of_output?_eq_some (Option.eq_some_of_filter_eq_some hport)
      rw [hname] at hall
      have hthese : ∀ c ∈ system.pipeline.connections.filter (·.leaves source output),
          system.pipeline.layout.isUsable c.target := by
        intro c hc
        obtain ⟨out, inp, hjoins⟩ := hp.joins c (List.mem_filter.mp hc).1
        rw [isUsable_layout]
        exact husable _ hjoins.stage
      refine Eq.trans hall.callsWithin_eq ?_
      rw [List.filter_map, List.map_map]
      exact congrArg (List.map _) (List.filter_eq_self.mpr hthese)

end Serves

/-! ## Deliveries -/

variable {a b : Stage W σ}

/-- Only stage and state that a handler leaves behind matter to a delivery. -/
theorem perform_snd_eq {μ : Type} {callback callback' : Callback W (Ending × μ)}
    (h : Prod.snd <$> callback = Prod.snd <$> callback')
    (emit : String → Event → System W σ ρ → Bool × System W σ ρ) (system : System W σ ρ) :
    ((system.perform callback emit).1.2, (system.perform callback emit).2)
      = ((system.perform callback' emit).1.2, (system.perform callback' emit).2) := by
  have hboth := congrArg (system.perform · emit) h
  rw [show system.perform (Prod.snd <$> callback) emit = _ from
      perform_bind callback (fun result => pure result.2) system,
    show system.perform (Prod.snd <$> callback') emit = _ from
      perform_bind callback' (fun result => pure result.2) system] at hboth
  exact hboth

/-- Deliveries are the same, however deep. -/
theorem deliver_congr (h : AgreeUpToEndings a b) (depth : Nat) :
    @deliver W σ ρ a depth = @deliver W σ ρ b depth := by
  induction depth with
  | zero => rfl
  | succ depth ih =>
    funext held target input event system
    unfold deliver
    rw [ih]
    split
    · next stage isPoisoned _ _ =>
      split
      · rfl
      · split
        · rfl
        · exact congrArg (fun left : σ × System W σ ρ => left.2.setMember target (.stage left.1))
            (perform_snd_eq (h.onEvent (system.surroundings target) input event stage)
              (broadcast (@deliver W σ ρ b depth (target :: held)) target)
              (system.note (.called { stage := target, occasion := .event input event, held })))
    · rfl

theorem emitFrom_congr (h : AgreeUpToEndings a b) : @emitFrom W σ ρ a = @emitFrom W σ ρ b := by
  funext held source output event system
  unfold emitFrom
  rw [deliver_congr h]

theorem answer_congr (h : AgreeUpToEndings a b) : @answer W σ ρ a = @answer W σ ρ b := by
  funext system request
  cases request with
  | emit source output event =>
    cases event with
    | none => rfl
    | some event => exact congrFun (congrFun (congrFun (congrFun (congrFun
        (emitFrom_congr h) []) source) output) event) system
  | inject target input event =>
    unfold answer inject
    rw [deliver_congr h]

/-! ## Lifecycle -/

theorem callBack_congr (h : AgreeUpToEndings a b) {μ : Type} :
    @callBack W σ ρ a μ = @callBack W σ ρ b μ := by
  funext system id occasion callback member
  unfold callBack
  rw [emitFrom_congr h]

theorem start_congr (h : AgreeUpToEndings a b) : @start W σ ρ a = @start W σ ρ b := by
  have hmember : @startMember W σ ρ a = @startMember W σ ρ b := by
    funext system id
    unfold startMember
    rw [callBack_congr h, h.onStart]
  funext system
  unfold start
  rw [hmember]

variable [Reader W ρ]

theorem join_congr (h : AgreeUpToEndings a b) : @join W σ ρ a _ = @join W σ ρ b _ := by
  have hreader : @runReader W σ ρ a _ = @runReader W σ ρ b _ := by
    funext system id
    unfold runReader
    rw [callBack_congr h]
  have hall : @joinAll W σ ρ a _ = @joinAll W σ ρ b _ := by
    funext ids
    induction ids with
    | nil => rfl
    | cons id ids ih =>
      funext system
      unfold joinAll
      rw [hreader, ih]
  funext system
  unfold join
  rw [hall]

theorem terminate_congr (h : AgreeUpToEndings a b) :
    @terminate W σ ρ a _ = @terminate W σ ρ b _ := by
  have hmember : @terminateMember W σ ρ a _ = @terminateMember W σ ρ b _ := by
    funext system id
    unfold terminateMember
    rw [callBack_congr h, callBack_congr h, h.onTerminate]
  funext system
  unfold terminate
  rw [hmember]

theorem execute_congr (h : AgreeUpToEndings a b) :
    @execute W σ ρ a _ = @execute W σ ρ b _ := by
  funext system command
  cases command with
  | addStage stage =>
    unfold execute addStage
    rw [h.name, h.ports]
  | addReader reader => rfl
  | connect source output target input => rfl
  | start => unfold execute; rw [start_congr h]
  | join => unfold execute; rw [join_congr h]
  | terminate => unfold execute; rw [terminate_congr h]
  | run =>
    unfold execute run
    rw [start_congr h, join_congr h, terminate_congr h]
  | configure stage key value =>
    unfold execute configure
    rw [h.onSetting]
  | request request => unfold execute; rw [answer_congr h]

/-- **Two runs that differ only in how handlers end are the same run**: they give the same answers
and leave the same stages, the same world and the same journal behind. -/
theorem executeAll_congr (h : AgreeUpToEndings a b) (commands : List (Command σ ρ)) :
    @executeAll W σ ρ a _ commands = @executeAll W σ ρ b _ commands := by
  induction commands with
  | nil => rfl
  | cons command commands ih =>
    funext system
    unfold executeAll
    rw [execute_congr h, ih]

/-! ## Main statement -/

/-- **Failures of handlers are isolated.** Any commands to a new pipeline, requests among them, give
the same run under two behaviours of its stages that differ only in how handlers end. After them
every request is served, and as long as none of them was answered with a panic, all stages take
events. -/
theorem failures_are_isolated (a b : Stage W σ) (h : AgreeUpToEndings a b) (world : W)
    (commands : List (Command σ ρ)) :
    let run := @executeAll W σ ρ a _ commands (empty world)
    @executeAll W σ ρ b _ commands (empty world) = run
    ∧ (∀ request, ∃ entries, @Serves W σ ρ a run.2 request entries)
    ∧ ((∀ answer ∈ run.1, answer ≠ .reply .panicked) →
        ∀ id, run.2.pipeline.isStage id → run.2.pipeline.isUsable id) := by
  have hsound := @Sound.executeAll W σ ρ a _ _ (sound_empty world) commands
  refine ⟨by rw [executeAll_congr h], fun request => ?_, fun hcalm => ?_⟩
  · exact @exists_serves W σ ρ a _ hsound.wellConnected request
  · exact @isUsable_executeAll W σ ρ a _ _ (sound_empty world) commands
      (by simp [empty, isStage, slot?]) hcalm

/-- A stage that counts the events it hands on; how its handler ends depends on the count. -/
@[reducible]
def counting (ending : Nat → Ending) : Stage Unit Nat where
  name _ := "counter"
  ports _ := [.input "in" [], .output "out" []]
  onEvent _ _ event count := do
    let _ ← Callback.send "out" event
    return (ending count, count + 1)

/-- Nothing to read from. -/
@[reducible]
def noReader : Reader Unit Empty where
  name := nofun
  ports := nofun
  read _ := nofun

/-- A stage that feeds two others, the first of which feeds the second as well. -/
def diamond : List (Command Nat Empty) :=
  [.addStage 0, .addStage 0, .addStage 0, .connect ⟨0⟩ "out" ⟨1⟩ "in",
    .connect ⟨0⟩ "out" ⟨2⟩ "in", .connect ⟨1⟩ "out" ⟨2⟩ "in"]

/-- Failing on the first event and panicking on all later ones shows nowhere: the stage at the
bottom hears of every event from both others. -/
theorem isolated_in_diamond :
    let sound := counting fun _ => .returned
    let failing := counting fun
      | 0 => .failed (.invalidSetting "count" "zero")
      | _ => .panicked
    let commands := diamond ++ [.request (.emit ⟨0⟩ "out" (some (.call default))),
      .request (.inject ⟨0⟩ "in" (.call default))]
    let run := @executeAll _ _ _ failing noReader commands (empty ())
    AgreeUpToEndings sound failing
      ∧ run = @executeAll _ _ _ sound noReader commands (empty ())
      ∧ run.2.pipeline.slots.map Slot.stage? = [some 1, some 2, some 4] := by
  intro sound failing commands run
  have hagree : AgreeUpToEndings sound failing := ⟨rfl, rfl, rfl, rfl, rfl, fun _ _ _ _ => rfl⟩
  refine ⟨hagree, (@failures_are_isolated _ _ _ noReader sound failing hagree () commands).1, ?_⟩
  decide +kernel

end System

end CallTrace.Pipeline
