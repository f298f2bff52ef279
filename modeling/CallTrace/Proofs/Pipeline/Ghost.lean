import CallTrace.Proofs.Pipeline.Commands

/-!
# Parts of the world that nothing depends on

Stages and readers may do more to a world than shows in a part of it. If what they do with the rest
mirrors what they do with the part alone, then so does every run (`executeAll_mapWorld`).

In this way a pipeline can be watched: every callback is noted with its ending, and the notes change
nothing (`System.watch_eq`).
-/

namespace CallTrace.Pipeline

variable {V W σ ρ α β : Type} {view : V → W}

/-! ## Callbacks -/

namespace Callback

/-- The first callback does in a larger world what the second one does in the part of it that shows,
and more only to what does not show. -/
inductive Mirrors (view : V → W) : Callback V α → Callback W α → Prop
  | done (result : α) : Mirrors view (done result) (done result)
  | emit {next next'} (port : String) (event : Event)
    (h : ∀ accepted, Mirrors view (next accepted) (next' accepted)) :
    Mirrors view (Callback.emit port event next) (Callback.emit port event next')
  | update {change change' next next'} (hchange : ∀ v, view (change v) = change' (view v))
    (h : Mirrors view next next') : Mirrors view (update change next) (update change' next')
  | observe {next next'} (h : ∀ v, Mirrors view (next v) (next' (view v))) :
    Mirrors view (observe next) (observe next')
  | hidden {change next callback} (hchange : ∀ v, view (change v) = view v)
    (h : Mirrors view next callback) : Mirrors view (update change next) callback

namespace Mirrors

variable {callback : Callback V α} {callback' : Callback W α}

theorem bind {f : α → Callback V β} {f' : α → Callback W β} (h : Mirrors view callback callback')
    (hf : ∀ result, Mirrors view (f result) (f' result)) :
    Mirrors view (callback >>= f) (callback' >>= f') := by
  induction h with
  | done result => exact hf result
  | emit port event _ ih => exact .emit port event ih
  | update hchange _ ih => exact .update hchange ih
  | observe _ ih => exact .observe ih
  | hidden hchange _ ih => exact .hidden hchange ih

/-- A callback on a part of a larger world. -/
theorem within {replace : W → V → V} (h : ∀ w v, view (replace w v) = w)
    (callback : Callback W α) : Mirrors view (callback.within view replace) callback := by
  induction callback with
  | done result => exact .done result
  | emit port event next ih => exact .emit port event ih
  | update change next ih => exact .update (fun v => h _ _) ih
  | observe next ih => exact .observe fun v => ih (view v)

end Mirrors

theorem bind_pure (callback : Callback W α) : callback >>= pure = callback := by
  induction callback with
  | done result => rfl
  | emit port event next ih => exact congrArg (Callback.emit port event) (funext ih)
  | update change next ih => exact congrArg (Callback.update change) ih
  | observe next ih => exact congrArg Callback.observe (funext ih)

end Callback

/-! ## Stages and readers -/

/-- Stages that do in a larger world what they do in the part of it that shows. -/
structure StageMirrors (view : V → W) (b : Stage V σ) (a : Stage W σ) : Prop where
  name : b.name = a.name
  ports : b.ports = a.ports
  onStart : ∀ surroundings stage,
    (b.onStart surroundings stage).Mirrors view (a.onStart surroundings stage)
  onEvent : ∀ surroundings input event stage,
    (b.onEvent surroundings input event stage).Mirrors view
      (a.onEvent surroundings input event stage)
  onTerminate : ∀ surroundings stage,
    (b.onTerminate surroundings stage).Mirrors view (a.onTerminate surroundings stage)
  onSetting : ∀ key value stage v,
    (b.onSetting key value stage v).map id view = a.onSetting key value stage (view v)

/-- Readers that do in a larger world what they do in the part of it that shows. -/
structure ReaderMirrors (view : V → W) (b : Reader V ρ) (a : Reader W ρ) : Prop where
  name : b.name = a.name
  ports : b.ports = a.ports
  read : ∀ surroundings reader,
    (b.read surroundings reader).Mirrors view (a.read surroundings reader)
  onTerminate : ∀ surroundings reader,
    (b.onTerminate surroundings reader).Mirrors view (a.onTerminate surroundings reader)

namespace System

/-- The same pipeline in the part of the world that shows. -/
def mapWorld (view : V → W) (system : System V σ ρ) : System W σ ρ where
  pipeline := system.pipeline
  world := view system.world
  journal := system.journal
  isStuck := system.isStuck

variable {system : System V σ ρ}

/-! ## Deliveries -/

theorem perform_mapWorld {emit : String → Event → System V σ ρ → Bool × System V σ ρ}
    {emit' : String → Event → System W σ ρ → Bool × System W σ ρ}
    (hemit : ∀ output event (system : System V σ ρ),
      (emit output event system).map id (mapWorld view) = emit' output event (system.mapWorld view))
    {callback : Callback V α} {callback' : Callback W α} (h : callback.Mirrors view callback')
    (system : System V σ ρ) :
    (system.perform callback emit).map id (mapWorld view)
      = (system.mapWorld view).perform callback' emit' := by
  unfold perform
  induction h generalizing system with
  | done result => rfl
  | emit port event _ ih =>
    rw [Callback.run, Callback.run, ← hemit port event system]
    exact ih _ _
  | @update change change' _ _ hchange _ ih =>
    refine (ih _).trans ?_
    rw [Callback.run]
    exact congrArg (Callback.run _ _ _ _ <| { system.mapWorld view with world := · })
      (hchange system.world)
  | observe _ ih => exact ih system.world system
  | hidden hchange _ ih =>
    refine (ih _).trans ?_
    exact congrArg (Callback.run _ _ _ _ <| { system.mapWorld view with world := · })
      (hchange system.world)

theorem broadcast_mapWorld {deliver : StageId → String → Event → System V σ ρ → System V σ ρ}
    {deliver' : StageId → String → Event → System W σ ρ → System W σ ρ}
    (hdeliver : ∀ target input event (system : System V σ ρ),
      (deliver target input event system).mapWorld view
        = deliver' target input event (system.mapWorld view))
    (source : StageId) (output : String) (event : Event) (system : System V σ ρ) :
    (broadcast deliver source output event system).map id (mapWorld view)
      = broadcast deliver' source output event (system.mapWorld view) := by
  have hall : ∀ (subscribers : List Subscriber) (system : System V σ ρ),
      (subscribers.foldl (fun system s => deliver s.target s.input event system) system).mapWorld
          view
        = subscribers.foldl (fun system s => deliver' s.target s.input event system)
          (system.mapWorld view) := by
    intro subscribers
    induction subscribers with
    | nil => exact fun _ => rfl
    | cons s subscribers ih =>
      intro system
      rw [List.foldl_cons, List.foldl_cons, ← hdeliver]
      exact ih _
  unfold broadcast
  rw [show (system.mapWorld view).pipeline = system.pipeline from rfl]
  split
  · exact congrArg (Prod.mk true) (hall _ _)
  · rfl

variable {b : Stage V σ} {a : Stage W σ}

theorem deliver_mapWorld (h : StageMirrors view b a) (depth : Nat) (held : List StageId)
    (target : StageId) (input : String) (event : Event) (system : System V σ ρ) :
    (@deliver V σ ρ b depth held target input event system).mapWorld view
      = @deliver W σ ρ a depth held target input event (system.mapWorld view) := by
  induction depth generalizing held target input event system with
  | zero => rfl
  | succ depth ih =>
    unfold deliver
    rw [show (system.mapWorld view).pipeline = system.pipeline from rfl]
    split
    · next stage isPoisoned _ _ =>
      split
      · rfl
      · split
        · rfl
        · have hperform := perform_mapWorld
            (broadcast_mapWorld (ih (target :: held)) target)
            (h.onEvent (system.surroundings target) input event stage)
            (system.note (.called { stage := target, occasion := .event input event, held }))
          exact congrArg (fun left : (Ending × σ) × System W σ ρ =>
            left.2.setMember target (.stage left.1.2)) hperform
    · rfl

theorem emitFrom_mapWorld (h : StageMirrors view b a) (held : List StageId) (source : StageId)
    (output : String) (event : Event) (system : System V σ ρ) :
    (@emitFrom V σ ρ b held source output event system).map id (mapWorld view)
      = @emitFrom W σ ρ a held source output event (system.mapWorld view) :=
  broadcast_mapWorld (deliver_mapWorld h _ held) source output event system

theorem answer_mapWorld (h : StageMirrors view b a) (request : Request) (system : System V σ ρ) :
    (@answer V σ ρ b system request).map id (mapWorld view)
      = @answer W σ ρ a (system.mapWorld view) request := by
  cases request with
  | emit source output event =>
    cases event with
    | none => rfl
    | some event => exact emitFrom_mapWorld h [] source output event system
  | inject target input event =>
    show (@inject V σ ρ b system target input event).map id (mapWorld view)
      = @inject W σ ρ a (system.mapWorld view) target input event
    unfold inject
    rw [show (system.mapWorld view).pipeline = system.pipeline from rfl]
    split
    · rfl
    · split
      · exact congrArg (Prod.mk true) (deliver_mapWorld h _ [] target _ event system)
      · rfl

/-! ## Lifecycle -/

/-- What becomes of a member whose callback has run. -/
def settle {μ : Type} (stage : StageId) (member : μ → Member σ ρ)
    (performed : (Ending × μ) × System W σ ρ) : Ending × System W σ ρ :=
  let next := performed.2.setMember stage (member performed.1.2)
  (performed.1.1, if performed.1.1 = .panicked then next.poison stage else next)

theorem callBack_eq_settle [Stage W σ] {μ : Type} (stage : StageId) (occasion : Occasion)
    (callback : Surroundings → Callback W (Ending × μ)) (member : μ → Member σ ρ)
    (system : System W σ ρ) :
    system.callBack stage occasion callback member
      = settle stage member ((system.note (.called { stage, occasion, held := [] })).perform
          (callback (system.surroundings stage)) (emitFrom [stage] stage)) := by
  have hsame : (system.note (.called { stage, occasion, held := [] })).surroundings stage
      = system.surroundings stage := rfl
  unfold callBack settle
  dsimp only
  rw [hsame]
  generalize (System.perform _ _ _ : (Ending × μ) × System W σ ρ) = performed
  obtain ⟨⟨ending, value⟩, next⟩ := performed
  cases ending <;> rfl

theorem settle_mapWorld {μ : Type} (stage : StageId) (member : μ → Member σ ρ)
    (performed : (Ending × μ) × System V σ ρ) :
    (settle stage member performed).map id (mapWorld view)
      = settle stage member (performed.map id (mapWorld view)) := by
  obtain ⟨⟨ending, value⟩, next⟩ := performed
  cases ending <;> rfl

theorem callBack_mapWorld (h : StageMirrors view b a) {μ : Type} (stage : StageId)
    (occasion : Occasion) {callback : Surroundings → Callback V (Ending × μ)}
    {callback' : Surroundings → Callback W (Ending × μ)}
    (hback : ∀ surroundings, (callback surroundings).Mirrors view (callback' surroundings))
    (member : μ → Member σ ρ) (system : System V σ ρ) :
    (@callBack V σ ρ b μ system stage occasion callback member).map id (mapWorld view)
      = @callBack W σ ρ a μ (system.mapWorld view) stage occasion callback' member := by
  have hperform := perform_mapWorld (emitFrom_mapWorld h [stage] stage)
    (hback (system.surroundings stage)) (system.note (.called { stage, occasion, held := [] }))
  rw [@callBack_eq_settle V, @callBack_eq_settle W, settle_mapWorld, hperform]
  rfl

theorem forMembers_mapWorld {step : System V σ ρ → StageId → Ending × System V σ ρ}
    {step' : System W σ ρ → StageId → Ending × System W σ ρ}
    (hstep : ∀ (system : System V σ ρ) stage,
      (step system stage).map id (mapWorld view) = step' (system.mapWorld view) stage)
    (stages : List StageId) (system : System V σ ρ) :
    (forMembers step stages system).map id (mapWorld view)
      = forMembers step' stages (system.mapWorld view) := by
  induction stages generalizing system with
  | nil => rfl
  | cons stage stages ih =>
    rw [forMembers, forMembers, ← hstep]
    generalize step system stage = result
    obtain ⟨ending, next⟩ := result
    cases ending with
    | panicked => rfl
    | returned | failed => exact ih next

theorem startMember_mapWorld (h : StageMirrors view b a) (system : System V σ ρ)
    (stage : StageId) :
    (@startMember V σ ρ b system stage).map id (mapWorld view)
      = @startMember W σ ρ a (system.mapWorld view) stage := by
  unfold startMember
  rw [show (system.mapWorld view).pipeline = system.pipeline from rfl]
  split
  · exact callBack_mapWorld h stage .start (h.onStart · _) .stage system
  · rfl

variable {d : Reader V ρ} {c : Reader W ρ}

theorem terminateMember_mapWorld (h : StageMirrors view b a) (hreader : ReaderMirrors view d c)
    (system : System V σ ρ) (stage : StageId) :
    (@terminateMember V σ ρ b d system stage).map id (mapWorld view)
      = @terminateMember W σ ρ a c (system.mapWorld view) stage := by
  unfold terminateMember
  rw [show (system.mapWorld view).pipeline = system.pipeline from rfl]
  split
  · exact callBack_mapWorld h stage .terminate (h.onTerminate · _) .stage system
  · exact callBack_mapWorld h stage .terminate (hreader.onTerminate · _) .reader system
  · rfl

/-- What the start of a pipeline comes to when the stages have heard of it. -/
def setOut (result : Bool × System W σ ρ) : Reply × System W σ ρ :=
  if result.1 then (.done, { result.2 with
    pipeline := { result.2.pipeline with running := result.2.readers } })
  else (.panicked, result.2)

theorem start_eq_setOut [Stage W σ] {system : System W σ ρ} (h : ¬ system.pipeline.isStarted) :
    system.start = setOut (forMembers startMember system.pipeline.order
      { system with pipeline := { system.pipeline with isStarted := true } }) := by
  rw [start, if_neg h]
  dsimp only
  split
  · next hcase =>
    rw [show forMembers startMember system.pipeline.order _ = _ from hcase]
    rfl
  · next hcase =>
    rw [show forMembers startMember system.pipeline.order _ = _ from hcase]
    rfl

theorem setOut_mapWorld (result : Bool × System V σ ρ) :
    (setOut result).map id (mapWorld view) = setOut (result.map id (mapWorld view)) := by
  obtain ⟨completed, next⟩ := result
  cases completed <;> rfl

theorem start_mapWorld (h : StageMirrors view b a) (system : System V σ ρ) :
    (@start V σ ρ b system).map id (mapWorld view) = @start W σ ρ a (system.mapWorld view) := by
  by_cases hstarted : system.pipeline.isStarted
  · unfold start
    rw [if_pos hstarted, if_pos (show (system.mapWorld view).pipeline.isStarted from hstarted)]
    rfl
  · have hall := forMembers_mapWorld (startMember_mapWorld h) system.pipeline.order
      { system with pipeline := { system.pipeline with isStarted := true } }
    rw [@start_eq_setOut V _ _ b _ hstarted,
      @start_eq_setOut W _ _ a (system.mapWorld view) hstarted]
    exact (setOut_mapWorld _).trans (congrArg setOut hall)

theorem runReader_mapWorld (h : StageMirrors view b a) (hreader : ReaderMirrors view d c)
    (system : System V σ ρ) (stage : StageId) :
    (@runReader V σ ρ b d system stage).map id (mapWorld view)
      = @runReader W σ ρ a c (system.mapWorld view) stage := by
  unfold runReader
  rw [show (system.mapWorld view).pipeline = system.pipeline from rfl]
  split
  · next reader _ _ =>
    rw [← callBack_mapWorld h stage .read (hreader.read · reader) .reader system]
    generalize @callBack V σ ρ b _ system stage .read _ _ = result
    obtain ⟨ending, next⟩ := result
    cases ending <;> rfl
  · rfl

theorem joinAll_mapWorld (h : StageMirrors view b a) (hreader : ReaderMirrors view d c)
    (stages : List StageId) (system : System V σ ρ) :
    (@joinAll V σ ρ b d stages system).map id (mapWorld view)
      = @joinAll W σ ρ a c stages (system.mapWorld view) := by
  induction stages generalizing system with
  | nil => rfl
  | cons stage stages ih =>
    unfold joinAll
    rw [← runReader_mapWorld h hreader system stage]
    dsimp only [Prod.map]
    rw [← ih]
    rfl

theorem join_mapWorld (h : StageMirrors view b a) (hreader : ReaderMirrors view d c)
    (system : System V σ ρ) :
    (@join V σ ρ b d system).map id (mapWorld view)
      = @join W σ ρ a c (system.mapWorld view) :=
  congrArg (Prod.map (fun failure => Option.elim failure Reply.done Reply.refused) id)
    (joinAll_mapWorld h hreader system.pipeline.running
      { system with pipeline := { system.pipeline with running := [] } })

theorem terminate_mapWorld (h : StageMirrors view b a) (hreader : ReaderMirrors view d c)
    (system : System V σ ρ) :
    (@terminate V σ ρ b d system).map id (mapWorld view)
      = @terminate W σ ρ a c (system.mapWorld view) := by
  have hall := forMembers_mapWorld (terminateMember_mapWorld h hreader) system.pipeline.order
    { system with pipeline := { system.pipeline with isTerminated := true, isClosed := true } }
  unfold terminate
  dsimp only
  rw [show (system.mapWorld view).pipeline = system.pipeline from rfl]
  split
  · rfl
  · exact congrArg (Prod.map (fun completed => if completed then Reply.done else Reply.panicked) id)
      hall

theorem run_mapWorld (h : StageMirrors view b a) (hreader : ReaderMirrors view d c)
    (system : System V σ ρ) :
    (@run V σ ρ b d system).map id (mapWorld view) = @run W σ ρ a c (system.mapWorld view) := by
  unfold run
  rw [← start_mapWorld h system]
  generalize @start V σ ρ b system = started
  obtain ⟨reply, next⟩ := started
  cases reply with
  | refused | panicked => rfl
  | done =>
    dsimp only [Prod.map]
    rw [show id Reply.done = Reply.done from rfl]
    dsimp only
    rw [← join_mapWorld h hreader next]
    generalize @join V σ ρ b d next = joined
    obtain ⟨answer, next⟩ := joined
    dsimp only [Prod.map]
    rw [← terminate_mapWorld h hreader next]
    generalize @terminate V σ ρ b d next = terminated
    obtain ⟨reply, next⟩ := terminated
    cases reply <;> rfl

theorem configure_mapWorld (h : StageMirrors view b a) (stage : StageId) (key : String)
    (value : Setting) (system : System V σ ρ) :
    (@configure V σ ρ b system stage key value).map id (mapWorld view)
      = @configure W σ ρ a (system.mapWorld view) stage key value := by
  unfold configure
  rw [show (system.mapWorld view).pipeline = system.pipeline from rfl]
  split
  · rfl
  · rfl
  · rfl
  · next member _ _ =>
    rw [show (system.mapWorld view).world = view system.world from rfl,
      ← h.onSetting key value member system.world]
    generalize b.onSetting key value member system.world = result
    obtain ⟨⟨ending, after⟩, v⟩ := result
    cases ending <;> rfl

/-! ## Commands -/

theorem execute_mapWorld (h : StageMirrors view b a) (hreader : ReaderMirrors view d c)
    (command : Command σ ρ) (system : System V σ ρ) :
    (@execute V σ ρ b d system command).map id (mapWorld view)
      = @execute W σ ρ a c (system.mapWorld view) command := by
  cases command with
  | addStage stage =>
    unfold execute addStage
    rw [h.name, h.ports]
    rfl
  | addReader reader =>
    unfold execute addReader
    rw [hreader.name, hreader.ports]
    rfl
  | connect source output target input => rfl
  | start => exact congrArg (Prod.map Answer.reply id) (start_mapWorld h system)
  | join => exact congrArg (Prod.map Answer.reply id) (join_mapWorld h hreader system)
  | terminate => exact congrArg (Prod.map Answer.reply id) (terminate_mapWorld h hreader system)
  | run => exact congrArg (Prod.map Answer.reply id) (run_mapWorld h hreader system)
  | configure stage key value =>
    exact congrArg (Prod.map Answer.reply id) (configure_mapWorld h stage key value system)
  | request request =>
    exact congrArg (Prod.map Answer.flag id) (answer_mapWorld h request system)

/-- **What does not show makes no difference**: stages and readers that do more to a larger world
give the same answers, and leave the same pipeline and journal behind and the same of the world that
shows. -/
theorem executeAll_mapWorld (h : StageMirrors view b a) (hreader : ReaderMirrors view d c)
    (commands : List (Command σ ρ)) (system : System V σ ρ) :
    (@executeAll V σ ρ b d commands system).map id (mapWorld view)
      = @executeAll W σ ρ a c commands (system.mapWorld view) := by
  induction commands generalizing system with
  | nil => rfl
  | cons command commands ih =>
    unfold executeAll
    rw [← execute_mapWorld h hreader command system]
    dsimp only [Prod.map]
    rw [← ih]
    rfl

end System

/-! ## Watching a pipeline -/

/-- A callback that has run: the stage as it was called, on which occasion and how it ended. -/
structure Handling (σ : Type) where
  stage : σ
  occasion : Occasion
  ending : Ending

/-- A world with the callbacks that have run in it, the latest one first. -/
abbrev Watched (W σ : Type) := W × List (Handling σ)

namespace Callback

/-- A callback that leaves the notes alone. -/
def unwatched (σ : Type) (callback : Callback W α) : Callback (Watched W σ) α :=
  callback.within Prod.fst fun world watched => (world, watched.2)

/-- A stage's callback that is noted when it has ended. -/
def watched (stage : σ) (occasion : Occasion) (callback : Callback W (Ending × σ)) :
    Callback (Watched W σ) (Ending × σ) := do
  let (ending, after) ← callback.unwatched σ
  Callback.change fun watched => (watched.1, { stage, occasion, ending } :: watched.2)
  return (ending, after)

theorem unwatched_mirrors (callback : Callback W α) :
    (callback.unwatched σ).Mirrors Prod.fst callback :=
  .within (fun _ _ => rfl) callback

theorem watched_mirrors (stage : σ) (occasion : Occasion) (callback : Callback W (Ending × σ)) :
    (callback.watched stage occasion).Mirrors Prod.fst callback := by
  have hnoted : (callback.watched stage occasion).Mirrors Prod.fst (callback >>= pure) :=
    (unwatched_mirrors callback).bind fun result => .hidden (fun _ => rfl) (.done result)
  rwa [bind_pure] at hnoted

end Callback

/-- Stages that are watched. -/
@[reducible]
def watchingStage (a : Stage W σ) : Stage (Watched W σ) σ where
  name := a.name
  ports := a.ports
  onStart surroundings stage := (a.onStart surroundings stage).watched stage .start
  onEvent surroundings input event stage :=
    (a.onEvent surroundings input event stage).watched stage (.event input event)
  onTerminate surroundings stage := (a.onTerminate surroundings stage).watched stage .terminate
  onSetting key value stage watched :=
    (a.onSetting key value stage watched.1).map id (·, watched.2)

/-- Readers of a pipeline whose stages are watched. -/
@[reducible]
def watchingReader (σ : Type) (c : Reader W ρ) : Reader (Watched W σ) ρ where
  name := c.name
  ports := c.ports
  read surroundings reader := (c.read surroundings reader).unwatched σ
  onTerminate surroundings reader := (c.onTerminate surroundings reader).unwatched σ

theorem watchingStage_mirrors (a : Stage W σ) : StageMirrors Prod.fst (watchingStage a) a where
  name := rfl
  ports := rfl
  onStart := fun _ stage => Callback.watched_mirrors stage .start _
  onEvent := fun _ input event stage => Callback.watched_mirrors stage (.event input event) _
  onTerminate := fun _ stage => Callback.watched_mirrors stage .terminate _
  onSetting := fun _ _ _ _ => rfl

theorem watchingReader_mirrors (c : Reader W ρ) :
    ReaderMirrors Prod.fst (watchingReader σ c) c where
  name := rfl
  ports := rfl
  read := fun _ _ => Callback.unwatched_mirrors _
  onTerminate := fun _ _ => Callback.unwatched_mirrors _

/-- What becomes of an empty pipeline in a world, with all callbacks of its stages noted. -/
def System.watch [a : Stage W σ] [c : Reader W ρ] (commands : List (Command σ ρ)) (world : W) :
    List Answer × System (Watched W σ) σ ρ :=
  @executeAll _ σ ρ (watchingStage a) (watchingReader σ c) commands (empty (world, []))

/-- **Watching a pipeline changes nothing.** -/
theorem System.watch_eq [a : Stage W σ] [c : Reader W ρ] (commands : List (Command σ ρ))
    (world : W) :
    (watch commands world).map id (mapWorld Prod.fst) = executeAll commands (empty world) :=
  executeAll_mapWorld (watchingStage_mirrors a) (watchingReader_mirrors c) commands _

end CallTrace.Pipeline
