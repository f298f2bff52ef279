import CallTrace.Pipeline.Lifecycle
import CallTrace.Readers
import CallTrace.Stages

/-!
# The standard analysis

```
reader → TimestampFilter ─┬→ TraceReconstruction ──calls──→ ExecutionModelAssembler
                          └→ TypeModelAssembler
```
-/

namespace CallTrace

open Pipeline

namespace Analysis

/-- The members of the standard pipeline. -/
structure Members where
  reader : StageId
  filter : StageId
  reconstruction : StageId
  types : StageId
  execution : StageId
  deriving DecidableEq, Repr

section

variable {W σ ρ : Type} [Stage W σ] [Reader W ρ]

/-- Puts the standard pipeline together behind a reader. `stage` makes a standard stage one of the
pipeline's. The reader feeds the filter from its first output port. -/
def assemble (stage : StandardStage → σ) (config : Config) (extractor : Extractor) (reader : ρ) :
    Step σ ρ Members := do
  let some output := (Reader.ports reader).find? (·.direction == .output)
    | throw (.unknownPort .invalid "<any>" .output)
  let reader ← addReader reader
  let filter ← addStage (stage (.filter (.ofConfig config.window)))
  let reconstruction ← addStage (stage (.reconstruction (.ofConfig config.reconstruction)))
  let types ← addStage (stage (.types { extractor, label := config.label }))
  let execution ← addStage (stage (.execution { extractor, label := config.label }))
  let _ ← tryConnect reader output.name filter TimestampFilter.input
  let _ ← tryConnect filter TimestampFilter.within reconstruction TraceReconstruction.input
  let _ ← tryConnect filter TimestampFilter.within types TypeAssembler.input
  let _ ← tryConnect reconstruction TraceReconstruction.calls execution ExecutionAssembler.calls
  return { reader, filter, reconstruction, types, execution }

/-- The standard pipeline behind a reader. -/
def pipeline (stage : StandardStage → σ) (config : Config) (extractor : Extractor) (reader : ρ) :
    Except Refusal (Members × Pipeline σ ρ) :=
  let (result, pipeline) := (assemble stage config extractor reader).run {}
  result.map (·, pipeline)

end

/-- Runs the standard pipeline behind a reader, starting from empty models. Gives the models, or why
the pipeline could not be put together or failed. -/
def run (config : Config) (extractor : Extractor) (reader : StandardReader) (now : Instant) :
    Except Refusal (Reply × Model.Models) := do
  let (_, pipeline) ← pipeline id config extractor reader
  let system : System World StandardStage StandardReader := { pipeline, world := { now } }
  let (reply, system) := system.run
  return (reply, system.world.models)

end Analysis

end CallTrace
