import CallTrace.Monitoring.Writer

/-!
# Writers for trials

A writer that fails after so many records.
-/

namespace CallTrace.Trial

open Monitoring

/-- Forgets records, and fails once it had its fill. -/
structure FailingWriter where
  /-- How many more writes succeed. -/
  remaining : Nat
  deriving DecidableEq, Repr

instance : RecordWriter FailingWriter where
  name _ := "FailingWriter"
  write writer _ :=
    match writer.remaining with
    | 0 => (.error (.channel "disk full"), writer)
    | remaining + 1 => (.ok (), { remaining })

/-- The writers of trials. -/
abbrev TrialWriter := StandardWriter ⊕ FailingWriter

end CallTrace.Trial
