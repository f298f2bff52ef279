import CallTrace.Log.Error
import CallTrace.Pipeline.Error

/-!
# Errors

Everything that can go wrong in recording or analysing traces. An error can be wrapped in contexts
that say what was being done.
-/

namespace CallTrace

/-- An error. -/
inductive Error where
  | pipeline (refusal : Pipeline.Refusal)
  | log (fault : Log.Fault)
  | script (message : String)
  | config (message : String)
  | correlation (message : String)
  | channel (message : String)
  | model (message : String)
  | monitoringTerminated
  | io (message : String)
  | serialization (message : String)
  | inContext (context : String) (cause : Error)
  deriving DecidableEq, Repr

namespace Error

/-- The name of the kind of an error. -/
def kind : Error → String
  | pipeline _ => "Pipeline"
  | log _ => "Codec"
  | script _ => "Script"
  | config _ => "Config"
  | correlation _ => "Correlation"
  | channel _ => "Channel"
  | model _ => "Model"
  | monitoringTerminated => "MonitoringTerminated"
  | io _ => "Io"
  | serialization _ => "Serialization"
  | inContext .. => "WithContext"

/-- The wording of an error; contexts come first, the outermost one in front. -/
def message : Error → String
  | pipeline refusal => "Pipeline error: " ++ refusal.message
  | log fault => "Record codec error: " ++ fault.message
  | script text => "Script error: " ++ text
  | config text => "Configuration error: " ++ text
  | correlation text => "Correlation error: " ++ text
  | channel text => "Channel error: " ++ text
  | model text => "Model error: " ++ text
  | monitoringTerminated => "Monitoring terminated"
  | io text => "IO error: " ++ text
  | serialization text => "Serialization error: " ++ text
  | inContext context cause => context ++ ": " ++ cause.message

end Error

end CallTrace
