import CallTrace.Extractor

/-!
# Configurations

The settings of an analysis: how records are monitored, how they are read, which of them count, how
traces are put together, under which signatures operations enter the models, and what is logged.
Every setting has a standard value.
-/

namespace CallTrace

namespace Config

/-- Settings of the monitoring controller. -/
structure Monitoring where
  /-- The host name in every record. -/
  host : String := "localhost"
  experiment : Int32 := 0
  /-- Whether records are written at all. -/
  isEnabled : Bool := true
  /-- Whether records keep the times they came with. -/
  isReplay : Bool := false
  /-- The first trace id that is handed out. -/
  firstTraceId : Option Int64 := none
  deriving DecidableEq, Repr

/-- Settings of reading. -/
structure Reading where
  /-- The capacity of queues between pipelines. -/
  queueCapacity : UInt64 := 10000
  /-- Whether records that cannot be decoded are passed over where the log stays readable. -/
  skipsMalformed : Bool := true
  deriving DecidableEq, Repr

/-- Settings of trace reconstruction. -/
structure Reconstruction where
  /-- How long a trace may stay behind the newest record, in milliseconds. -/
  maxDurationMillis : UInt64 := 60000
  /-- Whether the executions of invalid traces are passed on. -/
  emitsInvalid : Bool := false
  /-- Whether complete traces wait for latecomers. -/
  settles : Bool := true
  deriving DecidableEq, Repr

/-- The window of time whose records count; both bounds belong to it. -/
structure Window where
  notBefore : Option Int64 := none
  notAfter : Option Int64 := none
  deriving DecidableEq, Repr

/-- Settings of logging. -/
structure Logging where
  /-- What is logged. -/
  filter : String := "info,tracescope_rs=debug"
  /-- A file that is logged to as well. -/
  file : Option String := none
  deriving DecidableEq, Repr

end Config

/-- The configuration of an analysis. -/
structure Config where
  /-- The label under which the analysis contributes to the models. -/
  label : String := "dynamic"
  monitoring : Config.Monitoring := {}
  reading : Config.Reading := {}
  reconstruction : Config.Reconstruction := {}
  window : Config.Window := {}
  scripts : Extractor.Scripts := {}
  logging : Config.Logging := {}
  deriving DecidableEq, Repr

namespace Config

/-- The standard configuration. -/
def standard : Config := {}

instance : Inhabited Config := ⟨standard⟩

end Config

end CallTrace
