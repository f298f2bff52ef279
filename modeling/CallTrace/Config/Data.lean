import CallTrace.Config
import CallTrace.Data

/-!
# Configurations as structured data

What a document does not say has its standard value. A section may also be an array of its values in
order; whether such an array may be too long depends on the format of the document.
-/

namespace CallTrace.Config

namespace Monitoring

/-- The settings as structured data. -/
def toData (settings : Monitoring) : Data :=
  .object [
    ("host_name", .text settings.host),
    ("experiment_id", .ofInt32 settings.experiment),
    ("enabled", .bool settings.isEnabled),
    ("replay_mode", .bool settings.isReplay),
    ("initial_trace_id", .ofInt? settings.firstTraceId)]

/-- Reads the settings. -/
def ofData? (surplus : Bool) (data : Data) : Option Monitoring := do
  let fields ← data.fields? surplus
    ["host_name", "experiment_id", "enabled", "replay_mode", "initial_trace_id"]
  let standard : Monitoring := {}
  return {
    host := ← fields.readD? "host_name" Data.text? standard.host
    experiment := ← fields.readD? "experiment_id" Data.int32? standard.experiment
    isEnabled := ← fields.readD? "enabled" Data.bool? standard.isEnabled
    isReplay := ← fields.readD? "replay_mode" Data.bool? standard.isReplay
    firstTraceId :=
      ← fields.readD? "initial_trace_id" (Data.optional? Data.int64?) standard.firstTraceId }

end Monitoring

namespace Reading

/-- The settings as structured data. -/
def toData (settings : Reading) : Data :=
  .object [
    ("queue_capacity", .ofWord64 settings.queueCapacity),
    ("skip_malformed_records", .bool settings.skipsMalformed)]

/-- Reads the settings. -/
def ofData? (surplus : Bool) (data : Data) : Option Reading := do
  let fields ← data.fields? surplus ["queue_capacity", "skip_malformed_records"]
  let standard : Reading := {}
  return {
    queueCapacity := ← fields.readD? "queue_capacity" Data.word64? standard.queueCapacity
    skipsMalformed := ← fields.readD? "skip_malformed_records" Data.bool? standard.skipsMalformed }

end Reading

namespace Reconstruction

/-- The settings as structured data. -/
def toData (settings : Reconstruction) : Data :=
  .object [
    ("max_trace_duration_ms", .ofWord64 settings.maxDurationMillis),
    ("emit_invalid_traces", .bool settings.emitsInvalid),
    ("settle_complete_traces", .bool settings.settles)]

/-- Reads the settings. -/
def ofData? (surplus : Bool) (data : Data) : Option Reconstruction := do
  let fields ← data.fields? surplus
    ["max_trace_duration_ms", "emit_invalid_traces", "settle_complete_traces"]
  let standard : Reconstruction := {}
  return {
    maxDurationMillis :=
      ← fields.readD? "max_trace_duration_ms" Data.word64? standard.maxDurationMillis
    emitsInvalid := ← fields.readD? "emit_invalid_traces" Data.bool? standard.emitsInvalid
    settles := ← fields.readD? "settle_complete_traces" Data.bool? standard.settles }

end Reconstruction

namespace Window

/-- The settings as structured data. -/
def toData (settings : Window) : Data :=
  .object [
    ("not_before", .ofInt? settings.notBefore),
    ("not_after", .ofInt? settings.notAfter)]

/-- Reads the settings. -/
def ofData? (surplus : Bool) (data : Data) : Option Window := do
  let fields ← data.fields? surplus ["not_before", "not_after"]
  return {
    notBefore := ← fields.readD? "not_before" (Data.optional? Data.int64?) none
    notAfter := ← fields.readD? "not_after" (Data.optional? Data.int64?) none }

end Window

/-- The scripts of an extractor as structured data. -/
def scriptsToData (scripts : Extractor.Scripts) : Data :=
  .object [
    ("component_script", .ofText? scripts.component),
    ("operation_script", .ofText? scripts.operation)]

/-- Reads the scripts of an extractor. -/
def scriptsOfData? (surplus : Bool) (data : Data) : Option Extractor.Scripts := do
  let fields ← data.fields? surplus ["component_script", "operation_script"]
  return {
    component := ← fields.readD? "component_script" (Data.optional? Data.text?) none
    operation := ← fields.readD? "operation_script" (Data.optional? Data.text?) none }

namespace Logging

/-- The settings as structured data. -/
def toData (settings : Logging) : Data :=
  .object [
    ("filter", .text settings.filter),
    ("log_file", .ofText? settings.file)]

/-- Reads the settings. -/
def ofData? (surplus : Bool) (data : Data) : Option Logging := do
  let fields ← data.fields? surplus ["filter", "log_file"]
  let standard : Logging := {}
  return {
    filter := ← fields.readD? "filter" Data.text? standard.filter
    file := ← fields.readD? "log_file" (Data.optional? Data.text?) standard.file }

end Logging

/-- A configuration as structured data. -/
def toData (config : Config) : Data :=
  .object [
    ("source_label", .text config.label),
    ("monitoring", config.monitoring.toData),
    ("pipeline", config.reading.toData),
    ("reconstruction", config.reconstruction.toData),
    ("filter", config.window.toData),
    ("signatures", scriptsToData config.scripts),
    ("logging", config.logging.toData)]

/-- Reads a configuration. -/
def ofData? (surplus : Bool) (data : Data) : Option Config := do
  let fields ← data.fields? surplus
    ["source_label", "monitoring", "pipeline", "reconstruction", "filter", "signatures", "logging"]
  return {
    label := ← fields.readD? "source_label" Data.text? standard.label
    monitoring := ← fields.readD? "monitoring" (Monitoring.ofData? surplus) {}
    reading := ← fields.readD? "pipeline" (Reading.ofData? surplus) {}
    reconstruction := ← fields.readD? "reconstruction" (Reconstruction.ofData? surplus) {}
    window := ← fields.readD? "filter" (Window.ofData? surplus) {}
    scripts := ← fields.readD? "signatures" (scriptsOfData? surplus) {}
    logging := ← fields.readD? "logging" (Logging.ofData? surplus) {} }

end CallTrace.Config
