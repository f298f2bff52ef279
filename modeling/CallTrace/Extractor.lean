import CallTrace.Model.Signature
import CallTrace.Script.Eval
import CallTrace.Script.Parser
import CallTrace.Trace

/-!
# Extractors

An extractor decides under which signatures the operation of a site enters the models. It takes the
reported signatures as they are, runs a script for each of the two, or applies functions that the
program around the analysis brings with it. A script sees `component`, `operation` and `host`; when
it fails or gives no text, the reported signature stands.
-/

namespace CallTrace

/-- Picks the signatures of a site. -/
inductive Extractor where
  /-- The reported signatures. -/
  | identity
  /-- The results of two scripts. -/
  | scripted (component operation : Script.Program)
  /-- The values of two functions. -/
  | functions (component operation : Site → String)

namespace Extractor

/-- Which of the two scripts is meant. -/
inductive Part where
  | component
  | operation
  deriving DecidableEq, Repr

/-- The name of a script. -/
def Part.name : Part → String
  | .component => "Component"
  | .operation => "Operation"

/-- A script that is not well formed. -/
structure MalformedScript where
  part : Part
  cause : Script.Malformed
  deriving DecidableEq, Repr

/-- The wording of what is wrong with a script. -/
def MalformedScript.message (malformed : MalformedScript) : String :=
  malformed.part.name ++ " script: " ++ malformed.cause.message

/-- The scripts of an extractor; a missing one keeps the reported signature. -/
structure Scripts where
  component : Option String := none
  operation : Option String := none
  deriving DecidableEq, Repr, Inhabited

/-- Reads the script for a part. -/
def readScript (part : Part) (script : String) : Except MalformedScript Script.Program :=
  (Script.Program.ofScript script).mapError (⟨part, ·⟩)

/-- Builds an extractor, or says which script is not well formed. -/
def ofScripts (scripts : Scripts) : Except MalformedScript Extractor :=
  match scripts.component, scripts.operation with
  | none, none => .ok .identity
  | component, operation => do
    let component ← readScript .component (component.getD "component")
    let operation ← readScript .operation (operation.getD "operation")
    return .scripted component operation

/-- The variables that a script sees. -/
def bindings (site : Site) : List (String × String) :=
  [("component", site.component), ("operation", site.operation), ("host", site.host)]

/-- The component signature of a site. -/
def component (extractor : Extractor) (site : Site) : String :=
  match extractor with
  | identity => site.component
  | scripted program _ => (program.runText? (bindings site)).getD site.component
  | functions component _ => component site

/-- The operation signature of a site. -/
def operation (extractor : Extractor) (site : Site) : String :=
  match extractor with
  | identity => site.operation
  | scripted _ program => (program.runText? (bindings site)).getD site.operation
  | functions _ operation => operation site

/-- The identity under which the operation of a site enters the models. -/
def resolve (extractor : Extractor) (site : Site) : Model.OperationRef :=
  { component := Model.normalize (extractor.component site)
    operation := Model.normalize (extractor.operation site) }

end Extractor

end CallTrace
