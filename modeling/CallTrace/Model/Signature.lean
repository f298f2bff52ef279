import CallTrace.Text.Blank
import Std.Data.ExtTreeMap

/-!
# Signatures

A component and an operation are known by their signatures, texts such as `org.shop.Cart` and
`public int add(int a, int b)`. A signature identifies; what can be read from it (names, package,
types) is a best guess and leaves out what it cannot find.
-/

namespace CallTrace.Model

/-- The signature of what reported no signature. -/
def unknownSignature : String := "<unknown>"

/-- A signature without blanks at its ends; an empty one becomes `unknownSignature`. -/
def normalize (signature : String) : String :=
  let trimmed := Text.trim signature
  if trimmed.isEmpty then unknownSignature else trimmed

/-! ## Identities -/

/-- The identity of an operation. -/
structure OperationRef where
  component : String
  operation : String
  deriving DecidableEq, Repr, Inhabited

namespace OperationRef

/-- The texts that identify an operation. -/
def key (ref : OperationRef) : List String := [ref.component, ref.operation]

/-- Component and operation with a point between them. -/
def shown (ref : OperationRef) : String := ref.component ++ "." ++ ref.operation

end OperationRef

/-- The identity of a storage. -/
structure StorageRef where
  name : String
  deriving DecidableEq, Repr, Inhabited

/-! ## Operations -/

/-- What is known of an operation. -/
structure OperationType where
  signature : String
  name : String
  returnType : Option String
  parameterTypes : List String
  deriving DecidableEq, Repr, Inhabited

namespace OperationType

/-- The text before the last character that satisfies `p`, or the whole text if none does. -/
def beforeLast (p : Char → Bool) (text : List Char) : List Char :=
  match text.reverse.dropWhile (!p ·) with
  | [] => text
  | _ :: before => before.reverse

/-- The text before the first opening parenthesis, and the text between it and the last closing
one. -/
def splitParameters (signature : List Char) : List Char × List Char :=
  (signature.takeWhile (· ≠ '('),
    beforeLast (· = ')') ((signature.dropWhile (· ≠ '(')).drop 1))

/-- Reads an operation signature: the last word before the parameters is the name, the one before it
the return type, and each parameter starts with its type. -/
def ofSignature (signature : String) : OperationType :=
  let (head, parameters) := splitParameters signature.toList
  let heads := (Text.words head).reverse.map String.ofList
  { signature
    name := heads.head?.getD signature
    returnType := (heads.drop 1).head?
    parameterTypes := (Text.splitBy (· = ',') parameters).filterMap fun parameter =>
      (Text.words parameter).head?.map String.ofList }

end OperationType

/-! ## Components -/

/-- What is known of a component. -/
structure ComponentType where
  signature : String
  name : String
  package : Option String
  /-- The operations of the component by their signatures. -/
  operations : Std.ExtTreeMap String OperationType

namespace ComponentType

/-- The text before and after the last point, if there is text on both sides. -/
def splitPackage? (signature : String) : Option (String × String) :=
  let reversed := signature.toList.reverse
  let name := (reversed.takeWhile (· ≠ '.')).reverse
  match reversed.dropWhile (· ≠ '.') with
  | [] => none
  | _ :: before =>
    if before.isEmpty || name.isEmpty then none
    else some (String.ofList before.reverse, String.ofList name)

/-- Reads a component signature: `a.b.Service` is `Service` in the package `a.b`. -/
def ofSignature (signature : String) : ComponentType :=
  match splitPackage? signature with
  | some (package, name) => { signature, name, package := some package, operations := ∅ }
  | none => { signature, name := signature, package := none, operations := ∅ }

/-- The operation with a signature. -/
def operation? (component : ComponentType) (signature : String) : Option OperationType :=
  component.operations[signature]?

/-- Looks an operation up or adds it; the flag says whether it was added. -/
def ensureOperation (component : ComponentType) (signature : String) : Bool × ComponentType :=
  if component.operations.contains signature then (false, component)
  else
    (true, { component with
      operations := component.operations.insert signature (.ofSignature signature) })

end ComponentType

end CallTrace.Model
