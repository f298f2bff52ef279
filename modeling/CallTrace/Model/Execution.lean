import CallTrace.Dataflow
import CallTrace.Model.Key
import CallTrace.Model.Signature
import CallTrace.Saturating

/-!
# The execution model

Who calls whom and where data flows, one entry per pair of endpoints. Each entry counts its
occurrences and sums up the durations of those that came with one.
-/

namespace CallTrace.Model

/-! ## Statistics -/

/-- What is known of the occurrences on an edge. -/
structure Statistics where
  count : UInt64 := 0
  /-- How many occurrences came with a duration. -/
  timedCount : UInt64 := 0
  /-- The sum of the durations. -/
  total : Int64 := 0
  min : Option Int64 := none
  max : Option Int64 := none
  deriving DecidableEq, Repr, Inhabited

namespace Statistics

/-- Accounts for an occurrence. One without a duration only counts. -/
def record (s : Statistics) (duration : Option Int64) : Statistics :=
  match duration with
  | none => { s with count := s.count + 1 }
  | some d =>
    { count := s.count + 1
      timedCount := s.timedCount + 1
      total := Saturating.add s.total d
      min := some (s.min.elim d fun m => if d < m then d else m)
      max := some (s.max.elim d fun m => if m < d then d else m) }

/-- The mean of the durations, if there are any. -/
def mean? (s : Statistics) : Option Float :=
  if 0 < s.timedCount then some (s.total.toFloat / s.timedCount.toFloat) else none

end Statistics

/-! ## Edges -/

/-- A pair of operations. -/
structure Edge where
  source : OperationRef
  target : OperationRef
  deriving DecidableEq, Repr, Inhabited

namespace Edge

/-- The texts that identify a pair. -/
def key (edge : Edge) : List String := edge.source.key ++ edge.target.key

theorem key_injective (a b : Edge) (h : a.key = b.key) : a = b := by
  obtain ⟨⟨_, _⟩, ⟨_, _⟩⟩ := a
  obtain ⟨⟨_, _⟩, ⟨_, _⟩⟩ := b
  simp_all [key, OperationRef.key]

instance : Ord Edge := ⟨compareTexts key⟩

instance : Std.TransOrd Edge := inferInstanceAs (Std.TransCmp (compareTexts key))

instance : Std.LawfulEqOrd Edge := lawfulEqCmp_compareTexts key_injective

end Edge

/-- An operation and a storage. -/
structure StorageEdge where
  source : OperationRef
  storage : StorageRef
  deriving DecidableEq, Repr, Inhabited

namespace StorageEdge

/-- The texts that identify the pair. -/
def key (edge : StorageEdge) : List String := edge.source.key ++ [edge.storage.name]

theorem key_injective (a b : StorageEdge) (h : a.key = b.key) : a = b := by
  obtain ⟨⟨_, _⟩, ⟨_⟩⟩ := a
  obtain ⟨⟨_, _⟩, ⟨_⟩⟩ := b
  simp_all [key, OperationRef.key]

instance : Ord StorageEdge := ⟨compareTexts key⟩

instance : Std.TransOrd StorageEdge := inferInstanceAs (Std.TransCmp (compareTexts key))

instance : Std.LawfulEqOrd StorageEdge := lawfulEqCmp_compareTexts key_injective

end StorageEdge

/-! ## Entries -/

/-- The calls of one operation by another. -/
structure Invocation where
  caller : OperationRef
  callee : OperationRef
  statistics : Statistics
  deriving DecidableEq, Repr, Inhabited

/-- The data that flows between two operations. -/
structure OperationDataflow where
  source : OperationRef
  target : OperationRef
  direction : Direction
  statistics : Statistics
  deriving DecidableEq, Repr

/-- The data that flows between an operation and a storage. -/
structure StorageDataflow where
  source : OperationRef
  storage : StorageRef
  direction : Direction
  statistics : Statistics
  deriving DecidableEq, Repr

/-- Entries by their endpoints. -/
structure ExecutionModel where
  invocations : Std.ExtTreeMap Edge Invocation := ∅
  operationDataflows : Std.ExtTreeMap Edge OperationDataflow := ∅
  storageDataflows : Std.ExtTreeMap StorageEdge StorageDataflow := ∅

namespace ExecutionModel

instance : Inhabited ExecutionModel := ⟨{}⟩

/-- The invocation between two operations. -/
def invocation? (model : ExecutionModel) (caller callee : OperationRef) : Option Invocation :=
  model.invocations[(⟨caller, callee⟩ : Edge)]?

/-- The dataflow between two operations. -/
def operationDataflow? (model : ExecutionModel) (source target : OperationRef) :
    Option OperationDataflow :=
  model.operationDataflows[(⟨source, target⟩ : Edge)]?

/-- The dataflow between an operation and a storage. -/
def storageDataflow? (model : ExecutionModel) (source : OperationRef) (storage : StorageRef) :
    Option StorageDataflow :=
  model.storageDataflows[(⟨source, storage⟩ : StorageEdge)]?

/-- All invocations in the order of their endpoints. -/
def allInvocations (model : ExecutionModel) : List Invocation :=
  model.invocations.toList.map (·.2)

/-- The invocations that leave an operation. -/
def calleesOf (model : ExecutionModel) (caller : OperationRef) : List Invocation :=
  model.allInvocations.filter (·.caller = caller)

/-- Accounts for a call; the flag says whether it is the first one between its endpoints. -/
def addCall (model : ExecutionModel) (caller callee : OperationRef) (duration : Option Int64) :
    Bool × ExecutionModel :=
  let edge : Edge := ⟨caller, callee⟩
  let known := model.invocations[edge]?
  let entry := known.getD { caller, callee, statistics := {} }
  let entry := { entry with statistics := entry.statistics.record duration }
  (known.isNone, { model with invocations := model.invocations.insert edge entry })

/-- Accounts for a dataflow between operations; the flag says whether it is the first one between
its endpoints. -/
def addOperationDataflow (model : ExecutionModel) (source target : OperationRef)
    (direction : Direction) : Bool × ExecutionModel :=
  let edge : Edge := ⟨source, target⟩
  let known := model.operationDataflows[edge]?
  let entry := known.getD { source, target, direction, statistics := {} }
  let entry := { entry with
    direction := entry.direction.merge direction
    statistics := entry.statistics.record none }
  (known.isNone, { model with operationDataflows := model.operationDataflows.insert edge entry })

/-- Accounts for a dataflow to or from a storage; the flag says whether it is the first one between
its endpoints. -/
def addStorageDataflow (model : ExecutionModel) (source : OperationRef) (storage : StorageRef)
    (direction : Direction) : Bool × ExecutionModel :=
  let edge : StorageEdge := ⟨source, storage⟩
  let known := model.storageDataflows[edge]?
  let entry := known.getD { source, storage, direction, statistics := {} }
  let entry := { entry with
    direction := entry.direction.merge direction
    statistics := entry.statistics.record none }
  (known.isNone, { model with storageDataflows := model.storageDataflows.insert edge entry })

end ExecutionModel

end CallTrace.Model
