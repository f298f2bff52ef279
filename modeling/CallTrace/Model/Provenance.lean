import CallTrace.Instant
import CallTrace.Model.Key
import CallTrace.Model.Signature
import Std.Data.ExtTreeSet

/-!
# Provenance

Which sources contributed to which entity of the models, and when each entity was first seen.
-/

namespace CallTrace.Model

/-- An entity of the type model or of the execution model. -/
inductive Entity where
  | component (signature : String)
  | operation (ref : OperationRef)
  | invocation (caller callee : OperationRef)
  | operationDataflow (source target : OperationRef)
  | storageDataflow (source : OperationRef) (storage : StorageRef)
  deriving DecidableEq, Repr

namespace Entity

/-- The texts that identify an entity. The first one orders the kinds. -/
def key : Entity → List String
  | component signature => ["0", signature]
  | operation ref => "1" :: ref.key
  | invocation caller callee => "2" :: (caller.key ++ callee.key)
  | operationDataflow source target => "3" :: (source.key ++ target.key)
  | storageDataflow source storage => "4" :: (source.key ++ [storage.name])

theorem key_injective (a b : Entity) (h : a.key = b.key) : a = b := by
  cases a <;> cases b <;> simp_all [key, OperationRef.key]
  · rename_i a b
    cases a; cases b; simp_all
  · rename_i a b c d
    cases a; cases b; cases c; cases d; simp_all
  · rename_i a b c d
    cases a; cases b; cases c; cases d; simp_all
  · rename_i a b c d
    cases a; cases b; cases c; cases d; simp_all

instance : Ord Entity := ⟨compareTexts key⟩

instance : Std.TransOrd Entity := inferInstanceAs (Std.TransCmp (compareTexts key))

instance : Std.LawfulEqOrd Entity := lawfulEqCmp_compareTexts key_injective

end Entity

/-- Where an entity comes from. -/
structure Provenance where
  /-- The labels of the sources that contributed to it. -/
  sources : Std.ExtTreeSet String
  firstSeen : Instant

/-- The provenance of each entity. -/
structure SourceModel where
  entries : Std.ExtTreeMap Entity Provenance := ∅

namespace SourceModel

instance : Inhabited SourceModel := ⟨{}⟩

/-- Adds a label to the sources of an entity; the flag says whether it was missing. -/
def addSource (model : SourceModel) (now : Instant) (entity : Entity) (label : String) :
    Bool × SourceModel :=
  let known := model.entries[entity]?.getD { sources := ∅, firstSeen := now }
  let isNew := !known.sources.contains label
  let entry := { known with sources := known.sources.insert label }
  (isNew, { entries := model.entries.insert entity entry })

/-- The provenance of an entity. -/
def provenance? (model : SourceModel) (entity : Entity) : Option Provenance :=
  model.entries[entity]?

/-- The labels of the sources of an entity in order; none for an unknown entity. -/
def sourcesOf (model : SourceModel) (entity : Entity) : List String :=
  ((model.provenance? entity).map fun p => p.sources.toList).getD []

/-- How many entities have a provenance. -/
def size (model : SourceModel) : Nat := model.entries.size

/-- Whether no entity has a provenance. -/
def isEmpty (model : SourceModel) : Bool := model.entries.isEmpty

end SourceModel

end CallTrace.Model
