import CallTrace.Record

/-!
# Call trees

The executions of one trace arrive flat and in exit order. Sorted by their order index they stand in
entry order, and the stack size of each then determines its parent: the closest preceding execution
whose stack size is exactly one less.

```
eoi ess                 A.f()            (0, 0)
 0   0   A.f()          ├── B.g()        (1, 1)
 1   1   B.g()          │   └── C.h()    (2, 2)
 2   2   C.h()          └── B.k()        (3, 1)
 3   1   B.k()
```

`Trace.reconstruct` accepts a set of executions when their order indices are `0, 1, …, n - 1` and
every stack size fits to the one before; otherwise it names the first fault.
-/

namespace CallTrace

/-- Where an operation was executed, as reported. -/
structure Site where
  host : String
  component : String
  operation : String
  deriving DecidableEq, Repr, Inhabited

namespace Execution

/-- The site of an execution. -/
def site (e : Execution) : Site :=
  { host := e.host, component := e.component, operation := e.operation }

end Execution

/-- One call of an operation by another one. -/
structure Call where
  traceId : Int64
  caller : Site
  callee : Site
  /-- The time spent in the callee. -/
  duration : Int64
  deriving DecidableEq, Repr, Inhabited

/-- Why executions do not form a call tree. -/
inductive TraceError where
  | empty
  | foreignExecution (expected found : Int64)
  | duplicateEoi (eoi : Int32)
  | eoiGap (expected found : Int32)
  | invalidRoot (ess : Int32)
  | invalidNesting (eoi ess : Int32)
  deriving DecidableEq, Repr

namespace TraceError

/-- The name of the kind of a fault. -/
def kind : TraceError → String
  | empty => "Empty"
  | foreignExecution .. => "ForeignExecution"
  | duplicateEoi _ => "DuplicateEoi"
  | eoiGap .. => "EoiGap"
  | invalidRoot _ => "InvalidRoot"
  | invalidNesting .. => "InvalidNesting"

/-- The wording of a fault. -/
def message : TraceError → String
  | empty => "Trace has no executions"
  | foreignExecution expected found =>
    s!"Execution with trace id {found} does not belong to trace {expected}"
  | duplicateEoi eoi => s!"Duplicate eoi {eoi}"
  | eoiGap expected found => s!"Missing eoi {expected} (next is {found})"
  | invalidRoot ess => s!"Root execution has ess {ess}, expected 0"
  | invalidNesting eoi ess => s!"Execution eoi {eoi} with ess {ess} has no parent at ess {ess - 1}"

end TraceError

/-- A call tree. -/
structure Trace where
  id : Int64
  /-- The executions in entry order, so that each stands at its order index. -/
  executions : List Execution
  /-- The index of the caller of each execution; the root has none. -/
  parents : List (Option Nat)
  deriving DecidableEq, Repr

namespace Trace

/-! ## Reconstruction -/

/-- Whether order indices run `start, start + 1, …`; the first one that does not is named. -/
def checkOrder (start : Nat) : List Execution → Except TraceError Unit
  | [] => .ok ()
  | e :: rest =>
    let expected := Int32.ofNat start
    if e.eoi < expected then .error (.duplicateEoi e.eoi)
    else if expected < e.eoi then .error (.eoiGap expected e.eoi)
    else checkOrder (start + 1) rest

/-- The callers of executions in entry order. The stack holds index and stack size of the executions
that are still open, innermost first; an execution closes those that are not shallower than it, and
its caller is the innermost one left, which has to be exactly one shallower. -/
def nest (stack : List (Nat × Int32)) (index : Nat) :
    List Execution → Except TraceError (List (Option Nat))
  | [] => .ok []
  | e :: rest =>
    let enclosing := stack.dropWhile fun open_ => e.ess ≤ open_.2
    match enclosing.head? with
    | none =>
      if index = 0 then
        (nest ((index, e.ess) :: enclosing) (index + 1) rest).map (none :: ·)
      else .error (.invalidNesting e.eoi e.ess)
    | some (parent, ess) =>
      if ess = e.ess - 1 then
        (nest ((index, e.ess) :: enclosing) (index + 1) rest).map (some parent :: ·)
      else .error (.invalidNesting e.eoi e.ess)

/-- Executions in entry order; those with the same order index stay in the given order. -/
def inEntryOrder (executions : List Execution) : List Execution :=
  executions.mergeSort fun a b => a.eoi ≤ b.eoi

/-- Builds the call tree of a trace from its executions in any order. -/
def reconstruct (id : Int64) (executions : List Execution) : Except TraceError Trace :=
  if executions.isEmpty then .error .empty
  else
    match executions.find? (·.traceId ≠ id) with
    | some foreign => .error (.foreignExecution id foreign.traceId)
    | none => do
      let sorted := inEntryOrder executions
      checkOrder 0 sorted
      if let some root := sorted.head? then
        if root.ess ≠ 0 then throw (.invalidRoot root.ess)
      let parents ← nest [] 0 sorted
      return { id, executions := sorted, parents }

/-! ## Looking around in a tree -/

/-- How many executions the tree has. -/
def size (trace : Trace) : Nat := trace.executions.length

/-- Whether the tree has no executions. -/
def isEmpty (trace : Trace) : Bool := trace.executions.isEmpty

/-- The execution that opened the trace. -/
def root? (trace : Trace) : Option Execution := trace.executions.head?

/-- The caller of the execution at an index. -/
def parentOf? (trace : Trace) (index : Nat) : Option Execution := do
  let parent ← (trace.parents[index]?).join
  trace.executions[parent]?

/-- The executions called by the one at an index, in entry order. -/
def childrenOf (trace : Trace) (index : Nat) : List Execution :=
  (trace.executions.zip trace.parents).filterMap fun (e, parent) =>
    if parent = some index then some e else none

/-- The greatest stack size, which is one less than the height of the tree. -/
def maxDepth (trace : Trace) : Int32 :=
  match trace.executions with
  | [] => 0
  | e :: rest => rest.foldl (fun deepest e => max deepest e.ess) e.ess

/-- The time spent in the root. -/
def duration (trace : Trace) : Int64 := (trace.root?.map Execution.duration).getD 0

/-- One call for each execution that has a caller, in entry order. -/
def calls (trace : Trace) : List Call :=
  (trace.executions.zip trace.parents).filterMap fun (callee, parent) => do
    let caller ← trace.executions[← parent]?
    return { traceId := trace.id, caller := caller.site, callee := callee.site,
             duration := callee.duration }

end Trace

end CallTrace
