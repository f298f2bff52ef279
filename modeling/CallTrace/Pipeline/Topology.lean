import CallTrace.Pipeline.Error

/-!
# Connections between stages

Which stages are reached from a stage, and an order in which every stage comes before those it
feeds.
-/

namespace CallTrace.Pipeline

/-- A connection from an output port to an input port. -/
structure Connection where
  id : ConnectionId
  source : StageId
  output : String
  target : StageId
  input : String
  deriving DecidableEq, Repr

/-! ## Reachability -/

/-- The stages that a stage is connected to, those of the latest connections first. -/
def successors (connections : List Connection) (stage : StageId) : List StageId :=
  ((connections.filter (·.source = stage)).map (·.target)).reverse

theorem countP_add_length_successors (connections : List Connection) {stage : StageId}
    {visited : List StageId} (h : stage ∉ visited) :
    connections.countP (·.source ∉ stage :: visited) + (successors connections stage).length
      = connections.countP (·.source ∉ visited) := by
  rw [successors, List.length_reverse, List.length_map, ← List.countP_eq_length_filter]
  induction connections with
  | nil => rfl
  | cons c connections ih =>
    simp only [List.countP_cons, decide_eq_true_eq]
    by_cases hstage : c.source = stage
    · rw [if_neg (by simp [hstage]), if_pos hstage, if_pos (hstage ▸ h), ← ih]
      omega
    · rw [if_neg hstage, ← ih]
      simp only [List.mem_cons, hstage, false_or]
      omega

/-- Whether a stage is found by going on from the stages of a stack, depth first. Stages that were
visited before are passed over, so that every connection is followed at most once. -/
def search (connections : List Connection) (goal : StageId) (visited : List StageId) :
    List StageId → Bool
  | [] => false
  | stage :: stack =>
    if stage = goal then true
    else if stage ∈ visited then search connections goal visited stack
    else search connections goal (stage :: visited) (successors connections stage ++ stack)
termination_by stack => connections.countP (·.source ∉ visited) + stack.length
decreasing_by
  · simp only [List.length_cons]
    omega
  · next hvisited =>
    have := countP_add_length_successors connections hvisited
    simp only [List.length_append, List.length_cons]
    omega

/-- Whether a stage is reached from another one, or is that stage. -/
def reaches (connections : List Connection) (start goal : StageId) : Bool :=
  search connections goal [] [start]

/-! ## Order of execution -/

/-- The targets of the leaving connections that no other connection leads to: neither a waiting one
nor one that leaves later. -/
def freed (waiting : List Connection) : List Connection → List StageId
  | [] => []
  | c :: leaving =>
    if (leaving ++ waiting).any (·.target = c.target) then freed waiting leaving
    else c.target :: freed waiting leaving

/-- Takes stages from a queue. A stage whose last incoming connection leaves a taken stage joins the
queue at its end. `waiting` are the connections that leave no stage taken so far. -/
def schedule (waiting : List Connection) : Nat → List StageId → List StageId
  | 0, _ | _, [] => []
  | fuel + 1, stage :: queue =>
    let (leaving, waiting) := waiting.partition (·.source = stage)
    stage :: schedule waiting fuel (queue ++ freed waiting leaving)

/-- The ids of so many stages. -/
def stageIds (count : Nat) : List StageId := (List.range count).map StageId.mk

/-- An order of so many stages in which each comes before those it is connected to; of the stages
that are free to come next, the one that became so first does. -/
def executionOrder (count : Nat) (connections : List Connection) : List StageId :=
  let roots := (stageIds count).filter fun id => !connections.any (·.target = id)
  schedule connections count roots

end CallTrace.Pipeline
