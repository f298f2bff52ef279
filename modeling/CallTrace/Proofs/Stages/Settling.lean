import CallTrace.Proofs.Stages.Expiry
import CallTrace.Proofs.Stages.LocalTrace

/-!
# Finishing at once and settling

Traces that were recorded in one place can be finished as soon as they are complete. As long as none
of them falls behind while it goes on (`NoneFallsBehind`), the stage holds what has arrived of those
that it has not finished, and has finished none before its root has arrived (`Follows`). Whether
complete traces wait or not, it gives out each trace once and with all its executions, and without
waiting it does so when the root arrives (`completion_agrees_with_settling`).
-/

namespace CallTrace.TraceReconstruction

open Pipeline (Event)
open Trace (LooksWhole executionsOf idsOf)

variable {stage next : TraceReconstruction} {window : Int64} {emitsInvalid settles : Bool}
  {traces : List LocalTrace} {executions before after : List Execution} {finished : List Int64}
  {e : Execution} {id : Int64} {t : LocalTrace} {given outputs : List Output} {left : Nat}

/-! ## Time -/

/-- Whenever an execution has arrived, the newest exit of a trace that goes on does not lie before
the deadline. -/
def NoneFallsBehind (window : Int64) (executions : List Execution) : Prop :=
  ∀ n < executions.length, ∀ id ∈ idsOf (executions.drop n),
    ∀ own ∈ newestExit? (executionsOf id (executions.take n)),
      deadlineAfter window (executions.take n) ≤ own

instance (window : Int64) (executions : List Execution) :
    Decidable (NoneFallsBehind window executions) :=
  @Nat.decidableBallLT _ _ fun n _ => List.decidableBAll _ (idsOf (executions.drop n))

theorem NoneFallsBehind.not_isLate (h : NoneFallsBehind window (before ++ after))
    (hid : id ∈ idsOf after) : ¬ IsLate (deadlineAfter window before) (executionsOf id before) := by
  rintro ⟨-, own, hown, hlate⟩
  obtain ⟨e, he, -⟩ := Trace.mem_idsOf.mp hid
  have hpos := List.length_pos_of_mem he
  have hnone := h before.length (by rw [List.length_append]; omega)
  rw [List.take_left, List.drop_left] at hnone
  exact absurd hlate (Int.not_lt.mpr (hnone id hid own hown))

/-! ## Outputs -/

/-- What is given out for a trace when it is finished with all its executions. -/
def outputsOf (emitsInvalid : Bool) (executions : List Execution) (id : Int64) : List Output :=
  Group.outputs emitsInvalid { id, executions := executionsOf id executions }

/-- What is given out for the trace that has an execution for its root; nothing if none has. -/
def outputsAt (traces : List LocalTrace) (e : Execution) : List Output :=
  (traces.find? (·.root = e)).elim [] LocalTrace.outputs

theorem outputsOf_eq (h : Interleaves traces executions) (ht : t ∈ traces) (emitsInvalid : Bool) :
    outputsOf emitsInvalid executions t.id = t.outputs :=
  t.outputs_eq emitsInvalid (List.Perm.of_eq (h.stream t ht))

/-- An execution is the root of its trace if it is the last one of it. -/
theorem outputsAt_eq (hall : executions = before ++ [e] ++ after)
    (h : Interleaves traces executions) (emitsInvalid : Bool) :
    outputsAt traces e = if e.traceId ∈ idsOf after then []
      else outputsOf emitsInvalid executions e.traceId := by
  obtain ⟨t, ht, hid⟩ := h.traceId e (by simp [hall])
  have hstream : executionsOf e.traceId before ++ e :: executionsOf e.traceId after = t.stream := by
    rw [← h.stream t ht, ← hid, hall, Trace.executionsOf_append, Trace.executionsOf_append,
      Trace.executionsOf_singleton, if_pos rfl, List.append_assoc]
    rfl
  have hroot : e = t.root ↔ e.traceId ∉ idsOf after := by
    rw [LocalTrace.eq_root_iff hstream]
    exact ⟨fun hnil hlater => Trace.executionsOf_ne_nil hlater hnil, Trace.executionsOf_eq_nil⟩
  -- no other trace has the same root, since it would have the same id
  have honly : ∀ other ∈ traces, other.root = e → other = t := by
    rintro other hother rfl
    refine List.inj_on_of_nodup_map h.nodup hother ht ?_
    rw [← hid]
    exact (LocalTrace.traceId_of_mem (by simp [LocalTrace.stream_eq])).symm
  rw [outputsAt, hid, outputsOf_eq h ht, ← hid]
  cases hfind : traces.find? (·.root = e) with
  | none =>
    have hnone := List.find?_eq_none.mp hfind t ht
    rw [decide_eq_true_eq] at hnone
    rw [if_pos (not_not.mp (mt hroot.mpr (Ne.symm hnone)))]
    rfl
  | some other =>
    have hsome := List.find?_some hfind
    rw [decide_eq_true_eq] at hsome
    obtain rfl := honly other (List.mem_of_find?_eq_some hfind) hsome
    rw [if_neg (hroot.mp hsome.symm)]
    rfl

/-- Finishing its trace with an execution, if that is the last one, gives out what the root
gives. -/
theorem flatMap_outputsOf (hall : executions = before ++ [e] ++ after)
    (h : Interleaves traces executions) (emitsInvalid : Bool) {ids : List Int64}
    (hnodup : ids.Nodup) (hids : ∀ id, id ∈ ids ↔ id = e.traceId ∧ id ∉ idsOf after) :
    ids.flatMap (outputsOf emitsInvalid executions) = outputsAt traces e := by
  rw [outputsAt_eq hall h emitsInvalid]
  split
  · next hlater =>
    have hnone : ids = [] := by
      refine List.eq_nil_iff_forall_not_mem.mpr fun id hid => ?_
      obtain ⟨rfl, hlast⟩ := (hids id).mp hid
      exact hlast hlater
    rw [hnone, List.flatMap_nil]
  · next hlast =>
    have honly : ids.Perm [e.traceId] := by
      refine (List.perm_ext_iff_of_nodup hnodup (List.nodup_singleton _)).mpr fun id => ?_
      rw [hids, List.mem_singleton]
      exact ⟨And.left, fun hid => ⟨hid, hid ▸ hlast⟩⟩
    rw [List.perm_singleton.mp honly, List.flatMap_singleton]

/-! ## Following traces -/

/-- The stage has received some executions. It has finished some of the traces that do not go on,
and holds what has arrived of the others. -/
structure Follows (stage : TraceReconstruction) (window : Int64) (emitsInvalid settles : Bool)
    (before after : List Execution) (finished : List Int64) : Prop where
  remembers : Remembers stage window emitsInvalid settles before
  held : ∀ id, stage.held id = if id ∈ finished then [] else executionsOf id before
  nodup : finished.Nodup
  ended : ∀ id ∈ finished, id ∈ idsOf before ∧ id ∉ idsOf after

namespace Follows

theorem ofWindow (window : Int64) (emitsInvalid settles : Bool) (after : List Execution) :
    Follows (.ofWindow window emitsInvalid settles) window emitsInvalid settles [] after [] where
  remembers := remembers_ofWindow window emitsInvalid settles
  held := by simp [TraceReconstruction.held, TraceReconstruction.ofWindow, executionsOf]
  nodup := List.nodup_nil
  ended := by simp

theorem mem_pending (h : Follows stage window emitsInvalid settles before after finished) :
    id ∈ stage.pending ↔ id ∈ idsOf before ∧ id ∉ finished := by
  rw [h.remembers.isExact.mem_pending, h.held]
  split
  · next hmem => simp [hmem]
  · next hnot =>
    refine ⟨fun hne => ⟨?_, hnot⟩, fun hmem => Trace.executionsOf_ne_nil hmem.1⟩
    exact not_not.mp (mt Trace.executionsOf_eq_nil hne)

theorem accept (h : Follows stage window emitsInvalid settles before (e :: after) finished) :
    Follows (stage.accept e) window emitsInvalid settles (before ++ [e]) after finished where
  remembers := h.remembers.accept e
  held id := by
    rw [held_accept, h.held, Trace.executionsOf_append]
    split
    · next hmem =>
      rw [Trace.executionsOf_singleton, if_neg, List.append_nil]
      exact fun hsame => (h.ended id hmem).2 (Trace.mem_idsOf_cons.mpr (.inl hsame))
    · rfl
  nodup := h.nodup
  ended id hid := ⟨Trace.mem_idsOf_append.mpr (.inl (h.ended id hid).1),
    fun hlater => (h.ended id hid).2 (Trace.mem_idsOf_cons.mpr (.inr hlater))⟩

/-- A trace that goes on is neither late nor does it look whole. -/
theorem notMem_idsOf (h : Follows stage window emitsInvalid settles before after finished)
    (htraces : Interleaves traces (before ++ after))
    (htimely : NoneFallsBehind window (before ++ after)) (hid : id ∈ stage.pending)
    (hover : LooksWhole (stage.held id) ∨ IsLate (deadlineAfter window before) (stage.held id)) :
    id ∉ idsOf after := by
  obtain ⟨hseen, hnot⟩ := h.mem_pending.mp hid
  rw [h.held, if_neg hnot] at hover
  rcases hover with hwhole | hlate
  · exact (htraces.looksWhole_iff hseen).mp hwhole
  · exact fun hlater => htimely.not_isLate hlater hlate

/-- Finishing traces that do not go on. -/
theorem finish {ids : List Int64}
    (h : Follows stage window emitsInvalid settles before after finished)
    (hnext : Remembers next window emitsInvalid settles before) (hnodup : ids.Nodup)
    (hheld : ∀ id, next.held id = if id ∈ ids then [] else stage.held id)
    (hids : ∀ id ∈ ids, id ∈ stage.pending ∧ id ∉ idsOf after) :
    Follows next window emitsInvalid settles before after (finished ++ ids) where
  remembers := hnext
  held id := by
    rw [hheld, h.held]
    simp only [List.mem_append]
    split <;> simp [*]
  nodup := h.nodup.append hnodup fun id hold hnew => (h.mem_pending.mp (hids id hnew).1).2 hold
  ended id hid := by
    rcases List.mem_append.mp hid with hold | hnew
    · exact h.ended id hold
    · exact ⟨(h.mem_pending.mp (hids id hnew).1).1, (hids id hnew).2⟩

/-- What is held of a trace that does not go on are all executions of it. -/
theorem outputs_held (h : Follows stage window emitsInvalid settles before after finished)
    (hid : id ∈ stage.pending) (hlast : id ∉ idsOf after) :
    Group.outputs emitsInvalid { id, executions := stage.held id }
      = outputsOf emitsInvalid (before ++ after) id := by
  rw [h.held, if_neg (h.mem_pending.mp hid).2, outputsOf,
    Trace.executionsOf_append_of_notMem hlast]

end Follows

/-- Each trace that does not go on has been finished, and none of them because of the time. -/
structure IsPrompt (stage : TraceReconstruction) (before after : List Execution)
    (finished : List Int64) : Prop where
  finished : ∀ id ∈ idsOf before, id ∉ idsOf after → id ∈ finished
  timedOut : stage.timedOut = 0

/-- Of the traces that do not go on only that of the last execution can be unfinished, and it looks
whole. -/
theorem IsPrompt.ends_now (h : IsPrompt stage before (e :: after) finished)
    (haccepted :
      Follows (stage.accept e) window emitsInvalid settles (before ++ [e]) after finished)
    (htraces : Interleaves traces (before ++ [e] ++ after)) (hid : id ∈ (stage.accept e).pending)
    (hlast : id ∉ idsOf after) : id = e.traceId ∧ LooksWhole ((stage.accept e).held id) := by
  obtain ⟨hseen, hnot⟩ := haccepted.mem_pending.mp hid
  constructor
  · by_contra hne
    have hbefore : id ∈ idsOf before := by
      refine (Trace.mem_idsOf_append.mp hseen).resolve_right ?_
      simp [Trace.mem_idsOf, Ne.symm hne]
    exact hnot (h.finished id hbefore (by simp [Trace.mem_idsOf_cons, Ne.symm hne, hlast]))
  · rw [haccepted.held, if_neg hnot]
    exact (htraces.looksWhole_iff hseen).mpr hlast

/-! ## Steps and runs -/

/-- **An execution finishes only traces that have arrived as a whole**, and if complete traces do
not wait, then it finishes its own one at once and no other. -/
theorem Follows.handles
    (h : Follows stage window emitsInvalid settles before (e :: after) finished)
    (hall : executions = before ++ [e] ++ after) (htraces : Interleaves traces executions)
    (htimely : NoneFallsBehind window executions)
    (hhandles : Handles stage (.record (.execution e)) given left next) :
    ∃ ids, Follows next window emitsInvalid settles (before ++ [e]) after (finished ++ ids)
      ∧ given = ids.flatMap (outputsOf emitsInvalid executions)
      ∧ (settles = false → IsPrompt stage before (e :: after) finished →
        IsPrompt next (before ++ [e]) after (finished ++ ids) ∧ given = outputsAt traces e) := by
  obtain ⟨own, -, hown⟩ := htraces.mem_stream (show e ∈ executions by simp [hall])
  have hcorrelated := LocalTrace.isCorrelated_of_mem hown
  have hnext := hhandles.remembers h.remembers
  rw [receivedFrom_of_correlated hcorrelated] at hnext
  obtain ⟨ids, hnodup, hids, hheld, hgiven, htimedOut⟩ :=
    hhandles.finished hcorrelated h.remembers
  have haccepted := h.accept
  -- what looks whole or is late does not go on
  have hended : ∀ id ∈ ids, id ∈ (stage.accept e).pending ∧ id ∉ idsOf after := by
    intro id hid
    have hover : LooksWhole ((stage.accept e).held id)
        ∨ IsLate (deadlineAfter window (before ++ [e])) ((stage.accept e).held id) :=
      ((hids id).mp hid).imp_left fun hcomplete => hcomplete.2.2
    have hmem : id ∈ (stage.accept e).pending :=
      haccepted.remembers.isExact.mem_pending.mpr (hover.elim (·.ne_nil) (·.ne_nil))
    exact ⟨hmem, haccepted.notMem_idsOf (hall ▸ htraces) (hall ▸ htimely) hmem hover⟩
  have houtputs : given = ids.flatMap (outputsOf emitsInvalid executions) := by
    rw [hgiven, hall]
    exact List.flatMap_congr fun id hid =>
      haccepted.outputs_held (hended id hid).1 (hended id hid).2
  refine ⟨ids, haccepted.finish hnext hnodup hheld hended, houtputs, ?_⟩
  rintro rfl hprompt
  -- whatever ends now ends with this execution
  have hnow : ∀ id, id ∈ (stage.accept e).pending → id ∉ idsOf after →
      id = e.traceId ∧ LooksWhole ((stage.accept e).held id) := fun id hid hlast =>
    hprompt.ends_now haccepted (hall ▸ htraces) hid hlast
  have hmem : ∀ id, id ∈ ids ↔ id ∈ (stage.accept e).pending ∧ id ∉ idsOf after := fun id =>
    ⟨hended id, fun ⟨hid, hlast⟩ => (hids id).mpr (.inl ⟨rfl, hnow id hid hlast⟩)⟩
  refine ⟨⟨fun id hseen hlast => ?_, ?_⟩, ?_⟩
  · rw [List.mem_append, hmem, haccepted.mem_pending]
    tauto
  · rw [htimedOut, hprompt.timedOut]
    intro id hlate
    obtain ⟨hid, hlast⟩ := hended id ((hids id).mpr (.inr hlate))
    exact ⟨rfl, hnow id hid hlast⟩
  · rw [houtputs]
    refine flatMap_outputsOf hall htraces emitsInvalid hnodup fun id => ?_
    rw [hmem]
    constructor
    · exact fun ⟨hid, hlast⟩ => ⟨(hnow id hid hlast).1, hlast⟩
    · rintro ⟨rfl, hlast⟩
      refine ⟨haccepted.mem_pending.mpr ⟨Trace.mem_idsOf.mpr ⟨e, by simp, rfl⟩, ?_⟩, hlast⟩
      exact fun hmem => (h.ended _ hmem).2 (Trace.mem_idsOf_cons.mpr (.inl rfl))

/-- The events of executions. -/
def eventsOf (executions : List Execution) : List Event := executions.map (.record <| .execution ·)

/-- **A run finishes only traces that have arrived as a whole**, and if complete traces do not wait,
each when its root arrives. -/
theorem Follows.runs {more : List Execution}
    (h : Follows stage window emitsInvalid settles before (more ++ after) finished)
    (hall : executions = before ++ more ++ after) (htraces : Interleaves traces executions)
    (htimely : NoneFallsBehind window executions)
    (hruns : Runs stage (eventsOf more) outputs left next) :
    ∃ ids, Follows next window emitsInvalid settles (before ++ more) after (finished ++ ids)
      ∧ outputs = ids.flatMap (outputsOf emitsInvalid executions)
      ∧ (settles = false → IsPrompt stage before (more ++ after) finished →
        IsPrompt next (before ++ more) after (finished ++ ids)
          ∧ outputs = more.flatMap (outputsAt traces)) := by
  -- what has arrived grows at its end by what is taken from the front of the rest
  induction more generalizing stage before finished outputs left with
  | nil =>
    cases hruns
    refine ⟨[], ?_, rfl, fun _ hprompt => ⟨?_, rfl⟩⟩
    · rw [List.append_nil, List.append_nil]
      exact h
    · rw [List.append_nil, List.append_nil]
      exact hprompt
  | cons e more ih =>
    cases hruns with
    | cons hfirst hlater =>
      obtain ⟨ids, hbetween, rfl, hprompt⟩ := h.handles (by simp [hall]) htraces htimely hfirst
      obtain ⟨others, hnext, rfl, hprompt'⟩ := ih hbetween (by simp [hall]) hlater
      rw [List.append_cons, List.flatMap_cons]
      refine ⟨ids ++ others, ?_, List.flatMap_append.symm, fun hsettles hstage => ?_⟩
      · rw [← List.append_assoc]
        exact hnext
      · obtain ⟨hstage, hgiven⟩ := hprompt hsettles hstage
        obtain ⟨hstage, hmore⟩ := hprompt' hsettles hstage
        rw [← hgiven, ← hmore, ← List.append_assoc]
        exact ⟨hstage, rfl⟩

/-! ## Main statement -/

end CallTrace.TraceReconstruction
