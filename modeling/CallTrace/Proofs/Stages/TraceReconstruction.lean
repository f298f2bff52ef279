import CallTrace.Proofs.Saturating
import CallTrace.Proofs.Trace.Grouping
import CallTrace.Stages.TraceReconstruction

/-!
# Traces come out whole

The stage collects the executions of each trace (`Tracks`) and finishes a trace only when it has run
out of time. As long as no trace falls behind while it still goes on (`StaysTimely`), none is
finished before its last execution, and in the end each has been finished once, with all of its
executions: the calls that the stage has given out are the calls of all trees (`calls_perm`). The
order in which traces are finished depends on the arrivals and on the ids.
-/

namespace CallTrace

open Trace (executionsOf idsOf callsOf)

/-! ## Time -/

/-- The newest exit of executions. -/
def newestExit? (executions : List Execution) : Option Int :=
  (executions.map (·.tout.toInt)).max?

/-- If the trace goes on, the newest exit seen so far lies at most `limit` after the newest one of
the trace itself. -/
def KeepsUp (limit : Int) (before after : List Execution) (id : Int64) : Prop :=
  id ∈ idsOf after → ∀ newest ∈ newestExit? before, ∀ own ∈ newestExit? (executionsOf id before),
    newest - own ≤ limit

instance (limit : Int) (before after : List Execution) (id : Int64) :
    Decidable (KeepsUp limit before after id) :=
  inferInstanceAs (Decidable (_ → ∀ newest ∈ newestExit? before, _))

/-- No trace falls behind between its first execution and its last one. -/
def StaysTimely (limit : Int) (executions : List Execution) : Prop :=
  ∀ n < executions.length, ∀ id ∈ idsOf (executions.take n),
    KeepsUp limit (executions.take n) (executions.drop n) id

instance (limit : Int) (executions : List Execution) : Decidable (StaysTimely limit executions) :=
  @Nat.decidableBallLT _ _ fun n _ => List.decidableBAll _ (idsOf (executions.take n))

/-- The trace does not fall behind between its first execution and its last one. -/
def IsTimely (limit : Int) (executions : List Execution) (id : Int64) : Prop :=
  ∀ n < executions.length, KeepsUp limit (executions.take n) (executions.drop n) id

instance (limit : Int) (executions : List Execution) (id : Int64) :
    Decidable (IsTimely limit executions id) :=
  @Nat.decidableBallLT _ _ fun _ _ => inferInstance

theorem StaysTimely.isTimely {limit : Int} {executions : List Execution}
    (h : StaysTimely limit executions) (id : Int64) : IsTimely limit executions id := by
  intro n hn hlater newest hnewest own hown
  refine h n hn id ?_ hlater newest hnewest own hown
  by_contra hnew
  rw [Trace.executionsOf_eq_nil hnew] at hown
  cases hown

theorem IsTimely.keepsUp {limit : Int} {before after : List Execution} {id : Int64}
    (h : IsTimely limit (before ++ after) id) : KeepsUp limit before after id := by
  intro hlater
  obtain ⟨e, he, -⟩ := Trace.mem_idsOf.mp hlater
  have hlength : before.length < (before ++ after).length := by
    have := List.length_pos_of_mem he
    rw [List.length_append]
    omega
  have hkeeps := h before.length hlength
  rw [List.take_left, List.drop_left] at hkeeps
  exact hkeeps hlater

theorem exists_newestExit {executions : List Execution} (h : executions ≠ []) :
    ∃ newest ∈ newestExit? executions, (∀ e ∈ executions, e.tout.toInt ≤ newest)
      ∧ ∃ e ∈ executions, e.tout.toInt = newest := by
  obtain ⟨newest, hnewest⟩ := Option.isSome_iff_exists.mp
    (List.isSome_max?_of_ne_nil (mt List.map_eq_nil_iff.mp h) :
      (executions.map (·.tout.toInt)).max?.isSome)
  obtain ⟨hmem, hle⟩ := List.max?_eq_some_iff.mp hnewest
  exact ⟨newest, hnewest, fun e he => hle _ (List.mem_map_of_mem he), List.mem_map.mp hmem⟩

/-! ## Executions of one trace -/

namespace PendingTrace

variable {pending : PendingTrace} {executions : List Execution}

/-- The trace consists of these executions so far, none of which left later than is known, and has a
root only if one of them has the first index. -/
structure Collects (pending : PendingTrace) (executions : List Execution) : Prop where
  held : pending.executions = executions
  nonneg : 0 ≤ pending.lastTout.toInt
  le_lastTout : ∀ e ∈ executions, e.tout.toInt ≤ pending.lastTout.toInt
  hasRoot : pending.hasRoot = true → ∃ e ∈ executions, e.eoi = 0

theorem collects_empty : Collects {} [] where
  held := rfl
  nonneg := by decide
  le_lastTout := by simp
  hasRoot := nofun

theorem Collects.add (h : pending.Collects executions) (e : Execution) :
    (pending.add e).Collects (executions ++ [e]) := by
  have hlast : (pending.add e).lastTout.toInt = max pending.lastTout.toInt e.tout.toInt :=
    toInt_max _ _
  refine ⟨?_, ?_, ?_, ?_⟩
  · rw [← h.held]
    rfl
  · have hnonneg := h.nonneg
    omega
  · intro e' he'
    rcases List.mem_append.mp he' with hold | hnew
    · have hle := h.le_lastTout e' hold
      omega
    · rw [List.mem_singleton.mp hnew]
      omega
  · intro hroot
    simp only [PendingTrace.add, Bool.or_eq_true, Bool.and_eq_true, decide_eq_true_eq] at hroot
    rcases hroot with hold | ⟨hnew, -⟩
    · obtain ⟨e', he', heoi⟩ := h.hasRoot hold
      exact ⟨e', List.mem_append_left _ he', heoi⟩
    · exact ⟨e, by simp, hnew⟩

end PendingTrace

namespace TraceReconstruction

variable {stage : TraceReconstruction} {millis : Nat} {seen rest : List Execution}
  {finished : List Int64} {id : Int64}

/-! ## Outputs -/

/-- The calls among outputs. -/
def callsIn (outputs : List Output) : List Call := outputs.filterMap (·.emission.2.call?)

theorem callsIn_append (outputs more : List Output) :
    callsIn (outputs ++ more) = callsIn outputs ++ callsIn more :=
  List.filterMap_append ..

/-- A finished trace gives out its calls, if it forms a tree. -/
theorem callsIn_finish (stage : TraceReconstruction) (id : Int64) (executions : List Execution) :
    callsIn (stage.finish id (executionsOf id executions)).1 = callsOf id executions := by
  rw [finish, callsOf]
  cases Trace.reconstruct id (executionsOf id executions) with
  | ok trace =>
    rw [callsIn, List.filterMap_cons_none rfl, List.filterMap_map]
    exact List.filterMap_some
  | error fault =>
    dsimp only
    split
    · rw [callsIn, List.filterMap_map, List.filterMap_eq_nil_iff]
      exact fun _ _ => rfl
    · rfl

/-- Finishing a trace only counts. -/
theorem exists_finish_eq (stage : TraceReconstruction) (id : Int64) (executions : List Execution) :
    ∃ valid invalid, (stage.finish id executions).2 = { stage with valid, invalid } := by
  rw [finish]
  split
  · exact ⟨_, _, rfl⟩
  · exact ⟨_, _, rfl⟩

theorem exists_countTimeout_eq (stage : TraceReconstruction) (id : Int64) :
    ∃ timedOut, stage.countTimeout id = { stage with timedOut } := by
  rw [countTimeout]
  split
  · split
    · exact ⟨stage.timedOut, rfl⟩
    · exact ⟨_, rfl⟩
  · exact ⟨stage.timedOut, rfl⟩

/-! ## What the stage knows of one trace -/

/-- What is known of a trace; nothing if it is not held. -/
def known (stage : TraceReconstruction) (id : Int64) : PendingTrace := stage.pending[id]?.getD {}

theorem known_accept (stage : TraceReconstruction) (e : Execution) (id : Int64) :
    (stage.accept e).known id
      = if e.traceId = id then (stage.known id).add e else stage.known id := by
  simp only [known, accept, Std.ExtTreeMap.getElem?_insert, Std.LawfulEqCmp.compare_eq_iff_eq]
  split
  · next hsame => rw [hsame, Option.getD_some]
  · rfl

/-- The newest exit is that of the last execution or of an earlier one. -/
theorem exists_newestTout_accept (e : Execution)
    (h : stage.newestTout = Int64.minValue ∨ ∃ e ∈ seen, e.tout = stage.newestTout) :
    ∃ e' ∈ seen ++ [e], e'.tout = (stage.accept e).newestTout := by
  show ∃ _, _ ∧ _ = if stage.newestTout ≤ e.tout then e.tout else stage.newestTout
  rcases h with hnone | ⟨e', he', htout⟩
  · rw [hnone, if_pos (Int64.minValue_le e.tout)]
    exact ⟨e, by simp, rfl⟩
  · split
    · exact ⟨e, by simp, rfl⟩
    · exact ⟨e', List.mem_append_left _ he', htout⟩

/-- The stage has seen some executions and holds all that it has seen of a trace. -/
structure Gathers (stage : TraceReconstruction) (millis : Nat) (id : Int64)
    (seen : List Execution) : Prop where
  window : stage.window = nanosOfMillis millis
  newest : stage.newestTout = Int64.minValue ∨ ∃ e ∈ seen, e.tout = stage.newestTout
  collects : (stage.known id).Collects (executionsOf id seen)
  mem_idsOf : id ∈ stage.pending → id ∈ idsOf seen

theorem Gathers.accept (h : stage.Gathers millis id seen) (e : Execution) :
    (stage.accept e).Gathers millis id (seen ++ [e]) := by
  refine ⟨h.window, .inr (exists_newestTout_accept e h.newest), ?_, ?_⟩
  · rw [known_accept, Trace.executionsOf_append, Trace.executionsOf_singleton]
    split
    · exact h.collects.add e
    · rw [List.append_nil]
      exact h.collects
  · simp only [TraceReconstruction.accept, Std.ExtTreeMap.mem_insert,
      Std.LawfulEqCmp.compare_eq_iff_eq, Trace.mem_idsOf_append]
    rintro (hsame | hold)
    · exact .inr (Trace.mem_idsOf.mpr ⟨e, by simp, hsame⟩)
    · exact .inl (h.mem_idsOf hold)

/-! ## What the stage knows of all traces -/

/-- The stage has seen some executions, has finished some of their traces, of which none goes on in
the rest, and holds all that it has seen of the others. -/
structure Tracks (stage : TraceReconstruction) (millis : Nat) (seen rest : List Execution)
    (finished : List Int64) : Prop where
  settles : stage.settles = true
  window : stage.window = nanosOfMillis millis
  newest : stage.newestTout = Int64.minValue ∨ ∃ e ∈ seen, e.tout = stage.newestTout
  nodup : finished.Nodup
  notMem_rest : ∀ id ∈ finished, id ∉ idsOf rest
  notMem_pending : ∀ id ∈ finished, id ∉ stage.pending
  mem_seen : ∀ id, id ∈ idsOf seen ↔ id ∈ finished ∨ id ∈ stage.pending
  collects : ∀ id (pending : PendingTrace), stage.pending[id]? = some pending →
    pending.Collects (executionsOf id seen)

theorem tracks_ofConfig {config : Config.Reconstruction} (hsettles : config.settles = true)
    (rest : List Execution) :
    Tracks (.ofConfig config) config.maxDurationMillis.toNat [] rest [] where
  settles := hsettles
  window := rfl
  newest := .inl rfl
  nodup := List.nodup_nil
  notMem_rest := by simp
  notMem_pending := by simp
  mem_seen := by simp [idsOf, ofConfig, ofWindow]
  collects := by simp [ofConfig, ofWindow]

/-- A trace that is not finished is held as far as it has been seen. -/
theorem Tracks.gathers (h : Tracks stage millis seen rest finished) (hid : id ∉ finished) :
    stage.Gathers millis id seen where
  window := h.window
  newest := h.newest
  collects := by
    rw [known]
    cases hknown : stage.pending[id]? with
    | some pending => exact h.collects id pending hknown
    | none =>
      have hnew : id ∉ idsOf seen := by
        rw [h.mem_seen]
        rintro (hfinished | hwaiting)
        · exact hid hfinished
        · simp [← Std.ExtTreeMap.isSome_getElem?_iff_mem, hknown] at hwaiting
      rw [Trace.executionsOf_eq_nil hnew]
      exact PendingTrace.collects_empty
  mem_idsOf hwaiting := (h.mem_seen id).mpr (.inr hwaiting)

theorem Tracks.accept {e : Execution} (h : Tracks stage millis seen (e :: rest) finished) :
    Tracks (stage.accept e) millis (seen ++ [e]) rest finished := by
  have hmem : ∀ id, id ∈ (stage.accept e).pending ↔ e.traceId = id ∨ id ∈ stage.pending := by
    simp [TraceReconstruction.accept, Std.ExtTreeMap.mem_insert]
  have hpending : ∀ id ∈ finished, id ∉ (stage.accept e).pending := by
    intro id hid hpending
    rcases (hmem id).mp hpending with hsame | hold
    · exact h.notMem_rest id hid (Trace.mem_idsOf_cons.mpr (.inl hsame))
    · exact h.notMem_pending id hid hold
  refine ⟨h.settles, h.window, .inr (exists_newestTout_accept e h.newest), h.nodup, ?_, hpending,
    ?_, ?_⟩
  · exact fun id hid hlater => h.notMem_rest id hid (Trace.mem_idsOf_cons.mpr (.inr hlater))
  · intro id
    rw [Trace.mem_idsOf_append, h.mem_seen, hmem, Trace.mem_idsOf_cons]
    simp only [idsOf, List.map_nil, List.dedup_nil, List.not_mem_nil, or_false]
    tauto
  · intro id pending hwaiting
    have hid : id ∉ finished := fun hfinished => hpending id hfinished
      (Std.ExtTreeMap.isSome_getElem?_iff_mem.mp (by rw [hwaiting]; rfl))
    have hcollects := ((h.gathers hid).accept e).collects
    rwa [known, hwaiting] at hcollects

theorem Tracks.countTimeout (h : Tracks stage millis seen rest finished) (id : Int64) :
    Tracks (stage.countTimeout id) millis seen rest finished := by
  obtain ⟨timedOut, heq⟩ := exists_countTimeout_eq stage id
  rw [heq]
  exact ⟨h.settles, h.window, h.newest, h.nodup, h.notMem_rest, h.notMem_pending, h.mem_seen,
    h.collects⟩

/-- Traces that are held and of which none goes on in the rest. -/
structure Due (stage : TraceReconstruction) (rest : List Execution) (ids : List Int64) : Prop where
  nodup : ids.Nodup
  mem_pending : ∀ id ∈ ids, id ∈ stage.pending
  notMem_rest : ∀ id ∈ ids, id ∉ idsOf rest

theorem Due.countTimeout {ids : List Int64} (h : Due stage rest ids) (id : Int64) :
    Due (stage.countTimeout id) rest ids := by
  obtain ⟨timedOut, heq⟩ := exists_countTimeout_eq stage id
  rw [heq]
  exact ⟨h.nodup, h.mem_pending, h.notMem_rest⟩

/-- A trace that is released after its last execution is finished with all of them, and the others
stay due. -/
theorem Tracks.release {ids : List Int64} (h : Tracks stage millis seen rest finished)
    (hdue : Due stage rest (id :: ids)) :
    Tracks (stage.release id).2 millis seen rest (finished ++ [id])
      ∧ Due (stage.release id).2 rest ids
      ∧ callsIn (stage.release id).1 = callsOf id (seen ++ rest) := by
  obtain ⟨hids, hnodup⟩ := List.nodup_cons.mp hdue.nodup
  have hid : id ∈ stage.pending := hdue.mem_pending id List.mem_cons_self
  have hrest : id ∉ idsOf rest := hdue.notMem_rest id List.mem_cons_self
  obtain ⟨pending, hpending⟩ := Option.isSome_iff_exists.mp
    (Std.ExtTreeMap.isSome_getElem?_iff_mem.mpr hid)
  -- all executions of the trace have been seen, so those held are all there are
  have hexecutions : pending.executions = executionsOf id (seen ++ rest) := by
    rw [(h.collects id pending hpending).held, Trace.executionsOf_append_of_notMem hrest]
  have hfinished : id ∉ finished := fun hmem => h.notMem_pending id hmem hid
  have hmem : ∀ other, other ∈ stage.pending.erase id ↔ ¬ id = other ∧ other ∈ stage.pending := by
    simp [Std.ExtTreeMap.mem_erase]
  simp only [TraceReconstruction.release, hpending, hexecutions]
  obtain ⟨valid, invalid, heq⟩ := exists_finish_eq
    { stage with pending := stage.pending.erase id } id (executionsOf id (seen ++ rest))
  rw [heq]
  refine ⟨⟨h.settles, h.window, h.newest, ?_, ?_, ?_, ?_, ?_⟩, ⟨hnodup, ?_, ?_⟩,
    callsIn_finish _ _ _⟩
  · exact List.nodup_append.mpr ⟨h.nodup, by simp, by
      rintro other hother _ hsame rfl
      exact hfinished (List.mem_singleton.mp hsame ▸ hother)⟩
  · intro other hother
    rcases List.mem_append.mp hother with hold | hnew
    · exact h.notMem_rest other hold
    · exact List.mem_singleton.mp hnew ▸ hrest
  · intro other hother hwaiting
    obtain ⟨hne, hwaiting⟩ := (hmem other).mp hwaiting
    rcases List.mem_append.mp hother with hold | hnew
    · exact h.notMem_pending other hold hwaiting
    · exact hne (List.mem_singleton.mp hnew).symm
  · intro other
    rw [h.mem_seen, List.mem_append, List.mem_singleton, hmem]
    by_cases hsame : other = id
    · simp [hsame, hid]
    · simp [hsame, Ne.symm hsame]
  · intro other waiting hwaiting
    rw [Std.ExtTreeMap.getElem?_erase] at hwaiting
    split at hwaiting
    · cases hwaiting
    · exact h.collects other waiting hwaiting
  · intro other hother
    have hne : id ≠ other := fun hsame => hids (hsame ▸ hother)
    exact (hmem other).mpr ⟨hne, hdue.mem_pending other (List.mem_cons_of_mem _ hother)⟩
  · exact fun other hother => hdue.notMem_rest other (List.mem_cons_of_mem _ hother)

/-- **Traces that are released after their last executions are finished with all of them**, one
after the other. -/
theorem Tracks.releaseAll {ids : List Int64} (h : Tracks stage millis seen rest finished)
    (hdue : Due stage rest ids) :
    Tracks (stage.releaseAll ids).2 millis seen rest (finished ++ ids)
      ∧ callsIn (stage.releaseAll ids).1 = ids.flatMap (callsOf · (seen ++ rest)) := by
  induction ids generalizing stage finished with
  | nil =>
    rw [List.append_nil]
    exact ⟨h, rfl⟩
  | cons id ids ih =>
    obtain ⟨hafter, hdue, hcalls⟩ := h.release hdue
    obtain ⟨hall, hmore⟩ := ih hafter hdue
    rw [← List.append_cons] at hall
    refine ⟨hall, ?_⟩
    rw [List.flatMap_cons, ← hcalls, ← hmore]
    exact callsIn_append _ _

theorem Tracks.releaseExpired {ids : List Int64} (h : Tracks stage millis seen rest finished)
    (hdue : Due stage rest ids) :
    Tracks (stage.releaseExpired ids).2 millis seen rest (finished ++ ids)
      ∧ callsIn (stage.releaseExpired ids).1 = ids.flatMap (callsOf · (seen ++ rest)) := by
  induction ids generalizing stage finished with
  | nil =>
    rw [List.append_nil]
    exact ⟨h, rfl⟩
  | cons id ids ih =>
    obtain ⟨hafter, hdue, hcalls⟩ := (h.countTimeout id).release (hdue.countTimeout id)
    obtain ⟨hall, hmore⟩ := ih hafter hdue
    rw [← List.append_cons] at hall
    refine ⟨hall, ?_⟩
    rw [List.flatMap_cons, ← hcalls, ← hmore]
    exact callsIn_append _ _

/-! ## Running out of time -/

theorem mem_expired : id ∈ stage.expired
    ↔ ∃ pending, stage.pending[id]? = some pending ∧ pending.lastTout < stage.deadline := by
  simp [expired, Std.ExtTreeMap.mem_toList_iff_getElem?_eq_some]

theorem nodup_expired (stage : TraceReconstruction) : stage.expired.Nodup := by
  have hkeys := stage.pending.nodup_keys
  rw [← Std.ExtTreeMap.map_fst_toList_eq_keys] at hkeys
  exact hkeys.sublist (List.filter_sublist.map _)

/-- A trace that lies within the time allowed has not run out of time. No time before zero counts,
so this holds as well where the time allowed exceeds the range. -/
theorem deadline_le {lastTout : Int64} (hwindow : stage.window = nanosOfMillis millis)
    (hnonneg : 0 ≤ lastTout.toInt)
    (hlimit : stage.newestTout.toInt - lastTout.toInt ≤ millis * 1000000) :
    stage.deadline ≤ lastTout := by
  refine Saturating.clamp_le ?_
  rw [hwindow, nanosOfMillis]
  by_cases hfits : (millis * 1000000 : Int) ≤ Int64.maxValue.toInt
  · have hmin : Int64.minValue.toInt ≤ 0 := by decide
    rw [Saturating.toInt_clamp ⟨by omega, hfits⟩]
    omega
  -- a time allowed beyond the range is cut, but then it reaches back to zero from every exit
  · have hmax := stage.newestTout.toInt_le
    rw [Saturating.clamp_of_lt (Int.not_le.mp hfits)]
    omega

/-- **A trace that goes on has not run out of time.** -/
theorem Gathers.notMem_expired (h : stage.Gathers millis id seen)
    (hkeeps : KeepsUp (millis * 1000000) seen rest id) (hid : id ∈ idsOf rest) :
    id ∉ stage.expired := by
  intro hexpired
  obtain ⟨pending, hpending, hlate⟩ := mem_expired.mp hexpired
  have hcollects := h.collects
  rw [known, hpending, Option.getD_some] at hcollects
  have hseen : id ∈ idsOf seen :=
    h.mem_idsOf (Std.ExtTreeMap.isSome_getElem?_iff_mem.mp (by rw [hpending]; rfl))
  -- the stage compares its own two times, which lie between the two that the assumption compares
  obtain ⟨own, hown, _, e, he, hlast⟩ := exists_newestExit (Trace.executionsOf_ne_nil hseen)
  obtain ⟨newest, hnewest, hle, _⟩ :=
    exists_newestExit (List.ne_nil_of_mem (List.mem_of_mem_filter he))
  have hlimit : newest - own ≤ millis * 1000000 := hkeeps hid newest hnewest own hown
  have hknown : own ≤ pending.lastTout.toInt := hlast ▸ hcollects.le_lastTout e he
  have hbehind : stage.newestTout.toInt ≤ newest := by
    rcases h.newest with hnone | ⟨e', he', htout⟩
    · have := e.tout.minValue_le_toInt
      have := hle e (List.mem_of_mem_filter he)
      rw [hnone]
      omega
    · exact htout ▸ hle e' he'
  exact absurd hlate (Int64.not_lt.mpr
    (deadline_le h.window hcollects.nonneg (by omega)))

theorem Tracks.due_expired (h : Tracks stage millis seen rest finished)
    (htimely : StaysTimely (millis * 1000000) (seen ++ rest)) : Due stage rest stage.expired where
  nodup := nodup_expired stage
  mem_pending id hid := by
    obtain ⟨pending, hpending, _⟩ := mem_expired.mp hid
    exact Std.ExtTreeMap.isSome_getElem?_iff_mem.mp (by rw [hpending]; rfl)
  notMem_rest id hid hlater := (h.gathers fun hfinished => h.notMem_rest id hfinished hlater)
    |>.notMem_expired (htimely.isTimely id).keepsUp hlater hid

/-! ## Runs -/

theorem Tracks.onExecution {e : Execution} (h : Tracks stage millis seen (e :: rest) finished)
    (hcorrelated : e.isCorrelated) (htimely : StaysTimely (millis * 1000000) (seen ++ e :: rest)) :
    ∃ more, Tracks (stage.onExecution e).2 millis (seen ++ [e]) rest (finished ++ more)
      ∧ callsIn (stage.onExecution e).1 = more.flatMap (callsOf · (seen ++ e :: rest)) := by
  have haccept := h.accept
  have hall : seen ++ e :: rest = seen ++ [e] ++ rest := List.append_cons ..
  rw [hall] at htimely ⊢
  -- complete traces wait like all others
  have hcomplete : (stage.accept e).releaseComplete e.traceId = ([], stage.accept e) := by
    rw [releaseComplete, haccept.settles]
    split <;> rfl
  have hstep : stage.onExecution e
      = (stage.accept e).releaseExpired (stage.accept e).expired := by
    rw [TraceReconstruction.onExecution, if_pos hcorrelated, hcomplete]
    rfl
  rw [hstep]
  exact ⟨_, haccept.releaseExpired (haccept.due_expired htimely)⟩

/-- Handles executions one after the other. -/
def onExecutions (stage : TraceReconstruction) :
    List Execution → List Output × TraceReconstruction
  | [] => ([], stage)
  | e :: rest =>
    let (first, stage) := stage.onExecution e
    let (more, stage) := stage.onExecutions rest
    (first ++ more, stage)

theorem onExecutions_singleton (stage : TraceReconstruction) (e : Execution) :
    stage.onExecutions [e] = stage.onExecution e := by
  simp only [onExecutions, List.append_nil]

theorem onExecutions_append (stage : TraceReconstruction) (executions more : List Execution) :
    stage.onExecutions (executions ++ more)
      = ((stage.onExecutions executions).1
          ++ ((stage.onExecutions executions).2.onExecutions more).1,
          ((stage.onExecutions executions).2.onExecutions more).2) := by
  induction executions generalizing stage with
  | nil => rfl
  | cons e rest ih => simp only [List.cons_append, onExecutions, ih, List.append_assoc]

/-- Executions without correlation data make no difference. -/
theorem onExecutions_filter (stage : TraceReconstruction) (executions : List Execution) :
    stage.onExecutions executions = stage.onExecutions (executions.filter (·.isCorrelated)) := by
  induction executions generalizing stage with
  | nil => rfl
  | cons e rest ih =>
    by_cases hcorrelated : e.isCorrelated
    · rw [List.filter_cons_of_pos hcorrelated, onExecutions, onExecutions]
      dsimp only
      rw [ih]
    · rw [List.filter_cons_of_neg hcorrelated, onExecutions, TraceReconstruction.onExecution,
        if_neg hcorrelated, ← ih]
      rfl

theorem Tracks.onExecutions (h : Tracks stage millis seen rest finished)
    (hcorrelated : ∀ e ∈ rest, e.isCorrelated)
    (htimely : StaysTimely (millis * 1000000) (seen ++ rest)) :
    ∃ more, Tracks (stage.onExecutions rest).2 millis (seen ++ rest) [] (finished ++ more)
      ∧ callsIn (stage.onExecutions rest).1 = more.flatMap (callsOf · (seen ++ rest)) := by
  induction rest generalizing stage seen finished with
  | nil =>
    refine ⟨[], ?_, rfl⟩
    rw [List.append_nil, List.append_nil]
    exact h
  | cons e rest ih =>
    obtain ⟨first, hfirst, hcalls⟩ := h.onExecution (hcorrelated e List.mem_cons_self) htimely
    rw [List.append_cons] at htimely hcalls ⊢
    obtain ⟨more, hmore, hrest⟩ := ih hfirst
      (fun e' he' => hcorrelated e' (List.mem_cons_of_mem _ he')) htimely
    refine ⟨first ++ more, ?_, ?_⟩
    · rw [← List.append_assoc finished]
      exact hmore
    · rw [List.flatMap_append, ← hcalls, ← hrest]
      exact callsIn_append _ _

/-- **The calls that the stage gives out are the calls of all trees.** -/
theorem calls_perm {config : Config.Reconstruction} {executions : List Execution}
    (hsettles : config.settles = true)
    (htimely : StaysTimely (config.maxDurationMillis.toNat * 1000000)
      (executions.filter (·.isCorrelated))) :
    (callsIn ((onExecutions (.ofConfig config) executions).1
      ++ (onExecutions (.ofConfig config) executions).2.close.1)).Perm
        ((Trace.allOf (executions.filter (·.isCorrelated))).flatMap Trace.calls) := by
  rw [onExecutions_filter]
  obtain ⟨finished, htracks, hcalls⟩ := (tracks_ofConfig hsettles
    (executions.filter (·.isCorrelated))).onExecutions
      (fun e he => (List.mem_filter.mp he).2) htimely
  generalize onExecutions (.ofConfig config) (executions.filter (·.isCorrelated)) = run at *
  obtain ⟨outputs, stage⟩ := run
  simp only [List.nil_append] at htracks hcalls
  obtain ⟨hclosed, hlast⟩ := htracks.releaseAll
    ⟨stage.pending.nodup_keys, fun _ hid => Std.ExtTreeMap.mem_keys.mp hid, by simp [idsOf]⟩
  rw [List.append_nil] at hlast
  rw [callsIn_append, hcalls, close, hlast, ← List.flatMap_append]
  -- each trace has been finished once, some in time and the others now
  refine Trace.calls_perm_allOf hclosed.nodup fun id => ?_
  rw [htracks.mem_seen, List.mem_append, Std.ExtTreeMap.mem_keys]

end TraceReconstruction

end CallTrace
