import CallTrace.Bytes

/-!
# Inputs that arrive in pieces

A source hands out its bytes in turns. A turn brings at most so many bytes, at least one, and may be
preceded by interruptions, which are errors that ask for another try. A source may also fail for
good once so many bytes were handed out. `fill` reads until it has what was asked for or the input
ends, whatever the turns look like.

`fill` ends because each of its reads either brings a byte nearer to what was asked for or uses up
one of the interruptions due before the next turn.
-/

namespace CallTrace.Log

/-- One turn of a source. -/
structure Turn where
  /-- How many attempts are interrupted first. -/
  interruptions : Nat := 0
  /-- The most bytes the turn brings, beyond the first; `none` is as many as are asked for. -/
  extra : Option Nat := none
  deriving DecidableEq, Repr

/-- An input and what is left of it. -/
structure Source where
  /-- The bytes not yet handed out. -/
  rest : Bytes
  /-- How many bytes can be handed out before the input fails; `none` is all of them. -/
  soundFor : Option Nat := none
  /-- What the failure says. -/
  failure : String := "disk gone"
  /-- The turns of the source, by their number. -/
  turns : Nat → Turn := fun _ => {}
  /-- The number of the next turn. -/
  turn : Nat := 0
  /-- The interruptions still due before the next turn. -/
  due : Nat := 0

namespace Source

/-- A source that hands out everything it is asked for. -/
def ofBytes (bytes : Bytes) : Source := { rest := bytes }

/-- A source with the given turns, which fails after so many bytes. -/
def withTurns (bytes : Bytes) (turns : Nat → Turn) (soundFor : Option Nat) : Source :=
  { rest := bytes, soundFor, turns, due := (turns 0).interruptions }

/-- What one attempt to read brings. -/
inductive Attempt where
  | bytes (bytes : Bytes)
  | interrupted
  | failed (message : String)
  deriving DecidableEq, Repr

/-- How many bytes the next turn brings when so many are asked for. -/
def portion (source : Source) (wanted : Nat) : Nat :=
  let most := match (source.turns source.turn).extra with
    | some extra => min wanted (extra + 1)
    | none => wanted
  match source.soundFor with
  | some left => min most left
  | none => most

/-- Whether the input has reached the place where it fails. -/
def isBroken (source : Source) : Bool := source.soundFor == some 0

/-- Attempts to read some bytes. No bytes at all means that the input has ended. -/
def read (source : Source) (wanted : Nat) : Attempt × Source :=
  match source.due with
  | due + 1 => (.interrupted, { source with due })
  | 0 =>
    if source.isBroken then (.failed source.failure, source)
    else
      let count := source.portion wanted
      let bytes := source.rest.take count
      (.bytes bytes,
        { source with
          rest := source.rest.drop count
          soundFor := source.soundFor.map (· - bytes.length)
          turn := source.turn + 1
          due := (source.turns (source.turn + 1)).interruptions })

theorem due_of_read_interrupted {source : Source} {wanted : Nat} {next : Source}
    (h : source.read wanted = (.interrupted, next)) : next.due < source.due := by
  unfold read at h
  split at h
  · next due hd =>
    injection h with _ h
    subst h
    simp [hd]
  · split at h <;> simp at h

/-- Reads until `wanted` bytes have arrived or the input ends. -/
def fill (source : Source) (wanted : Nat) : Except String Bytes × Source :=
  if wanted = 0 then (.ok [], source)
  else
    match _h : source.read wanted with
    | (.interrupted, next) => fill next wanted
    | (.failed message, next) => (.error message, next)
    | (.bytes [], next) => (.ok [], next)
    | (.bytes (b :: bytes), next) =>
      let (result, last) := fill next (wanted - (bytes.length + 1))
      (result.map fun more => b :: bytes ++ more, last)
termination_by (wanted, source.due)
decreasing_by
  · exact Prod.Lex.right _ (due_of_read_interrupted _h)
  · exact Prod.Lex.left _ _ (by omega)

/-! ## Nothing is made up -/

theorem rest_of_read_bytes {source : Source} {wanted : Nat} {bytes : Bytes} {next : Source}
    (h : source.read wanted = (.bytes bytes, next)) : source.rest = bytes ++ next.rest := by
  unfold read at h
  split at h
  · simp at h
  · split at h
    · simp at h
    · injection h with hb hn
      injection hb with hb
      subst hb hn
      simp

theorem rest_of_read_other {source : Source} {wanted : Nat} {attempt : Attempt} {next : Source}
    (h : source.read wanted = (attempt, next)) (hne : ∀ bytes, attempt ≠ .bytes bytes) :
    next.rest = source.rest := by
  unfold read at h
  split at h
  · injection h with _ h
    subst h
    rfl
  · split at h
    · injection h with _ h
      subst h
      rfl
    · injection h with h _
      exact absurd h.symm (hne _)

/-- What `fill` brings was at the front of the source. -/
theorem rest_of_fill_ok {source : Source} {wanted : Nat} {bytes : Bytes} {next : Source}
    (h : source.fill wanted = (.ok bytes, next)) : source.rest = bytes ++ next.rest := by
  fun_induction fill source wanted generalizing bytes next with
  | case1 source => simp_all
  | case2 source wanted hw mid hread ih =>
    rw [← rest_of_read_other hread (by simp)]
    exact ih h
  | case3 source wanted hw message mid hread => simp at h
  | case4 source wanted hw mid hread =>
    injection h with hb hn
    injection hb with hb
    subst hb hn
    exact rest_of_read_bytes hread
  | case5 source wanted hw b more mid hread result last hfill ih =>
    injection h with hb hn
    subst hn
    cases result with
    | error message => simp [Except.map] at hb
    | ok others =>
      simp only [Except.map, Except.ok.injEq] at hb
      subst hb
      rw [rest_of_read_bytes hread, ih hfill]
      simp

/-- `fill` never gives bytes back. -/
theorem length_rest_fill_le (source : Source) (wanted : Nat) :
    (source.fill wanted).2.rest.length ≤ source.rest.length := by
  fun_induction fill source wanted with
  | case1 source => simp
  | case2 source wanted hw mid hread ih =>
    rw [← rest_of_read_other hread (by simp)]
    exact ih
  | case3 source wanted hw message mid hread =>
    simp [rest_of_read_other hread (by simp)]
  | case4 source wanted hw mid hread =>
    simp [rest_of_read_bytes hread]
  | case5 source wanted hw b more mid hread result last hfill ih =>
    rw [rest_of_read_bytes hread]
    rw [hfill] at ih
    simp only [List.length_append, List.length_cons]
    simp only at ih
    omega

end Source

end CallTrace.Log
