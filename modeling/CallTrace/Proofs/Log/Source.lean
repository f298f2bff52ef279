import CallTrace.Log.Source

/-!
# What a source hands out

What `fill` brings does not depend on the turns of the source: it is the front of what is left, as
much as was asked for or as there is, and what is behind it stays. Only a source that fails before
that brings an error, and from then on nothing else (`fill_cases`).
-/

namespace CallTrace.Log.Source

/-- The source has no place at which it fails. -/
def IsSound (source : Source) : Prop := source.soundFor = none

theorem isSound_withTurns (bytes : Bytes) (turns : Nat → Turn) :
    IsSound (withTurns bytes turns none) := rfl

/-- The source fails before it has brought so many bytes or has come to its end. -/
def FailsWithin (source : Source) (wanted : Nat) : Prop :=
  ∃ left, source.soundFor = some left ∧ left < wanted ∧ left ≤ source.rest.length

theorem IsSound.not_failsWithin {source : Source} (hs : source.IsSound) (wanted : Nat) :
    ¬ source.FailsWithin wanted := by
  rintro ⟨left, hleft, -⟩
  rw [hs] at hleft
  cases hleft

/-! ## One attempt -/

/-- A turn brings at least one byte, at most what was asked for, and nothing from behind the place
at which the source fails. -/
theorem portion_bounds {source : Source} {wanted : Nat} (hw : 0 < wanted)
    (hsound : source.soundFor ≠ some 0) :
    0 < source.portion wanted ∧ source.portion wanted ≤ wanted
      ∧ ∀ left, source.soundFor = some left → source.portion wanted ≤ left := by
  obtain ⟨most, hpos, hle, heq⟩ : ∃ most, 0 < most ∧ most ≤ wanted
      ∧ source.portion wanted = source.soundFor.elim most (min most) := by
    unfold portion
    cases (source.turns source.turn).extra with
    | none => exact ⟨wanted, hw, Nat.le_refl _, by cases source.soundFor <;> rfl⟩
    | some extra =>
      exact ⟨min wanted (extra + 1), Nat.lt_min.mpr ⟨hw, Nat.succ_pos extra⟩,
        Nat.min_le_left _ _, by cases source.soundFor <;> rfl⟩
  rw [heq]
  cases hleft : source.soundFor with
  | none => exact ⟨hpos, hle, nofun⟩
  | some left =>
    have hleft' : 0 < left := by
      rcases Nat.eq_zero_or_pos left with rfl | hpos
      · exact absurd hleft hsound
      · exact hpos
    refine ⟨Nat.lt_min.mpr ⟨hpos, hleft'⟩, Nat.le_trans (Nat.min_le_left _ _) hle, ?_⟩
    rintro _ ⟨⟩
    exact Nat.min_le_right _ _

/-- The bytes that a source has handed out, and the one left behind. -/
structure HandsOut (source : Source) (front : Bytes) (next : Source) : Prop where
  rest_eq : source.rest = front ++ next.rest
  soundFor_eq : next.soundFor = source.soundFor.map (· - front.length)
  length_le : ∀ left, source.soundFor = some left → front.length ≤ left
  failure_eq : next.failure = source.failure

/-- What an attempt comes to. Only at the end of the input it brings nothing. -/
theorem read_cases (source : Source) {wanted : Nat} (hw : 0 < wanted) :
    (∃ due, source.read wanted = (.interrupted, { source with due }))
      ∨ (source.soundFor = some 0 ∧ source.read wanted = (.failed source.failure, source))
      ∨ ∃ front next, source.read wanted = (.bytes front, next)
        ∧ source.HandsOut front next ∧ front.length ≤ wanted
        ∧ (front = [] → source.rest = [] ∧ source.soundFor ≠ some 0) := by
  unfold read
  cases source.due with
  | succ due => exact .inl ⟨due, rfl⟩
  | zero =>
    by_cases hbroken : source.soundFor = some 0
    · exact .inr (.inl ⟨hbroken, by simp [isBroken, hbroken]⟩)
    · obtain ⟨hpos, hle, hleft⟩ := portion_bounds hw hbroken
      have hlength := List.length_take_le (source.portion wanted) source.rest
      refine .inr (.inr ⟨source.rest.take (source.portion wanted),
        { source with
          rest := source.rest.drop (source.portion wanted)
          soundFor := source.soundFor.map (· - (source.rest.take (source.portion wanted)).length)
          turn := source.turn + 1
          due := (source.turns (source.turn + 1)).interruptions },
        by simp [isBroken, hbroken], ⟨by simp, rfl, ?_, rfl⟩, by omega, ?_⟩)
      · intro left h
        have := hleft left h
        omega
      · intro hnil
        rcases List.take_eq_nil_iff.mp hnil with hzero | hrest
        · omega
        · exact ⟨hrest, hbroken⟩

/-! ## Filling -/

/-- Behind what was handed out, the place of failure lies as far as before. -/
theorem HandsOut.failsWithin_iff {source next : Source} {front : Bytes}
    (h : source.HandsOut front next) {wanted : Nat} (hle : front.length ≤ wanted) :
    next.FailsWithin (wanted - front.length) ↔ source.FailsWithin wanted := by
  unfold FailsWithin
  rw [h.soundFor_eq, h.rest_eq, List.length_append]
  cases hleft : source.soundFor with
  | none => simp
  | some left =>
    have := h.length_le left hleft
    simp only [Option.map_some, Option.some.injEq, exists_eq_left']
    omega

theorem HandsOut.trans {source mid next : Source} {front more : Bytes}
    (h : source.HandsOut front mid) (h' : mid.HandsOut more next) :
    source.HandsOut (front ++ more) next where
  rest_eq := by rw [h.rest_eq, h'.rest_eq, List.append_assoc]
  soundFor_eq := by
    rw [h'.soundFor_eq, h.soundFor_eq, List.length_append]
    cases source.soundFor with
    | none => rfl
    | some left => simp [Nat.sub_sub]
  length_le left hleft := by
    have hfront := h.length_le left hleft
    have hmore := h'.length_le (left - front.length) (by simp [h.soundFor_eq, hleft])
    rw [List.length_append]
    omega
  failure_eq := h'.failure_eq.trans h.failure_eq

theorem HandsOut.isSound {source next : Source} {front : Bytes} (h : source.HandsOut front next)
    (hs : source.IsSound) : next.IsSound := by
  rw [IsSound, h.soundFor_eq, show source.soundFor = none from hs]
  rfl

theorem HandsOut.rest_of_take {source next : Source} {wanted : Nat}
    (h : source.HandsOut (source.rest.take wanted) next) : next.rest = source.rest.drop wanted := by
  have hrest := (List.take_append_drop wanted source.rest).trans h.rest_eq
  exact (List.append_cancel_left hrest).symm

/-- **Filling brings the front of the input, whatever the turns**, or an error if the source fails
before that. -/
theorem fill_cases (source : Source) (wanted : Nat) :
    (¬ source.FailsWithin wanted ∧ ∃ next,
        source.fill wanted = (.ok (source.rest.take wanted), next)
          ∧ source.HandsOut (source.rest.take wanted) next)
      ∨ (source.FailsWithin wanted ∧ ∃ next,
        source.fill wanted = (.error source.failure, next)
          ∧ next.soundFor = some 0 ∧ next.failure = source.failure) := by
  fun_induction fill source wanted with
  | case1 source =>
    refine .inl ⟨?_, source, by simp, ⟨by simp, by simp, by simp, rfl⟩⟩
    rintro ⟨left, -, hlt, -⟩
    omega
  | case2 source wanted hw mid hread ih =>
    rcases source.read_cases (Nat.pos_of_ne_zero hw) with ⟨due, h⟩ | ⟨-, h⟩ | ⟨_, _, h, -⟩
    · rw [hread] at h
      obtain rfl := (Prod.mk.inj h).2
      rcases ih with ⟨hfails, next, hfill, hout⟩ | ih
      · exact .inl ⟨hfails, next, hfill,
          ⟨hout.rest_eq, hout.soundFor_eq, hout.length_le, hout.failure_eq⟩⟩
      · exact .inr ih
    · rw [hread] at h
      cases h
    · rw [hread] at h
      cases h
  | case3 source wanted hw message mid hread =>
    rcases source.read_cases (Nat.pos_of_ne_zero hw) with ⟨due, h⟩ | ⟨hbroken, h⟩ | ⟨_, _, h, -⟩
    · rw [hread] at h
      cases h
    · rw [hread] at h
      cases h
      exact .inr ⟨⟨0, hbroken, by omega, by omega⟩, source, rfl, hbroken, rfl⟩
    · rw [hread] at h
      cases h
  | case4 source wanted hw mid hread =>
    rcases source.read_cases (Nat.pos_of_ne_zero hw) with ⟨_, h⟩ | ⟨-, h⟩ | ⟨_, _, h, hout, -, hend⟩
    · rw [hread] at h
      cases h
    · rw [hread] at h
      cases h
    · rw [hread] at h
      cases h
      obtain ⟨hrest, hbroken⟩ := hend rfl
      refine .inl ⟨?_, mid, by simp [hrest], by simpa [hrest] using hout⟩
      rintro ⟨left, hleft, -, hle⟩
      rw [hrest, List.length_nil, Nat.le_zero] at hle
      exact hbroken (hle ▸ hleft)
  | case5 source wanted hw b more mid hread result last hfill ih =>
    rcases source.read_cases (Nat.pos_of_ne_zero hw) with ⟨_, h⟩ | ⟨-, h⟩ | ⟨_, _, h, hout, hle, -⟩
    · rw [hread] at h
      cases h
    · rw [hread] at h
      cases h
    · rw [hread] at h
      cases h
      have htake : source.rest.take wanted
          = b :: more ++ mid.rest.take (wanted - (more.length + 1)) := by
        rw [hout.rest_eq, List.take_append, List.take_of_length_le hle]
        rfl
      have hiff := hout.failsWithin_iff hle
      rw [List.length_cons] at hiff
      rcases ih with ⟨hfails, next, hnext, hmore⟩ | ⟨hfails, next, hnext, hsound, hfailure⟩
      · rw [hfill] at hnext
        cases hnext
        refine .inl ⟨fun h => hfails (hiff.mpr h), last, by simp [Except.map, htake], ?_⟩
        rw [htake]
        exact hout.trans hmore
      · rw [hfill] at hnext
        cases hnext
        exact .inr ⟨hiff.mp hfails, last, by simp [Except.map, hout.failure_eq], hsound,
          hfailure.trans hout.failure_eq⟩

/-- A source that does not fail brings what it is asked for. -/
theorem fill_of_isSound {source : Source} (hs : source.IsSound) (wanted : Nat) :
    ∃ next, source.fill wanted = (.ok (source.rest.take wanted), next)
      ∧ next.rest = source.rest.drop wanted ∧ next.IsSound := by
  rcases source.fill_cases wanted with ⟨-, next, hfill, hout⟩ | ⟨hfails, -⟩
  · exact ⟨next, hfill, hout.rest_of_take, hout.isSound hs⟩
  · exact absurd hfails (hs.not_failsWithin wanted)

end CallTrace.Log.Source
