import Mathlib.Logic.Basic

/-!
Requests that belong to an episode. A system is active in episodes; a request stays pending until it
is served. It is kept to its episode if, as long as it is pending, the system has been active ever
since the request was made.
-/

namespace Iec61850.Concurrency.Episode

variable {σ : Type} {state : Nat → σ} {pending active : σ → Prop} {requested cut : Nat → Prop}

/-- A request that is pending was made in the episode that still goes on. -/
def Kept (state : Nat → σ) (pending active : σ → Prop) (requested : Nat → Prop) (now : Nat) : Prop :=
  pending (state now) → ∃ made < now, requested made ∧ ∀ later, made < later → later ≤ now → active (state later)

theorem Kept.of_step {now : Nat} (kept : Kept state pending active requested now)
    (raised : pending (state (now + 1)) → pending (state now) ∨ requested now ∧ active (state (now + 1)))
    (goesOn : pending (state now) → active (state now) → pending (state (now + 1)) → active (state (now + 1))) :
    Kept state pending active requested (now + 1) := by
  intro waiting
  rcases raised waiting with already | ⟨asked, opened⟩
  · obtain ⟨made, earlier, asked, since⟩ := kept already
    refine ⟨made, Nat.lt_succ_of_lt earlier, asked, fun later after upTo => ?_⟩
    rcases Nat.lt_or_eq_of_le upTo with before | rfl
    · exact since later after (Nat.le_of_lt_succ before)
    · exact goesOn already (since now earlier (Nat.le_refl now)) waiting
  · refine ⟨now, Nat.lt_succ_self now, asked, fun later after upTo => ?_⟩
    obtain rfl : later = now + 1 := Nat.le_antisymm upTo after
    exact opened

/-- Requests are kept to their episode exactly if no episode is cut off over a pending request. -/
theorem kept_iff (start : ¬ pending (state 0))
    (raised : ∀ now, pending (state (now + 1)) → pending (state now) ∨ requested now ∧ active (state (now + 1)))
    (closed : ∀ now, active (state now) → pending (state (now + 1)) → ¬ active (state (now + 1)) → cut now)
    (cutting : ∀ now, cut now → pending (state now) → active (state now) → pending (state (now + 1)) ∧ ¬ active (state
      (now + 1))) :
    (∀ now, Kept state pending active requested now) ↔ ∀ now, cut now → ¬ pending (state now) := by
  constructor
  · intro kept now cuts waiting
    obtain ⟨made, earlier, _, since⟩ := kept now waiting
    obtain ⟨still, ended⟩ := cutting now cuts waiting (since now earlier (Nat.le_refl now))
    obtain ⟨made, earlier, _, since⟩ := kept (now + 1) still
    exact ended (since (now + 1) earlier (Nat.le_refl _))
  · intro quiet now
    induction now with
    | zero => exact fun waiting => absurd waiting start
    | succ now ih =>
      refine ih.of_step (raised now) fun waiting opened still => ?_
      exact Classical.byContradiction fun shut => quiet now (closed now opened still shut) waiting

end Iec61850.Concurrency.Episode
