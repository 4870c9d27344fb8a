import Mathlib.Data.List.Basic

/-!
Machines that take one input after the other, and loops whose turns go on, wait for their
surroundings or return.
-/

namespace Iec61850.Concurrency.Machine

variable {σ ι : Type} (step : σ → ι → Option σ)

/-- The state after the inputs; `none` when one of them is refused. -/
def run : σ → List ι → Option σ
  | state, [] => some state
  | state, input :: rest => (step state input).bind fun next => run next rest

/-- Every input of the run meets a condition on the state that it finds. -/
def Within (allowed : σ → ι → Prop) : σ → List ι → Prop
  | _, [] => True
  | state, input :: rest => allowed state input ∧ ∀ next, step state input = some next → Within allowed next rest

instance decidableWithin (allowed : σ → ι → Prop) [∀ state input, Decidable (allowed state input)] :
    (state : σ) → (inputs : List ι) → Decidable (Within step allowed state inputs)
  | _, [] => isTrue trivial
  | state, input :: rest =>
    have : ∀ next, Decidable (Within step allowed next rest) := fun next => decidableWithin allowed next rest
    have : Decidable (∀ next, step state input = some next → Within step allowed next rest) :=
      Option.decidableForallMem _
    inferInstanceAs (Decidable (_ ∧ _))

variable {step} {first last : σ} {inputs : List ι}

theorem run_append (state : σ) (inputs later : List ι) :
    run step state (inputs ++ later) = (run step state inputs).bind fun next => run step next later := by
  induction inputs generalizing state with
  | nil => rfl
  | cons input rest ih =>
    simp only [List.cons_append, run, Option.bind_assoc]
    exact congrArg _ (funext ih)

theorem invariant_within {allowed : σ → ι → Prop} (holds : σ → Prop)
    (keeps : ∀ {state input next}, holds state → allowed state input → step state input = some next → holds next)
    (ran : run step first inputs = some last) (within : Within step allowed first inputs) (start : holds first) :
    holds last := by
  induction inputs generalizing first with
  | nil =>
    cases ran
    exact start
  | cons input rest ih =>
    obtain ⟨next, stepped, ran⟩ := Option.bind_eq_some_iff.mp ran
    exact ih ran (within.2 next stepped) (keeps start within.1 stepped)

theorem within_of_always (inputs : List ι) : Within step (fun _ _ => True) first inputs := by
  induction inputs generalizing first with
  | nil => trivial
  | cons input rest ih => exact ⟨trivial, fun _ _ => ih⟩

theorem invariant (holds : σ → Prop)
    (keeps : ∀ {state input next}, holds state → step state input = some next → holds next)
    (ran : run step first inputs = some last) (start : holds first) : holds last :=
  invariant_within holds (fun held _ stepped => keeps held stepped) ran (within_of_always inputs) start

theorem length_le (left : σ → Nat) (falls : ∀ {state input next}, step state input = some next → left next < left state)
    (ran : run step first inputs = some last) : inputs.length ≤ left first := by
  induction inputs generalizing first with
  | nil => exact Nat.zero_le _
  | cons input rest ih =>
    obtain ⟨next, stepped, ran⟩ := Option.bind_eq_some_iff.mp ran
    exact Nat.le_trans (Nat.succ_le_succ (ih ran)) (falls stepped)

variable {τ ω : Type}

/-- The answers of a machine to its inputs. -/
def answers (serve : σ → ι → ω × σ) : σ → List ι → List ω
  | _, [] => []
  | state, input :: rest => (serve state input).1 :: answers serve (serve state input).2 rest

/-- Two machines in states that every input keeps related, with the same answer to it, answer alike.
The relation may look at the inputs still to come. -/
theorem answers_eq {serve : σ → ι → ω × σ} {other : τ → ι → ω × τ} (related : σ → τ → List ι → Prop)
    (keeps : ∀ {state partner input rest}, related state partner (input :: rest) →
      (serve state input).1 = (other partner input).1 ∧ related (serve state input).2 (other partner input).2 rest)
    {state : σ} {partner : τ} {inputs : List ι} (start : related state partner inputs) :
    answers serve state inputs = answers other partner inputs := by
  induction inputs generalizing state partner with
  | nil => rfl
  | cons input rest ih =>
    obtain ⟨same, next⟩ := keeps start
    rw [answers, answers, same, ih next]

end Iec61850.Concurrency.Machine

namespace Iec61850.Concurrency

inductive Turn (σ α : Type) where
  | pending (state : σ)
  | again (state : σ)
  | returned (state : σ) (result : α)
  deriving DecidableEq, Repr

namespace Turn

variable {σ α : Type}

/-- The loop until it waits or returns, for at most so many turns. -/
def loop (turn : σ → Turn σ α) : Nat → σ → Turn σ α
  | 0, state => .again state
  | bound + 1, state =>
    match turn state with
    | .again state => loop turn bound state
    | stopped => stopped

variable {turn : σ → Turn σ α} {bound : Nat} {state next : σ} {result : α}

theorem loop_again (goesOn : turn state = .again next) : loop turn (bound + 1) state = loop turn bound next := by
  simp only [loop, goesOn]

theorem loop_pending (waits : turn state = .pending next) : loop turn (bound + 1) state = .pending next := by
  simp only [loop, waits]

theorem loop_returned (returns : turn state = .returned next result) :
    loop turn (bound + 1) state = .returned next result := by
  simp only [loop, returns]

end Turn

end Iec61850.Concurrency
