import Iec61850.Concurrency.Proc

/-!
What the critical sections of a program can do, whatever states they find. Nothing here assumes that
the program runs undisturbed, so these are also statements about what it can do to other threads.

`Respects` bounds every section by one step relation. `Follows` is for a program that goes through
places, where what a section may do depends on the place. `Heeds` is for a program that relies on
what the other threads do in between. `Until` is for a program with a turning point: its sections
make one kind of step until one of them makes the turn, and what is left after the turn is known.
-/

namespace Iec61850.Concurrency.Proc

variable {σ ε α β : Type}

/-- Every critical section of the program makes a step `step before events after`. -/
def Respects (step : σ → List ε → σ → Prop) : Proc σ ε α → Prop
  | .done _ => True
  | .critical _ effect emitted next =>
    ∀ state, step state (emitted state) (effect state) ∧ (next state).Respects step

namespace Respects

variable {step : σ → List ε → σ → Prop}

theorem pure (result : α) : (Pure.pure result : Proc σ ε α).Respects step := trivial

variable {program : Proc σ ε α} {continuation : α → Proc σ ε β} {body : σ → Outcome σ ε α}

theorem bind (first : program.Respects step) (second : ∀ result, (continuation result).Respects step) :
    (program >>= continuation).Respects step := by
  change (program.bind continuation).Respects step
  induction program with
  | done result => exact second result
  | critical ready effect emitted next ih =>
    intro state
    obtain ⟨now, later⟩ := first state
    exact ⟨now, ih state later⟩

theorem whenReady {ready : σ → Bool} (holds : ∀ state, step state (body state).events (body state).state) :
    (Proc.whenReady ready body).Respects step :=
  fun state => ⟨holds state, trivial⟩

theorem atomically (holds : ∀ state, step state (body state).events (body state).state) :
    (Proc.atomically body).Respects step :=
  whenReady holds

theorem atomically_bind (holds : ∀ state, step state (body state).events (body state).state ∧
      (continuation (body state).result).Respects step) : (Proc.atomically body >>= continuation).Respects step :=
  holds

theorem ite {condition : Prop} [Decidable condition] {first second : Proc σ ε α}
    (yes : first.Respects step) (no : second.Respects step) : (if condition then first else second).Respects step := by
  split
  · exact yes
  · exact no

theorem mono (respects : program.Respects step) (wider : σ → List ε → σ → Prop)
    (weaker : ∀ before events after, step before events after → wider before events after) :
    program.Respects wider := by
  induction program with
  | done result => trivial
  | critical ready effect emitted next ih =>
    intro state
    obtain ⟨now, later⟩ := respects state
    exact ⟨weaker _ _ _ now, ih state later⟩

theorem run (respects : program.Respects step) (refl : ∀ state, step state [] state)
    (trans : ∀ first middle last earlier later, step first earlier middle → step middle later last →
      step first (earlier ++ later) last) (state : σ) :
    step state (program.run state).events (program.run state).state := by
  induction program generalizing state with
  | done result => exact refl state
  | critical ready effect emitted next ih =>
    obtain ⟨now, later⟩ := respects state
    exact trans _ _ _ _ _ now (ih state later (effect state))

end Respects

/-- The program keeps to a protocol: from `place` on, each section makes a move, and the last one
ends in `final`. -/
def Follows {π : Type} (move : π → σ → List ε → σ → π → Prop) (final : π) : π → Proc σ ε α → Prop
  | place, .done _ => place = final
  | place, .critical _ effect emitted next =>
    ∀ state, ∃ onward, move place state (emitted state) (effect state) onward ∧ (next state).Follows move final onward

namespace Follows

variable {π : Type} {move : π → σ → List ε → σ → π → Prop} {place middle final : π} {program : Proc σ ε α}

theorem pure (result : α) : (Pure.pure result : Proc σ ε α).Follows move final final := rfl

theorem bind {continuation : α → Proc σ ε β} (first : program.Follows move middle place)
    (second : ∀ result, (continuation result).Follows move final middle) :
    (program >>= continuation).Follows move final place := by
  change (program.bind continuation).Follows move final place
  induction program generalizing place with
  | done result =>
    rw [show place = middle from first]
    exact second result
  | critical ready effect emitted next ih =>
    intro state
    obtain ⟨onward, moved, rest⟩ := first state
    exact ⟨onward, moved, ih state rest⟩

theorem ite {condition : Prop} [Decidable condition] {first second : Proc σ ε α} (yes : first.Follows move final place)
    (no : second.Follows move final place) : (if condition then first else second).Follows move final place := by
  split
  · exact yes
  · exact no

theorem respects {step : σ → List ε → σ → Prop} (follows : program.Follows move final place)
    (each : ∀ place before events after onward, move place before events after onward → step before events after) :
    program.Respects step := by
  induction program generalizing place with
  | done result => trivial
  | critical ready effect emitted next ih =>
    intro state
    obtain ⟨onward, moved, rest⟩ := follows state
    exact ⟨each _ _ _ _ _ moved, ih state rest⟩

end Follows

/-- Whatever other threads do before each section, within `rely`, the section makes a step, and the
result and the state at the end satisfy `post`. -/
def Heeds (rely : σ → σ → Prop) (step : σ → List ε → σ → Prop) (post : α → σ → Prop) :
    Proc σ ε α → σ → Prop
  | .done result, state => post result state
  | .critical _ effect emitted next, state => ∀ later, rely state later →
    step later (emitted later) (effect later) ∧ (next later).Heeds rely step post (effect later)

namespace Heeds

variable {rely : σ → σ → Prop} {step : σ → List ε → σ → Prop} {post : α → σ → Prop}
  {program : Proc σ ε α} {state : σ}

theorem bind {final : β → σ → Prop} {continuation : α → Proc σ ε β}
    (first : program.Heeds rely step post state)
    (second : ∀ result state, post result state → (continuation result).Heeds rely step final state) :
    (program >>= continuation).Heeds rely step final state := by
  change (program.bind continuation).Heeds rely step final state
  induction program generalizing state with
  | done result => exact second result state first
  | critical ready effect emitted next ih =>
    intro later relied
    obtain ⟨now, rest⟩ := first later relied
    exact ⟨now, ih later rest⟩

theorem of_respects (respects : program.Respects step) (state : σ) :
    program.Heeds rely step (fun _ _ => True) state := by
  induction program generalizing state with
  | done result => trivial
  | critical ready effect emitted next ih =>
    intro later _
    obtain ⟨now, rest⟩ := respects later
    exact ⟨now, ih later rest (effect later)⟩

theorem stable (trans : ∀ first middle last, rely first middle → rely middle last → rely first last)
    (heeds : program.Heeds rely step (fun _ _ => True) state) {other : σ} (relied : rely state other) :
    program.Heeds rely step (fun _ _ => True) other := by
  cases program with
  | done result => trivial
  | critical ready effect emitted next => exact fun later after => heeds later (trans _ _ _ relied after)

end Heeds

/-- Every section makes a `step` until one makes the `turn`; what is left of the program then
satisfies `after`. -/
def Until (step turn : σ → List ε → σ → Prop) (after : Proc σ ε α → Prop) : Proc σ ε α → Prop
  | .done _ => True
  | .critical _ effect emitted next =>
    ∀ state, step state (emitted state) (effect state) ∧ (next state).Until step turn after ∨
      turn state (emitted state) (effect state) ∧ after (next state)

namespace Until

variable {step turn : σ → List ε → σ → Prop} {after : Proc σ ε β → Prop}

theorem pure (result : β) : (Pure.pure result : Proc σ ε β).Until step turn after := trivial

variable {program : Proc σ ε α} {continuation : α → Proc σ ε β}

theorem bind (first : program.Respects step) (second : ∀ result, (continuation result).Until step turn after) :
    (program >>= continuation).Until step turn after := by
  change (program.bind continuation).Until step turn after
  induction program with
  | done result => exact second result
  | critical ready effect emitted next ih =>
    intro state
    obtain ⟨now, later⟩ := first state
    exact .inl ⟨now, ih state later⟩

theorem of_respects {program : Proc σ ε β} (respects : program.Respects step) : program.Until step turn after := by
  have whole := bind respects fun result => (pure result : Until step turn after (Pure.pure result : Proc σ ε β))
  rwa [bind_pure] at whole

/-- A program with a turning point, followed by one that is at home before and after the turn. -/
theorem andThen {later : σ → List ε → σ → Prop} (first : program.Until step turn (Respects later))
    (before : ∀ result, (continuation result).Until step turn (Respects later))
    (afterwards : ∀ result, (continuation result).Respects later) :
    (program >>= continuation).Until step turn (Respects later) := by
  change (program.bind continuation).Until step turn (Respects later)
  induction program with
  | done result => exact before result
  | critical ready effect emitted next ih =>
    intro state
    rcases first state with ⟨now, rest⟩ | ⟨now, rest⟩
    · exact .inl ⟨now, ih state rest⟩
    · exact .inr ⟨now, rest.bind afterwards⟩

theorem atomically {body : σ → Outcome σ ε α} (holds : ∀ state,
      step state (body state).events (body state).state ∧ (continuation (body state).result).Until step turn after ∨
        turn state (body state).events (body state).state ∧ after (continuation (body state).result)) :
    (Proc.atomically body >>= continuation).Until step turn after :=
  holds

end Until

end Iec61850.Concurrency.Proc
