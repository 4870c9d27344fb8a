import Mathlib.Logic.Basic

/-!
Threads that share a state behind locks, cut at their critical sections.

A `Proc` is the code of one thread: either it has returned, or it is about to enter a critical
section. A section runs as one step. It may have to wait (`ready`), it changes the shared state, it
may emit events an observer records, and what the thread does next depends on the state the section
found. The same program is read in two ways: `run` executes it with no other thread in between, and
the scheduler in `Concurrency.Schedule` interleaves its sections with those of other threads. A
program is `Insensitive` to what a relation on states leaves open if it runs alike from related
states.
-/

namespace Iec61850.Concurrency

structure Outcome (σ ε α : Type) where
  result : α
  state : σ
  events : List ε := []

inductive Proc (σ ε α : Type) where
  | done (result : α)
  | critical (ready : σ → Bool) (effect : σ → σ) (emitted : σ → List ε) (next : σ → Proc σ ε α)

variable {σ ε α β γ : Type}

namespace Outcome

variable (earlier : List ε) (outcome : Outcome σ ε α)

def prepend : Outcome σ ε α :=
  { outcome with events := earlier ++ outcome.events }

@[simp] theorem prepend_result : (outcome.prepend earlier).result = outcome.result := rfl

@[simp] theorem prepend_state : (outcome.prepend earlier).state = outcome.state := rfl

@[simp] theorem prepend_events : (outcome.prepend earlier).events = earlier ++ outcome.events := rfl

@[simp] theorem prepend_nil : outcome.prepend [] = outcome := rfl

end Outcome

namespace Proc

def bind : Proc σ ε α → (α → Proc σ ε β) → Proc σ ε β
  | .done result, continuation => continuation result
  | .critical ready effect emitted next, continuation =>
    .critical ready effect emitted fun state => (next state).bind continuation

instance : Monad (Proc σ ε) where
  pure := .done
  bind := Proc.bind

def run : Proc σ ε α → σ → Outcome σ ε α
  | .done result, state => { result, state }
  | .critical _ effect emitted next, state =>
    ((next state).run (effect state)).prepend (emitted state)

variable (result : α) (ready : σ → Bool) (body : σ → Outcome σ ε α) (state : σ) (program : Proc σ ε α)
  (first continuation : α → Proc σ ε β)

def atomically : Proc σ ε α :=
  .critical (fun _ => true) (fun state => (body state).state) (fun state => (body state).events)
    fun state => .done (body state).result

def whenReady : Proc σ ε α :=
  .critical ready (fun state => (body state).state) (fun state => (body state).events)
    fun state => .done (body state).result

theorem bind_bind (second : β → Proc σ ε γ) :
    (program.bind first).bind second = program.bind fun result => (first result).bind second := by
  induction program with
  | done result => rfl
  | critical ready effect emitted next ih =>
    simp only [bind]
    congr 1
    funext state
    exact ih state

theorem bind_done : program.bind .done = program := by
  induction program with
  | done result => rfl
  | critical ready effect emitted next ih =>
    simp only [bind]
    congr 1
    funext state
    exact ih state

instance : LawfulMonad (Proc σ ε) :=
  LawfulMonad.mk' _ bind_done (fun _ _ => rfl) bind_bind

@[simp] theorem run_pure : (pure result : Proc σ ε α).run state = { result, state } := rfl

@[simp] theorem run_atomically : (atomically body).run state = body state := by
  simp [atomically, run, Outcome.prepend]

@[simp] theorem run_whenReady : (whenReady ready body).run state = body state := by
  simp [whenReady, run, Outcome.prepend]

@[simp] theorem run_bind (state : σ) : (program >>= continuation).run state =
      ((continuation (program.run state).result).run (program.run state).state).prepend
        (program.run state).events := by
  change (program.bind continuation).run state = _
  induction program generalizing state with
  | done result => rfl
  | critical ready effect emitted next ih =>
    simp only [bind, run, ih, Outcome.prepend_result, Outcome.prepend_state, Outcome.prepend_events]
    simp only [Outcome.prepend, List.append_assoc]

@[simp] theorem run_map (transform : α → β) (state : σ) : (transform <$> program).run state =
      { result := transform (program.run state).result, state := (program.run state).state
        events := (program.run state).events } := by
  rw [map_eq_pure_bind, run_bind]
  simp [Outcome.prepend]

def Insensitive (alike : σ → σ → Prop) (program : Proc σ ε α) : Prop :=
  ∀ first second, alike first second →
    (program.run first).events = (program.run second).events ∧
      (program.run first).result = (program.run second).result ∧
      alike (program.run first).state (program.run second).state

namespace Insensitive

variable {alike : σ → σ → Prop}

theorem pure (result : α) : Insensitive alike (Pure.pure result : Proc σ ε α) :=
  fun _ _ related => ⟨rfl, rfl, related⟩

theorem bind {program : Proc σ ε α} {continuation : α → Proc σ ε β} (front : Insensitive alike program)
    (back : ∀ result, Insensitive alike (continuation result)) : Insensitive alike (program >>= continuation) := by
  intro first second related
  obtain ⟨events, result, middle⟩ := front first second related
  rw [run_bind, run_bind, events, result]
  obtain ⟨laterEvents, laterResult, final⟩ := back _ _ _ middle
  refine ⟨?_, laterResult, final⟩
  rw [Outcome.prepend_events, Outcome.prepend_events, laterEvents]

theorem ite {condition : Prop} [Decidable condition] {first second : Proc σ ε α} (yes : Insensitive alike first)
    (no : Insensitive alike second) : Insensitive alike (if condition then first else second) := by
  split
  · exact yes
  · exact no

theorem whenReady {ready : σ → Bool} {body : σ → Outcome σ ε α}
    (holds : ∀ first second, alike first second → (body first).events = (body second).events ∧
      (body first).result = (body second).result ∧ alike (body first).state (body second).state) :
    Insensitive alike (Proc.whenReady ready body) := by
  intro first second related
  rw [run_whenReady, run_whenReady]
  exact holds first second related

theorem atomically {body : σ → Outcome σ ε α}
    (holds : ∀ first second, alike first second → (body first).events = (body second).events ∧ (body first).result =
      (body second).result ∧ alike (body first).state (body second).state) :
    Insensitive alike (Proc.atomically body) :=
  whenReady holds

end Insensitive

end Proc

end Iec61850.Concurrency
