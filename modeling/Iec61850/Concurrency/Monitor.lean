import Mathlib.Logic.Basic

/-!
Runs of a labelled transition relation, each step with the events it emits, and monitors, which read
the events of a run one after the other and say of each whether it may come after those before it.
-/

namespace Iec61850.Concurrency

structure Monitor (μ ε : Type) where
  start : μ
  step : μ → ε → μ
  allowed : μ → ε → Prop

namespace Monitor

variable {μ ε : Type} (monitor : Monitor μ ε)

def afterFrom (state : μ) (trace : List ε) : μ := trace.foldl monitor.step state

def after (trace : List ε) : μ := monitor.afterFrom monitor.start trace

def AcceptsFrom : μ → List ε → Prop
  | _, [] => True
  | state, event :: rest => monitor.allowed state event ∧ AcceptsFrom (monitor.step state event) rest

def Accepts (trace : List ε) : Prop := monitor.AcceptsFrom monitor.start trace

variable {monitor}

theorem afterFrom_append (state : μ) (earlier later : List ε) :
    monitor.afterFrom state (earlier ++ later) = monitor.afterFrom (monitor.afterFrom state earlier) later :=
  List.foldl_append

theorem after_append (earlier later : List ε) :
    monitor.after (earlier ++ later) = monitor.afterFrom (monitor.after earlier) later :=
  afterFrom_append _ _ _

variable {state : μ} {earlier later : List ε}

theorem acceptsFrom_append : monitor.AcceptsFrom state (earlier ++ later) ↔
      monitor.AcceptsFrom state earlier ∧ monitor.AcceptsFrom (monitor.afterFrom state earlier) later := by
  induction earlier generalizing state with
  | nil => simp [AcceptsFrom, afterFrom]
  | cons event earlier ih =>
    simp only [List.cons_append, AcceptsFrom, ih, and_assoc]
    rfl

theorem accepts_append : monitor.Accepts (earlier ++ later) ↔
      monitor.Accepts earlier ∧ monitor.AcceptsFrom (monitor.after earlier) later :=
  acceptsFrom_append

theorem acceptsFrom_of_always {events : List ε}
    (always : ∀ event ∈ events, ∀ state, monitor.allowed state event) : monitor.AcceptsFrom state events := by
  induction events generalizing state with
  | nil => trivial
  | cons event events ih =>
    exact ⟨always event List.mem_cons_self state, ih fun other member => always other (List.mem_cons_of_mem _ member)⟩

theorem Accepts.allowed {event : ε} (accepts : monitor.Accepts (earlier ++ event :: later)) :
    monitor.allowed (monitor.after earlier) event :=
  (accepts_append.mp accepts).2.1

end Monitor

variable {σ ε : Type}

inductive Path (step : σ → List ε → σ → Prop) : σ → List ε → σ → Prop
  | refl (state : σ) : Path step state [] state
  | tail {first middle last : σ} {earlier later : List ε} (path : Path step first earlier middle)
      (move : step middle later last) : Path step first (earlier ++ later) last

namespace Path

variable {step : σ → List ε → σ → Prop} {first middle last : σ} {earlier later events : List ε}

theorem single (move : step first events last) : Path step first events last := by
  simpa using (Path.refl first).tail move

theorem trans (front : Path step first earlier middle) (back : Path step middle later last) :
    Path step first (earlier ++ later) last := by
  induction back with
  | refl => simpa using front
  | tail path move ih =>
    rw [← List.append_assoc]
    exact ih.tail move

theorem invariant (holds : σ → List ε → Prop)
    (keeps : ∀ state trace events next, holds state trace → step state events next → holds next (trace ++ events))
    (path : Path step first events last) (trace : List ε) (start : holds first trace) :
    holds last (trace ++ events) := by
  induction path with
  | refl => simpa using start
  | tail path move ih =>
    rw [← List.append_assoc]
    exact keeps _ _ _ _ ih move

theorem preserves (holds : σ → Prop) (keeps : ∀ state events next, holds state → step state events next → holds next)
    (path : Path step first events last) (start : holds first) : holds last :=
  path.invariant (fun state _ => holds state) (fun state _ events next => keeps state events next) events start

end Path

end Iec61850.Concurrency
