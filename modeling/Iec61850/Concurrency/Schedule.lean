import Mathlib.Data.List.Induction
import Mathlib.Logic.Function.Basic
import Iec61850.Concurrency.Sections

/-!
Threads over one shared state. A configuration holds the state, what is left of each thread's
program, and the events so far with the thread that emitted each; the scheduler picks a thread whose
next critical section is ready.

An invariant of all schedules has to say where the threads are. `Amid` does this for a thread that
is in the middle of a part of its program: what is left is a rest of that part, followed by a known
continuation.
-/

namespace Iec61850.Concurrency

structure Config (ι σ ε : Type) where
  state : σ
  threads : ι → Proc σ ε Unit
  history : List (ι × ε)

variable {ι σ ε α β : Type}

namespace Config

variable [DecidableEq ι]

/-- Runs the next section of a thread; `none` when the thread has ended or has to wait. -/
def advance (config : Config ι σ ε) (thread : ι) : Option (Config ι σ ε) :=
  match config.threads thread with
  | .done _ => none
  | .critical ready effect emitted next =>
    if ready config.state then
      some
        { state := effect config.state
          threads := Function.update config.threads thread (next config.state)
          history := config.history ++ (emitted config.state).map (Prod.mk thread) }
    else
      none

/-- Runs a schedule; `none` when some thread of it cannot run. -/
def schedule (config : Config ι σ ε) : List ι → Option (Config ι σ ε)
  | [] => some config
  | thread :: rest => (config.advance thread).bind (·.schedule rest)

def nextEvents (config : Config ι σ ε) (thread : ι) : List ε :=
  match config.threads thread with
  | .done _ => []
  | .critical _ _ emitted _ => emitted config.state

def trace (config : Config ι σ ε) : List ε := config.history.map Prod.snd

def scheduleWithin (allowed : Config ι σ ε → ι → Prop) [∀ config thread, Decidable (allowed config thread)]
    (config : Config ι σ ε) : List ι → Option (Config ι σ ε)
  | [] => some config
  | thread :: rest =>
    if allowed config thread then (config.advance thread).bind (·.scheduleWithin allowed rest) else none

/-- The configurations the system gets into by steps that all meet a condition on the configuration
they start from. -/
inductive Reaches (allowed : Config ι σ ε → ι → Prop) (start : Config ι σ ε) : Config ι σ ε → Prop
  | refl : Reaches allowed start start
  | step {config next : Config ι σ ε} (thread : ι) (reached : Reaches allowed start config)
      (permitted : allowed config thread) (advanced : config.advance thread = some next) : Reaches allowed start next

variable {config next : Config ι σ ε} {thread : ι} {allowed : Config ι σ ε → ι → Prop} {start last : Config ι σ ε}
  {threads : List ι}

theorem advance_eq (advanced : config.advance thread = some next) :
    ∃ ready effect emitted rest, config.threads thread = .critical ready effect emitted rest ∧
      ready config.state = true ∧ next.state = effect config.state ∧
      next.threads = Function.update config.threads thread (rest config.state) ∧
      next.history = config.history ++ (emitted config.state).map (Prod.mk thread) := by
  unfold advance at advanced
  cases program : config.threads thread with
  | done result => simp [program] at advanced
  | critical ready effect emitted rest =>
    simp only [program] at advanced
    split at advanced
    · next isReady =>
      cases advanced
      exact ⟨ready, effect, emitted, rest, rfl, isReady, rfl, rfl, rfl⟩
    · cases advanced

theorem advance_trace (advanced : config.advance thread = some next) :
    next.trace = config.trace ++ config.nextEvents thread := by
  obtain ⟨ready, effect, emitted, rest, program, _, _, _, history⟩ := advance_eq advanced
  have second : (Prod.snd ∘ Prod.mk thread : ε → ε) = id := rfl
  simp only [trace, nextEvents, program, history, List.map_append, List.map_map, second, List.map_id]

theorem advance_respects {step : σ → List ε → σ → Prop}
    (respects : ∀ other, (config.threads other).Respects step) (advanced : config.advance thread = some next) :
    step config.state (config.nextEvents thread) next.state ∧ ∀ other, (next.threads other).Respects step := by
  obtain ⟨ready, effect, emitted, rest, program, _, state, threads, _⟩ := advance_eq advanced
  have section_ := respects thread
  rw [program] at section_
  obtain ⟨now, later⟩ := section_ config.state
  constructor
  · simpa only [nextEvents, program, state] using now
  · intro other
    rw [threads]
    by_cases same : other = thread
    · rw [same, Function.update_self]
      exact later
    · rw [Function.update_of_ne same]
      exact respects other

theorem advance_follows {π : Type} {move : π → σ → List ε → σ → π → Prop} {final : π} {places : ι → π}
    (follows : ∀ other, (config.threads other).Follows move final (places other))
    (advanced : config.advance thread = some next) :
    ∃ onward, move (places thread) config.state (config.nextEvents thread) next.state onward ∧
      ∀ other, (next.threads other).Follows move final (Function.update places thread onward other) := by
  obtain ⟨ready, effect, emitted, rest, program, _, state, threads, _⟩ := advance_eq advanced
  have section_ := follows thread
  rw [program] at section_
  obtain ⟨onward, moved, later⟩ := section_ config.state
  refine ⟨onward, ?_, fun other => ?_⟩
  · simpa only [nextEvents, program, state] using moved
  · rw [threads]
    by_cases same : other = thread
    · rw [same, Function.update_self, Function.update_self]
      exact later
    · rw [Function.update_of_ne same, Function.update_of_ne same]
      exact follows other

/-- A section of one thread is within what the others rely on, so all of them go on as they did. -/
theorem advance_heeds {rely : σ → σ → Prop} {step : σ → List ε → σ → Prop}
    (heeds : ∀ other, (config.threads other).Heeds rely step (fun _ _ => True) config.state)
    (refl : ∀ state, rely state state)
    (trans : ∀ first middle last, rely first middle → rely middle last → rely first last)
    (advanced : config.advance thread = some next) (relied : rely config.state next.state) :
    step config.state (config.nextEvents thread) next.state ∧
      ∀ other, (next.threads other).Heeds rely step (fun _ _ => True) next.state := by
  obtain ⟨ready, effect, emitted, rest, program, _, state, threads, _⟩ := advance_eq advanced
  have section_ := heeds thread
  rw [program] at section_
  obtain ⟨now, later⟩ := section_ config.state (refl _)
  constructor
  · simpa only [nextEvents, program, state] using now
  · intro other
    rw [threads]
    by_cases same : other = thread
    · rw [same, Function.update_self, state]
      exact later
    · rw [Function.update_of_ne same]
      exact (heeds other).stable trans relied

theorem reaches_of_scheduleWithin [∀ config thread, Decidable (allowed config thread)]
    (reached : Reaches allowed start config)
    (ran : config.scheduleWithin allowed threads = some last) : Reaches allowed start last := by
  induction threads generalizing config with
  | nil =>
    cases ran
    exact reached
  | cons thread rest ih =>
    unfold scheduleWithin at ran
    split at ran
    · next permitted =>
      obtain ⟨next, advanced, ran⟩ := Option.bind_eq_some_iff.mp ran
      exact ih (.step thread reached permitted advanced) ran
    · cases ran

theorem Reaches.invariant (reached : Reaches allowed start config) (holds : Config ι σ ε → Prop) (first : holds start)
    (keeps : ∀ config next thread, holds config → allowed config thread → config.advance thread = some next →
      holds next) : holds config := by
  induction reached with
  | refl => exact first
  | step thread reached permitted advanced ih => exact keeps _ _ thread ih permitted advanced

theorem schedule_append (config : Config ι σ ε) (first second : List ι) :
    config.schedule (first ++ second) = (config.schedule first).bind (·.schedule second) := by
  induction first generalizing config with
  | nil => rfl
  | cons thread rest ih =>
    simp only [List.cons_append, schedule, Option.bind_assoc]
    exact Option.bind_congr fun next _ => ih next

theorem schedule_other {other : ι} (absent : other ∉ threads)
    (ran : config.schedule threads = some last) : last.threads other = config.threads other := by
  induction threads generalizing config with
  | nil =>
    cases ran
    rfl
  | cons thread rest ih =>
    obtain ⟨next, advanced, ran⟩ := Option.bind_eq_some_iff.mp ran
    rw [List.mem_cons, not_or] at absent
    obtain ⟨different, absent⟩ := absent
    obtain ⟨_, _, _, _, _, _, _, moved, _⟩ := advance_eq advanced
    rw [ih absent ran, moved, Function.update_of_ne different]

theorem reaches_of_schedule (ran : start.schedule threads = some last)
    (permitted : ∀ earlier thread later config, threads = earlier ++ thread :: later →
      start.schedule earlier = some config → allowed config thread) : Reaches allowed start last := by
  induction threads using List.reverseRecOn generalizing last with
  | nil =>
    cases ran
    exact .refl
  | append_singleton earlier thread ih =>
    rw [schedule_append] at ran
    obtain ⟨config, before, advanced⟩ := Option.bind_eq_some_iff.mp ran
    have reached : Reaches allowed start config := by
      refine ih before fun first next later between split => ?_
      exact permitted first next (later ++ [thread]) between (by simp [split])
    have step : config.advance thread = some last := by simpa [schedule] using advanced
    exact .step thread reached (permitted earlier thread [] config rfl before) step

end Config

namespace Proc

/-- What is left of a thread that is amid a part of its program: a rest of the part that is in a
known place, with `continuation` to follow. -/
def Amid (place : Proc σ ε α → Prop) (continuation : α → Proc σ ε β) (rest : Proc σ ε β) : Prop :=
  ∃ inner : Proc σ ε α, rest = inner >>= continuation ∧ place inner

variable {continuation : α → Proc σ ε β} {step turn : σ → List ε → σ → Prop} {after : Proc σ ε α → Prop}

theorem Amid.enter {place : Proc σ ε α → Prop} {inner : Proc σ ε α} (holds : place inner) :
    Amid place continuation (inner >>= continuation) :=
  ⟨inner, rfl, holds⟩

theorem Amid.next {ready : σ → Bool} {effect : σ → σ} {emitted : σ → List ε} {next : σ → Proc σ ε β}
    (amid : Amid (Respects step) continuation (.critical ready effect emitted next)) :
    (∃ result, .critical ready effect emitted next = continuation result) ∨
      ∀ state, step state (emitted state) (effect state) ∧ Amid (Respects step) continuation (next state) := by
  obtain ⟨inner, same, respects⟩ := amid
  cases inner with
  | done result => exact .inl ⟨result, same⟩
  | critical innerReady innerEffect innerEmitted innerNext =>
    cases same
    refine .inr fun state => ?_
    obtain ⟨now, later⟩ := respects state
    exact ⟨now, innerNext state, rfl, later⟩

theorem Amid.next_until {ready : σ → Bool} {effect : σ → σ} {emitted : σ → List ε} {next : σ → Proc σ ε β}
    (amid : Amid (Until step turn after) continuation (.critical ready effect emitted next)) :
    (∃ result, .critical ready effect emitted next = continuation result) ∨
      ∀ state, step state (emitted state) (effect state) ∧ Amid (Until step turn after) continuation (next state) ∨
        turn state (emitted state) (effect state) ∧ Amid after continuation (next state) := by
  obtain ⟨inner, same, until_⟩ := amid
  cases inner with
  | done result => exact .inl ⟨result, same⟩
  | critical innerReady innerEffect innerEmitted innerNext =>
    cases same
    refine .inr fun state => ?_
    rcases until_ state with ⟨now, later⟩ | ⟨now, later⟩
    · exact .inl ⟨now, innerNext state, rfl, later⟩
    · exact .inr ⟨now, innerNext state, rfl, later⟩

end Proc

end Iec61850.Concurrency
