import Iec61850.Control.Rules

/-!
The end steps of a command, which may be taken more than once and do not say which command they end:
what they do to an object that another connection has obtained meanwhile.
-/

namespace Iec61850.Control

open Concurrency

/-- What another connection than `connId` holds of the object stays as it is: the selection or the
execution, its value and its owner. -/
def LeavesOthersAlone (connId : ConnectionId) (before after : ControlObjectInner) : Prop :=
  before.state ≠ .unselected → before.ownerConnId ≠ connId →
    after.state = before.state ∧ after.ownerConnId = before.ownerConnId ∧ after.lastOperParams = before.lastOperParams

/-- The commands with their connections: those that were admitted and have not ended, and those that
have ended since a Select or an Operate was last accepted. -/
structure Endings where
  executing : List (Nat × ConnectionId)
  settled : List (Nat × ConnectionId)

def endings : Monitor Endings Event where
  start := { executing := [], settled := [] }
  step known
    | .selected _ _ _ _ => { known with settled := [] }
    | .admitted command connId _ _ _ _ => { executing := (command, connId) :: known.executing, settled := [] }
    | .ended command connId .abort _ =>
      { executing := known.executing.erase (command, connId), settled := (command, connId) :: known.settled }
    | .ended command connId .finish _ =>
      { executing := known.executing.erase (command, connId)
        settled := if (command, connId) ∈ known.executing then (command, connId) :: known.settled else known.settled }
    | .canceled _ => known
    | .deselected _ => known
    | .notified _ => known
  allowed _ _ := True

/-- The end step is the first of its command. A further abort finds the object unselected, or no
Select and no Operate has been accepted since the command ended; a further finish finds no command
executing. -/
def Event.Settles (known : Endings) (state : ControlState) : Event → Prop
  | .ended command connId .abort _ =>
    (command, connId) ∈ known.executing ∨ (command, connId) ∈ known.settled ∨ state = .unselected
  | .ended command connId .finish _ => (command, connId) ∈ known.executing ∨ known.executing = []
  | .selected _ _ _ _ => True
  | .admitted _ _ _ _ _ _ => True
  | .canceled _ => True
  | .deselected _ => True
  | .notified _ => True

instance (known : Endings) (state : ControlState) : (event : Event) → Decidable (event.Settles known state)
  | .ended _ _ .abort _ => inferInstanceAs (Decidable (_ ∨ _))
  | .ended _ _ .finish _ => inferInstanceAs (Decidable (_ ∨ _))
  | .selected _ _ _ _ => .isTrue trivial
  | .admitted _ _ _ _ _ _ => .isTrue trivial
  | .canceled _ => .isTrue trivial
  | .deselected _ => .isTrue trivial
  | .notified _ => .isTrue trivial

/-- The command that is executing holds the object, and so does the connection of a settled one if
anybody does. -/
def Accounts (known : Endings) (inner : ControlObjectInner) : Prop :=
  match inner.state with
  | .unselected => known.executing = []
  | .ready => known.executing = [] ∧ ∀ command connId, (command, connId) ∈ known.settled → connId = inner.ownerConnId
  | .waitForExecution | .operate => known.settled = [] ∧ ∃ command, known.executing = [(command, inner.ownerConnId)]

theorem ObjectStep.of_finished {before after : ControlObject} {events : List Event}
    (step : ObjectStep before events after) {command : Nat} {connId : ConnectionId} {now : Instant}
    (ended : .ended command connId .finish now ∈ events) : after.inner = (finishing before).2.1 := by
  cases step with
  | quiet inner admitted later silent => cases silent _ ended
  | armed | ownerLost | started => cases ended
  | selected | selectedWithValue | admittedDirect | admittedSelected | deselected | canceled =>
    cases List.mem_singleton.mp ended
  | aborted reason =>
    simp only [aborting] at ended
    split at ended <;> simp at ended
  | finished => rfl

theorem finishing_of_not_executing {object : ControlObject} (idle : object.inner.state.isExecuting = false) :
    (finishing object).2.1 = object.inner := by
  simp [finishing, idle]

section

variable {before after : ControlObject} {inner : ControlObjectInner} {events : List Event} {known : Endings}
  {command : Nat} {connId : ConnectionId}

theorem Accounts.owner (accounts : Accounts known inner) (busy : inner.state ≠ .unselected)
    (settles : (command, connId) ∈ known.executing ∨ (command, connId) ∈ known.settled) :
    inner.ownerConnId = connId := by
  cases state : inner.state with
  | unselected => exact absurd state busy
  | ready =>
    simp only [Accounts, state] at accounts
    rcases settles with running | settled
    · rw [accounts.1] at running
      cases running
    · exact (accounts.2 command connId settled).symm
  | waitForExecution | operate =>
    simp only [Accounts, state] at accounts
    obtain ⟨none, running, only⟩ := accounts
    rcases settles with member | member
    · rw [only] at member
      cases List.mem_singleton.mp member
      rfl
    · rw [none] at member
      cases member

theorem endings_notifications (silent : ∀ event ∈ events, event.IsNotification) :
    endings.afterFrom known events = known := by
  induction events with
  | nil => rfl
  | cons event rest ih =>
    have first := silent event List.mem_cons_self
    cases event with
    | notified change => exact ih fun event member => silent event (List.mem_cons_of_mem _ member)
    | _ => cases first

theorem Accounts.idle (accounts : Accounts known inner) :
    inner.state.isExecuting = false ↔ known.executing = [] := by
  cases state : inner.state with
  | unselected | ready =>
    simp only [Accounts, state] at accounts
    simp [accounts, ControlState.isExecuting]
  | waitForExecution | operate =>
    simp only [Accounts, state] at accounts
    obtain ⟨_, running, only⟩ := accounts
    simp [only, ControlState.isExecuting]

/-- Whichever command ends, none is left executing: the object holds one at most. -/
theorem Accounts.erase (accounts : Accounts known inner)
    (own : (command, connId) ∈ known.executing ∨ known.executing = []) :
    known.executing.erase (command, connId) = [] := by
  rcases own with member | none
  · cases state : inner.state with
    | unselected | ready =>
      simp only [Accounts, state] at accounts
      simp [accounts]
    | waitForExecution | operate =>
      simp only [Accounts, state] at accounts
      obtain ⟨_, running, only⟩ := accounts
      rw [only] at member ⊢
      rw [List.mem_singleton.mp member, List.erase_cons_head]
  · rw [none, List.erase_nil]

theorem Accounts.executing_of_settled (accounts : Accounts known inner) (member : (command, connId) ∈ known.settled) :
    known.executing = [] := by
  refine accounts.idle.mp ?_
  cases state : inner.state with
  | unselected | ready => rfl
  | waitForExecution | operate =>
    simp only [Accounts, state] at accounts
    rw [accounts.1] at member
    cases member

theorem ObjectStep.accounts (step : ObjectStep before events after) (accounts : Accounts known before.inner)
    (settles : ∀ event ∈ events, event.Settles known before.inner.state) :
    Accounts (endings.afterFrom known events) after.inner := by
  cases step with
  | quiet inner admitted later silent =>
    rw [endings_notifications silent, inner]
    exact accounts
  | armed ready | ownerLost executing => exact accounts
  | started waiting =>
    simp only [Accounts, waiting] at accounts
    exact accounts
  | selected unselected | selectedWithValue unselected =>
    simp only [Accounts, unselected] at accounts
    exact ⟨accounts, nofun⟩
  | admittedDirect unselected direct =>
    simp only [Accounts, unselected] at accounts
    exact ⟨rfl, before.admitted, by simp [Monitor.afterFrom, endings, accounts]⟩
  | admittedSelected ready inForce consistent sbo =>
    simp only [Accounts, ready] at accounts
    exact ⟨rfl, before.admitted, by simp [Monitor.afterFrom, endings, accounts.1]⟩
  | deselected ready | canceled ready =>
    simp only [Accounts, ready] at accounts
    exact accounts.1
  | @aborted command connId reason =>
    have none : known.executing.erase (command, connId) = [] := by
      rcases settles _ List.mem_cons_self with own | settled | unselected
      · exact accounts.erase (.inl own)
      · exact accounts.erase (.inr (accounts.executing_of_settled settled))
      · exact accounts.erase (.inr (accounts.idle.mp (by rw [unselected]; rfl)))
    simp only [aborting]
    split
    · exact none
    · exact none
  | @finished command connId =>
    have settled := settles _ List.mem_cons_self
    have none := accounts.erase settled
    by_cases idle : known.executing = []
    · -- nothing is executing, and the step does nothing
      have same : endings.afterFrom known [.ended command connId .finish before.now] = known := by
        cases known
        simp_all [Monitor.afterFrom, endings]
      simp only [finishing, accounts.idle.mpr idle, Bool.not_false, if_true, same]
      exact accounts
    have own := settled.resolve_right idle
    have executing : before.inner.state.isExecuting = true := by
      rw [← Bool.not_eq_false, accounts.idle]
      exact idle
    have busy : before.inner.state ≠ .unselected := by
      intro unselected
      rw [unselected] at executing
      cases executing
    simp only [finishing, executing, Bool.not_true, Bool.false_eq_true, if_false]
    split
    · exact none
    split
    · refine ⟨none, fun other holder member => ?_⟩
      simp only [Monitor.afterFrom, List.foldl_cons, List.foldl_nil, endings, if_pos own] at member
      rcases List.mem_cons.mp member with same | earlier
      · cases same
        exact (accounts.owner busy (.inl own)).symm
      · exact (accounts.owner busy (.inr earlier)).symm
    · exact none

theorem ObjectStep.leavesOthersAlone (step : ObjectStep before events after) (accounts : Accounts known before.inner)
    (settles : ∀ event ∈ events, event.Settles known before.inner.state) {how : EndStep} {now : Instant}
    (ended : .ended command connId how now ∈ events) : LeavesOthersAlone connId before.inner after.inner := by
  intro busy foreign
  have own := settles _ ended
  cases how with
  | abort =>
    -- whoever holds the object when a command is aborted is the command's own connection
    rcases own with executing | settled | unselected
    · exact absurd (accounts.owner busy (.inl executing)) foreign
    · exact absurd (accounts.owner busy (.inr settled)) foreign
    · exact absurd unselected busy
  | finish =>
    rcases own with executing | none
    · exact absurd (accounts.owner busy (.inl executing)) foreign
    · rw [step.of_finished ended, finishing_of_not_executing (accounts.idle.mpr none)]
      exact ⟨rfl, rfl, rfl⟩

end

section Runs

variable {ι : Type} [DecidableEq ι]

def Settling (config : Config ι ControlObject Event) (thread : ι) : Prop :=
  ∀ event ∈ config.nextEvents thread, event.Settles (endings.after config.trace) config.state.inner.state

instance (config : Config ι ControlObject Event) (thread : ι) : Decidable (Settling config thread) :=
  inferInstanceAs (Decidable (∀ event ∈ config.nextEvents thread, _))

structure Accounted (config : Config ι ControlObject Event) : Prop where
  respects : ∀ thread, (config.threads thread).Respects ObjectStep
  accounts : Accounts (endings.after config.trace) config.state.inner

theorem Accounted.advance (config next : Config ι ControlObject Event) (thread : ι) (accounted : Accounted config)
    (settling : Settling config thread) (advanced : config.advance thread = some next) : Accounted next := by
  obtain ⟨step, respects⟩ := Config.advance_respects accounted.respects advanced
  refine ⟨respects, ?_⟩
  rw [Config.advance_trace advanced, Monitor.after_append]
  exact step.accounts accounted.accounts settling

/-- In every run in which no command is aborted again after a Select or an Operate has been
accepted, nor finished again while another is executing, every end step, the first of a command or a
further one, leaves what other connections hold alone. -/
theorem endSteps_leave_others_alone (live : ControlSettings) (programs : ι → Program)
    (config next : Config ι ControlObject Event) (reached : Config.Reaches Settling (start live programs) config)
    (thread : ι) (settling : Settling config thread) (advanced : config.advance thread = some next) (command : Nat)
    (connId : ConnectionId) (how : EndStep) (now : Instant)
    (ended : .ended command connId how now ∈ config.nextEvents thread) :
    LeavesOthersAlone connId config.state.inner next.state.inner := by
  have accounted := reached.invariant Accounted
    ⟨fun other => code_respects (programs other), rfl⟩ Accounted.advance
  obtain ⟨step, _⟩ := Config.advance_respects accounted.respects advanced
  exact step.leavesOthersAlone accounted.accounts settling ended

end Runs

/-- Connection 1 selects and operates, and its task is dropped after the command has finished;
connection 2 selects in between. -/
def droppedAfterFinish : Fin 3 → Program
  | 0 => .readSbo true 1 none
  | 1 => .operate allPass 1 (sampleParams (.boolean true)) (some (.unchecked (.handlerFinished (.dropped true))))
  | 2 => .readSbo true 2 none

/-- The drop is about to finish the command again, while connection 2 holds the object. -/
def finishedOnce : Config (Fin 3) ControlObject Event :=
  ((start (sampleSettings .sboNormal) droppedAfterFinish).scheduleWithin Settling
    ([0, 0, 0, 0, 0, 1, 1, 1, 1, 1, 1, 2, 2, 2].map runner)).get (by decide +kernel)

def finishedTwice : Config (Fin 3) ControlObject Event :=
  (finishedOnce.advance (runner 1)).get (by decide +kernel)

theorem repeated_finish_leaves_others_alone : finishedOnce.state.inner.ownerConnId = 2 ∧
      LeavesOthersAlone 1 finishedOnce.state.inner finishedTwice.state.inner := by
  have reached : Config.Reaches Settling (start (sampleSettings .sboNormal) droppedAfterFinish) finishedOnce :=
    Config.reaches_of_scheduleWithin .refl (Option.some_get _).symm
  have advanced : finishedOnce.advance 1 = some finishedTwice := (Option.some_get _).symm
  have ended : .ended 0 1 .finish 0 ∈ finishedOnce.nextEvents 1 := List.mem_cons_self
  exact ⟨by decide +kernel,
    endSteps_leave_others_alone _ _ _ _ reached 1 (by decide +kernel) advanced 0 1 .finish 0 ended⟩

/-- Connection 1 selects and operates, its dynamic check refuses, and the task that carries the
command is dropped after the object has been cleared; connection 2 selects in between. -/
def droppedAfterRefusal : Fin 3 → Program
  | 0 => .readSbo true 1 none
  | 1 => .operate allPass 1 (sampleParams (.boolean true)) (some (.refused (.dropped true)))
  | 2 => .readSbo true 2 none

def otherSelected : Config (Fin 3) ControlObject Event :=
  ((start (sampleSettings .sboNormal) droppedAfterRefusal).schedule
    ([0, 0, 0, 0, 0, 1, 1, 1, 1, 1, 2, 2, 2, 2, 2].map runner)).get (by decide +kernel)

def otherDeselected : Config (Fin 3) ControlObject Event :=
  (otherSelected.advance (runner 1)).get (by decide +kernel)

def otherExecuting : Config (Fin 3) ControlObject Event :=
  ((start (sampleSettings .directNormal) refusedTwice).schedule
    ([0, 0, 0, 0, 1, 1].map runner)).get (by decide +kernel)

def otherStopped : Config (Fin 3) ControlObject Event :=
  (otherExecuting.advance (runner 0)).get (by decide +kernel)

/-- The second end step of a command of connection 1 clears the selection, and ends the execution,
of connection 2. -/
theorem second_end_step_ends_what_others_hold :
    otherSelected.state.inner.state = .ready ∧ otherSelected.state.inner.ownerConnId = 2 ∧
      otherDeselected.state.inner.state = .unselected ∧ otherDeselected.state.inner.ownerConnId = 0 ∧
      otherExecuting.state.inner.state = .waitForExecution ∧ otherExecuting.state.inner.ownerConnId = 2 ∧
      otherStopped.state.inner.state = .unselected ∧ otherStopped.state.inner.ownerConnId = 0 := by
  decide +kernel

end Iec61850.Control
