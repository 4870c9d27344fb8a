import Iec61850.Concurrency.Sections
import Iec61850.Control.Command

/-!
What one critical section of the control services can do to the object, said once for all of them,
and what the thread that made it then owes the handler: a section that starts or ends a selection is
followed by its notification.
-/

namespace Iec61850.Control

open Concurrency
open Proc (Respects Follows)

def Event.IsNotification : Event → Prop
  | .notified _ => True
  | .selected _ _ _ _ => False
  | .admitted _ _ _ _ _ _ => False
  | .canceled _ => False
  | .deselected _ => False
  | .ended _ _ _ _ => False

inductive ObjectStep (before : ControlObject) : List Event → ControlObject → Prop
  | quiet {after : ControlObject} {events : List Event} (inner : after.inner = before.inner)
      (admitted : after.admitted = before.admitted) (later : before.now ≤ after.now)
      (silent : ∀ event ∈ events, event.IsNotification) : ObjectStep before events after
  | armed {period : UInt64} (ready : before.inner.state = .ready) :
      ObjectStep before [] { before with inner := { before.inner with timer := some period } }
  | ownerLost (executing : before.inner.state.isExecuting = true) :
      ObjectStep before [] { before with inner := { before.inner with ownerLost := true } }
  | started (waiting : before.inner.state = .waitForExecution) :
      ObjectStep before [] { before with inner := { before.inner with state := .operate } }
  | selected {connId : ConnectionId} (unselected : before.inner.state = .unselected) :
      ObjectStep before [.selected connId before.live none before.now]
        { before with inner := before.inner.enterReady connId before.live before.now }
  | selectedWithValue {connId : ConnectionId} {params : OperParams} (unselected : before.inner.state = .unselected) :
      ObjectStep before [.selected connId before.live (some params) before.now]
        { before with
          inner := { before.inner.enterReady connId before.live before.now with lastOperParams := some params } }
  | admittedDirect {connId : ConnectionId} {params : OperParams} {checked : Instant}
      (unselected : before.inner.state = .unselected) (direct : before.live.isSbo = false) :
      ObjectStep before [.admitted before.admitted connId params before.live checked before.now]
        { before with
          inner := { before.inner with
            state := .waitForExecution, ownerConnId := connId, active := some before.live
            lastOperParams := some params }
          admitted := before.admitted + 1 }
  | admittedSelected {params : OperParams} {active : ControlSettings} {checked : Instant}
      (ready : before.inner.state = .ready) (inForce : before.inner.settingsLocked before.live = active)
      (consistent : active.ctlModel = .sboEnhanced →
        ∃ sbow, before.inner.lastOperParams = some sbow ∧ paramsConsistent params sbow = true)
      (sbo : active.isSbo = true) :
      ObjectStep before [.admitted before.admitted before.inner.ownerConnId params active checked before.now]
        { before with
          inner := { before.inner with timer := none, state := .waitForExecution, lastOperParams := some params }
          admitted := before.admitted + 1 }
  | deselected {reason : SelectStateChangedReason} (ready : before.inner.state = .ready) :
      ObjectStep before [.deselected reason] { before with inner := before.inner.clear }
  | canceled (ready : before.inner.state = .ready) :
      ObjectStep before [.canceled before.inner.ownerConnId] { before with inner := before.inner.clear }
  | aborted {command : Nat} {connId : ConnectionId} (reason : SelectStateChangedReason) :
      ObjectStep before (.ended command connId .abort before.now :: (aborting before reason).2.2)
        { before with inner := (aborting before reason).2.1 }
  | finished {command : Nat} {connId : ConnectionId} :
      ObjectStep before (.ended command connId .finish before.now :: (finishing before).2.2)
        { before with inner := (finishing before).2.1 }

def Event.change? : Event → Option Bool
  | .selected _ _ _ _ => some true
  | .canceled _ => some false
  | .deselected _ => some false
  | .admitted _ _ _ _ _ _ => none
  | .ended _ _ _ _ => none
  | .notified _ => none

def Event.notification? : Event → Option Bool
  | .notified change => some change.isSelected
  | .selected _ _ _ _ => none
  | .canceled _ => none
  | .deselected _ => none
  | .admitted _ _ _ _ _ _ => none
  | .ended _ _ _ _ => none

def Event.isAdmission : Event → Bool
  | .admitted _ _ _ _ _ _ => true
  | .selected _ _ _ _ => false
  | .canceled _ => false
  | .deselected _ => false
  | .ended _ _ _ _ => false
  | .notified _ => false

variable (program : Program) (events : List Event) (owner : ConnectionId) (reason : SelectStateChangedReason)
  (accepted : AcceptedOperate) (object : ControlObject) (handlers : Handlers) (runtime : Bool) (period : UInt64)
  (command : Nat) (connId : ConnectionId) (params : OperParams) (check : Option ControlAddCause)

def changes : List Bool := events.filterMap Event.change?

def notifications : List Bool := events.filterMap Event.notification?

def ControlObject.Sbo : Prop :=
  object.live.isSbo = true ∧ ∀ active, object.inner.active = some active → active.isSbo = true

theorem ControlObject.Sbo.settingsLocked {object : ControlObject} (sbo : object.Sbo) :
    (object.inner.settingsLocked object.live).isSbo = true := by
  unfold ControlObjectInner.settingsLocked
  cases found : object.inner.active with
  | none => exact sbo.1
  | some active =>
    dsimp only
    split
    · exact sbo.2 active found
    · exact sbo.1

/-- A section that delivers the notification the thread owes, and leaves it to owe one for the
change it makes. Of a thread that is `idle` it admits no command. -/
structure Move (idle : Prop) (owed : Option Bool) (before : ControlObject) (events : List Event)
    (after : ControlObject) (owes : Option Bool) : Prop where
  step : ObjectStep before events after
  admits : idle → events.any Event.isAdmission = false
  sbo : before.live.isSbo = true → after.live.isSbo = true
  notified : notifications events = owed.toList
  changed : before.Sbo → changes events = owes.toList

abbrev Reports {α : Type} (idle : Prop) (program : ControlM α) : Prop := program.Follows (Move idle) none none

variable {idle : Prop}

theorem ObjectStep.same : ObjectStep object [] object :=
  .quiet rfl rfl (Nat.le_refl _) nofun

theorem Move.same : Move idle none object [] object none :=
  ⟨.same object, fun _ => rfl, id, rfl, fun _ => rfl⟩

theorem reports_locked {α β : Type} {body : ControlObject → Locked α} {continuation : α → ControlM β}
    (section_ : ∀ object, ∃ owes, Move idle none object (body object).2.2
      { object with inner := (body object).2.1 } owes ∧
      (continuation (body object).1).Follows (Move idle) none owes) :
    Reports idle (locked body >>= continuation) :=
  section_

theorem reports_read {α : Type} (read : ControlObject → α) :
    Reports idle (locked fun object => (read object, object.inner, [])) :=
  fun object => ⟨none, .same object, rfl⟩

theorem notify_follows {change : SelectionChange} {flag : Bool} (owed : change.isSelected = flag) :
    (notify change).Follows (Move idle) none (some flag) := by
  subst owed
  intro object
  refine ⟨none, ⟨.quiet rfl rfl (Nat.le_refl _) fun event member => ?_, fun _ => rfl, id, rfl, fun _ => rfl⟩, rfl⟩
  rw [List.mem_singleton.mp member]
  trivial

theorem ended_follows {α : Type} (answer : α) :
    (notify (.ended owner reason) >>= fun _ => pure answer).Follows (Move idle) none (some false) := by
  have told : (notify (.ended owner reason)).Follows (Move idle) none (some false) := notify_follows rfl
  exact told.bind fun _ => .pure answer

theorem expireSelection_reports : Reports idle (expireSelection period) := by
  apply reports_locked
  intro object
  unfold expiring
  split
  · exact ⟨none, .same object, .pure _⟩
  · next expired =>
    rw [not_or, not_not] at expired
    exact ⟨some false, ⟨.deselected expired.1, fun _ => rfl, id, rfl, fun _ => rfl⟩, notify_follows rfl⟩

theorem checkSboTimeout_reports : Reports idle checkSboTimeout := by
  apply (reports_read _).bind
  rintro ⟨now, elapsed⟩
  cases elapsed with
  | none => exact .pure _
  | some period => exact (expireSelection_reports period).bind fun _ => .pure _

theorem armSelectTimer_reports (timeoutMs : UInt32) : Reports idle (armSelectTimer runtime period timeoutMs) := by
  apply Follows.ite (.pure _)
  intro object
  refine ⟨none, ?_, rfl⟩
  dsimp only
  split
  · exact .same object
  · next alive =>
    rw [not_or, not_not] at alive
    exact ⟨.armed alive.1, fun _ => rfl, id, rfl, fun _ => rfl⟩

theorem reportSelected_follows {runtime : Bool} {entered : UInt64 × ControlSettings} {change : SelectionChange}
    (selected : change.isSelected = true) :
    (reportSelected runtime entered change).Follows (Move idle) none (some true) :=
  (notify_follows selected).bind fun _ => armSelectTimer_reports runtime _ _

theorem trySelect_reports : Reports idle (trySelect runtime connId) := by
  apply reports_locked
  intro object
  unfold selecting
  cases state : object.inner.state with
  | unselected =>
    exact ⟨some true, ⟨.selected state, fun _ => rfl, id, rfl, fun _ => rfl⟩,
      (reportSelected_follows rfl).bind fun _ => .pure _⟩
  | ready | waitForExecution | operate => exact ⟨none, .same object, .pure _⟩

theorem sbowSelect_reports : Reports idle (sbowSelect runtime connId params) := by
  apply reports_locked
  intro object
  unfold sbowSelecting
  cases state : object.inner.state with
  | unselected =>
    dsimp only
    split
    · exact ⟨none, .same object, .pure _⟩
    · exact ⟨some true, ⟨.selectedWithValue state, fun _ => rfl, id, rfl, fun _ => rfl⟩,
        (reportSelected_follows rfl).bind fun _ => .pure _⟩
  | ready | waitForExecution | operate => exact ⟨none, .same object, .pure _⟩

theorem settingsLocked_of_unselected {inner : ControlObjectInner} (unselected : inner.state = .unselected)
    (live : ControlSettings) : inner.settingsLocked live = live := by
  unfold ControlObjectInner.settingsLocked
  cases inner.active with
  | none => rfl
  | some active => exact if_neg (not_not_intro unselected)

theorem beginOperate_reports (busy : ¬ idle) (checked : Instant) :
    Reports idle (beginOperate connId params checked) := by
  intro object
  dsimp only
  simp only [admission]
  split
  · exact ⟨none, .same object, .pure _⟩
  split
  · exact ⟨none, .same object, .pure _⟩
  split
  · next direct =>
    split
    · exact ⟨none, .same object, .pure _⟩
    next idle =>
    have unselected : object.inner.state = .unselected := not_not.mp idle
    have live := settingsLocked_of_unselected unselected object.live
    rw [live] at direct ⊢
    exact ⟨none, ⟨.admittedDirect unselected (by simpa using direct), fun rest => absurd rest busy, id, rfl,
      fun _ => rfl⟩, .pure _⟩
  · next sbo =>
    split
    · exact ⟨none, .same object, .pure _⟩
    next selected =>
    have ready : object.inner.state = .ready := not_not.mp selected
    split
    · exact ⟨none, .same object, .pure _⟩
    next owned =>
    split
    · exact ⟨some false, ⟨.deselected ready, fun _ => rfl, id, rfl, fun _ => rfl⟩, ended_follows _ .operateRefused _⟩
    next consistent =>
    have owner : object.inner.ownerConnId = connId := not_not.mp owned
    rw [← owner]
    refine ⟨none, ⟨.admittedSelected ready rfl ?_ (by simpa using sbo), fun rest => absurd rest busy, id, rfl,
      fun _ => rfl⟩, .pure _⟩
    intro enhanced
    have agrees : object.inner.lastOperParams.any (paramsConsistent params) = true := by
      simpa [enhanced] using consistent
    cases last : object.inner.lastOperParams with
    | none =>
      rw [last] at agrees
      cases agrees
    | some sbow =>
      rw [last] at agrees
      exact ⟨sbow, rfl, agrees⟩

theorem finishOperate_reports : Reports idle (finishOperate runtime command connId) := by
  apply reports_locked
  intro object
  have step := @ObjectStep.finished object command connId
  revert step
  simp only [finishing]
  split
  · exact fun step => ⟨none, ⟨step, fun _ => rfl, id, rfl, fun _ => rfl⟩, .pure _⟩
  split
  · next direct =>
    refine fun step => ⟨none, ⟨step, fun _ => rfl, id, rfl, fun sbo => ?_⟩, .pure _⟩
    simp [sbo.settingsLocked] at direct
  split
  · exact fun step => ⟨none, ⟨step, fun _ => rfl, id, rfl, fun _ => rfl⟩, armSelectTimer_reports runtime _ _⟩
  · exact fun step => ⟨some false, ⟨step, fun _ => rfl, id, rfl, fun _ => rfl⟩, notify_follows rfl⟩

theorem abort_reports : Reports idle (abort reason command connId) := by
  apply reports_locked
  intro object
  have step := @ObjectStep.aborted object command connId reason
  revert step
  simp only [aborting]
  by_cases unselected : object.inner.state = .unselected
  · simp only [unselected, ne_eq, not_true_eq_false, false_and, if_false]
    exact fun step => ⟨none, ⟨step, fun _ => rfl, id, rfl, fun _ => rfl⟩, .pure _⟩
  simp only [unselected, ne_eq, not_false_eq_true, true_and, if_true]
  cases inForce : (object.inner.settingsLocked object.live).isSbo with
  | true => exact fun step => ⟨some false, ⟨step, fun _ => rfl, id, rfl, fun _ => rfl⟩, notify_follows rfl⟩
  | false =>
    refine fun step => ⟨none, ⟨step, fun _ => rfl, id, rfl, fun sbo => ?_⟩, .pure _⟩
    rw [sbo.settingsLocked] at inForce
    cases inForce

theorem setStateOperate_reports : Reports idle setStateOperate := by
  intro object
  refine ⟨none, ?_, rfl⟩
  dsimp only
  split
  · next waiting => exact ⟨.started waiting, fun _ => rfl, id, rfl, fun _ => rfl⟩
  · exact .same object

theorem tryCancel_reports : Reports idle (tryCancel connId) := by
  apply reports_locked
  intro object
  simp only [canceling]
  split
  · exact ⟨none, .same object, .pure _⟩
  split
  · next ready =>
    split
    · exact ⟨none, .same object, .pure _⟩
    next owned =>
    have owner : object.inner.ownerConnId = connId := not_not.mp owned
    rw [← owner]
    exact ⟨some false, ⟨.canceled ready, fun _ => rfl, id, rfl, fun _ => rfl⟩, ended_follows _ .canceled _⟩
  split
  · exact ⟨none, .same object, .pure _⟩
  · exact ⟨none, .same object, .pure _⟩

theorem onConnectionClosed_reports : Reports idle (onConnectionClosed connId) := by
  apply reports_locked
  intro object
  have lost (executing : object.inner.state.isExecuting = true) :
      Move idle none object [] { object with inner := { object.inner with ownerLost := true } } none :=
    ⟨.ownerLost executing, fun _ => rfl, id, rfl, fun _ => rfl⟩
  simp only [closing]
  split
  · exact ⟨none, .same object, .pure _⟩
  split
  · next ready => exact ⟨some false, ⟨.deselected ready, fun _ => rfl, id, rfl, fun _ => rfl⟩, notify_follows rfl⟩
  · next waiting => exact ⟨none, lost (by rw [waiting]; rfl), .pure _⟩
  · next operating => exact ⟨none, lost (by rw [operating]; rfl), .pure _⟩
  · exact ⟨none, .same object, .pure _⟩

theorem endCommand_reports {change again : ControlM Unit} (first : Reports idle change)
    (second : Reports idle again) (fate : Fate) : Reports idle (endCommand change again fate) := by
  cases fate with
  | returned => exact (first.bind fun _ => .pure true).bind fun _ => .ite (.pure _) second
  | dropped made =>
    cases made with
    | true => exact (first.bind fun _ => .pure false).bind fun _ => .ite (.pure _) second
    | false => exact (Follows.pure false).bind fun _ => .ite (.pure _) second

theorem run_reports (execution : Execution) : Reports idle (accepted.run true execution) := by
  have finish : Reports idle _ := finishOperate_reports true accepted.command accepted.connId
  cases execution with
  | notStarted => exact finish
  | handlerUnfinished => exact setStateOperate_reports.bind fun _ => finish
  | handlerFinished fate => exact setStateOperate_reports.bind fun _ => endCommand_reports finish finish fate

theorem task_reports (course : Course) : Reports idle (accepted.task course) := by
  have drop : Reports idle _ := abort_reports .operateRefused accepted.command accepted.connId
  cases course with
  | unchecked execution => exact run_reports accepted execution
  | unfinished => exact drop
  | refused fate => exact endCommand_reports drop drop fate
  | abandoned fate => exact endCommand_reports (abort_reports .disconnected _ _) drop fate
  | released execution => exact run_reports accepted execution

theorem admitOperate_reports (busy : ¬ idle) : Reports idle (admitOperate handlers connId params) := by
  apply checkSboTimeout_reports.bind
  intro checked
  apply Follows.ite (.pure _)
  apply Follows.ite (.pure _)
  apply (beginOperate_reports connId params busy checked).bind
  intro admitted
  cases admitted with
  | error cause => exact .pure _
  | ok command =>
    cases handlers.check with
    | some cause => exact (abort_reports _ _ _).bind fun _ => .pure _
    | none => exact (reports_read _).bind fun _ => .pure _

theorem operate_reports (busy : ¬ idle) (course : Option Course) :
    Reports idle (operate handlers connId params course) := by
  apply (admitOperate_reports handlers connId params busy).bind
  intro admitted
  cases admitted with
  | error refusal => exact .pure _
  | ok accepted =>
    cases course with
    | none => exact (abort_reports _ _ _).bind fun _ => abort_reports _ _ _
    | some course => exact task_reports accepted course

theorem handleReadSbo_reports : Reports idle (handleReadSbo runtime connId check) := by
  apply checkSboTimeout_reports.bind
  intro _
  apply (reports_read _).bind
  intro inForce
  apply Follows.ite (.pure _)
  apply Follows.ite (.pure _)
  cases check with
  | some cause => exact .pure _
  | none => exact trySelect_reports runtime connId

theorem selectWithValue_reports : Reports idle (selectWithValue runtime connId params check) := by
  apply checkSboTimeout_reports.bind
  intro _
  apply (reports_read _).bind
  intro inForce
  apply Follows.ite (.pure _)
  apply Follows.ite (.pure _)
  cases check with
  | some cause => exact .pure _
  | none => exact (sbowSelect_reports runtime connId params).bind fun _ => .pure _

def Program.KeepsSbo : Program → Prop
  | .configure live => live.isSbo = true
  | _ => True

def Program.IsOperate : Program → Prop
  | .operate _ _ _ _ => True
  | _ => False

theorem code_reports (keeps : program.KeepsSbo) (other : idle → ¬ program.IsOperate) : Reports idle program.code := by
  cases program with
  | readSbo runtime connId check => exact (handleReadSbo_reports runtime connId check).bind fun _ => .pure _
  | selectWithValue runtime connId params check =>
    exact (selectWithValue_reports runtime connId params check).bind fun _ => .pure _
  | operate handlers connId params course =>
    exact operate_reports handlers connId params (fun rest => other rest trivial) course
  | cancel connId =>
    apply Follows.bind _ fun _ => .pure _
    apply (tryCancel_reports connId).bind
    intro result
    split
    · exact .pure _
    · exact .pure _
    · exact .pure _
  | selectTimer period => exact expireSelection_reports period
  | connectionClosed connId => exact onConnectionClosed_reports connId
  | clock now =>
    exact fun object => ⟨none, ⟨.quiet rfl rfl (Nat.le_max_left _ _) nofun, fun _ => rfl, id, rfl, fun _ => rfl⟩, rfl⟩
  | configure live =>
    exact fun object =>
      ⟨none, ⟨.quiet rfl rfl (Nat.le_refl _) nofun, fun _ => rfl, fun _ => keeps, rfl, fun _ => rfl⟩, rfl⟩

theorem code_respects : program.code.Respects ObjectStep := by
  by_cases keeps : program.KeepsSbo
  · exact (code_reports program keeps False.elim).respects fun _ _ _ _ _ move => move.step
  · cases program with
    | configure live => exact Respects.atomically fun object => .quiet rfl rfl (Nat.le_refl _) nofun
    | _ => exact absurd trivial keeps

end Iec61850.Control
