import Iec61850.Control.Object

/-!
The requests of the control services as programs over the object, and the course of an Operate that
was admitted. What the handlers of the application answer, whether a runtime is there, and where the
task that carries the command is dropped are parameters of a program.
-/

namespace Iec61850.Control

variable (change again : ControlM Unit) (handlers : Handlers) (runtime : Bool) (accepted : AcceptedOperate)
  (connId : ConnectionId) (params : OperParams) (check : Option ControlAddCause)

/-- The select of normal security, a read of `SBO`. `check` is the refusal of the check handler. -/
def handleReadSbo : ControlM Bool := do
  let _ ← checkSboTimeout
  let inForce ← settings
  if inForce.ctlModel = .statusOnly then
    return false
  else if inForce.ctlModel ≠ .sboNormal then
    return false
  else
    match check with
    | some _ => return false
    | none => trySelect runtime connId

def selectWithValue : ControlM (Except Refusal Unit) := do
  let _ ← checkSboTimeout
  let inForce ← settings
  if inForce.ctlModel ≠ .sboEnhanced then
    return .error (.byCheck .unknown)
  else if !params.origin.isValid then
    return .error (.byCheck .inconsistentParameters)
  else
    match check with
    | some cause => return .error (.byCheck cause)
    | none =>
      let selected ← sbowSelect runtime connId params
      return selected.mapError .byCheck

def cancel : ControlM (Except Refusal Unit) := do
  match ← tryCancel connId with
  | .accepted => return .ok ()
  | .denied .unknown => return .error .internalFailure
  | .denied cause => return .error (.byCheck cause)

structure AcceptedOperate where
  command : Nat
  connId : ConnectionId
  settings : ControlSettings
  params : OperParams

structure Handlers where
  operateHandler : Bool
  check : Option ControlAddCause

def admitOperate : ControlM (Except Refusal AcceptedOperate) := do
  let checked ← checkSboTimeout
  if !handlers.operateHandler then
    return .error (.byCheck .notSupported)
  else if params.operTmMs ≠ 0 then
    return .error (.byCheck .notSupported)
  else
    match ← beginOperate connId params checked with
    | .error cause => return .error (.byCheck cause)
    | .ok command =>
      match handlers.check with
      | some cause =>
        abortToUnselected command connId
        return .error (.byCheck cause)
      | none =>
        let inForce ← settings
        return .ok { command, connId, settings := inForce, params }

/-- How the wait for a change that is made off the runtime ends: it returns, or the task is dropped
meanwhile, with the change made (before or after the drop) or never started. -/
inductive Fate where
  | returned
  | dropped (made : Bool)
  deriving DecidableEq, Repr

/-- Returns whether the task goes on. -/
def changeOffTheRuntime (change : ControlM Unit) : Fate → ControlM Bool
  | .returned => do
      change
      return true
  | .dropped true => do
      change
      return false
  | .dropped false => return false

def AcceptedOperate.dropAdmitted : ControlM Unit :=
  abortToUnselected accepted.command accepted.connId

def AcceptedOperate.dropAnswered : ControlM Unit :=
  finishOperate runtime accepted.command accepted.connId

/-- The command is taken off the object by `change`; a task dropped before it has recorded that does
it again. -/
def endCommand (fate : Fate) : ControlM Unit := do
  if ← changeOffTheRuntime change fate then return () else again

/-- How an answered command goes: its task is dropped before it starts, the control handler panics
or is dropped, or it finishes. -/
inductive Execution where
  | notStarted
  | handlerUnfinished
  | handlerFinished (fate : Fate)

def AcceptedOperate.run (runtime : Bool) (accepted : AcceptedOperate) : Execution → ControlM Unit
  | .notStarted => accepted.dropAnswered runtime
  | .handlerUnfinished => do
      setStateOperate
      accepted.dropAnswered runtime
  | .handlerFinished fate => do
      setStateOperate
      endCommand (finishOperate runtime accepted.command accepted.connId) (accepted.dropAnswered runtime) fate

inductive Course where
  | unchecked (execution : Execution)
  | unfinished
  | refused (fate : Fate)
  /-- The association closed before its positive response was sent. -/
  | abandoned (fate : Fate)
  | released (execution : Execution)

def AcceptedOperate.task (accepted : AcceptedOperate) : Course → ControlM Unit
  | .unchecked execution => accepted.run true execution
  | .unfinished => accepted.dropAdmitted
  | .refused fate =>
    endCommand (abortToUnselected accepted.command accepted.connId) accepted.dropAdmitted fate
  | .abandoned fate =>
    endCommand (abort .disconnected accepted.command accepted.connId) accepted.dropAdmitted fate
  | .released execution => accepted.run true execution

/-- A write of `Oper`. `course` is `none` where no runtime is there to carry the command: the
Operate is refused and the accepted command dropped. -/
def operate (course : Option Course) : ControlM Unit := do
  match ← admitOperate handlers connId params with
  | .error _ => return ()
  | .ok accepted =>
    match course with
    | none =>
      abortToUnselected accepted.command connId
      accepted.dropAdmitted
    | some course => accepted.task course

/-- Everything that happens to the object: the requests of any connection, the select timers, the
loss of a connection, the passing of time and a write of the configuration attributes. -/
inductive Program where
  | readSbo (runtime : Bool) (connId : ConnectionId) (check : Option ControlAddCause)
  | selectWithValue (runtime : Bool) (connId : ConnectionId) (params : OperParams) (check : Option ControlAddCause)
  | operate (handlers : Handlers) (connId : ConnectionId) (params : OperParams) (course : Option Course)
  | cancel (connId : ConnectionId)
  /-- A timer may be late and may outlive the period it was started for. -/
  | selectTimer (period : UInt64)
  | connectionClosed (connId : ConnectionId)
  | clock (now : Instant)
  | configure (live : ControlSettings)

def Program.code : Program → ControlM Unit
  | .readSbo runtime connId check => do
      let _ ← handleReadSbo runtime connId check
  | .selectWithValue runtime connId params check => do
      let _ ← Control.selectWithValue runtime connId params check
  | .operate handlers connId params course => Control.operate handlers connId params course
  | .cancel connId => do
      let _ ← Control.cancel connId
  | .selectTimer period => expireSelection period
  | .connectionClosed connId => onConnectionClosed connId
  | .clock now => .atomically fun object => { result := (), state := { object with now := max object.now now } }
  | .configure live => .atomically fun object => { result := (), state := { object with live } }

end Iec61850.Control
