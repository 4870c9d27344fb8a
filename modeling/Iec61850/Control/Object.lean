import Iec61850.Concurrency.Proc
import Iec61850.Control.Model

/-!
One control object: the record behind its lock, the critical sections of its methods, and the
notifications they send once the lock is released.
-/

namespace Iec61850.Control

open Concurrency

inductive ControlState where
  | unselected
  | ready
  | waitForExecution
  | operate
  deriving DecidableEq, Repr

def ControlState.isExecuting : ControlState → Bool
  | .waitForExecution | .operate => true
  | .unselected | .ready => false

inductive SelectStateChangedReason where
  | selected
  | canceled
  | timeout
  | disconnected
  | operateDone
  | operateRefused
  deriving DecidableEq, Repr

structure ControlObjectInner where
  state : ControlState
  lastOperParams : Option OperParams
  ownerConnId : ConnectionId
  active : Option ControlSettings
  selectTime : Option Instant
  readyPeriod : UInt64
  ownerLost : Bool
  timer : Option UInt64

namespace ControlObjectInner

def new : ControlObjectInner where
  state := .unselected
  lastOperParams := none
  ownerConnId := 0
  active := none
  selectTime := none
  readyPeriod := 0
  ownerLost := false
  timer := none

variable (inner : ControlObjectInner)

/-- The ready state for `connId`; `readyPeriod` of the result is the new period. -/
def enterReady (connId : ConnectionId) (settings : ControlSettings) (now : Instant) : ControlObjectInner :=
  { inner with
    timer := none
    state := .ready
    ownerConnId := connId
    active := some settings
    selectTime := some now
    readyPeriod := inner.readyPeriod + 1 }

def clear : ControlObjectInner :=
  { inner with
    timer := none
    state := .unselected
    ownerConnId := 0
    active := none
    selectTime := none
    lastOperParams := none
    ownerLost := false }

/-- The settings in force, `live` being those the configuration attributes hold. -/
def settingsLocked (live : ControlSettings) : ControlSettings :=
  match inner.active with
  | some active => if inner.state ≠ .unselected then active else live
  | none => live

def elapsedPeriod (now : Instant) : Option UInt64 :=
  match inner.state, inner.selectTime, inner.active with
  | .ready, some start, some active =>
    if active.sboTimeoutMs ≠ 0 ∧ active.sboTimeoutMs.toNat ≤ now - start then some inner.readyPeriod else none
  | _, _, _ => none

end ControlObjectInner

structure SelectionChange where
  connId : ConnectionId
  isSelected : Bool
  reason : SelectStateChangedReason
  t : Vector UInt8 8
  origin : OriginValue
  ctlNum : UInt8
  deriving DecidableEq

variable (runtime : Bool) (entered : UInt64 × ControlSettings) (change : SelectionChange) (command : Nat)
  (object : ControlObject) (period : UInt64) (connId : ConnectionId) (params : OperParams)
  (reason : SelectStateChangedReason)

def SelectionChange.ended : SelectionChange where
  connId
  isSelected := false
  reason
  t := .replicate 8 0
  origin := .default
  ctlNum := 0

inductive EndStep where
  | abort
  | finish
  deriving DecidableEq, Repr

/-- What an observer of the object sees. A command is named by the number of Operates admitted
before it, and comes with the instant at which its request looked for an elapsed selection. -/
inductive Event where
  | selected (connId : ConnectionId) (settings : ControlSettings) (value : Option OperParams) (now : Instant)
  | admitted (command : Nat) (connId : ConnectionId) (params : OperParams) (settings : ControlSettings)
      (checked now : Instant)
  | canceled (connId : ConnectionId)
  | deselected (reason : SelectStateChangedReason)
  | ended (command : Nat) (connId : ConnectionId) (how : EndStep) (now : Instant)
  | notified (change : SelectionChange)

/-- The object with its surroundings: the settings its configuration attributes hold now, the clock,
and the number of Operates admitted so far. -/
structure ControlObject where
  inner : ControlObjectInner
  live : ControlSettings
  now : Instant
  admitted : Nat

def ControlObject.new (live : ControlSettings) : ControlObject where
  inner := .new
  live
  now := 0
  admitted := 0

abbrev ControlM := Proc ControlObject Event

abbrev Locked (α : Type) := α × ControlObjectInner × List Event

def locked {α : Type} (body : ControlObject → Locked α) : ControlM α :=
  .atomically fun object =>
    { result := (body object).1, state := { object with inner := (body object).2.1 }, events := (body object).2.2 }

def settings : ControlM ControlSettings :=
  locked fun object => (object.inner.settingsLocked object.live, object.inner, [])

def notify : ControlM Unit :=
  locked fun object => ((), object.inner, [.notified change])

def expiring : Locked (Option ConnectionId) :=
  if object.inner.state ≠ .ready ∨ object.inner.readyPeriod ≠ period then
    (none, object.inner, [])
  else
    (some object.inner.ownerConnId, object.inner.clear, [.deselected .timeout])

def expireSelection : ControlM Unit := do
  match ← locked (expiring · period) with
  | none => return ()
  | some owner => notify (.ended owner .timeout)

/-- The instant at which the clock was read is returned for the observer only. -/
def checkSboTimeout : ControlM Instant := do
  let (now, elapsed) ← locked fun object =>
    ((object.now, object.inner.elapsedPeriod object.now), object.inner, [])
  match elapsed with
  | none => return now
  | some period =>
    expireSelection period
    return now

/-- `runtime` says whether a runtime is there to carry the timer task. -/
def armSelectTimer (timeoutMs : UInt32) : ControlM Unit :=
  if timeoutMs = 0 ∨ !runtime then
    return ()
  else
    locked fun object =>
      if object.inner.state ≠ .ready ∨ object.inner.readyPeriod ≠ period then
        ((), object.inner, [])
      else
        ((), { object.inner with timer := some period }, [])

/-- Both selects enter the ready state, report it and start the timer. -/
def reportSelected : ControlM Unit := do
  notify change
  armSelectTimer runtime entered.1 entered.2.sboTimeoutMs

def selecting : Locked (Option (UInt64 × ControlSettings)) :=
  match object.inner.state with
  | .unselected =>
    let next := object.inner.enterReady connId object.live object.now
    (some (next.readyPeriod, object.live), next, [.selected connId object.live none object.now])
  | .ready | .waitForExecution | .operate => (none, object.inner, [])

def trySelect : ControlM Bool := do
  match ← locked (selecting · connId) with
  | none => return false
  | some entered =>
    reportSelected runtime entered
      { connId, isSelected := true, reason := .selected, t := .replicate 8 0, origin := .default, ctlNum := 0 }
    return true

def sbowSelecting : Locked (Except ControlAddCause (UInt64 × ControlSettings)) :=
  match object.inner.state with
  | .ready => (.error .objectAlreadySelected, object.inner, [])
  | .waitForExecution | .operate => (.error .commandAlreadyInExecution, object.inner, [])
  | .unselected =>
    if !params.origin.isValid then
      (.error .inconsistentParameters, object.inner, [])
    else
      let next := { object.inner.enterReady connId object.live object.now with lastOperParams := some params }
      (.ok (next.readyPeriod, object.live), next, [.selected connId object.live (some params) object.now])

def sbowSelect : ControlM (Except ControlAddCause Unit) := do
  match ← locked (sbowSelecting · connId params) with
  | .error cause => return .error cause
  | .ok entered =>
    reportSelected runtime entered
      { connId, isSelected := true, reason := .selected, t := params.t, origin := params.origin
        ctlNum := params.ctlNum }
    return .ok ()

inductive Admission where
  | accepted (command : Nat)
  | denied (cause : ControlAddCause)
  /-- Parameters that differ from those of the SelectWithValue end the selection `owner` held. -/
  | inconsistent (owner : ConnectionId)

def admission (checked : Instant) : Locked Admission :=
  let inner := object.inner
  let settings := inner.settingsLocked object.live
  if settings.ctlModel = .statusOnly then
    (.denied .notSupported, inner, [])
  else if !params.origin.isValid then
    (.denied .inconsistentParameters, inner, [])
  else if !settings.isSbo then
    if inner.state ≠ .unselected then
      (.denied .commandAlreadyInExecution, inner, [])
    else
      (.accepted object.admitted,
        { inner with
          state := .waitForExecution, ownerConnId := connId, active := some settings, lastOperParams := some params },
        [.admitted object.admitted connId params settings checked object.now])
  else if inner.state ≠ .ready then
    (.denied .objectNotSelected, inner, [])
  else if inner.ownerConnId ≠ connId then
    (.denied .lockedByOtherClient, inner, [])
  else if settings.ctlModel = .sboEnhanced ∧ !inner.lastOperParams.any (paramsConsistent params) then
    (.inconsistent inner.ownerConnId, inner.clear, [.deselected .operateRefused])
  else
    (.accepted object.admitted,
      { inner with timer := none, state := .waitForExecution, lastOperParams := some params },
      [.admitted object.admitted connId params settings checked object.now])

def beginOperate (checked : Instant) : ControlM (Except ControlAddCause Nat) := do
  let decided ← .atomically fun object =>
    let decided := admission object connId params checked
    { result := decided.1
      state := { object with
        inner := decided.2.1
        admitted := match decided.1 with
          | .accepted _ => object.admitted + 1
          | .denied _ | .inconsistent _ => object.admitted }
      events := decided.2.2 }
  match decided with
  | .accepted command => return .ok command
  | .denied cause => return .error cause
  | .inconsistent owner =>
    notify (.ended owner .operateRefused)
    return .error .inconsistentParameters

/-- The locked part of `finishOperate`: what is left of the object, and whether a new ready period
began or the end of the selection is to be reported. -/
inductive Finished where
  | nothing
  | readyAgain (period : UInt64) (timeoutMs : UInt32)
  | selectionOver (owner : ConnectionId) (reason : SelectStateChangedReason)

def finishing : Locked Finished :=
  let inner := object.inner
  let settings := inner.settingsLocked object.live
  if !inner.state.isExecuting then
    (.nothing, inner, [])
  else if !settings.isSbo then
    (.nothing, inner.clear, [.deselected .operateDone])
  else if settings.sboClass = .operateMany ∧ !inner.ownerLost then
    let next := inner.enterReady inner.ownerConnId settings object.now
    (.readyAgain next.readyPeriod settings.sboTimeoutMs, next, [])
  else
    let reason := if inner.ownerLost then .disconnected else .operateDone
    (.selectionOver inner.ownerConnId reason, inner.clear, [.deselected reason])

/-- `command` and `connId` only name the command that takes the step; the object is not told. -/
def finishOperate : ControlM Unit := do
  let finished ← locked fun object =>
    let finished := finishing object
    (finished.1, finished.2.1, .ended command connId .finish object.now :: finished.2.2)
  match finished with
  | .nothing => return ()
  | .readyAgain period timeoutMs => armSelectTimer runtime period timeoutMs
  | .selectionOver owner reason => notify (.ended owner reason)

def setStateOperate : ControlM Unit :=
  locked fun object =>
    if object.inner.state = .waitForExecution then
      ((), { object.inner with state := .operate }, [])
    else
      ((), object.inner, [])

def aborting : Locked (Option ConnectionId) :=
  let inner := object.inner
  let busy := inner.state ≠ .unselected
  (if busy ∧ (inner.settingsLocked object.live).isSbo then some inner.ownerConnId else none,
    inner.clear,
    if busy then [.deselected reason] else [])

def abort (command : Nat) (connId : ConnectionId) : ControlM Unit := do
  let held ← locked fun object =>
    let aborted := aborting object reason
    (aborted.1, aborted.2.1, .ended command connId .abort object.now :: aborted.2.2)
  match held with
  | none => return ()
  | some owner => notify (.ended owner reason)

def abortToUnselected : ControlM Unit :=
  abort .operateRefused command connId

inductive CancelResult where
  | accepted
  | denied (cause : ControlAddCause)
  deriving DecidableEq, Repr

def canceling : Locked (CancelResult × Option ConnectionId) :=
  let inner := object.inner
  if inner.state.isExecuting then
    ((.denied .commandAlreadyInExecution, none), inner, [])
  else if inner.state = .ready then
    if inner.ownerConnId ≠ connId then
      ((.denied .lockedByOtherClient, none), inner, [])
    else
      ((.accepted, some inner.ownerConnId), inner.clear, [.canceled connId])
  else if !(inner.settingsLocked object.live).isSbo then
    ((.denied .notSupported, none), inner, [])
  else
    ((.accepted, none), inner, [])

def tryCancel : ControlM CancelResult := do
  match ← locked (canceling · connId) with
  | (result, none) => return result
  | (result, some owner) =>
    notify (.ended owner .canceled)
    return result

def closing : Locked (Option ConnectionId) :=
  let inner := object.inner
  if inner.ownerConnId ≠ connId then
    (none, inner, [])
  else
    match inner.state with
    | .ready => (some inner.ownerConnId, inner.clear, [.deselected .disconnected])
    | .waitForExecution | .operate => (none, { inner with ownerLost := true }, [])
    | .unselected => (none, inner, [])

def onConnectionClosed : ControlM Unit := do
  match ← locked (closing · connId) with
  | none => return ()
  | some owner => notify (.ended owner .disconnected)

end Iec61850.Control
