import Mathlib.Logic.Function.Basic
import Iec61850.Concurrency.Machine
import Iec61850.Mms.Decode

/-!
The setting group control block of a logical device. Requests run in critical sections of the state
and of the settings, with the callbacks of the application between them; the requests of one
association come in sequence.
-/

namespace Iec61850.SettingGroups

open Model (MmsValue)
open Mms (DataAccessError)

abbrev ConnectionId := Nat

inductive Buffer where
  | active
  | edit
  deriving DecidableEq

/-- The values of one group, taken under the settings lock and written once it is released: one for
each leaf that has the attribute. -/
structure Load where
  buffer : Buffer
  ticket : Nat
  writes : List (Option MmsValue)

/-- The values of the FC=SG and the FC=SE attribute of a leaf, as far as it has them, and the value
of each group. -/
structure SettingLeaf where
  active : Option MmsValue
  edit : Option MmsValue
  groups : List MmsValue

namespace SettingLeaf

def buffered (leaf : SettingLeaf) : Buffer → Option MmsValue
  | .active => leaf.active
  | .edit => leaf.edit

def taken (leaf : SettingLeaf) (buffer : Buffer) (index : Nat) : Option MmsValue :=
  (leaf.buffered buffer).bind fun _ => leaf.groups[index]?

def write (leaf : SettingLeaf) : Buffer → Option MmsValue → SettingLeaf
  | _, none => leaf
  | .active, some value => { leaf with active := leaf.active.map fun _ => value }
  | .edit, some value => { leaf with edit := leaf.edit.map fun _ => value }

def commit (leaf : SettingLeaf) (index : Nat) : SettingLeaf :=
  match leaf.edit with
  | none => leaf
  | some value => { leaf with groups := leaf.groups.set index value }

end SettingLeaf

structure EditSession where
  connId : ConnectionId
  number : Nat

/-- The state behind the lock. An `editSg` of zero means that no session is open. The number of a
session only tells it from the others: its 64 bits, which wrap, are taken not to run out. -/
structure State where
  actSg : UInt8
  editSg : UInt8 := 0
  editingConn : Option ConnectionId := none
  reservationDeadline : Option Nat := none
  session : Nat := 0

namespace State

def isCurrent (state : State) (session : EditSession) (now : Nat) : Bool :=
  decide (0 < state.editSg) && state.editingConn == some session.connId && state.session == session.number &&
    state.reservationDeadline.all (now < ·)

def endSession (state : State) : State := { state with editSg := 0, editingConn := none, reservationDeadline := none }

def hasExpired (state : State) (now : Nat) : Bool :=
  state.editingConn.isSome && state.reservationDeadline.any (· ≤ now)

end State

inductive Access where
  | edit (group : UInt8)
  | confirm
  | store (updates : List (Nat × MmsValue))

/-- Where a request is. `expiring` and `admitting` are the two sections before the callback of the
application. -/
inductive Stage where
  | idle
  | expiring (access : Access)
  | admitting (access : Access)
  | activating (group : UInt8) (consults : Bool)
  | opening (group : UInt8)
  | committing (editSg : UInt8) (session : Nat)
  | storing (updates : List (Nat × MmsValue)) (session : EditSession)
  | changing (group : UInt8) (leaf : Nat) (value : MmsValue)
  | loading (load : Load)

inductive Event where
  | opened (connId : ConnectionId) (number : Nat) (deadline : Option Nat) (values : List (Option MmsValue))
  | ended (connId : ConnectionId)
  | stored (number time : Nat) (updates : List (Nat × MmsValue))
  | committed (number time : Nat) (values : List (Option MmsValue))
  | answered (connId : ConnectionId) (result : Except DataAccessError Unit)

/-- The runtime and its clients. The counts of the loads are compared for equality only, and like
the session numbers they are taken not to wrap. -/
structure System where
  state : State
  settings : List SettingLeaf
  activeLoads : Nat := 0
  editLoads : Nat := 0
  clock : Nat := 0
  stages : ConnectionId → Stage := fun _ => .idle
  log : List Event := []

/-- What is configured: `lastInstant` is the last instant of the monotonic clock, which counts
nanoseconds. -/
structure SettingGroupRuntime where
  numOfSg : UInt8
  defaultResvTmsS : UInt16
  lastInstant : Nat

namespace System

variable (system : System) (conn : ConnectionId) (buffer : Buffer) (group : UInt8)

def goto (stage : Stage) : System :=
  { system with stages := Function.update system.stages conn stage }

def answer (result : Except DataAccessError Unit) : System :=
  { system.goto conn .idle with log := system.log ++ [.answered conn result] }

def loadCount (system : System) : Buffer → Nat
  | .active => system.activeLoads
  | .edit => system.editLoads

/-- The section in which a load is taken, as the latest one of its buffer, goes on with writing
it. -/
def prepareLoad : System :=
  let load := ⟨buffer, system.loadCount buffer + 1, system.settings.map (·.taken buffer (group.toNat - 1))⟩
  match buffer with
  | .active => { system.goto conn (.loading load) with activeLoads := load.ticket }
  | .edit => { system.goto conn (.loading load) with editLoads := load.ticket }

def runLoad (load : Load) : System :=
  if system.loadCount load.buffer = load.ticket then
    { system with settings := List.zipWith (·.write load.buffer ·) system.settings load.writes }
  else
    system

def endSession : System :=
  { system with state := system.state.endSession, log := system.log ++ system.state.editingConn.toList.map .ended }

def tickReservationAt (now : Nat) : System :=
  if system.state.hasExpired now then system.endSession else system

def releaseEditSessionForConn : System :=
  if system.state.editingConn = some conn then system.endSession else system

def activate : System :=
  { system with state := { system.state with actSg := group } }.prepareLoad conn .active group

def storeUpdates (settings : List SettingLeaf) (updates : List (Nat × MmsValue)) : List SettingLeaf :=
  updates.foldl (fun settings update => settings.modify update.1 (·.write .edit (some update.2))) settings

end System

namespace SettingGroupRuntime

inductive Request where
  | selectActiveSg (group : UInt8)
  | forceActiveSg (group : UInt8)
  | editSg (group : UInt8)
  | confirmEditSg (cnfEditValue : Bool)
  | write (updates : List (Nat × MmsValue))
  | setGroupValue (group : UInt8) (leaf : Nat) (value : MmsValue)

variable (runtime : SettingGroupRuntime)

def accept : Request → Except DataAccessError Stage
  | .selectActiveSg group =>
    if group < 1 ∨ runtime.numOfSg < group then .error .objectValueInvalid else .ok (.activating group true)
  | .forceActiveSg group =>
    if group < 1 ∨ runtime.numOfSg < group then .error .objectValueInvalid else .ok (.activating group false)
  | .editSg group => if runtime.numOfSg < group then .error .objectValueInvalid else .ok (.expiring (.edit group))
  | .confirmEditSg value => if value then .ok (.expiring .confirm) else .error .objectValueInvalid
  | .write updates => .ok (.expiring (.store updates))
  | .setGroupValue group leaf value =>
    if group < 1 ∨ runtime.numOfSg < group then .error .objectValueInvalid else .ok (.changing group leaf value)

/-- `Instant::checked_add`. -/
def deadlineAt (now : Nat) : Option Nat :=
  let deadline := now + runtime.defaultResvTmsS.toNat * 1000000000
  if deadline ≤ runtime.lastInstant then some deadline else none

def openSession (system : System) (conn : ConnectionId) (group : UInt8) : System :=
  if system.state.editingConn.any (· != conn) then
    system.answer conn (.error .temporarilyUnavailable)
  else
    let state := { system.state with
      editSg := group, editingConn := some conn, session := system.state.session + 1
      reservationDeadline := runtime.deadlineAt system.clock }
    let values := system.settings.map (·.taken .edit (group.toNat - 1))
    let event := .opened conn state.session state.reservationDeadline values
    { system with state, log := system.log ++ [event] }.prepareLoad conn .edit group

end SettingGroupRuntime

namespace System

def admitWrite (system : System) (conn : ConnectionId) : Access → System
  | .edit group =>
    if system.state.editingConn.any (· != conn) then
      system.answer conn (.error .temporarilyUnavailable)
    else if 0 < group then
      system.goto conn (.opening group)
    else
      system.endSession.answer conn (.ok ())
  | .confirm =>
    if system.state.editSg = 0 ∨ system.state.editingConn ≠ some conn then
      system.answer conn (.error .objectAccessDenied)
    else
      system.goto conn (.committing system.state.editSg system.state.session)
  | .store updates =>
    if 0 < system.state.editSg ∧ system.state.editingConn = some conn then
      system.goto conn (.storing updates ⟨conn, system.state.session⟩)
    else
      system.answer conn (.error .temporarilyUnavailable)

variable (system : System) (conn : ConnectionId) (editSg group : UInt8) (session position : Nat)

/-- The section that commits, behind the callback. It does not look at the deadline. -/
def commit : System :=
  if system.state.editSg ≠ editSg ∨ system.state.editingConn ≠ some conn ∨ system.state.session ≠ session then
    system.answer conn (.error .objectAccessDenied)
  else
    let settings := system.settings.map (·.commit (editSg.toNat - 1))
    let event := .committed session system.clock (system.settings.map (·.edit))
    let stored := { system with settings, log := system.log ++ [event] }.endSession
    if editSg = system.state.actSg then stored.prepareLoad conn .active editSg else stored.answer conn (.ok ())

def store (updates : List (Nat × MmsValue)) (session : EditSession) : System :=
  if system.state.isCurrent session system.clock then
    { system with settings := storeUpdates system.settings updates
                  log := system.log ++ [Event.stored session.number system.clock updates] }.answer conn (.ok ())
  else
    system.answer conn (.error .temporarilyUnavailable)

def change (value : MmsValue) : System :=
  match system.settings[position]?.bind fun leaf => leaf.groups[group.toNat - 1]? with
  | none => system.answer conn (.error .objectNonExistent)
  | some slot =>
    if slot.ctorIdx ≠ value.ctorIdx then
      system.answer conn (.error .typeInconsistent)
    else
      let settings := system.settings.modify position fun leaf =>
        { leaf with groups := leaf.groups.set (group.toNat - 1) value }
      if group = system.state.actSg then { system with settings }.prepareLoad conn .active group
      else { system with settings }.answer conn (.ok ())

end System

inductive Input where
  | request (conn : ConnectionId) (request : SettingGroupRuntime.Request)
  /-- The next section of a request, with the answer of the callback before it. -/
  | proceed (conn : ConnectionId) (allowed : Bool)
  | tick (now : Nat)
  | close (conn : ConnectionId)
  | advance (time : Nat)

namespace SettingGroupRuntime

variable (runtime : SettingGroupRuntime)

def proceed (system : System) (conn : ConnectionId) (allowed : Bool) : Option System :=
  match system.stages conn with
  | .idle => none
  | .expiring access => some ((system.tickReservationAt system.clock).goto conn (.admitting access))
  | .admitting access => some (system.admitWrite conn access)
  | .activating group consults =>
    some (if consults && !allowed then system.answer conn (.error .objectAccessDenied) else system.activate conn group)
  | .opening group =>
    some (if allowed then runtime.openSession system conn group else system.answer conn (.error .objectAccessDenied))
  | .committing editSg session =>
    some (if allowed then system.commit conn editSg session else system.answer conn (.error .objectAccessDenied))
  | .storing updates session =>
    some (if allowed then system.store conn updates session else system.answer conn (.error .objectAccessDenied))
  | .changing group leaf value => some (system.change conn group leaf value)
  | .loading load => some ((system.runLoad load).answer conn (.ok ()))

/-- One step; `none` where an association has no request to go on with, or already has one. -/
def step (system : System) : Input → Option System
  | .request conn request =>
    match system.stages conn with
    | .idle =>
      some (match runtime.accept request with
        | .error error => system.answer conn (.error error)
        | .ok stage => system.goto conn stage)
    | _ => none
  | .proceed conn allowed => runtime.proceed system conn allowed
  | .tick now => some (system.tickReservationAt now)
  | .close conn => some (system.releaseEditSessionForConn conn)
  | .advance time => some { system with clock := system.clock + time }

end SettingGroupRuntime

end Iec61850.SettingGroups
