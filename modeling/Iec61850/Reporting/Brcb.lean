import Iec61850.Reporting.Pdu

/-!
The configuration and the runtime state of one buffered report control block, and the functions that
change the state while its lock is held.
-/

namespace Iec61850.Reporting

open Model

abbrev ConnectionId := Nat

abbrev Instant := Nat

inductive IpAddr where
  | v4 (octets : Vector UInt8 4)
  | v6 (octets : Vector UInt8 16)
  deriving DecidableEq, Repr

inductive ResvTmsState where
  | preconfigured
  | notReserved
  | withTimeout (seconds : { seconds : UInt16 // seconds ≠ 0 })
  deriving DecidableEq

namespace ResvTmsState

def fromWire (value : Int16) : ResvTmsState :=
  if value < 0 then
    .preconfigured
  else if value = 0 then
    .notReserved
  else if nonzero : value.toUInt16 ≠ 0 then
    .withTimeout ⟨value.toUInt16, nonzero⟩
  else
    .notReserved

def isReserved : ResvTmsState → Bool
  | .notReserved => false
  | .preconfigured | .withTimeout _ => true

end ResvTmsState

inductive BrcbConfigField where
  | datSet (name : String)
  | trgOps (options : TriggerOptions)
  | intgPdMs (ms : UInt32)
  | bufTmMs (ms : UInt32)
  | rptId (id : String)

inductive ConfigChangeResult where
  | noChange
  | requiresPurge (purgedEntries : Nat)

/-- Where transmission goes on: nowhere yet, at the head of the buffer, after an entry, or at the
next entry enqueued. -/
inductive TransmitAnchor where
  | none
  | fromHead
  | afterEntryId (id : EntryId)
  | waitingForNext
  deriving DecidableEq, Repr

inductive ApplyEntryIdError where
  | invalidEntryId
  | reportingEnabled
  deriving DecidableEq, Repr

structure Brcb where
  name : String
  rptId : String
  datasetName : String
  confRev : UInt32
  trgOps : TriggerOptions
  optFlds : OptFlds
  bufTmMs : UInt32
  intgPdMs : UInt32
  bufferCapacity : Nat
  clientReservation : Option IpAddr
  withResvTms : Bool
  withOwner : Bool

structure BrcbState where
  rptId : String
  rptEna : Bool
  datSet : String
  confRev : UInt32
  optFlds : OptFlds
  bufTmMs : UInt32
  sqNum : UInt16
  trgOps : TriggerOptions
  intgPdMs : UInt32
  gi : Bool
  lastSentEntryId : EntryId
  lastSentTimeOfEntryMs : UInt64
  resvTms : ResvTmsState
  owner : Option IpAddr
  clientConnId : Option ConnectionId
  isBuffering : Bool
  isResync : Bool
  overflowOnEnable : Bool
  lastEntryIdMs : UInt64
  transmitAnchor : TransmitAnchor
  lastCommittedEntryId : EntryId
  reservationTimeout : Option Instant

namespace BrcbState

def fromBrcb (brcb : Brcb) : BrcbState where
  rptId := brcb.rptId
  rptEna := false
  datSet := brcb.datasetName
  confRev := brcb.confRev
  optFlds := brcb.optFlds
  bufTmMs := brcb.bufTmMs
  sqNum := 0
  trgOps := brcb.trgOps
  intgPdMs := brcb.intgPdMs
  gi := false
  lastSentEntryId := .zero
  lastSentTimeOfEntryMs := 0
  resvTms := if brcb.clientReservation.isSome then .preconfigured else .notReserved
  owner := none
  clientConnId := none
  isBuffering := !brcb.datasetName.isEmpty
  isResync := false
  overflowOnEnable := false
  lastEntryIdMs := 0
  transmitAnchor := .none
  lastCommittedEntryId := .zero
  reservationTimeout := none

variable (state : BrcbState)

def increaseConfRev : BrcbState :=
  let next := state.confRev + 1
  { state with confRev := if next = 0 then 1 else next }

variable (id : EntryId) (value nowMs timeOfEntryMs : UInt64) (now : Instant)

def saturatingSucc64 : UInt64 := if value = 0xffffffffffffffff then value else value + 1

def allocateEntryId : EntryId × BrcbState :=
  let candidate :=
    if state.lastEntryIdMs = 0 then nowMs else max nowMs (saturatingSucc64 state.lastEntryIdMs)
  (.fromMs candidate, { state with lastEntryIdMs := candidate })

def tickReservation : Bool × BrcbState :=
  match state.resvTms, state.reservationTimeout with
  -- a pre-configured owner never times out
  | .preconfigured, _ => (false, state)
  | _, none => (false, state)
  | _, some deadline =>
    if now < deadline then
      (false, state)
    else
      let released := { state with resvTms := .notReserved, reservationTimeout := none }
      (true, if state.rptEna then released else { released with clientConnId := none, owner := none })

def onEnqueue : BrcbState :=
  match state.transmitAnchor with
  | .waitingForNext => { state with transmitAnchor := .afterEntryId state.lastCommittedEntryId }
  | .none | .fromHead | .afterEntryId _ => state

def resynchronize (seek : Option SeekResult) : Except ApplyEntryIdError Unit × BrcbState :=
  if state.rptEna then
    (.error .reportingEnabled, state)
  else
    -- the identifier is recorded before the search result is judged
    let state := { state with lastCommittedEntryId := id }
    match seek with
    | none => (.ok (), { state with transmitAnchor := .fromHead, isResync := false })
    | some (.foundWithNext _) => (.ok (), { state with transmitAnchor := .afterEntryId id, isResync := true })
    | some .foundLast => (.ok (), { state with transmitAnchor := .waitingForNext, isResync := true })
    | some .notFound => (.error .invalidEntryId, state)

/-- The state part of a configuration write: refused while reporting is enabled, otherwise the new
state and whether the value differs from the one in place. -/
def applyConfigField (mmsPath : String) : BrcbConfigField → Option (Bool × BrcbState)
  | field =>
    if state.rptEna then
      none
    else
      match field with
      | .datSet name =>
        let name := qualifiedDatSet mmsPath name
        if state.datSet = name then
          some (false, state)
        else
          some (true, { state with isBuffering := !name.isEmpty, datSet := name }.increaseConfRev)
      | .trgOps options =>
        if state.trgOps = options then some (false, state) else some (true, { state with trgOps := options })
      | .intgPdMs ms =>
        if state.intgPdMs = ms then some (false, state) else some (true, { state with intgPdMs := ms })
      | .bufTmMs ms =>
        if state.bufTmMs = ms then some (false, state) else some (true, { state with bufTmMs := ms })
      | .rptId id =>
        if state.rptId = id then some (false, state) else some (true, { state with rptId := id })

def entrySent : BrcbState :=
  { state with
    sqNum := state.sqNum + 1, transmitAnchor := .afterEntryId id
    lastSentEntryId := id, lastSentTimeOfEntryMs := timeOfEntryMs }

/-- The entry the formatted mark goes back to when a partly sent entry is given up. -/
def rewindPoint : Option EntryId :=
  match state.transmitAnchor with
  | .afterEntryId id => some id
  | .waitingForNext => some state.lastCommittedEntryId
  | .none | .fromHead => none

def connectionDropped : BrcbState :=
  let disabled := { state with rptEna := false, clientConnId := none, gi := false }
  match state.resvTms with
  | .withTimeout seconds =>
    { disabled with reservationTimeout := some (now + seconds.val.toNat * 1000) }
  | .notReserved => { disabled with owner := none }
  | .preconfigured => disabled

end BrcbState

@[simp] theorem onEnqueue_rewindPoint (state : BrcbState) : state.onEnqueue.rewindPoint = state.rewindPoint := by
  unfold BrcbState.onEnqueue
  split <;> simp_all [BrcbState.rewindPoint]

end Iec61850.Reporting
