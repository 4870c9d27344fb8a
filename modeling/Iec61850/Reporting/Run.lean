import Iec61850.Reporting.Service

/-!
Runs of whole operations on one block.
-/

namespace Iec61850.Reporting

open Concurrency Model

/-- A block as `register_brcb` leaves it: nothing buffered, nobody connected. -/
structure Slot.Fresh (slot : Slot) : Prop where
  state : slot.state = { BrcbState.fromBrcb slot.brcb with
    datSet := qualifiedDatSet slot.mmsPath slot.brcb.datasetName }
  buffer : ∃ strategy, slot.reportBuffer = .withStrategy slot.brcb.bufferCapacity strategy
  partialReport : slot.partialReport = none
  bufTmPending : slot.bufTmPending = none
  purges : slot.purges = 0
  purgeMark : slot.purgeMark = 0
  engineLocked : slot.engineLocked = false
  bufferLocked : slot.bufferLocked = false

def Slot.Held (slot : Slot) : Prop := slot.state.rptEna = true → slot.state.clientConnId.isSome

/-- The operations of a run, each of them atomic. A pass is given the channel it finds, in any state
and with any behaviour of the receiver during the pass. -/
inductive Step where
  | enqueue (nowMs : UInt64) (isIntegrity isGi : Bool) (payload : Bytes)
  | enqueueSnapshot (nowMs : UInt64) (isIntegrity isGi : Bool) (snapshot : EnqueuedSnapshot)
  | enqueueStored (oldestCommit : Nat) (timeMs : UInt64) (snapshot : EnqueuedSnapshot)
  | write (field : RcbField) (value : RcbWriteValue) (conn : ConnectionId) (now : Instant)
  | connectionLost (conn : ConnectionId) (now : Instant)
  | reservationTick (now : Instant)
  | tick (channel : Channel) (now : Instant) (nowMs : UInt64)
  | flush (channel : Channel) (now : Instant)

namespace Step

/-- The program of an operation. Its result says whether the operation was accepted, where that can
fail. -/
def program : Step → BrcbM Answer
  | .enqueue nowMs isIntegrity isGi payload => do
      let _ ← enqueueEntry nowMs isIntegrity isGi payload
      return .accepted
  | .enqueueSnapshot nowMs isIntegrity isGi snapshot => do
      let _ ← enqueueEntryWithSnapshot nowMs isIntegrity isGi snapshot
      return .accepted
  | .enqueueStored oldestCommit timeMs snapshot => do
      let _ ← enqueueStoredEntry oldestCommit timeMs snapshot
      return .accepted
  | .write field value conn now => handleSetBrcbField field value conn now
  | .connectionLost conn now => do
      withEngine (onConnectionDropped conn now)
      return .accepted
  | .reservationTick now => do
      let _ ← withEngine (tickBrcbReservations now)
      return .accepted
  | .tick channel now nowMs => do
      modifySlot fun slot => { slot with channel }
      withEngine (tickBrcb now nowMs)
      return .accepted
  | .flush channel now => do
      modifySlot fun slot => { slot with channel }
      let _ ← withEngine (flushAllBrcbPending now)
      return .accepted

variable (step : Step) (slot : Slot)

def after : Slot := (step.program.run slot).state

def events : List Event := (step.program.run slot).events

/-- A step that leaves the configuration alone: writes go to RptEna, or to EntryID and are
accepted. -/
def Routine : Prop :=
  match step with
  | .write .rptEna _ _ _ => True
  | .write .entryId value conn now => ((handleSetBrcbField .entryId value conn now).run slot).result = .accepted
  | .write _ _ _ _ => False
  | _ => True

end Step

def runSteps : List Step → Slot → Slot
  | [], slot => slot
  | step :: rest, slot => runSteps rest (step.after slot)

def traceOf : List Step → Slot → List Event
  | [], _ => []
  | step :: rest, slot => step.events slot ++ traceOf rest (step.after slot)

def Along (condition : Step → Slot → Prop) : List Step → Slot → Prop
  | [], _ => True
  | step :: rest, slot => condition step slot ∧ Along condition rest (step.after slot)

def bareBrcb : Brcb where
  name := "brcb01"
  rptId := ""
  datasetName := "events"
  confRev := 1
  trgOps := ⟨1⟩
  optFlds := ⟨0⟩
  bufTmMs := 0
  intgPdMs := 0
  bufferCapacity := 8
  clientReservation := none
  withResvTms := true
  withOwner := true

def bareBlock : Slot where
  mmsPath := "LD0/LLN0$BR$brcb01"
  brcb := bareBrcb
  state :=
    { BrcbState.fromBrcb bareBrcb with datSet := qualifiedDatSet "LD0/LLN0$BR$brcb01" "events" }
  reportBuffer := .withStrategy 8 .dropOldest
  purges := 0
  purgeMark := 0
  dataset := none
  datasetRegistry := fun _ => none
  partialReport := none
  bufTmPending := none
  nextIntg := none
  peers := fun _ => none
  commitSeq := 0
  live := fun _ => none
  channel := { registered := true, receiverAlive := true, free := 0, upcoming := [] }
  engineLocked := false
  bufferLocked := false

theorem bareBlock_fresh : bareBlock.Fresh :=
  ⟨rfl, ⟨.dropOldest, rfl⟩, rfl, rfl, rfl, rfl, rfl, rfl⟩

end Iec61850.Reporting
