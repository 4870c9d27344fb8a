import Iec61850.Concurrency.Proc
import Iec61850.Reporting.Brcb

/-!
A registered buffered report control block with everything the server keeps for it, and the
procedures of its runtime handle. The block's state and its report buffer sit behind one mutex each,
the reporting engine behind another; a procedure is a `Proc` whose critical sections are the
stretches of code that hold one of them.

The events are what an observer of the block sees. They do not influence the procedures.
-/

namespace Iec61850.Reporting

open Concurrency Model

structure Peer where
  ip : IpAddr
  maxPduSizeBytes : Nat

structure PartialReport where
  connId : ConnectionId
  entry : EntryId × UInt64
  rest : List Bytes

structure BrcbBufTmPending where
  purges : Nat
  oldestCommit : Nat
  firstTriggerMs : UInt64
  dueAt : Instant
  snapshot : EnqueuedSnapshot

/-- What the connection task does to its end of the report channel before the engine's next
access. -/
inductive ReceiverAction where
  | drain (taken : Nat)
  | dropReceiver
  | deregister

/-- The report channel of the connection a pass sends to, with the receiver's actions still to come.
The engine is the only producer, so the free capacity only grows between two of its pushes. -/
structure Channel where
  registered : Bool
  receiverAlive : Bool
  free : Nat
  upcoming : List ReceiverAction

inductive SendOutcome where
  | sent
  | wouldBlock
  | receiverDropped
  | notFound
  deriving DecidableEq, Repr

namespace Channel

def receive (channel : Channel) : ReceiverAction → Channel
  | .drain taken => { channel with free := channel.free + taken }
  | .dropReceiver => { channel with receiverAlive := false }
  | .deregister => { channel with registered := false }

def next (channel : Channel) : Channel :=
  match channel.upcoming with
  | [] => channel
  | action :: later => { channel.receive action with upcoming := later }

def availableCapacity (channel : Channel) : Option Nat :=
  if channel.registered then some channel.free else none

/-- Whether `segments` would fit, as far as the channel can ever hold them. A channel that is gone
counts as having room: the push then finds out. -/
def hasRoom (channel : Channel) (segments cap : Nat) : Bool :=
  match channel.availableCapacity with
  | none => true
  | some free => decide (min segments cap ≤ free)

theorem hasRoom_eq_false {channel : Channel} {segments cap : Nat} :
    channel.hasRoom segments cap = false ↔
      ∃ places ∈ channel.availableCapacity, places < min segments cap := by
  unfold hasRoom
  cases channel.availableCapacity <;> simp

def trySendPdu (channel : Channel) : SendOutcome × Channel :=
  if !channel.registered then (.notFound, channel)
  else if !channel.receiverAlive then (.receiverDropped, channel)
  else if channel.free = 0 then (.wouldBlock, channel)
  else (.sent, { channel with free := channel.free - 1 })

theorem trySendPdu_ne_wouldBlock {channel : Channel} {segments cap : Nat} (room : channel.hasRoom segments cap = true)
    (wanted : 0 < segments) (possible : 0 < cap) : channel.next.trySendPdu.1 ≠ .wouldBlock := by
  have free : channel.registered = true → 0 < channel.free := by
    intro registered
    simp only [hasRoom, availableCapacity, registered, if_true, decide_eq_true_eq] at room
    omega
  unfold next
  cases channel.upcoming with
  | nil =>
    simp only [trySendPdu]
    grind
  | cons action later =>
    cases action <;> simp only [receive, trySendPdu] <;> grind

end Channel

inductive Event where
  /-- a write was found entitled to the block -/
  | claimed (conn : ConnectionId)
  /-- an EntryID write was accepted -/
  | resynchronized (id : EntryId)
  | enabled (conn : ConnectionId)
  | disabled
  | enqueued (entry : ReportEntry)
  | evicted (id : EntryId)
  | rejected (id : EntryId)
  /-- the channel accepted the first segment of the report of an entry -/
  | started (id : EntryId) (bufOvfl : Bool) (pdu : Bytes)
  /-- the channel accepted a later segment -/
  | continued (pdu : Bytes)
  /-- every segment of the entry has been accepted -/
  | completed (id : EntryId)
  | bufferEmptied
  | configChanged

/-- One block with its entries in the engine's tables and the parts of the server its procedures
touch. -/
structure Slot where
  mmsPath : String
  brcb : Brcb
  state : BrcbState
  reportBuffer : InMemoryReportBuffer
  purges : Nat
  purgeMark : Nat
  dataset : Option Dataset
  datasetRegistry : String × String → Option Dataset
  partialReport : Option PartialReport
  bufTmPending : Option BrcbBufTmPending
  nextIntg : Option Instant
  peers : ConnectionId → Option Peer
  commitSeq : Nat
  live : LiveValues
  channel : Channel
  engineLocked : Bool
  bufferLocked : Bool

abbrev BrcbM := Proc Slot Event

def lockState {α : Type} (body : BrcbState → Outcome BrcbState Event α) : BrcbM α :=
  .atomically fun slot =>
    let outcome := body slot.state
    { outcome with state := { slot with state := outcome.state } }

def readState {α : Type} (read : BrcbState → α) : BrcbM α :=
  lockState fun state => { result := read state, state }

def modifyState (update : BrcbState → BrcbState) : BrcbM Unit :=
  lockState fun state => { result := (), state := update state }

def lockBuffer {α : Type} (body : InMemoryReportBuffer → Outcome InMemoryReportBuffer Event α) : BrcbM α :=
  .whenReady (fun slot => !slot.bufferLocked) fun slot =>
    let outcome := body slot.reportBuffer
    { outcome with state := { slot with reportBuffer := outcome.state } }

def readBuffer {α : Type} (read : InMemoryReportBuffer → α) : BrcbM α :=
  lockBuffer fun buffer => { result := read buffer, state := buffer }

def modifyBuffer (update : InMemoryReportBuffer → InMemoryReportBuffer) : BrcbM Unit :=
  lockBuffer fun buffer => { result := (), state := update buffer }

def readSlot {α : Type} (read : Slot → α) : BrcbM α :=
  .atomically fun slot => { result := read slot, state := slot }

def modifySlot (update : Slot → Slot) : BrcbM Unit :=
  .atomically fun slot => { result := (), state := update slot }

def withEngine {α : Type} (body : BrcbM α) : BrcbM α := do
  .whenReady (fun slot => !slot.engineLocked) fun slot => { result := (), state := { slot with engineLocked := true } }
  let result ← body
  modifySlot fun slot => { slot with engineLocked := false }
  return result

def lookupEngine {α : Type} (read : Slot → α) : BrcbM α :=
  .whenReady (fun slot => !slot.engineLocked) fun slot => { result := read slot, state := slot }

section Run

variable {α : Type} (slot : Slot)

@[simp] theorem lockState_run (body : BrcbState → Outcome BrcbState Event α) : (lockState body).run slot =
      { result := (body slot.state).result, state := { slot with state := (body slot.state).state }
        events := (body slot.state).events } := by
  simp [lockState]

@[simp] theorem readState_run (read : BrcbState → α) :
    (readState read).run slot = { result := read slot.state, state := slot } := by
  simp [readState]

@[simp] theorem modifyState_run (update : BrcbState → BrcbState) :
    (modifyState update).run slot = { result := (), state := { slot with state := update slot.state } } := by
  simp [modifyState]

@[simp] theorem lockBuffer_run (body : InMemoryReportBuffer → Outcome InMemoryReportBuffer Event α) :
    (lockBuffer body).run slot =
      { result := (body slot.reportBuffer).result
        state := { slot with reportBuffer := (body slot.reportBuffer).state }
        events := (body slot.reportBuffer).events } := by
  simp [lockBuffer]

@[simp] theorem readBuffer_run (read : InMemoryReportBuffer → α) :
    (readBuffer read).run slot = { result := read slot.reportBuffer, state := slot } := by
  simp [readBuffer]

@[simp] theorem modifyBuffer_run (update : InMemoryReportBuffer → InMemoryReportBuffer) :
    (modifyBuffer update).run slot =
      { result := (), state := { slot with reportBuffer := update slot.reportBuffer } } := by
  simp [modifyBuffer]

@[simp] theorem readSlot_run (read : Slot → α) : (readSlot read).run slot = { result := read slot, state := slot } := by
  simp [readSlot]

@[simp] theorem modifySlot_run (update : Slot → Slot) :
    (modifySlot update).run slot = { result := (), state := update slot } := by
  simp [modifySlot]

@[simp] theorem lookupEngine_run (read : Slot → α) :
    (lookupEngine read).run slot = { result := read slot, state := slot } := by
  simp [lookupEngine]

@[simp] theorem withEngine_run (body : BrcbM α) : (withEngine body).run slot =
      { result := (body.run { slot with engineLocked := true }).result
        state := { (body.run { slot with engineLocked := true }).state with engineLocked := false }
        events := (body.run { slot with engineLocked := true }).events } := by
  simp [withEngine, Outcome.prepend]

end Run

def purgeCount : BrcbM Nat := readSlot (·.purges)

def storedAfterPurge (committed : Nat) : BrcbM Bool := readSlot fun slot => decide (slot.purgeMark ≤ committed)

/-- The PurgeBuf procedure. The buffer lock is held from the first step to the removal of the
entries; the counters it advances are atomics that other threads read without that lock. -/
def runPurgeBufProcedure : BrcbM Nat := do
  .whenReady (fun slot => !slot.bufferLocked) fun slot =>
    { result := ()
      state := { slot with reportBuffer := slot.reportBuffer.setFormattedThrough none, bufferLocked := true } }
  modifySlot fun slot => { slot with purges := slot.purges + 1 }
  let commit ← .atomically fun slot =>
    { result := slot.commitSeq, state := { slot with commitSeq := slot.commitSeq + 1 } }
  modifySlot fun slot => { slot with purgeMark := commit + 1 }
  let purged ← .atomically fun slot =>
    let purge := slot.reportBuffer.purge
    { result := purge.1, state := { slot with reportBuffer := purge.2, bufferLocked := false }
      events := [.bufferEmptied] }
  modifyState fun state => { state with lastSentEntryId := .zero, lastSentTimeOfEntryMs := 0 }
  return purged

def setConfigField (field : BrcbConfigField) : BrcbM (Option ConfigChangeResult) := do
  let change ← .atomically fun slot =>
    match slot.state.applyConfigField slot.mmsPath field with
    | none => { result := none, state := slot }
    | some (changed, next) =>
      { result := some changed, state := { slot with state := next }
        events := if changed then [.configChanged] else [] }
  match change with
  | none => return none
  | some false => return some .noChange
  | some true =>
    let purged ← runPurgeBufProcedure
    return some (.requiresPurge purged)

/-- Refused (`none`) while reporting is enabled, whatever the value. -/
def handlePurgeBufWrite (value : Bool) : BrcbM (Option Nat) := do
  let enabled ← readState (·.rptEna)
  if enabled then
    return none
  else if !value then
    return some 0
  else
    let purged ← runPurgeBufProcedure
    return some purged

/-- What an observer sees of a push: the entries it drops and whether the new one is stored. -/
def pushEvents (buffer : InMemoryReportBuffer) (entry : ReportEntry) : List Event :=
  if buffer.capacity = 0 then []
  else if buffer.rejects then [.rejected entry.entryId]
  else ((buffer.evicted buffer.entries).map fun old => .evicted old.entryId) ++ [.enqueued entry]

def enqueuedOf (trace : List Event) : List ReportEntry :=
  trace.filterMap fun event =>
    match event with
    | .enqueued entry => some entry
    | _ => none

@[simp] theorem enqueuedOf_append (earlier later : List Event) :
    enqueuedOf (earlier ++ later) = enqueuedOf earlier ++ enqueuedOf later :=
  List.filterMap_append

def Event.keepsEntries : Event → Bool
  | .evicted _ | .rejected _ | .bufferEmptied => false
  | _ => true

def Event.isStarted : Event → Bool
  | .started _ _ _ => true
  | _ => false

variable {buffer : InMemoryReportBuffer} {entry : ReportEntry}

theorem push_entries_of_keepsEntries (kept : ∀ event ∈ pushEvents buffer entry, event.keepsEntries = true) :
    (buffer.push entry).2.entries = buffer.entries ++ enqueuedOf (pushEvents buffer entry) := by
  unfold pushEvents at kept ⊢
  unfold InMemoryReportBuffer.push
  split_ifs at kept ⊢ with closed refused
  · simp [enqueuedOf]
  · simp [Event.keepsEntries] at kept
  · have noneEvicted : buffer.evicted buffer.entries = [] := by
      cases evicted : buffer.evicted buffer.entries with
      | nil => rfl
      | cons old others => simp [evicted, Event.keepsEntries] at kept
    have allKept := buffer.evicted_append_kept buffer.entries
    rw [noneEvicted, List.nil_append] at allKept
    simp [InMemoryReportBuffer.store, noneEvicted, allKept, enqueuedOf]

theorem push_entries_sublist {stored : List ReportEntry} (sublist : buffer.entries.Sublist stored) :
    (buffer.push entry).2.entries.Sublist (stored ++ enqueuedOf (pushEvents buffer entry)) := by
  unfold pushEvents InMemoryReportBuffer.push
  split_ifs
  · simpa [enqueuedOf] using sublist
  · simpa [enqueuedOf] using sublist
  · have kept : (buffer.kept buffer.entries).Sublist stored := by
      refine List.Sublist.trans ?_ sublist
      have whole := List.sublist_append_right (buffer.evicted buffer.entries) (buffer.kept buffer.entries)
      rwa [buffer.evicted_append_kept] at whole
    have silent : enqueuedOf ((buffer.evicted buffer.entries).map fun old => .evicted old.entryId) = [] := by
      simp [enqueuedOf]
    rw [enqueuedOf_append, silent]
    exact kept.append_right [entry]

def pushEntry (entry : ReportEntry) (buffer : InMemoryReportBuffer) : Outcome InMemoryReportBuffer Event Bool :=
  let pushed := buffer.push entry
  { result := pushed.1, state := pushed.2, events := pushEvents buffer entry }

variable (nowMs : UInt64)

def allocateEntry : BrcbM EntryId :=
  lockState fun state =>
    let allocated := state.allocateEntryId nowMs
    { result := allocated.1, state := allocated.2 }

/-- Both unchecked enqueues allocate an identifier, push the entry made with it, and let a waiting
anchor go on. -/
def enqueueAllocated (entry : EntryId → ReportEntry) : BrcbM (EntryId × Bool) := do
  let entryId ← allocateEntry nowMs
  let evicted ← lockBuffer (pushEntry (entry entryId))
  modifyState (·.onEnqueue)
  return (entryId, evicted)

def enqueueEntry (isIntegrity isGi : Bool) (encodedPayload : Bytes) : BrcbM (EntryId × Bool) :=
  enqueueAllocated nowMs fun entryId =>
    { entryId, timeOfEntryMs := nowMs, isIntegrity, isGi, encodedPayload, snapshot := none }

def enqueueEntryWithSnapshot (isIntegrity isGi : Bool) (snapshot : EnqueuedSnapshot) :
    BrcbM (EntryId × Bool) :=
  enqueueAllocated nowMs fun entryId =>
    { entryId, timeOfEntryMs := nowMs, isIntegrity, isGi, encodedPayload := [], snapshot := some snapshot }

@[simp] theorem allocateEntry_run (slot : Slot) (nowMs : UInt64) : (allocateEntry nowMs).run slot =
      { result := (slot.state.allocateEntryId nowMs).1
        state := { slot with state := (slot.state.allocateEntryId nowMs).2 } } := by
  simp [allocateEntry]

theorem enqueueAllocated_run (slot : Slot) (nowMs : UInt64) (entry : EntryId → ReportEntry) :
    (enqueueAllocated nowMs entry).run slot =
      let allocated := slot.state.allocateEntryId nowMs
      let pushed := slot.reportBuffer.push (entry allocated.1)
      { result := (allocated.1, pushed.1)
        state := { slot with state := allocated.2.onEnqueue, reportBuffer := pushed.2 }
        events := pushEvents slot.reportBuffer (entry allocated.1) } := by
  simp [enqueueAllocated, pushEntry, Outcome.prepend]

/-- The two checked enqueues share this body: the question whether a purge discarded the events is
asked before the identifier is allocated (`check`) and again under the buffer lock, where no purge
can be under way. -/
def enqueueUnlessPurged (check : BrcbM Bool) (purged : Slot → Bool) (timeMs : UInt64)
    (snapshot : EnqueuedSnapshot) : BrcbM (Option (EntryId × Bool)) := do
  if ← check then
    return none
  else
    let entryId ← allocateEntry timeMs
    let entry : ReportEntry :=
      { entryId, timeOfEntryMs := timeMs, isIntegrity := false, isGi := false, encodedPayload := []
        snapshot := some snapshot }
    let pushed ← .whenReady (fun slot => !slot.bufferLocked) fun slot =>
      if purged slot then
        { result := none, state := slot }
      else
        let outcome := pushEntry entry slot.reportBuffer
        { result := some outcome.result, state := { slot with reportBuffer := outcome.state }
          events := outcome.events }
    match pushed with
    | none => return none
    | some evicted =>
      modifyState (·.onEnqueue)
      return some (entryId, evicted)

def enqueueStoredEntry (oldestCommit : Nat) (timeMs : UInt64) (snapshot : EnqueuedSnapshot) :
    BrcbM (Option (EntryId × Bool)) :=
  enqueueUnlessPurged (not <$> storedAfterPurge oldestCommit)
    (fun slot => decide (oldestCommit < slot.purgeMark)) timeMs snapshot

def enqueueWindowEntry (openedAt oldestCommit : Nat) (firstTriggerMs : UInt64)
    (snapshot : EnqueuedSnapshot) : BrcbM (Option (EntryId × Bool)) :=
  let check : BrcbM Bool := do
    if (← purgeCount) != openedAt then return true else not <$> storedAfterPurge oldestCommit
  enqueueUnlessPurged check
    (fun slot => slot.purges != openedAt || decide (oldestCommit < slot.purgeMark)) firstTriggerMs snapshot

def applyEntryIdWrite (id : EntryId) : BrcbM (Except ApplyEntryIdError Unit) := do
  let seek ← (if id.isZero then pure none else some <$> readBuffer (·.seekToAfterEntryId id) :
    BrcbM (Option SeekResult))
  let outcome ← lockState fun state =>
    let applied := state.resynchronize id seek
    { result := applied.1, state := applied.2
      events := if applied.1.isOk then [.resynchronized id] else [] }
  (if outcome.isOk then modifyBuffer (·.setFormattedThrough (if id.isZero then none else some id)) else pure ())
  return outcome

theorem applyEntryIdWrite_run (slot : Slot) (id : EntryId) : (applyEntryIdWrite id).run slot =
      let seek := if id.isZero then none else some (slot.reportBuffer.seekToAfterEntryId id)
      let applied := slot.state.resynchronize id seek
      { result := applied.1
        state := { slot with
          state := applied.2
          reportBuffer :=
            if applied.1.isOk then slot.reportBuffer.setFormattedThrough (if id.isZero then none else some id)
            else slot.reportBuffer }
        events := if applied.1.isOk then [.resynchronized id] else [] } := by
  have seeks : (if id.isZero then pure none else some <$> readBuffer (·.seekToAfterEntryId id) :
      BrcbM (Option SeekResult)).run slot =
      { result := if id.isZero then none else some (slot.reportBuffer.seekToAfterEntryId id), state := slot } := by
    split <;> simp
  unfold applyEntryIdWrite
  rw [Proc.run_bind, seeks]
  simp only [Proc.run_bind, lockState_run, Outcome.prepend_nil]
  cases applied : slot.state.resynchronize id
      (if id.isZero then none else some (slot.reportBuffer.seekToAfterEntryId id)) with
  | mk result state =>
    cases result with
    | ok value | error reason => simp [Except.isOk, Except.toBool, Outcome.prepend]

def rewindFormatted : BrcbM Unit := do
  let through ← readState (·.rewindPoint)
  modifyBuffer (·.setFormattedThrough through)

end Iec61850.Reporting
