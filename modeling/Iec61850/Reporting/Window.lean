import Iec61850.Reporting.Batch
import Iec61850.Reporting.Section

/-!
What a batch, a tick and a general interrogation, each run undisturbed, do to the stored entries and
to the open buffer-time window of a block.
-/

namespace Iec61850.Reporting

open Concurrency Model Proc

structure Storage where
  entries : List ReportEntry
  capacity : Nat
  strategy : OverflowStrategy
  window : Option BrcbBufTmPending
  lastEntryIdMs : UInt64
  isBuffering : Bool
  configuration : Configuration
  dataset : Option Dataset
  live : LiveValues
  purges : Nat
  purgeMark : Nat

def Slot.storage (slot : Slot) : Storage where
  entries := slot.reportBuffer.entries
  capacity := slot.reportBuffer.capacity
  strategy := slot.reportBuffer.strategy
  window := slot.bufTmPending
  lastEntryIdMs := slot.state.lastEntryIdMs
  isBuffering := slot.state.isBuffering
  configuration := slot.state.configuration
  dataset := slot.dataset
  live := slot.live
  purges := slot.purges
  purgeMark := slot.purgeMark

def Undisturbed (before : Slot) (events : List Event) (after : Slot) : Prop :=
  after.storage = before.storage ∧ enqueuedOf events = []

namespace Undisturbed

variable {α : Type}

theorem refl (slot : Slot) : Undisturbed slot [] slot := ⟨rfl, rfl⟩

theorem trans {first middle last : Slot} {earlier later : List Event} (front : Undisturbed first earlier middle)
    (back : Undisturbed middle later last) : Undisturbed first (earlier ++ later) last := by
  refine ⟨back.1.trans front.1, ?_⟩
  rw [enqueuedOf_append, front.2, back.2, List.append_nil]

theorem run {program : BrcbM α} (respects : program.Respects Undisturbed) (slot : Slot) :
    Undisturbed slot (program.run slot).events (program.run slot).state :=
  respects.run refl (fun _ _ _ _ _ => trans) slot

theorem serves {program : BrcbM α} (serving : program.Respects ServeSection) : program.Respects Undisturbed := by
  refine serving.mono _ fun slot _ _ ran => ?_
  cases ran with
  | forgetting forgetting => cases forgetting <;> exact ⟨rfl, rfl⟩
  | segment channel event segment =>
    refine ⟨rfl, ?_⟩
    cases event <;> first | rfl | cases segment
  | drop conn now =>
    refine ⟨?_, by split <;> rfl⟩
    unfold BrcbState.connectionDropped
    dsimp only
    split <;> rfl
  | keep | channel | skip | mark | announced | sent => exact ⟨rfl, rfl⟩

theorem claimBrcb (writer : ConnectionId) (writerIp : Option IpAddr) :
    (claimBrcb writer writerIp).Respects Undisturbed := by
  refine .atomically fun slot => ?_
  cases entitled : claimBrcbLocked slot.brcb slot.state writer writerIp with
  | none => exact .refl slot
  | some state =>
    rcases claimBrcbLocked_cases entitled with ⟨rfl, _⟩ | ⟨rfl, _⟩
    · exact ⟨rfl, rfl⟩
    · exact ⟨rfl, rfl⟩

theorem setBrcbGi (value : RcbWriteValue) : (setBrcbGi value).Respects Undisturbed := by
  cases value with
  | bool wanted =>
    cases wanted with
    | false => exact .pure _
    | true =>
      refine .atomically fun slot => ?_
      dsimp only
      split
      · exact ⟨rfl, rfl⟩
      · split
        · exact .refl slot
        · exact ⟨rfl, rfl⟩
  | _ => exact .pure _

theorem writeGi (value : RcbWriteValue) (conn : ConnectionId) (now : Instant) :
    (handleSetBrcbField .gi value conn now).Respects Undisturbed := by
  refine .bind (.whenReady fun slot => .refl slot) fun found => ?_
  obtain ⟨brcb, writerIp⟩ := found
  exact .ite (.pure _) (.bind (claimBrcb _ _) fun _ => .ite (.pure _) (setBrcbGi value))

end Undisturbed

namespace Slot

variable (slot : Slot)

variable (updates batch : List Update) (nowMs timeMs : UInt64) (isIntegrity isGi : Bool) (snapshot : EnqueuedSnapshot)
  (window : BrcbBufTmPending)

def entryFor : ReportEntry :=
  { entryId := (slot.state.allocateEntryId timeMs).1, timeOfEntryMs := timeMs, isIntegrity, isGi, encodedPayload := []
    snapshot := some snapshot }

def enqueue : Slot :=
  { slot with
    state := (slot.state.allocateEntryId timeMs).2.onEnqueue
    reportBuffer := (slot.reportBuffer.push (slot.entryFor timeMs isIntegrity isGi snapshot)).2 }

/-- A purge since the window was opened, or since its oldest value was stored, has discarded its
events. -/
def discards : Bool :=
  slot.purges != window.purges || decide (window.oldestCommit < slot.purgeMark)

def closeWindow : Slot × List Event :=
  if slot.discards window then
    (slot, [])
  else
    (slot.enqueue window.firstTriggerMs false false window.snapshot,
      pushEvents slot.reportBuffer (slot.entryFor window.firstTriggerMs false false window.snapshot))

def windowExpired (now : Instant) : Slot × List Event :=
  match slot.bufTmPending with
  | none => (slot, [])
  | some window => if window.dueAt ≤ now then { slot with bufTmPending := none }.closeWindow window else (slot, [])

def fullEnqueued : Slot × List Event :=
  match snapshotFullDataset slot with
  | none => (slot, [])
  | some snap =>
    (slot.enqueue nowMs isIntegrity isGi snap,
      pushEvents slot.reportBuffer (slot.entryFor nowMs isIntegrity isGi snap))

variable {slot}

theorem enqueueWindowEntry_run (slot : Slot) (window : BrcbBufTmPending) :
    ((enqueueWindowEntry window.purges window.oldestCommit window.firstTriggerMs window.snapshot).run slot).state =
        (slot.closeWindow window).1 ∧
      ((enqueueWindowEntry window.purges window.oldestCommit window.firstTriggerMs window.snapshot).run slot).events =
        (slot.closeWindow window).2 := by
  unfold enqueueWindowEntry enqueueUnlessPurged closeWindow discards
  by_cases reopened : slot.purges = window.purges
  · by_cases older : window.oldestCommit < slot.purgeMark
    · simp [purgeCount, storedAfterPurge, reopened, older]
    · have after : slot.purgeMark ≤ window.oldestCommit := Nat.le_of_not_lt older
      simp [purgeCount, storedAfterPurge, reopened, older, after, pushEntry, enqueue, entryFor, Outcome.prepend]
  · simp [purgeCount, reopened]

theorem expireWindow_run (slot : Slot) (now : Instant) :
    ((expireWindow now).run slot).state = (slot.windowExpired now).1 ∧
      ((expireWindow now).run slot).events = (slot.windowExpired now).2 := by
  unfold expireWindow windowExpired
  rw [Proc.run_bind, Proc.run_atomically]
  cases pending : slot.bufTmPending with
  | none => simp
  | some window =>
    by_cases due : window.dueAt ≤ now
    · obtain ⟨state, events⟩ := enqueueWindowEntry_run { slot with bufTmPending := none } window
      simp [due, state, events]
    · simp [due]

theorem enqueueFullDataset_run : (enqueueFullDataset nowMs isIntegrity isGi).run slot =
      { result := (snapshotFullDataset slot).isSome, state := (slot.fullEnqueued nowMs isIntegrity isGi).1
        events := (slot.fullEnqueued nowMs isIntegrity isGi).2 } := by
  unfold enqueueFullDataset fullEnqueued
  cases found : snapshotFullDataset slot with
  | none => simp [found]
  | some snap => simp [found, enqueueEntryWithSnapshot, enqueueAllocated_run, enqueue, entryFor, Outcome.prepend]

/-- The updates of a batch that concern the block: it watches the attribute, and no purge has
discarded the event. -/
def batchMembers (slot : Slot) (updates : List Update) (committed : List Nat) : List StoredUpdate :=
  (mergeUpdates updates committed).filter fun stored =>
    slot.watches stored.update.attrRef && decide (slot.purgeMark ≤ stored.committed)

def batchSlots (slot : Slot) (updates : List Update) (committed : List Nat) : List TriggeredMember :=
  match slot.state.isBuffering, slot.dataset with
  | true, some dataset =>
    triggeredSlots slot.state.trgOps dataset ((slot.batchMembers updates committed).map (·.update))
  | _, _ => []

def batchFill (slot : Slot) (dataset : Dataset) (updates : List Update) (committed : List Nat)
    (context : List (DataAttributeRef × MmsValue)) : EnqueuedSnapshot → EnqueuedSnapshot :=
  fun snapshot => snapshot.fill slot.live dataset
    { updates := (mergeUpdates updates committed).map (·.update), context }
    (slot.batchSlots updates committed)

def purgeView (slot : Slot) (updates : List Update) (committed : List Nat) : PurgeView where
  purges := slot.purges
  oldestCommit := ((slot.batchMembers updates committed).map (·.committed)).min?.getD 0

def batchJoin (slot : Slot) (dataset : Dataset) (updates : List Update) (committed : List Nat)
    (context : List (DataAttributeRef × MmsValue)) (now : Instant) (nowMs : UInt64) :
    Option BrcbBufTmPending × BrcbBufTmPending :=
  BrcbBufTmPending.join slot.bufTmPending (slot.purgeView updates committed) nowMs (now + slot.state.bufTmMs.toNat)
    dataset.len (slot.batchSlots updates committed) (slot.batchFill dataset updates committed context)

def afterJoin (slot : Slot) (joined : Option BrcbBufTmPending × BrcbBufTmPending) : Slot × List Event :=
  let opened := { slot with bufTmPending := some joined.2 }
  match joined.1 with
  | none => (opened, [])
  | some window => opened.closeWindow window

def batchTaken (slot : Slot) (updates : List Update) (committed : List Nat)
    (context : List (DataAttributeRef × MmsValue)) (now : Instant) (nowMs : UInt64) : Slot × List Event :=
  match slot.dataset with
  | none => (slot, [])
  | some dataset =>
    if (slot.batchSlots updates committed).isEmpty then
      (slot, [])
    else
      slot.afterJoin (slot.batchJoin dataset updates committed context now nowMs)

theorem keepStored_run (stored : List StoredUpdate) : (keepStored stored).run slot =
      { result := stored.filter fun update => decide (slot.purgeMark ≤ update.committed), state := slot } := by
  induction stored with
  | nil => rfl
  | cons update rest ih =>
    by_cases after : slot.purgeMark ≤ update.committed
    · simp [keepStored, storedAfterPurge, ih, after]
    · simp [keepStored, storedAfterPurge, ih, after]

theorem triggerBrcbBatch_run (updates members : List Update) (context : List (DataAttributeRef × MmsValue))
    (purge : PurgeView) (now : Instant) (nowMs : UInt64) {dataset : Dataset} (buffered : slot.state.bufTmMs ≠ 0)
    (buffering : slot.state.isBuffering = true) (bound : slot.dataset = some dataset)
    (reached : (triggeredSlots slot.state.trgOps dataset members).isEmpty = false) :
    let joined := BrcbBufTmPending.join slot.bufTmPending purge nowMs (now + slot.state.bufTmMs.toNat) dataset.len
      (triggeredSlots slot.state.trgOps dataset members)
      (·.fill slot.live dataset { updates, context } (triggeredSlots slot.state.trgOps dataset members))
    ((triggerBrcbBatch updates members context purge now nowMs).run slot).state = (slot.afterJoin joined).1 ∧
      ((triggerBrcbBatch updates members context purge now nowMs).run slot).events = (slot.afterJoin joined).2 := by
  unfold triggerBrcbBatch afterJoin
  simp only [Proc.run_bind, readState_run, Outcome.prepend_nil, buffering, Bool.not_true, Bool.false_eq_true, if_false,
    readSlot_run, bound, reached, if_neg buffered, Proc.run_atomically]
  generalize BrcbBufTmPending.join slot.bufTmPending purge nowMs (now + slot.state.bufTmMs.toNat) dataset.len
    (triggeredSlots slot.state.trgOps dataset members)
    (·.fill slot.live dataset { updates, context } (triggeredSlots slot.state.trgOps dataset members)) = joined
  obtain ⟨completed, opened⟩ := joined
  cases completed with
  | none => simp
  | some window =>
    have closed := enqueueWindowEntry_run { slot with bufTmPending := some opened } window
    simpa [bound] using closed

theorem batchTaken_of_isEmpty {updates : List Update} {committed : List Nat}
    {context : List (DataAttributeRef × MmsValue)} {now : Instant} {nowMs : UInt64}
    (empty : slot.batchSlots updates committed = []) :
    slot.batchTaken updates committed context now nowMs = (slot, []) := by
  unfold batchTaken
  split
  · rfl
  · rw [empty]
    rfl

theorem batchSlots_of_members {updates : List Update} {committed : List Nat}
    (none : slot.batchMembers updates committed = []) : slot.batchSlots updates committed = [] := by
  unfold batchSlots
  rw [none]
  split <;> rfl

theorem triggerBrcbBatch_of_isEmpty (committed : List Nat) (context : List (DataAttributeRef × MmsValue))
    (purge : PurgeView) (now : Instant) (nowMs : UInt64) (empty : slot.batchSlots updates committed = []) :
    (triggerBrcbBatch batch ((slot.batchMembers updates committed).map (·.update)) context purge now nowMs).run slot =
      { result := (), state := slot } := by
  unfold triggerBrcbBatch
  simp only [Proc.run_bind, readState_run, Outcome.prepend_nil]
  cases buffering : slot.state.isBuffering with
  | false => rfl
  | true =>
    simp only [Bool.not_true, Bool.false_eq_true, if_false, Proc.run_bind, readSlot_run, Outcome.prepend_nil]
    cases bound : slot.dataset with
    | none => rfl
    | some dataset =>
      have slots : triggeredSlots slot.state.trgOps dataset
          ((slot.batchMembers updates committed).map (·.update)) = [] := by
        simpa [batchSlots, buffering, bound] using empty
      simp [slots]

theorem onValuesUpdatedWith_run (slot : Slot) (updates : List Update) (committed : List Nat)
    (context : List (DataAttributeRef × MmsValue)) (now : Instant) (nowMs : UInt64)
    (buffered : slot.state.bufTmMs ≠ 0) :
    ((onValuesUpdatedWith updates committed context now nowMs).run slot).state =
        (slot.batchTaken updates committed context now nowMs).1 ∧
      ((onValuesUpdatedWith updates committed context now nowMs).run slot).events =
        (slot.batchTaken updates committed context now nowMs).2 := by
  have members : (((mergeUpdates updates committed).filter fun stored => slot.watches stored.update.attrRef).filter
      fun stored => decide (slot.purgeMark ≤ stored.committed)) = slot.batchMembers updates committed := by
    rw [List.filter_filter, batchMembers]
    congr 1
    funext stored
    rw [Bool.and_comm]
  unfold onValuesUpdatedWith
  simp only [Proc.run_bind, readSlot_run, Outcome.prepend_nil]
  split
  · next unwatched =>
    rw [List.isEmpty_iff.mp unwatched] at members
    rw [batchTaken_of_isEmpty (batchSlots_of_members members.symm)]
    exact ⟨rfl, rfl⟩
  · simp only [Proc.run_bind, purgeCount, readSlot_run, keepStored_run, Outcome.prepend_nil, members]
    cases oldest : ((slot.batchMembers updates committed).map (·.committed)).min? with
    | none =>
      have none : slot.batchMembers updates committed = [] := by simpa using oldest
      rw [batchTaken_of_isEmpty (batchSlots_of_members none)]
      exact ⟨rfl, rfl⟩
    | some oldestCommit =>
      dsimp only
      cases reached : slot.batchSlots updates committed with
      | nil =>
        rw [batchTaken_of_isEmpty reached, triggerBrcbBatch_of_isEmpty updates _ committed context _ now nowMs reached]
        exact ⟨rfl, rfl⟩
      | cons first others =>
        unfold batchSlots at reached
        split at reached
        · next dataset buffering bound =>
          have slots : slot.batchSlots updates committed = triggeredSlots slot.state.trgOps dataset
              ((slot.batchMembers updates committed).map (·.update)) := by
            simp [batchSlots, buffering, bound]
          have purge : slot.purgeView updates committed = { purges := slot.purges, oldestCommit } := by
            simp [purgeView, oldest]
          have ran := triggerBrcbBatch_run ((mergeUpdates updates committed).map (·.update))
            ((slot.batchMembers updates committed).map (·.update)) context
            { purges := slot.purges, oldestCommit } now nowMs buffered buffering bound (by rw [reached]; rfl)
          unfold batchTaken batchJoin batchFill
          simp only [bound, slots, purge]
          rw [if_neg (by simp [reached])]
          exact ran
        · cases reached

end Slot

end Iec61850.Reporting
