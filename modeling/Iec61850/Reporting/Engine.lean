import Iec61850.Reporting.Control

/-!
The send path of the reporting engine for one buffered report control block, its periodic tick, and
the loss of a connection. All of it runs with the engine lock held.
-/

namespace Iec61850.Reporting

open Concurrency Model

def reportChannelCap : Nat := 32

def unregisteredMaxPduSizeBytes : Nat := 65000

inductive Delivery where
  | complete (sent : Nat)
  | blocked (sent : Nat) (rest : List Bytes)
  | gone

inductive Resumed where
  | idle
  | done (sent : Nat) (entry : EntryId × UInt64)
  | blocked (sent : Nat)
  | gone

def trySendPdu (accepted : Event) : BrcbM SendOutcome :=
  .atomically fun slot =>
    let attempt := slot.channel.next.trySendPdu
    { result := attempt.1, state := { slot with channel := attempt.2 }
      events := if attempt.1 = .sent then [accepted] else [] }

/-- Pushes segments in order until the channel refuses one. `accepted` names the event of the
segment pushed after a given number of others. -/
def pushSegments (accepted : Nat → Bytes → Event) : (sent : Nat) → List Bytes → BrcbM Delivery
  | sent, [] => return .complete sent
  | sent, pdu :: rest => do
      match ← trySendPdu (accepted sent pdu) with
      | .sent => pushSegments accepted (sent + 1) rest
      | .wouldBlock => return .blocked sent (pdu :: rest)
      | .receiverDropped | .notFound => return .gone

/-- The segments the channel took of a push that stopped, or went through, as the delivery says. -/
inductive Pushed (sent : Nat) (pdus : List Bytes) : List Bytes → Delivery → Prop
  | complete : Pushed sent pdus pdus (.complete (sent + pdus.length))
  | blocked (taken left : List Bytes) (split : pdus = taken ++ left) (waits : left ≠ []) :
      Pushed sent pdus taken (.blocked (sent + taken.length) left)
  | gone (taken left : List Bytes) (split : pdus = taken ++ left) (waits : left ≠ []) :
      Pushed sent pdus taken .gone

theorem Pushed.cons {sent : Nat} {pdus taken : List Bytes} {delivery : Delivery} (pdu : Bytes)
    (pushed : Pushed (sent + 1) pdus taken delivery) : Pushed sent (pdu :: pdus) (pdu :: taken) delivery := by
  cases pushed with
  | complete =>
    rw [Nat.add_right_comm, Nat.add_assoc]
    exact .complete
  | blocked _ left split waits =>
    rw [Nat.add_right_comm, Nat.add_assoc]
    exact .blocked (pdu :: taken) left (by rw [split, List.cons_append]) waits
  | gone _ left split waits =>
    exact .gone (pdu :: taken) left (by rw [split, List.cons_append]) waits

variable (slot : Slot) (connId : ConnectionId) (now : Instant) (nowMs : UInt64)

theorem pushSegments_run (accepted : Nat → Bytes → Event) (sent : Nat) (pdus : List Bytes)
    (slot : Slot) : ∃ channel taken delivery, Pushed sent pdus taken delivery ∧
      (pushSegments accepted sent pdus).run slot =
        { result := delivery, state := { slot with channel }
          events := taken.mapIdx fun index pdu => accepted (sent + index) pdu } := by
  induction pdus generalizing sent slot with
  | nil => exact ⟨slot.channel, [], .complete sent, .complete, rfl⟩
  | cons pdu rest ih =>
    unfold pushSegments trySendPdu
    cases attempt : slot.channel.next.trySendPdu with
    | mk outcome channel =>
      cases outcome with
      | sent =>
        obtain ⟨final, taken, delivery, pushed, ran⟩ := ih (sent + 1) { slot with channel }
        refine ⟨final, pdu :: taken, delivery, pushed.cons pdu, ?_⟩
        simp [attempt, ran, Outcome.prepend, List.mapIdx_cons, ← Nat.add_assoc, Nat.add_right_comm sent 1]
      | wouldBlock =>
        exact ⟨channel, [], .blocked sent (pdu :: rest), .blocked [] (pdu :: rest) rfl (by simp),
          by simp [attempt, Outcome.prepend]⟩
      | receiverDropped | notFound =>
        exact ⟨channel, [], .gone, .gone [] (pdu :: rest) rfl (by simp), by simp [attempt, Outcome.prepend]⟩

def channelHasRoom (segments : Nat) : BrcbM Bool :=
  .atomically fun slot =>
    let channel := slot.channel.next
    { result := channel.hasRoom segments reportChannelCap, state := { slot with channel } }

@[simp] theorem channelHasRoom_run (segments : Nat) : (channelHasRoom segments).run slot =
      { result := slot.channel.next.hasRoom segments reportChannelCap
        state := { slot with channel := slot.channel.next } } := by
  simp [channelHasRoom]

theorem pushSegments_ne_blocked (accepted : Nat → Bytes → Event) (left : List Bytes) {pdus : List Bytes} {slot : Slot}
    (room : slot.channel.hasRoom pdus.length reportChannelCap = true) (some : pdus ≠ []) :
    ((pushSegments accepted 0 pdus).run slot).result ≠ .blocked 0 left := by
  cases pdus with
  | nil => exact absurd rfl some
  | cons pdu rest =>
    have taken := Channel.trySendPdu_ne_wouldBlock room (by simp) (by decide)
    unfold pushSegments trySendPdu
    cases attempt : slot.channel.next.trySendPdu with
    | mk outcome channel =>
      cases outcome with
      | sent =>
        obtain ⟨final, more, delivery, pushed, ran⟩ := pushSegments_run accepted 1 rest { slot with channel }
        simp only [Proc.run_bind, Proc.run_atomically, attempt, ran, Outcome.prepend_result]
        cases pushed with
        | complete => simp
        | blocked _ later split =>
          simp only [ne_eq, Delivery.blocked.injEq]
          omega
        | gone _ later split => simp
      | wouldBlock => exact absurd (by rw [attempt]) taken
      | receiverDropped | notFound => simp [attempt]

def takePartial (wanted : PartialReport → Bool) : BrcbM (Option PartialReport) :=
  .atomically fun slot =>
    match slot.partialReport with
    | some partialReport =>
      if wanted partialReport then
        { result := some partialReport, state := { slot with partialReport := none } }
      else
        { result := none, state := slot }
    | none => { result := none, state := slot }

def keepPartial (entry : EntryId × UInt64) (rest : List Bytes) : BrcbM Unit :=
  modifySlot fun slot => { slot with partialReport := some { connId, entry, rest } }

@[simp] theorem keepPartial_run (entry : EntryId × UInt64) (rest : List Bytes) :
    (keepPartial connId entry rest).run slot =
      { result := (), state := { slot with partialReport := some { connId, entry, rest } } } := by
  simp [keepPartial]

/-- Gives up what is left of a report, if it is the one wanted: its entry counts as unformatted
again. -/
def forgetPartialIf (wanted : PartialReport → Bool) : BrcbM Unit := do
  if (← takePartial wanted).isSome then
    rewindFormatted

def forgetPartial : BrcbM Unit := forgetPartialIf fun _ => true

def Slot.forgotten : Slot :=
  { slot with
    partialReport := none
    reportBuffer :=
      if slot.partialReport.isSome then slot.reportBuffer.setFormattedThrough slot.state.rewindPoint
      else slot.reportBuffer }

theorem Slot.forgotten_of_clear {slot : Slot} (clear : slot.partialReport = none) : slot.forgotten = slot := by
  cases slot
  simp_all [forgotten]

@[simp] theorem forgetPartialIf_run (wanted : PartialReport → Bool) :
    (forgetPartialIf wanted).run slot =
      { result := (), state := if slot.partialReport.any wanted then slot.forgotten else slot } := by
  rw [forgetPartialIf, Proc.run_bind, takePartial, Proc.run_atomically]
  cases kept : slot.partialReport with
  | none => simp
  | some report =>
    cases wants : wanted report with
    | true => simp [wants, rewindFormatted, Slot.forgotten, kept]
    | false => simp [wants]

@[simp] theorem forgetPartial_run : forgetPartial.run slot = { result := (), state := slot.forgotten } := by
  rw [forgetPartial, forgetPartialIf_run]
  cases kept : slot.partialReport with
  | none => simp [Slot.forgotten_of_clear kept]
  | some report => simp

def resumePartial (connId : Option ConnectionId) (enabled : Bool) : BrcbM Resumed := do
  match ← takePartial fun _ => true with
  | none => return .idle
  | some partialReport =>
    if !enabled || connId != some partialReport.connId then
      return .idle
    else
      match ← pushSegments (fun _ pdu => .continued pdu) 0 partialReport.rest with
      | .complete sent => return .done sent partialReport.entry
      | .blocked sent rest =>
        keepPartial partialReport.connId partialReport.entry rest
        return .blocked sent
      | .gone => return .gone

theorem mapIdx_continued (pdus : List Bytes) :
    (pdus.mapIdx fun _ pdu => Event.continued pdu) = pdus.map .continued :=
  List.ext_getElem (by simp) (by simp)

theorem resumePartial_run {slot : Slot} {report : PartialReport} (kept : slot.partialReport = some report) :
    ∃ channel taken delivery, Pushed 0 report.rest taken delivery ∧
      (resumePartial (some report.connId) true).run slot =
        { result :=
            match delivery with
            | .complete sent => .done sent report.entry
            | .blocked sent _ => .blocked sent
            | .gone => .gone
          state := { slot with
            channel
            partialReport :=
              match delivery with
              | .blocked _ left => some { report with rest := left }
              | .complete _ | .gone => none }
          events := taken.map .continued } := by
  obtain ⟨channel, taken, delivery, pushed, ran⟩ := pushSegments_run (fun _ pdu => .continued pdu) 0 report.rest
    { slot with partialReport := none }
  refine ⟨channel, taken, delivery, pushed, ?_⟩
  simp only [resumePartial, takePartial, Proc.run_bind, Proc.run_atomically, kept, if_true, Bool.not_true,
    Bool.false_or, bne_self_eq_false, Bool.false_eq_true, if_false, ran, mapIdx_continued, Outcome.prepend_nil]
  cases delivery with
  | complete sent | blocked sent left | gone => simp [Outcome.prepend]

theorem resumePartial_clear {slot : Slot} {connId : Option ConnectionId} {enabled : Bool}
    (clear : slot.partialReport = none) :
    (resumePartial connId enabled).run slot = { result := .idle, state := slot } := by
  simp [resumePartial, takePartial, clear]

/-- The buffered half of the loss of a connection; the unbuffered half concerns other control
blocks. -/
def onConnectionDropped : BrcbM Unit := do
  forgetPartialIf fun partialReport => partialReport.connId == connId
  lockState fun state =>
    if state.clientConnId = some connId then
      { result := (), state := state.connectionDropped now, events := if state.rptEna then [.disabled] else [] }
    else
      { result := (), state }

theorem onConnectionDropped_run : (onConnectionDropped connId now).run slot =
      let left := if slot.partialReport.any (·.connId == connId) then slot.forgotten else slot
      if slot.state.clientConnId = some connId then
        { result := (), state := { left with state := slot.state.connectionDropped now }
          events := if slot.state.rptEna then [.disabled] else [] }
      else
        { result := (), state := left } := by
  have state : (if slot.partialReport.any (·.connId == connId) then slot.forgotten else slot).state =
      slot.state := by
    split <;> rfl
  unfold onConnectionDropped
  simp only [Proc.run_bind, forgetPartialIf_run, lockState_run, Outcome.prepend_nil, state]
  split
  · rfl
  · rw [← state]

def brcbEntrySent (id : EntryId) (timeOfEntryMs : UInt64) : BrcbM Unit :=
  lockState fun state =>
    { result := (), state := state.entrySent id timeOfEntryMs, events := [.completed id] }

def entryFormatted (id : EntryId) : BrcbM Unit := do
  modifyBuffer fun buffer => buffer.clearOverflow.markFormatted id
  modifyState fun state => { state with overflowOnEnable := false }

@[simp] theorem brcbEntrySent_run (id : EntryId) (timeOfEntryMs : UInt64) :
    (brcbEntrySent id timeOfEntryMs).run slot =
      { result := (), state := { slot with state := slot.state.entrySent id timeOfEntryMs }
        events := [.completed id] } := by
  simp [brcbEntrySent]

def Slot.formatted (id : EntryId) : Slot :=
  { slot with
    reportBuffer := slot.reportBuffer.clearOverflow.markFormatted id
    state := { slot.state with overflowOnEnable := false } }

@[simp] theorem entryFormatted_run (id : EntryId) :
    (entryFormatted id).run slot = { result := (), state := slot.formatted id } := by
  simp [entryFormatted, Slot.formatted]

structure FlushContext where
  connId : ConnectionId
  now : Instant
  rptId : String
  optFlds : OptFlds
  datSet : String
  confRev : UInt32
  dataset : Dataset
  maxPduSizeBytes : Nat

def FlushContext.encode (context : FlushContext) (live : LiveValues) (sqNum : UInt16) (isOverflow : Bool)
    (entry : ReportEntry) : Except ReportEncodeError (List Bytes) :=
  encodeBrcbReportPdus live
    { rptId := context.rptId, optFlds := context.optFlds, sqNum, timeOfEntryMs := entry.timeOfEntryMs
      datSet := context.datSet, confRev := context.confRev, entryId := entry.entryId, isOverflow
      dataset := context.dataset, pending := pendingFromBrcbEntry entry context.dataset.len
      maxPduSizeBytes := context.maxPduSizeBytes }

def segmentEvents (id : EntryId) (bufOvfl : Bool) : List Bytes → List Event
  | [] => []
  | pdu :: rest => .started id bufOvfl pdu :: rest.map .continued

def segmentAccepted (id : EntryId) (isOverflow : Bool) : Nat → Bytes → Event
  | 0, pdu => .started id isOverflow pdu
  | _ + 1, pdu => .continued pdu

theorem mapIdx_segmentAccepted (id : EntryId) (isOverflow : Bool) (pdus : List Bytes) :
    (pdus.mapIdx fun index pdu => segmentAccepted id isOverflow (0 + index) pdu) =
      segmentEvents id isOverflow pdus := by
  cases pdus with
  | nil => rfl
  | cons pdu rest =>
    rw [List.mapIdx_cons, segmentEvents, ← mapIdx_continued]
    simp only [segmentAccepted]

/-- The loop of a pass over the entries after the anchor. The overflow indication is implied for the
entries up to and including the first one sent. -/
def flushEntries (context : FlushContext) : (implyOverflow : Bool) → (sentCount : Nat) → List ReportEntry → BrcbM Nat
  | _, sentCount, [] => return sentCount
  | implyOverflow, sentCount, entry :: rest => do
      let (sqNum, live) ← readSlot fun slot => (slot.state.sqNum, slot.live)
      match context.encode live sqNum implyOverflow entry with
      | .error _ =>
        -- an entry that cannot be encoded is dropped: the anchor moves past it
        modifyState fun state => { state with transmitAnchor := .afterEntryId entry.entryId }
        flushEntries context implyOverflow sentCount rest
      | .ok pdus =>
        if !(← channelHasRoom pdus.length) then
          return sentCount
        else
          match ← pushSegments (segmentAccepted entry.entryId implyOverflow) 0 pdus with
          | .complete _ =>
            entryFormatted entry.entryId
            brcbEntrySent entry.entryId entry.timeOfEntryMs
            flushEntries context false (sentCount + 1) rest
          | .blocked sent left =>
            (if 0 < sent then entryFormatted entry.entryId else pure ())
            keepPartial context.connId (entry.entryId, entry.timeOfEntryMs) left
            return sentCount
          | .gone =>
            onConnectionDropped context.connId context.now
            return sentCount

/-- The entries a pass starts from and whether the first of them implies an overflow; `none` when
the anchor gives it nothing to send. -/
def entriesAtAnchor (anchor : TransmitAnchor) (resyncedOn : EntryId) :
    BrcbM (Option (List ReportEntry × Bool)) := do
  match anchor with
  | .none => return none
  | .fromHead =>
    let entries ← readBuffer (·.entries)
    return some (entries, true)
  | .afterEntryId after =>
    let (entries, overflow) ← readBuffer fun buffer => (buffer.iterFrom after, buffer.overflow)
    return some (entries, overflow)
  | .waitingForNext =>
    let (entries, overflow) ← readBuffer fun buffer => (buffer.iterFrom resyncedOn, buffer.overflow)
    if entries.isEmpty then
      return none
    else
      -- a newer entry is buffered although no enqueue resolved the anchor
      modifyState fun state =>
        if state.transmitAnchor = .waitingForNext then
          { state with transmitAnchor := .afterEntryId resyncedOn }
        else
          state
      return some (entries, overflow)

def flushFromAnchor (sentCount : Nat) : BrcbM Nat := do
  let (anchor, resyncedOn, overflowOnEnable) ← readState fun state =>
    (state.transmitAnchor, state.lastCommittedEntryId, state.overflowOnEnable)
  let (rptId, optFlds, datSet, confRev) ← readState fun state =>
    (state.rptId, state.optFlds, state.datSet, state.confRev)
  match ← entriesAtAnchor anchor resyncedOn with
  | none => return sentCount
  | some (entries, overflow) =>
    let (dataset, maxPduSizeBytes) ← readSlot fun slot =>
      (slot.dataset.getD { name := datSet, entries := [] },
        (slot.peers connId).elim unregisteredMaxPduSizeBytes (·.maxPduSizeBytes))
    flushEntries { connId, now, rptId, optFlds, datSet, confRev, dataset, maxPduSizeBytes }
      (overflow || overflowOnEnable) sentCount entries

/-- One pass of the transmission to the client that holds the block: what is left of a report goes
first, then the entries behind the anchor. It returns how many reports are through. -/
def flushBrcbPending : BrcbM Nat := do
  match ← resumePartial (some connId) true with
  | .idle => flushFromAnchor connId now 0
  | .done _ entry =>
    brcbEntrySent entry.1 entry.2
    flushFromAnchor connId now 1
  | .blocked _ => return 0
  | .gone =>
    onConnectionDropped connId now
    return 0

def snapshotFullDataset : Option EnqueuedSnapshot :=
  slot.dataset.map fun dataset =>
    { EnqueuedSnapshot.new dataset.len with values := dataset.snapshotValues slot.live }

def expireWindow : BrcbM Unit := do
  let due ← .atomically fun slot =>
    match slot.bufTmPending with
    | some window =>
      if window.dueAt ≤ now then
        { result := some window, state := { slot with bufTmPending := none } }
      else
        { result := none, state := slot }
    | none => { result := none, state := slot }
  match due with
  | none => return ()
  | some window =>
    let _ ← enqueueWindowEntry window.purges window.oldestCommit window.firstTriggerMs window.snapshot

def enqueueFullDataset (isIntegrity isGi : Bool) : BrcbM Bool := do
  match ← readSlot snapshotFullDataset with
  | none => return false
  | some snap =>
    let _ ← enqueueEntryWithSnapshot nowMs isIntegrity isGi snap
    return true

/-- What a tick does for a block once new entries are in the buffer, with RptEna and the holder as
the tick copied them: a disabled block starts its next transmission afresh, an enabled one is
flushed. -/
def serveBrcb (rptEna : Bool) (connId : Option ConnectionId) (now : Instant) : BrcbM Unit :=
  if !rptEna then
    forgetPartial
  else
    match connId with
    | none => pure ()
    | some connId => do
        let _ ← flushBrcbPending connId now

def tickGi (wanted : Bool) (nowMs : UInt64) : BrcbM Unit := do
  if wanted then
    if ← enqueueFullDataset nowMs false true then
      modifyState fun state => { state with gi := false }

def tickIntegrity (wanted : Bool) (intgPdMs : UInt32) (now : Instant) (nowMs : UInt64) : BrcbM Unit := do
  if wanted then
    if ← readSlot fun slot => slot.nextIntg.any fun deadline => decide (deadline ≤ now) then
      if ← enqueueFullDataset nowMs true false then
        modifySlot fun slot => { slot with nextIntg := some (now + intgPdMs.toNat) }

/-- One tick for the block: the due window, general interrogation, integrity period, then the
flush. -/
def tickBrcb : BrcbM Unit := do
  expireWindow now
  let (rptEna, connId, giPending, intgPdMs, trgOps) ← readState fun state =>
    (state.rptEna, state.clientConnId, state.gi, state.intgPdMs, state.trgOps)
  tickGi (rptEna && trgOps.contains .gi && giPending) nowMs
  tickIntegrity (rptEna && trgOps.contains .integrity && decide (0 < intgPdMs)) intgPdMs now nowMs
  serveBrcb rptEna connId now

def flushAllBrcbPending : BrcbM Nat := do
  match ← readState fun state => if state.rptEna then state.clientConnId else none with
  | none => return 0
  | some connId => flushBrcbPending connId now

def tickBrcbReservations : BrcbM Bool :=
  lockState fun state =>
    let ticked := state.tickReservation now
    { result := ticked.1, state := ticked.2 }

def refreshBrcbIntegrityPeriod : BrcbM Unit := do
  forgetPartial
  let intgPdMs ← readState (·.intgPdMs)
  modifySlot fun slot =>
    { slot with nextIntg := if 0 < intgPdMs then some (now + intgPdMs.toNat) else none }

theorem refreshBrcbIntegrityPeriod_run : (refreshBrcbIntegrityPeriod now).run slot =
      { result := ()
        state := { slot.forgotten with
          nextIntg := if 0 < slot.state.intgPdMs then some (now + slot.state.intgPdMs.toNat) else none } } := by
  simp [refreshBrcbIntegrityPeriod, Slot.forgotten]

end Iec61850.Reporting
