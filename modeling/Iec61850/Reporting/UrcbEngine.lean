import Iec61850.Reporting.Trigger
import Iec61850.Reporting.Urcb

/-!
The send path of the reporting engine for one unbuffered report control block, its triggers and its
periodic tick. All of it runs with the engine lock held, so each operation is one step of a run.
-/

namespace Iec61850.Reporting

open Model

inductive RcbEvent where
  | enabled
  | disabled
  /-- a report was encoded under the number the block gave it; the channel, if it is there, has
  `free` places -/
  | attempted (params : ReportEncodeParams) (pdus : List Bytes) (free : Option Nat)
  | dropped
  | accepted (pdu : Bytes)

structure Push where
  delivery : Delivery
  taken : List Bytes
  channel : Channel

def Channel.pushSegments : (channel : Channel) → (sent : Nat) → List Bytes → Push
  | channel, sent, [] => { delivery := .complete sent, taken := [], channel }
  | channel, sent, pdu :: rest =>
    match channel.next.trySendPdu with
    | (.sent, channel) =>
      let later := pushSegments channel (sent + 1) rest
      { later with taken := pdu :: later.taken }
    | (.wouldBlock, channel) => { delivery := .blocked sent (pdu :: rest), taken := [], channel }
    | (.receiverDropped, channel) | (.notFound, channel) => { delivery := .gone, taken := [], channel }

theorem Channel.pushSegments_pushed (channel : Channel) (sent : Nat) (pdus : List Bytes) :
    Pushed sent pdus (channel.pushSegments sent pdus).taken (channel.pushSegments sent pdus).delivery := by
  induction pdus generalizing channel sent with
  | nil => exact .complete
  | cons pdu rest ih =>
    unfold pushSegments
    cases channel.next.trySendPdu with
    | mk outcome channel =>
      cases outcome with
      | sent => exact (ih channel (sent + 1)).cons pdu
      | wouldBlock => exact .blocked [] (pdu :: rest) rfl (by simp)
      | receiverDropped | notFound => exact .gone [] (pdu :: rest) rfl (by simp)

structure RcbSession where
  control : ReportControl
  channel : Channel
  events : List RcbEvent

inductive RcbResumed where
  | idle
  | done (sent : Nat)
  | blocked (sent : Nat)
  | gone

namespace RcbSession

variable (serving : RcbSession)

def setState (state : RcbState) : RcbSession := { serving with control := { serving.control with state } }

def setPartial (partialReport : Option RcbPartialReport) : RcbSession :=
  { serving with control := { serving.control with partialReport } }

def emit (event : RcbEvent) : RcbSession := { serving with events := serving.events ++ [event] }

def pushed (push : Push) : RcbSession :=
  { serving with channel := push.channel, events := serving.events ++ push.taken.map .accepted }

variable (dataset : Dataset) (live : LiveValues) (connId : ConnectionId) (pending : PendingReport) (nowMs : UInt64)

def reportParams : ReportEncodeParams :=
  let state := serving.control.state
  { rptId := state.rptId, optFlds := state.optFlds, sqNum := state.sqNum
    timeOfEntryMs := max pending.timeOfEntryMs nowMs, datSet := state.datSet, confRev := state.confRev
    dataset, pending
    maxPduSizeBytes := (serving.control.peers connId).elim unregisteredMaxPduSizeBytes (·.maxPduSizeBytes) }

/-- Pushes the segments of an encoded report, or drops all of them. A connection that is returned is
to be dropped. -/
def sendPdus (params : ReportEncodeParams) (pdus : List Bytes) : Option ConnectionId × RcbSession :=
  let found := { serving with channel := serving.channel.next }
  let attempted := found.emit (.attempted params pdus found.channel.availableCapacity)
  if !attempted.channel.hasRoom pdus.length reportChannelCap then
    (none, attempted.emit .dropped)
  else if attempted.control.partialReport.isSome then
    -- a report still waiting to finish holds this one back
    (none, attempted.emit .dropped)
  else
    let push := attempted.channel.pushSegments 0 pdus
    let sent := attempted.pushed push
    match push.delivery with
    | .complete _ => (none, sent)
    | .blocked _ rest => (none, sent.setPartial (some { connId, rest }))
    | .gone => (some connId, sent)

def flushPending : Option ConnectionId × RcbSession :=
  let state := serving.control.state
  let numbered := serving.setState { state with sqNum := state.sqNum + 1 }
  match state.dataset with
  | none => (none, numbered)
  | some dataset =>
    let params := serving.reportParams dataset connId pending nowMs
    match encodeReportPdus live params with
    | .error _ =>
      -- the number is taken back, so the client sees no gap
      (none, numbered.setState { numbered.control.state with sqNum := state.sqNum })
    | .ok pdus => numbered.sendPdus connId params pdus

/-- Sends what the channel takes of a report under way; one kept for another connection, or for a
block that is no longer enabled, is forgotten. -/
def resumePartial (connId : Option ConnectionId) (enabled : Bool) : RcbResumed × RcbSession :=
  match serving.control.partialReport with
  | none => (.idle, serving)
  | some report =>
    let taken := serving.setPartial none
    if !enabled || connId != some report.connId then
      (.idle, taken)
    else
      let push := taken.channel.pushSegments 0 report.rest
      let sent := taken.pushed push
      match push.delivery with
      | .complete count => (.done count, sent)
      | .blocked count rest => (.blocked count, sent.setPartial (some { report with rest }))
      | .gone => (.gone, sent)

def dropConnection : Option ConnectionId → RcbSession
  | none => serving
  | some connId => { serving with control := serving.control.onConnectionDropped connId }

end RcbSession

inductive TickAction where
  | none
  | dataChange (pending : PendingReport)
  /-- a report of the whole data set, behind the one pending -/
  | full (pendingDc : Option PendingReport) (pending : PendingReport)

namespace RcbState

variable (state : RcbState)

variable (live : LiveValues) (now : Instant) (nowMs : UInt64) (isIntegrity isGi : Bool)

def fullReport : PendingReport :=
  let datasetLen := state.dataset.elim 0 Dataset.len
  { PendingReport.newEmpty datasetLen nowMs with
    isIntegrity, isGi
    snapshot := state.dataset.elim [] fun dataset => dataset.snapshotValues live }

def makeGiPending : PendingReport := state.fullReport live nowMs false true

def makeIntegrityPending : PendingReport := state.fullReport live nowMs true false

/-- The pending report, if an event waits for its buffer time to elapse. -/
def takeTriggered : Option PendingReport × RcbState :=
  if state.triggered then (state.pending, state.clearPending) else (none, state)

/-- What is due: a general interrogation, or an integrity report, or the report whose buffer time is
over. -/
def decideTick : TickAction × RcbState :=
  if state.trgOps.contains .gi && state.gi then
    let (pendingDc, taken) := state.takeTriggered
    (.full pendingDc (taken.makeGiPending live nowMs), { taken with gi := false })
  else if state.trgOps.contains .integrity && decide (0 < state.intgPdMs)
      && state.nextIntgReport.any (fun deadline => decide (deadline ≤ now)) then
    let (pendingDc, taken) := state.takeTriggered
    (.full pendingDc (taken.makeIntegrityPending live nowMs),
      { taken with nextIntgReport := some (now + state.intgPdMs.toNat) })
  else if state.triggered && state.reportDue.any (fun due => decide (due ≤ now)) then
    match state.pending with
    | some pending => (.dataChange pending, state.clearPending)
    | none => (.none, state)
  else
    (.none, state)

end RcbState

namespace RcbSession

variable (serving : RcbSession)

def perform (live : LiveValues) (connId : ConnectionId) (nowMs : UInt64) : TickAction → Option ConnectionId × RcbSession
  | .none => (none, serving)
  | .dataChange pending => serving.flushPending live connId pending nowMs
  | .full none pending => serving.flushPending live connId pending nowMs
  | .full (some pendingDc) pending =>
    match serving.flushPending live connId pendingDc nowMs with
    | (some connId, sent) => (some connId, sent)
    | (none, sent) => sent.flushPending live connId pending nowMs

variable (live : LiveValues) (update : Update) (batch : BatchValues) (watched : List Nat)
  (members : List TriggeredMember) (now : Instant) (nowMs : UInt64)

def tickIdle : RcbSession :=
  match serving.control.state.rptEna, serving.control.state.clientConnId with
  | true, some connId =>
    let decided := serving.control.state.decideTick live now nowMs
    let performed := (serving.setState decided.2).perform live connId nowMs decided.1
    performed.2.dropConnection performed.1
  | _, _ => serving

def tickAt : RcbSession :=
  let owner := serving.control.state.clientConnId
  match serving.resumePartial owner serving.control.state.rptEna with
  | (.idle, resumed) | (.done _, resumed) => resumed.tickIdle live now nowMs
  | (.blocked _, resumed) => resumed
  | (.gone, resumed) => resumed.dropConnection owner

def addMembers : RcbSession :=
  let state := serving.control.state
  match state.dataset with
  | none => serving
  | some dataset =>
    let pending := state.pending.getD (.newEmpty dataset.len nowMs)
    let (inclusionFlags, snapshot) :=
      fillMembers live dataset batch members pending.inclusionFlags pending.snapshot
    let filled := { pending with inclusionFlags, snapshot }
    if state.triggered then
      serving.setState { state with pending := some filled }
    else
      serving.setState
        { state with
          pending := some { filled with timeOfEntryMs := nowMs }
          triggered := true, reportDue := some (now + state.bufTmMs.toNat) }

/-- A member already in the pending report closes that report first, so the report keeps the values
from before. -/
def closeRetriggered : Option ConnectionId × RcbSession :=
  let state := serving.control.state
  match state.pending, state.clientConnId with
  | some pending, some connId =>
    if retriggers members pending.inclusionFlags then
      (serving.setState state.clearPending).flushPending live connId pending nowMs
    else
      (none, serving)
  | _, _ => (none, serving)

def triggerMembers : RcbSession :=
  if members.isEmpty then
    serving
  else
    let (dropped, closed) := serving.closeRetriggered live members nowMs
    if closed.control.state.rptEna then
      (closed.addMembers live batch members now nowMs).dropConnection dropped
    else
      closed.dropConnection dropped

/-- The updates of `batch` at the positions `watched`, which are those the block watches. -/
def triggerUrcbBatch : RcbSession :=
  let state := serving.control.state
  if state.rptEna then
    let updates := watched.filterMap fun position => batch.updates[position]?
    let members := updates.flatMap fun update => state.dataset.elim [] (update.triggered state.trgOps)
    serving.triggerMembers live batch members now nowMs
  else
    serving

def onValueUpdated : RcbSession :=
  let state := serving.control.state
  if state.rptEna then
    serving.triggerMembers live .none (state.dataset.elim [] (update.triggered state.trgOps)) now nowMs
  else
    serving

end RcbSession

/-- The operations on an unbuffered block, each of them atomic. An operation that sends is given the
channel it finds, in any state and with any behaviour of the receiver meanwhile. -/
inductive UrcbStep where
  | write (field : RcbField) (value : RcbWriteValue) (conn : ConnectionId) (now : Instant)
  | connectionLost (conn : ConnectionId)
  | updates (batch : BatchValues) (watched : List Nat) (live : LiveValues) (channel : Channel) (now : Instant)
      (nowMs : UInt64)
  | update (changed : Update) (live : LiveValues) (channel : Channel) (now : Instant) (nowMs : UInt64)
  | tick (live : LiveValues) (channel : Channel) (now : Instant) (nowMs : UInt64)

def rptEnaEvents (before after : ReportControl) : List RcbEvent :=
  match before.state.rptEna, after.state.rptEna with
  | false, true => [.enabled]
  | true, false => [.disabled]
  | _, _ => []

namespace UrcbStep

def serve (control : ReportControl) : UrcbStep → ReportControl × List RcbEvent
  | .write field value conn now => ((control.handleSetRcbField field value conn now).2, [])
  | .connectionLost conn => (control.onConnectionDropped conn, [])
  | .updates batch watched live channel now nowMs =>
    let served := RcbSession.triggerUrcbBatch { control, channel, events := [] } live batch watched now nowMs
    (served.control, served.events)
  | .update changed live channel now nowMs =>
    let served := RcbSession.onValueUpdated { control, channel, events := [] } live changed now nowMs
    (served.control, served.events)
  | .tick live channel now nowMs =>
    let served := RcbSession.tickAt { control, channel, events := [] } live now nowMs
    (served.control, served.events)

def after (control : ReportControl) (step : UrcbStep) : ReportControl := (step.serve control).1

/-- What an observer sees of an operation. RptEna changes behind everything the operation sends. -/
def events (control : ReportControl) (step : UrcbStep) : List RcbEvent :=
  (step.serve control).2 ++ rptEnaEvents control (step.after control)

end UrcbStep

def runUrcb (steps : List UrcbStep) (control : ReportControl) : ReportControl := steps.foldl UrcbStep.after control

def traceUrcb : List UrcbStep → ReportControl → List RcbEvent
  | [], _ => []
  | step :: rest, control => step.events control ++ traceUrcb rest (step.after control)

end Iec61850.Reporting
