import Iec61850.Reporting.Section

/-!
Unbuffered report control blocks: SetURCBValues, and the loss of a connection. Both run under the
engine lock from beginning to end, so each of them is one step.
-/

namespace Iec61850.Reporting

open Model Mms

structure Rcb where
  name : String
  rptId : String
  datasetName : String
  confRev : UInt32
  trgOps : TriggerOptions
  optFlds : OptFlds
  bufTmMs : UInt32
  intgPdMs : UInt32
  clientReservation : Option IpAddr
  withOwner : Bool

structure RcbState where
  rptId : String
  rptEna : Bool
  resv : Bool
  datSet : String
  confRev : UInt32
  optFlds : OptFlds
  bufTmMs : UInt32
  sqNum : UInt8
  trgOps : TriggerOptions
  intgPdMs : UInt32
  gi : Bool
  owner : Option IpAddr
  clientConnId : Option ConnectionId
  dataset : Option Dataset
  pending : Option PendingReport
  triggered : Bool
  reportDue : Option Instant
  nextIntgReport : Option Instant

namespace RcbState

def fromRcb (rcb : Rcb) : RcbState where
  rptId := rcb.rptId
  rptEna := false
  resv := false
  datSet := rcb.datasetName
  confRev := rcb.confRev
  optFlds := rcb.optFlds
  bufTmMs := rcb.bufTmMs
  sqNum := 0
  trgOps := rcb.trgOps
  intgPdMs := rcb.intgPdMs
  gi := false
  owner := none
  clientConnId := none
  dataset := none
  pending := none
  triggered := false
  reportDue := none
  nextIntgReport := none

variable (state : RcbState)

def increaseConfRev : RcbState :=
  let next := state.confRev + 1
  { state with confRev := if next = 0 then 1 else next }

def clearPending : RcbState := { state with pending := none, triggered := false, reportDue := none }

def reserve (conn : ConnectionId) (owner : Option IpAddr) : RcbState :=
  { state with resv := true, clientConnId := some conn, owner }

def release : RcbState := { state with resv := false, clientConnId := none, owner := none }

def unreserved : Bool := !state.resv && state.clientConnId.isNone

def configuration : Configuration where
  rptId := state.rptId
  datSet := state.datSet
  confRev := state.confRev
  optFlds := state.optFlds
  bufTmMs := state.bufTmMs
  trgOps := state.trgOps
  intgPdMs := state.intgPdMs

end RcbState

structure RcbPartialReport where
  connId : ConnectionId
  rest : List Bytes

structure ReportControl where
  mmsPath : String
  rcb : Rcb
  state : RcbState
  partialReport : Option RcbPartialReport
  datasetRegistry : String × String → Option Dataset
  peers : ConnectionId → Option Peer

namespace ReportControl

variable (mmsPath datSet : String) (field : RcbField) (value : RcbWriteValue)

def registered (rcb : Rcb) (dataset : Dataset) (datasetRegistry : String × String → Option Dataset)
    (peers : ConnectionId → Option Peer) : ReportControl where
  mmsPath
  rcb
  state := { RcbState.fromRcb rcb with datSet := qualifiedDatSet mmsPath rcb.datasetName, dataset := some dataset }
  partialReport := none
  datasetRegistry
  peers

variable (control : ReportControl)

def peer (conn : ConnectionId) : Option IpAddr := (control.peers conn).map (·.ip)

def resolveDataset : Option Dataset :=
  (datasetKey control.mmsPath datSet).bind control.datasetRegistry

def setState (state : RcbState) : Answer × ReportControl := (.accepted, { control with state })

def refuse (error : DataAccessError) : Answer × ReportControl := (.refused error, control)

def setResv (conn : ConnectionId) : RcbWriteValue → Answer × ReportControl
  | .bool requested =>
    let state := control.state
    if requested && (state.resv && state.clientConnId != some conn) then
      control.refuse .temporarilyUnavailable
    else if !requested && (state.clientConnId.isSome && state.clientConnId != some conn) then
      control.refuse .objectAccessDenied
    else if state.rptEna then
      control.refuse .temporarilyUnavailable
    else if requested then
      control.setState (state.reserve conn (control.peer conn))
    else
      control.setState state.release
  | _ => control.refuse .typeInconsistent

def setRptEna (conn : ConnectionId) (now : Instant) : RcbWriteValue → Answer × ReportControl
  | .bool true =>
    let state := control.state
    if state.datSet.isEmpty then
      control.refuse .temporarilyUnavailable
    else if state.rptEna then
      control.setState state
    else
      -- an unreserved block is reserved for the client that enables it
      let state := if state.unreserved then state.reserve conn (control.peer conn) else state
      control.setState
        { state with
          rptEna := true, sqNum := 0
          nextIntgReport := if 0 < state.intgPdMs then some (now + state.intgPdMs.toNat) else none }
  | .bool false =>
    if !control.state.rptEna then
      control.setState control.state
    else
      (.accepted, { control with state := { control.state.clearPending with rptEna := false }, partialReport := none })
  | _ => control.refuse .typeInconsistent

def setGi : RcbWriteValue → Answer × ReportControl
  | .bool true =>
    if !control.state.rptEna then
      (.refused .temporarilyUnavailable, { control with state := { control.state with gi := false } })
    else if !control.state.trgOps.contains .gi then
      control.setState control.state
    else
      control.setState { control.state with gi := true }
  | .bool false => control.setState control.state
  | _ => control.refuse .typeInconsistent

def setRptId : RcbWriteValue → Answer × ReportControl
  | .visibleString text =>
    if 129 < stringLen text then
      control.refuse .objectValueInvalid
    else
      control.setState { control.state with rptId := text }
  | _ => control.refuse .typeInconsistent

def bindDataset (dataset : Option Dataset) : Answer × ReportControl :=
  control.setState { control.state.clearPending with dataset, datSet }.increaseConfRev

def setDatSet : RcbWriteValue → Answer × ReportControl
  | .visibleString text =>
    let datSet := qualifiedDatSet control.mmsPath text
    if datSet = control.state.datSet then
      control.setState control.state
    else if datSet.isEmpty then
      control.bindDataset datSet none
    else
      match control.resolveDataset datSet with
      | some dataset => control.bindDataset datSet (some dataset)
      | none => control.refuse .objectValueInvalid
  | _ => control.refuse .typeInconsistent

def setOptFlds : RcbWriteValue → Answer × ReportControl
  | .bitString bytes =>
    match OptFlds.fromBerBitString bytes with
    | some fields => control.setState { control.state with optFlds := fields.maskUrcb }
    | none => control.refuse .typeInconsistent
  | _ => control.refuse .typeInconsistent

def setTrgOps : RcbWriteValue → Answer × ReportControl
  | .bitString bytes =>
    match TriggerOptions.fromBerBitString bytes with
    | some options => control.setState { control.state with trgOps := options }
    | none => control.refuse .typeInconsistent
  | _ => control.refuse .typeInconsistent

def setBufTm : RcbWriteValue → Answer × ReportControl
  | .unsigned ms => control.setState { control.state with bufTmMs := ms }
  | _ => control.refuse .typeInconsistent

def setIntgPd : RcbWriteValue → Answer × ReportControl
  | .unsigned ms => control.setState { control.state with intgPdMs := ms }
  | _ => control.refuse .typeInconsistent

def setWhileDisabled (write : Answer × ReportControl) : Answer × ReportControl :=
  if control.state.rptEna then control.refuse .temporarilyUnavailable else write

def setField (conn : ConnectionId) (now : Instant) : Answer × ReportControl :=
  match field with
  | .rptEna => control.setRptEna conn now value
  | .gi => control.setGi value
  | .rptId => control.setWhileDisabled (control.setRptId value)
  | .datSet => control.setWhileDisabled (control.setDatSet value)
  | .optFlds => control.setWhileDisabled (control.setOptFlds value)
  | .bufTm => control.setWhileDisabled (control.setBufTm value)
  | .trgOps => control.setWhileDisabled (control.setTrgOps value)
  | .intgPd => control.setWhileDisabled (control.setIntgPd value)
  | _ => control.refuse .objectNonExistent

def handleSetRcbField (conn : ConnectionId) (now : Instant) : Answer × ReportControl :=
  match field with
  | .confRev | .sqNum => control.refuse .objectAccessDenied
  | .owner => control.refuse (if control.rcb.withOwner then .objectAccessDenied else .objectNonExistent)
  | .resv => control.setResv conn value
  | field =>
    if !control.state.unreserved && (!control.state.resv || control.state.clientConnId != some conn) then
      control.refuse .objectAccessDenied
    else
      control.setField field value conn now

def onConnectionDropped (conn : ConnectionId) : ReportControl :=
  let control :=
    { control with partialReport := control.partialReport.filter fun report => report.connId != conn }
  if control.state.clientConnId = some conn then
    { control with
      state := { control.state.clearPending with rptEna := false, clientConnId := none, resv := false, gi := false } }
  else
    control

end ReportControl

structure RcbRights where
  rcb : Rcb
  peers : ConnectionId → Option Peer
  rptEna : Bool
  resv : Bool
  clientConnId : Option ConnectionId

namespace ReportControl

def rights (control : ReportControl) : RcbRights where
  rcb := control.rcb
  peers := control.peers
  rptEna := control.state.rptEna
  resv := control.state.resv
  clientConnId := control.state.clientConnId

def OpenTo (control : ReportControl) (conn : ConnectionId) : Prop :=
  control.state.unreserved = true ∨ control.state.resv = true ∧ control.state.clientConnId = some conn

/-- What a write by `conn` can do to the rights and to the configuration. -/
inductive Written (conn : ConnectionId) (before : ReportControl) : Answer → ReportControl → Prop
  | refused (error : DataAccessError) (after : ReportControl) (rights : after.rights = before.rights)
      (configuration : after.state.configuration = before.state.configuration) :
      Written conn before (.refused error) after
  | reserved (after : ReportControl) (free : before.state.resv = true → before.state.clientConnId = some conn)
      (disabled : before.state.rptEna = false)
      (rights : after.rights = { before.rights with resv := true, clientConnId := some conn }) :
      Written conn before .accepted after
  | released (after : ReportControl)
      (mine : ∀ holder, before.state.clientConnId = some holder → holder = conn)
      (disabled : before.state.rptEna = false)
      (rights : after.rights = { before.rights with resv := false, clientConnId := none }) :
      Written conn before .accepted after
  | enabled (after : ReportControl) (entitled : before.OpenTo conn) (disabled : before.state.rptEna = false)
      (rights : after.rights =
        { before.rights with
          rptEna := true, resv := true
          clientConnId :=
            if before.state.unreserved then some conn else before.state.clientConnId }) :
      Written conn before .accepted after
  | disabled (after : ReportControl) (entitled : before.OpenTo conn)
      (rights : after.rights = { before.rights with rptEna := false })
      (configuration : after.state.configuration = before.state.configuration) : Written conn before .accepted after
  | field (after : ReportControl) (entitled : before.OpenTo conn) (rights : after.rights = before.rights)
      (configuration : before.state.rptEna = true → after.state.configuration = before.state.configuration) :
      Written conn before .accepted after

variable {control before after : ReportControl} {conn : ConnectionId} {answer : Answer}

theorem Written.refuse (error : DataAccessError) :
    Written conn control (control.refuse error).1 (control.refuse error).2 :=
  .refused error control rfl rfl

theorem Written.setSame (entitled : control.OpenTo conn) :
    Written conn control (control.setState control.state).1 (control.setState control.state).2 :=
  .field control entitled rfl (fun _ => rfl)

variable (now : Instant) (field : RcbField) (value : RcbWriteValue)

theorem Written.setResv : Written conn control (control.setResv conn value).1 (control.setResv conn value).2 := by
  cases value with
  | bool requested =>
    unfold ReportControl.setResv
    dsimp only
    split_ifs with taken foreign enabled reserving
    · exact .refuse _
    · exact .refuse _
    · exact .refuse _
    · refine .reserved _ ?_ (by simpa using enabled) rfl
      intro held
      simpa [reserving, held] using taken
    · refine .released _ ?_ (by simpa using enabled) rfl
      intro holder held
      simpa [reserving, held] using foreign
  | unsigned _ | integer _ | visibleString _ | bitString _ | octetString _ => exact .refuse _

theorem Written.setRptEna (entitled : control.OpenTo conn) (now : Instant) (value : RcbWriteValue) :
    Written conn control (control.setRptEna conn now value).1 (control.setRptEna conn now value).2 := by
  cases value with
  | bool requested =>
    cases requested with
    | true =>
      unfold ReportControl.setRptEna
      dsimp only
      split
      · exact .refuse _
      split
      · exact .setSame entitled
      next disabled =>
      refine .enabled _ entitled (by simpa using disabled) ?_
      rcases entitled with free | ⟨reserved, mine⟩
      · simp [setState, rights, RcbState.reserve, free]
      · simp [setState, rights, RcbState.unreserved, reserved]
    | false =>
      unfold ReportControl.setRptEna
      split_ifs with disabled
      · exact .setSame entitled
      · exact .disabled _ entitled rfl rfl
  | unsigned _ | integer _ | visibleString _ | bitString _ | octetString _ => exact .refuse _

theorem Written.setGi (entitled : control.OpenTo conn) (value : RcbWriteValue) :
    Written conn control (control.setGi value).1 (control.setGi value).2 := by
  cases value with
  | bool requested =>
    cases requested with
    | true =>
      unfold ReportControl.setGi
      split_ifs
      · exact .refused _ _ rfl rfl
      · exact .setSame entitled
      · exact .field _ entitled rfl (fun _ => rfl)
    | false => exact .setSame entitled
  | unsigned _ | integer _ | visibleString _ | bitString _ | octetString _ => exact .refuse _

theorem Written.setWhileDisabled (entitled : control.OpenTo conn) {write : Answer × ReportControl}
    (outcome : (∃ error, write = control.refuse error) ∨ write.1 = .accepted ∧ write.2.rights = control.rights) :
    Written conn control (control.setWhileDisabled write).1 (control.setWhileDisabled write).2 := by
  unfold ReportControl.setWhileDisabled
  split_ifs with enabled
  · exact .refuse _
  · rcases outcome with ⟨error, rfl⟩ | ⟨accepted, rights⟩
    · exact .refuse error
    · rw [accepted]
      exact .field _ entitled rights (fun isEnabled => absurd isEnabled enabled)

theorem setDatSet_outcome : (∃ error, control.setDatSet value = control.refuse error) ∨
      (control.setDatSet value).1 = .accepted ∧ (control.setDatSet value).2.rights = control.rights := by
  cases value with
  | visibleString text =>
    unfold setDatSet
    dsimp only
    split_ifs
    · exact .inr ⟨rfl, rfl⟩
    · exact .inr ⟨rfl, rfl⟩
    · split
      · exact .inr ⟨rfl, rfl⟩
      · exact .inl ⟨_, rfl⟩
  | bool _ | unsigned _ | integer _ | bitString _ | octetString _ => exact .inl ⟨_, rfl⟩

theorem Written.setField (entitled : control.OpenTo conn) (field : RcbField) (value : RcbWriteValue) (now : Instant) :
    Written conn control (control.setField field value conn now).1 (control.setField field value conn now).2 := by
  cases field with
  | rptEna => exact .setRptEna entitled now value
  | gi => exact .setGi entitled value
  | datSet => exact .setWhileDisabled entitled (setDatSet_outcome value)
  | rptId =>
    refine .setWhileDisabled entitled ?_
    unfold setRptId
    split
    · split_ifs
      · exact .inl ⟨_, rfl⟩
      · exact .inr ⟨rfl, rfl⟩
    · exact .inl ⟨_, rfl⟩
  | optFlds =>
    refine .setWhileDisabled entitled ?_
    unfold setOptFlds
    split
    · split
      · exact .inr ⟨rfl, rfl⟩
      · exact .inl ⟨_, rfl⟩
    · exact .inl ⟨_, rfl⟩
  | trgOps =>
    refine .setWhileDisabled entitled ?_
    unfold setTrgOps
    split
    · split
      · exact .inr ⟨rfl, rfl⟩
      · exact .inl ⟨_, rfl⟩
    · exact .inl ⟨_, rfl⟩
  | bufTm | intgPd =>
    refine .setWhileDisabled entitled ?_
    cases value with
    | unsigned ms => exact .inr ⟨rfl, rfl⟩
    | bool _ | integer _ | visibleString _ | bitString _ | octetString _ => exact .inl ⟨_, rfl⟩
  | resv | confRev | sqNum | owner | entryId | purgeBuf | timeOfEntry | resvTms | unknown _ => exact .refuse _

theorem handleSetRcbField_written (conn : ConnectionId) (now : Instant) :
    Written conn control (control.handleSetRcbField field value conn now).1
      (control.handleSetRcbField field value conn now).2 := by
  have checked : ∀ field, Written conn control
      (if !control.state.unreserved && (!control.state.resv || control.state.clientConnId != some conn) then
        control.refuse .objectAccessDenied else control.setField field value conn now).1
      (if !control.state.unreserved && (!control.state.resv || control.state.clientConnId != some conn) then
        control.refuse .objectAccessDenied else control.setField field value conn now).2 := by
    intro field
    split_ifs with keptOut
    · exact .refuse _
    · refine .setField ?_ field value now
      unfold OpenTo
      cases unreserved : control.state.unreserved with
      | true => exact .inl rfl
      | false => exact .inr (by simpa [unreserved] using keptOut)
  cases field with
  | confRev | sqNum | owner => exact .refuse _
  | resv => exact .setResv value
  | rptId | rptEna | datSet | optFlds | bufTm | trgOps | intgPd | gi | entryId | purgeBuf | timeOfEntry | resvTms
  | unknown _ => exact checked _

def Bound (control : ReportControl) : Prop :=
  control.state.datSet.isEmpty = false → control.state.dataset.isSome = true

/-- What a write can do to reporting itself: RptEna, GI, the sequence number, the data set and a
report under way. -/
inductive Switched (before : ReportControl) : ReportControl → Prop
  | kept (after : ReportControl) (rptEna : after.state.rptEna = before.state.rptEna)
      (sqNum : after.state.sqNum = before.state.sqNum) (partialReport : after.partialReport = before.partialReport)
      (gi : after.state.gi = true → before.state.gi = true ∨ before.state.rptEna = true)
      (dataset : before.state.rptEna = true → after.state.dataset = before.state.dataset)
      (bound : before.Bound → after.Bound) : Switched before after
  | enabled (after : ReportControl) (disabled : before.state.rptEna = false) (rptEna : after.state.rptEna = true)
      (sqNum : after.state.sqNum = 0) (partialReport : after.partialReport = before.partialReport)
      (gi : after.state.gi = before.state.gi) (dataset : after.state.dataset = before.state.dataset)
      (datSet : after.state.datSet = before.state.datSet) (named : before.state.datSet.isEmpty = false) :
      Switched before after
  | disabled (after : ReportControl) (enabled : before.state.rptEna = true) (rptEna : after.state.rptEna = false)
      (partialReport : after.partialReport = none) (gi : after.state.gi = before.state.gi)
      (dataset : after.state.dataset = before.state.dataset) (datSet : after.state.datSet = before.state.datSet) :
      Switched before after

theorem Switched.same (control : ReportControl) : Switched control control :=
  .kept control rfl rfl rfl .inl (fun _ => rfl) id

theorem Switched.setResv : Switched control (control.setResv conn value).2 := by
  cases value with
  | bool requested =>
    unfold ReportControl.setResv
    dsimp only
    split_ifs
    · exact .same control
    · exact .same control
    · exact .same control
    · exact .kept _ rfl rfl rfl .inl (fun _ => rfl) id
    · exact .kept _ rfl rfl rfl .inl (fun _ => rfl) id
  | unsigned _ | integer _ | visibleString _ | bitString _ | octetString _ => exact .same control

theorem Switched.setRptEna : Switched control (control.setRptEna conn now value).2 := by
  cases value with
  | bool requested =>
    cases requested with
    | true =>
      unfold ReportControl.setRptEna
      dsimp only
      split
      · exact .same control
      next named =>
      split
      · exact .same control
      next disabled =>
      have off : control.state.rptEna = false := by simpa using disabled
      have on : control.state.datSet.isEmpty = false := by simpa using named
      split
      · exact .enabled _ off rfl rfl rfl rfl rfl rfl on
      · exact .enabled _ off rfl rfl rfl rfl rfl rfl on
    | false =>
      unfold ReportControl.setRptEna
      split_ifs with disabled
      · exact .same control
      · exact .disabled _ (by simpa using disabled) rfl rfl rfl rfl rfl
  | unsigned _ | integer _ | visibleString _ | bitString _ | octetString _ => exact .same control

theorem Switched.setGi : Switched control (control.setGi value).2 := by
  cases value with
  | bool requested =>
    cases requested with
    | true =>
      unfold ReportControl.setGi
      split_ifs with disabled
      · exact .kept _ rfl rfl rfl (by simp) (fun _ => rfl) id
      · exact .same control
      · exact .kept _ rfl rfl rfl (fun _ => .inr (by simpa using disabled)) (fun _ => rfl) id
    | false => exact .same control
  | unsigned _ | integer _ | visibleString _ | bitString _ | octetString _ => exact .same control

theorem Switched.setWhileDisabled {write : Answer × ReportControl}
    (rptEna : write.2.state.rptEna = control.state.rptEna) (sqNum : write.2.state.sqNum = control.state.sqNum)
    (partialReport : write.2.partialReport = control.partialReport) (gi : write.2.state.gi = control.state.gi)
    (bound : control.Bound → write.2.Bound) : Switched control (control.setWhileDisabled write).2 := by
  unfold ReportControl.setWhileDisabled
  split_ifs with enabled
  · exact .same control
  · exact .kept _ rptEna sqNum partialReport (fun set => .inl (gi ▸ set)) (fun on => absurd on enabled) bound

theorem Switched.setDatSet : Switched control (control.setWhileDisabled (control.setDatSet value)).2 := by
  cases value with
  | visibleString text =>
    unfold ReportControl.setDatSet
    dsimp only
    split_ifs with same empty
    · exact .setWhileDisabled rfl rfl rfl rfl id
    · refine .setWhileDisabled rfl rfl rfl rfl fun _ named => ?_
      exact absurd (empty.symm.trans named) (by decide)
    · split
      · exact .setWhileDisabled rfl rfl rfl rfl fun _ _ => rfl
      · exact .setWhileDisabled rfl rfl rfl rfl id
  | bool _ | unsigned _ | integer _ | bitString _ | octetString _ => exact .setWhileDisabled rfl rfl rfl rfl id

theorem Switched.setField (now : Instant) : Switched control (control.setField field value conn now).2 := by
  cases field with
  | rptEna => exact .setRptEna now value
  | gi => exact .setGi value
  | datSet => exact .setDatSet value
  | rptId =>
    unfold ReportControl.setField ReportControl.setRptId
    dsimp only
    split
    · split <;> exact .setWhileDisabled rfl rfl rfl rfl id
    · exact .setWhileDisabled rfl rfl rfl rfl id
  | optFlds =>
    unfold ReportControl.setField ReportControl.setOptFlds
    dsimp only
    split
    · split <;> exact .setWhileDisabled rfl rfl rfl rfl id
    · exact .setWhileDisabled rfl rfl rfl rfl id
  | trgOps =>
    unfold ReportControl.setField ReportControl.setTrgOps
    dsimp only
    split
    · split <;> exact .setWhileDisabled rfl rfl rfl rfl id
    · exact .setWhileDisabled rfl rfl rfl rfl id
  | bufTm | intgPd => cases value <;> exact .setWhileDisabled rfl rfl rfl rfl id
  | resv | confRev | sqNum | owner | entryId | purgeBuf | timeOfEntry | resvTms | unknown _ => exact .same control

theorem handleSetRcbField_switched (conn : ConnectionId) (now : Instant) :
    Switched control (control.handleSetRcbField field value conn now).2 := by
  have checked : ∀ field, Switched control
      (if !control.state.unreserved && (!control.state.resv || control.state.clientConnId != some conn) then
        control.refuse .objectAccessDenied else control.setField field value conn now).2 := by
    intro field
    split_ifs
    · exact .same control
    · exact .setField field value now
  cases field with
  | confRev | sqNum | owner => exact .same control
  | resv => exact .setResv value
  | rptId | rptEna | datSet | optFlds | bufTm | trgOps | intgPd | gi | entryId | purgeBuf | timeOfEntry | resvTms
  | unknown _ => exact checked _

end ReportControl

end Iec61850.Reporting
