import Iec61850.Reporting.Engine

/-!
SetBRCBValues: one client write to one field of a buffered report control block. The writer is found
entitled to the block in one critical section and the field is written in later ones.
-/

namespace Iec61850.Reporting

open Concurrency Model Mms

inductive DataAccessError where
  | temporarilyUnavailable
  | objectAccessDenied
  | typeInconsistent
  | objectNonExistent
  | objectValueInvalid
  deriving DecidableEq, Repr

inductive RcbField where
  | rptId | rptEna | resv | datSet | confRev | optFlds | bufTm | sqNum | trgOps | intgPd | gi | owner
  | entryId | purgeBuf | timeOfEntry | resvTms
  | unknown (name : String)
  deriving DecidableEq, Repr

inductive RcbWriteValue where
  | bool (value : Bool)
  | unsigned (value : UInt32)
  | integer (value : Int64)
  | visibleString (text : String)
  | bitString (bytes : List UInt8)
  | octetString (bytes : List UInt8)
  deriving DecidableEq, Repr

/-- How a write is answered; `unrecognized` is answered like a field that does not exist. -/
inductive Answer where
  | accepted
  | refused (error : DataAccessError)
  | unrecognized
  deriving DecidableEq, Repr

def brcbHasField (brcb : Brcb) : RcbField → Bool
  | .owner => brcb.withOwner
  | .resvTms => brcb.withResvTms
  | _ => true

variable (brcb : Brcb) (field : RcbField) (value : RcbWriteValue) (state : BrcbState) (writer conn : ConnectionId)
  (owner writerIp : Option IpAddr) (now : Instant)

def reservationOwner : Option IpAddr :=
  match state.resvTms with
  | .preconfigured => brcb.clientReservation <|> state.owner
  | .notReserved | .withTimeout _ => state.owner

/-- Decides whether `writer` may write a field of the block: `none` refuses with ObjectAccessDenied.
The owner's new association takes over a reservation whose association has ended. -/
def claimBrcbLocked : Option BrcbState :=
  let reserved := state.resvTms.isReserved
  if state.clientConnId = some writer then
    some state
  else if state.clientConnId.isSome && (state.rptEna || reserved) then
    none
  else if !reserved then
    some state
  else
    let owner := reservationOwner brcb state
    if owner.isSome && owner != writerIp then
      none
    else
      some { state with clientConnId := some writer, owner := owner <|> writerIp, reservationTimeout := none }

def BrcbState.takenOver (brcb : Brcb) (writer : ConnectionId) (writerIp : Option IpAddr) : BrcbState :=
  { state with
    clientConnId := some writer, owner := reservationOwner brcb state <|> writerIp, reservationTimeout := none }

/-- When a writer takes a block over: nobody holds it, and it is reserved for the writer's address
or for none. -/
structure BrcbState.TakenOverBy (state : BrcbState) (brcb : Brcb) (writerIp : Option IpAddr) : Prop where
  unheld : state.clientConnId = none
  reserved : state.resvTms.isReserved = true
  owner : ∀ ip, reservationOwner brcb state = some ip → writerIp = some ip

theorem claimBrcbLocked_cases {brcb : Brcb} {state claimed : BrcbState} {writer : ConnectionId}
    {writerIp : Option IpAddr} (entitled : claimBrcbLocked brcb state writer writerIp = some claimed) :
    claimed = state ∧ (state.clientConnId = some writer ∨
        state.resvTms.isReserved = false ∧ (state.clientConnId.isSome → state.rptEna = false)) ∨
      claimed = state.takenOver brcb writer writerIp ∧ state.TakenOverBy brcb writerIp := by
  unfold claimBrcbLocked at entitled
  dsimp only at entitled
  split_ifs at entitled with mine taken free foreign
  · cases entitled
    exact .inl ⟨rfl, .inl mine⟩
  · cases entitled
    refine .inl ⟨rfl, .inr ⟨by simpa using free, ?_⟩⟩
    intro held
    simp only [held, Bool.true_and, Bool.or_eq_true, not_or, Bool.not_eq_true] at taken
    exact taken.1
  · cases entitled
    refine .inr ⟨rfl, ?_, by simpa using free, ?_⟩
    · cases client : state.clientConnId with
      | none => rfl
      | some holder => simp_all
    · intro ip owned
      simp only [owned, Option.isSome_some, Bool.true_and, bne_iff_ne, ne_eq, not_not] at foreign
      exact foreign.symm

def claimBrcb : BrcbM Bool :=
  .atomically fun slot =>
    match claimBrcbLocked slot.brcb slot.state writer writerIp with
    | none => { result := false, state := slot }
    | some state => { result := true, state := { slot with state }, events := [.claimed writer] }

def setBrcbPurgeBuf : RcbWriteValue → BrcbM Answer
  | .bool value => do
      match ← handlePurgeBufWrite value with
      | some _ => return .accepted
      | none => return .refused .temporarilyUnavailable
  | _ => return .refused .typeInconsistent

/-- Reporting goes from disabled to enabled: the first report of every transmission indicates an
overflow, and a block that was never enabled starts at the head of its buffer. -/
def BrcbState.enable : BrcbState :=
  { state with
    clientConnId := some conn, owner, rptEna := true, overflowOnEnable := true
    transmitAnchor := if state.transmitAnchor = .none then .fromHead else state.transmitAnchor }

theorem enable_rewindPoint : (state.enable conn owner).rewindPoint = state.rewindPoint := by
  unfold BrcbState.enable BrcbState.rewindPoint
  split_ifs with unset <;> simp [unset]

/-- The section of an RptEna write on a state the writer has claimed; says whether RptEna went from
false to true. -/
def applyRptEna (value : Bool) (conn : ConnectionId) (writerIp : Option IpAddr) :
    Outcome BrcbState Event (Except DataAccessError Bool) :=
  if value then
    let owner := if state.resvTms = .notReserved then writerIp else state.owner
    if state.datSet.isEmpty then
      { result := .error .temporarilyUnavailable, state }
    else if state.rptEna then
      { result := .ok false, state := { state with clientConnId := some conn, owner } }
    else
      { result := .ok true, state := state.enable conn owner, events := [.enabled conn] }
  else if state.rptEna then
    { result := .ok false
      state := { state with
        rptEna := false, owner := if state.resvTms = .notReserved then none else state.owner }
      events := [.disabled] }
  else
    { result := .ok false, state }

def setBrcbRptEna (conn : ConnectionId) (writerIp : Option IpAddr) : RcbWriteValue → BrcbM (Except DataAccessError Bool)
  | .bool value =>
    .atomically fun slot =>
      match claimBrcbLocked slot.brcb slot.state conn writerIp with
      | none => { result := .error .objectAccessDenied, state := slot }
      | some claimed =>
        let outcome := applyRptEna claimed value conn writerIp
        { outcome with state := { slot with state := outcome.state } }
  | _ => return .error .typeInconsistent

def setBrcbGi : RcbWriteValue → BrcbM Answer
  | .bool false => return .accepted
  | .bool true =>
    lockState fun state =>
      if !state.rptEna then
        { result := .refused .temporarilyUnavailable, state := { state with gi := false } }
      else if !state.trgOps.contains .gi then
        { result := .accepted, state }
      else
        { result := .accepted, state := { state with gi := true } }
  | _ => return .refused .typeInconsistent

def answerConfigChange (field : BrcbConfigField) : BrcbM Answer := do
  match ← setConfigField field with
  | some _ => return .accepted
  | none => return .refused .temporarilyUnavailable

def setBrcbRptId : RcbWriteValue → BrcbM Answer
  | .visibleString text =>
    if 129 < stringLen text then return .refused .objectValueInvalid else answerConfigChange (.rptId text)
  | _ => return .refused .typeInconsistent

def setBrcbUnsigned32 (field : UInt32 → BrcbConfigField) : RcbWriteValue → BrcbM Answer
  | .unsigned value => answerConfigChange (field value)
  | _ => return .refused .typeInconsistent

def setBrcbTrgOps : RcbWriteValue → BrcbM Answer
  | .bitString bytes =>
    match TriggerOptions.fromBerBitString bytes with
    | some options => answerConfigChange (.trgOps options)
    | none => return .refused .typeInconsistent
  | _ => return .refused .typeInconsistent

/-- Drops any window collected for the previous data set. -/
def rebindBrcbDataset (dataset : Option Dataset) : BrcbM Unit :=
  modifySlot fun slot => { slot with dataset, bufTmPending := none }

def changeBrcbDatSet (name : String) : BrcbM Answer := do
  let (enabled, unchanged) ← readState fun state => (state.rptEna, decide (state.datSet = name))
  if enabled then
    return .refused .temporarilyUnavailable
  else if unchanged then
    return .accepted
  else
    let item := (splitOnceSlash name).elim name Prod.snd
    -- a non-persistent data set may not be the DatSet of a buffered block
    if item.toList.head? == some '@' then
      return .refused .objectValueInvalid
    else
      let resolved ← readSlot fun slot => (datasetKey slot.mmsPath name).bind slot.datasetRegistry
      if !name.isEmpty && resolved.isNone then
        return .refused .objectValueInvalid
      else
        match ← setConfigField (.datSet name) with
        | some .noChange => return .accepted
        | some (.requiresPurge _) =>
          rebindBrcbDataset (if name.isEmpty then none else resolved)
          return .accepted
        | none => return .refused .temporarilyUnavailable

def setBrcbDatSet : RcbWriteValue → BrcbM Answer
  | .visibleString text => do
      let name ← readSlot fun slot => qualifiedDatSet slot.mmsPath text
      if 129 < stringLen name then
        return .refused .objectValueInvalid
      else
        withEngine (changeBrcbDatSet name)
  | _ => return .refused .typeInconsistent

/-- An OptFlds change neither purges the buffer nor counts in ConfRev. -/
def setBrcbOptFlds : RcbWriteValue → BrcbM Answer
  | .bitString bytes =>
    match OptFlds.fromBerBitString bytes with
    | none => return .refused .typeInconsistent
    | some fields =>
      lockState fun state =>
        if state.rptEna then
          { result := .refused .temporarilyUnavailable, state }
        else
          { result := .accepted, state := { state with optFlds := fields }
            events := if state.optFlds = fields then [] else [.configChanged] }
  | _ => return .refused .typeInconsistent

def applyResvTms (value : Int16) (conn : ConnectionId) (writerIp : Option IpAddr) : Answer × BrcbState :=
  if state.rptEna then
    (.refused .temporarilyUnavailable, state)
  else
    let next := { state with resvTms := .fromWire value }
    match ResvTmsState.fromWire value with
    | .withTimeout _ =>
      (.accepted, { next with clientConnId := some conn, owner := writerIp, reservationTimeout := none })
    | .notReserved => (.accepted, { next with clientConnId := none, owner := none, reservationTimeout := none })
    | .preconfigured => (.accepted, next)

/-- The INT16 of a ResvTms write: an UNSIGNED in range is taken as well, a negative value is
refused. -/
def resvTmsValue : RcbWriteValue → Except DataAccessError Int16
  | .integer value =>
    if 0 ≤ value.toInt && value.toInt ≤ 32767 then .ok (Int16.ofInt value.toInt) else .error .objectValueInvalid
  | .unsigned value =>
    if value.toNat ≤ 32767 then .ok (Int16.ofNat value.toNat) else .error .objectValueInvalid
  | _ => .error .typeInconsistent

def setBrcbResvTms (value : RcbWriteValue) : BrcbM Answer :=
  match resvTmsValue value with
  | .error error => return .refused error
  | .ok value =>
    .atomically fun slot =>
      match claimBrcbLocked slot.brcb slot.state conn writerIp with
      | none => { result := .refused .objectAccessDenied, state := slot }
      | some claimed =>
        let applied := applyResvTms claimed value conn writerIp
        { result := applied.1, state := { slot with state := applied.2 } }

def setBrcbEntryId : RcbWriteValue → BrcbM Answer
  | .octetString bytes =>
    if bytes.length ≠ 8 then
      return .refused .objectValueInvalid
    else do
      match ← applyEntryIdWrite (.fromBytes bytes) with
      | .ok () => return .accepted
      | .error .invalidEntryId => return .refused .objectValueInvalid
      | .error .reportingEnabled => return .refused .temporarilyUnavailable
  | _ => return .refused .typeInconsistent

def writeBrcbField : BrcbM Answer :=
  match field with
  | .entryId => setBrcbEntryId value
  | .purgeBuf => setBrcbPurgeBuf value
  | .rptEna => do
      match ← setBrcbRptEna conn writerIp value with
      | .ok true =>
        withEngine (refreshBrcbIntegrityPeriod now)
        return .accepted
      | .ok false => return .accepted
      | .error error => return .refused error
  | .gi => setBrcbGi value
  | .rptId => setBrcbRptId value
  | .datSet => setBrcbDatSet value
  | .optFlds => setBrcbOptFlds value
  | .bufTm => setBrcbUnsigned32 .bufTmMs value
  | .trgOps => setBrcbTrgOps value
  | .intgPd => setBrcbUnsigned32 .intgPdMs value
  | .resvTms => setBrcbResvTms conn writerIp value
  | .owner | .timeOfEntry => return .refused .objectAccessDenied
  | .unknown _ => return .unrecognized
  | .confRev | .sqNum | .resv => return .refused .objectAccessDenied

/-- The block is looked up, claimed and written under separate locks. -/
def handleSetBrcbField : BrcbM Answer :=
  match field with
  | .confRev | .sqNum => return .refused .objectAccessDenied
  | .resv => return .unrecognized
  | _ => do
      let (brcb, writerIp) ← lookupEngine fun slot => (slot.brcb, (slot.peers conn).map (·.ip))
      if !brcbHasField brcb field then
        return .refused .objectNonExistent
      else if !(← claimBrcb conn writerIp) then
        return .refused .objectAccessDenied
      else
        writeBrcbField field value conn writerIp now

def writeFound (found : Brcb × Option IpAddr) : BrcbM Answer := do
  if !brcbHasField found.1 field then
    return .refused .objectNonExistent
  else if !(← claimBrcb conn found.2) then
    return .refused .objectAccessDenied
  else
    writeBrcbField field value conn found.2 now

theorem handleSetBrcbField_eq {field : RcbField} (writable : field ≠ .confRev ∧ field ≠ .sqNum ∧ field ≠ .resv)
    (value : RcbWriteValue) (conn : ConnectionId) (now : Instant) : handleSetBrcbField field value conn now =
      lookupEngine (fun slot => (slot.brcb, (slot.peers conn).map (·.ip))) >>= writeFound field value conn now := by
  obtain ⟨notConfRev, notSqNum, notResv⟩ := writable
  cases field <;> first | rfl | contradiction

theorem handleSetBrcbField_run (writable : field ≠ .confRev ∧ field ≠ .sqNum ∧ field ≠ .resv)
    (value : RcbWriteValue) (conn : ConnectionId) (now : Instant) (slot : Slot) :
    (handleSetBrcbField field value conn now).run slot =
      let writerIp := (slot.peers conn).map (·.ip)
      if !brcbHasField slot.brcb field then
        { result := .refused .objectNonExistent, state := slot }
      else
        match claimBrcbLocked slot.brcb slot.state conn writerIp with
        | none => { result := .refused .objectAccessDenied, state := slot }
        | some state =>
          ((writeBrcbField field value conn writerIp now).run { slot with state }).prepend [.claimed conn] := by
  rw [handleSetBrcbField_eq writable]
  unfold writeFound
  simp only [Proc.run_bind, lookupEngine_run, Outcome.prepend_nil]
  split
  · rfl
  · simp only [claimBrcb, Proc.run_bind, Proc.run_atomically]
    cases claimBrcbLocked slot.brcb slot.state conn ((slot.peers conn).map (·.ip)) with
    | none | some state => rfl

end Iec61850.Reporting
