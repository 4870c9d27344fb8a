import Iec61850.Concurrency.Schedule
import Iec61850.Reporting.Section

/-!
SetBRCBValues writes of any number of connections, interleaved section by section: when may a write
empty the buffer or change the configuration of a block?
-/

namespace Iec61850.Reporting

open Concurrency Model Proc

structure ClientWrite where
  field : RcbField
  value : RcbWriteValue
  now : Instant

def clientWrites (conn : ConnectionId) : List ClientWrite → BrcbM Unit
  | [] => pure ()
  | write :: rest => do
      let _ ← handleSetBrcbField write.field write.value conn write.now
      clientWrites conn rest

abbrev Writers := Config ConnectionId Slot Event

def Writers.start (slot : Slot) (writes : ConnectionId → List ClientWrite) : Writers where
  state := slot
  threads conn := clientWrites conn (writes conn)
  history := []

def Slot.HeldBy (slot : Slot) (conn : ConnectionId) : Prop :=
  slot.state.clientConnId = some conn ∧ (slot.state.rptEna = true ∨ slot.state.resvTms.isReserved = true)

def Slot.OpenTo (slot : Slot) (conn : ConnectionId) : Prop := ∀ other, other ≠ conn → ¬ slot.HeldBy other

def Event.isChange : Event → Bool
  | .bufferEmptied | .configChanged => true
  | _ => false

section Sections

theorem resvTmsValue_nonneg {value : RcbWriteValue} {seconds : Int16} (decoded : resvTmsValue value = .ok seconds) :
    0 ≤ seconds.toInt := by
  unfold resvTmsValue at decoded
  split at decoded
  · split at decoded
    · next value inRange =>
      cases decoded
      simp only [Bool.and_eq_true, decide_eq_true_eq] at inRange
      rw [Int16.toInt_ofInt_of_le (by omega) (by omega)]
      exact inRange.1
    · cases decoded
  · split at decoded
    · next value inRange =>
      cases decoded
      rw [Int16.toInt_ofNat_of_lt (by omega)]
      omega
    · cases decoded
  · cases decoded

theorem fromWire_resvTmsValue {value : RcbWriteValue} {seconds : Int16} (decoded : resvTmsValue value = .ok seconds) :
    ResvTmsState.fromWire seconds ≠ .preconfigured := by
  have nonneg := resvTmsValue_nonneg decoded
  have notNegative : ¬ seconds < 0 := by
    rw [Int16.lt_iff_toInt_lt]
    simpa using nonneg
  unfold ResvTmsState.fromWire
  rw [if_neg notNegative]
  split
  · nofun
  · split
    · nofun
    · nofun

variable {before after : Slot} {events : List Event} {conn : ConnectionId} {writerIp : Option IpAddr}

theorem openTo_of_same (client : after.state.clientConnId = before.state.clientConnId)
    (rptEna : after.state.rptEna = before.state.rptEna)
    (resvTms : after.state.resvTms = before.state.resvTms)
    (free : before.OpenTo conn) : after.OpenTo conn := by
  intro other different held
  unfold Slot.HeldBy at held
  rw [client, rptEna, resvTms] at held
  exact free other different held

theorem Slot.openTo_of_rights (same : after.rights = before.rights) (free : before.OpenTo conn) :
    after.OpenTo conn :=
  openTo_of_same (congrArg Rights.clientConnId same) (congrArg Rights.rptEna same)
    (congrArg Rights.resvTms same) free

theorem openTo_of_holder {slot : Slot} (holder : slot.state.clientConnId = some conn) : slot.OpenTo conn := by
  intro other different held
  exact different (Option.some.inj (held.1.symm.trans holder))

theorem openTo_of_unheld {slot : Slot} (unheld : slot.state.clientConnId = none) : slot.OpenTo conn := by
  intro other _ held
  have client := held.1
  rw [unheld] at client
  cases client

theorem openTo_of_entitled {slot : Slot} {claimed : BrcbState}
    (entitled : claimBrcbLocked slot.brcb slot.state conn writerIp = some claimed) :
    ({ slot with state := claimed } : Slot).OpenTo conn := by
  rcases claimBrcbLocked_cases entitled with ⟨rfl, mine | ⟨free, idle⟩⟩ | ⟨rfl, takenOver⟩
  · exact openTo_of_holder mine
  · intro other _ held
    obtain ⟨client, enabled | reserved⟩ := held
    · have disabled := idle (by rw [client]; rfl)
      rw [disabled] at enabled
      cases enabled
    · rw [free] at reserved
      cases reserved
  · exact openTo_of_holder rfl

/-- A section of a write by `conn` that changes nothing of the block's contents, and leaves it open
to `conn` if it was. -/
structure Harmless (conn : ConnectionId) (before : Slot) (events : List Event) (after : Slot) : Prop where
  events : ∀ event ∈ events, event.isChange = false
  openTo : before.OpenTo conn → after.OpenTo conn

structure Checks (before : Slot) (_events : List Event) (after : Slot) : Prop where
  disabled : before.state.rptEna = false
  rptEna : after.state.rptEna = false
  client : after.state.clientConnId = before.state.clientConnId
  resvTms : after.state.resvTms = before.state.resvTms

/-- A section that leaves alone who holds the block. -/
structure SameHold (before : Slot) (_events : List Event) (after : Slot) : Prop where
  rptEna : after.state.rptEna = before.state.rptEna
  client : after.state.clientConnId = before.state.clientConnId
  resvTms : after.state.resvTms = before.state.resvTms

/-- What a section of `conn` does to the others: unless `conn` takes the block with it, the block
stays open to whom it was open, and disabled. -/
def Polite (conn : ConnectionId) (before : Slot) (_events : List Event) (after : Slot) : Prop :=
  (after.HeldBy conn → before.HeldBy conn) → ∀ other, other ≠ conn → before.OpenTo other →
    after.OpenTo other ∧ (before.state.rptEna = false → after.state.rptEna = false)

namespace Polite

theorem of_same (client : after.state.clientConnId = before.state.clientConnId)
    (rptEna : after.state.rptEna = before.state.rptEna) (resvTms : after.state.resvTms = before.state.resvTms) :
    Polite conn before events after := by
  intro _ other _ free
  exact ⟨openTo_of_same client rptEna resvTms free, fun disabled => rptEna.trans disabled⟩

theorem of_rights (same : after.rights = before.rights) : Polite conn before events after :=
  of_same (congrArg Rights.clientConnId same) (congrArg Rights.rptEna same) (congrArg Rights.resvTms same)

theorem of_heldBy (holds : after.HeldBy conn) : Polite conn before events after := by
  intro taken other different free
  exact absurd (taken holds) (free conn different.symm)

theorem of_claim {claimed : BrcbState}
    (entitled : claimBrcbLocked before.brcb before.state conn writerIp = some claimed) :
    Polite conn before events { before with state := claimed } := by
  rcases claimBrcbLocked_cases entitled with ⟨rfl, -⟩ | ⟨rfl, takenOver⟩
  · exact of_same rfl rfl rfl
  · exact of_heldBy ⟨rfl, .inr takenOver.reserved⟩

theorem of_disable {claimed : BrcbState} (owner : Option IpAddr)
    (entitled : claimBrcbLocked before.brcb before.state conn writerIp = some claimed) :
    Polite conn before events { before with state := { claimed with rptEna := false, owner } } := by
  rcases claimBrcbLocked_cases entitled with ⟨rfl, -⟩ | ⟨rfl, takenOver⟩
  · intro _ other _ free
    refine ⟨fun holder different held => ?_, fun _ => rfl⟩
    obtain ⟨client, enabled | reserved⟩ := held
    · cases enabled
    · exact free holder different ⟨client, .inr reserved⟩
  · exact of_heldBy ⟨rfl, .inr takenOver.reserved⟩

theorem of_write (ran : WriteSection conn writerIp before events after) : Polite conn before events after := by
  cases ran with
  | field field => exact of_rights field.rights
  | claim state entitled => exact of_claim entitled
  | rptEna claimed entitled effect =>
    cases effect with
    | none => exact of_claim entitled
    | again owner enabled => exact of_heldBy ⟨rfl, .inl enabled⟩
    | enable owner disabled => exact of_heldBy ⟨rfl, .inl rfl⟩
    | disable owner enabled => exact of_disable owner entitled
  | interrogate gi enabled => exact of_rights rfl

theorem of_locking (ran : Locking (WriteSection conn writerIp) before events after) :
    Polite conn before events after := by
  cases ran with
  | inside ran => exact of_write ran
  | engine engineLocked => exact of_same rfl rfl rfl

theorem setBrcbResvTms (value : RcbWriteValue) : (setBrcbResvTms conn writerIp value).Respects (Polite conn) := by
  unfold Reporting.setBrcbResvTms
  cases decoded : resvTmsValue value with
  | error reason => exact .pure _
  | ok seconds =>
    refine .atomically fun slot => ?_
    cases entitled : claimBrcbLocked slot.brcb slot.state conn writerIp with
    | none => exact of_same rfl rfl rfl
    | some claimed =>
      unfold applyResvTms
      dsimp only
      split
      · exact of_claim entitled
      next enabled =>
      have disabled : claimed.rptEna = false := by simpa using enabled
      split
      · next wire => exact of_heldBy ⟨rfl, .inr (by rw [wire]; rfl)⟩
      · exact fun _ _ _ _ => ⟨openTo_of_unheld rfl, fun _ => disabled⟩
      · next wire => exact absurd wire (fromWire_resvTmsValue decoded)

theorem handleSetBrcbField (field : RcbField) (value : RcbWriteValue) (now : Instant) :
    (handleSetBrcbField field value conn now).Respects (Polite conn) := by
  have found : (lookupEngine (fun slot : Slot => (slot.brcb, (slot.peers conn).map (·.ip))) >>=
      writeFound field value conn now).Respects (Polite conn) := by
    refine .bind (.whenReady fun _ => of_same rfl rfl rfl) fun found => .ite (.pure _) ?_
    refine .bind (WriteSection.claimBrcb.mono _ fun _ _ _ => of_write) fun claimed => .ite (.pure _) ?_
    by_cases isResvTms : field = .resvTms
    · rw [isResvTms]
      exact setBrcbResvTms value
    · exact (WriteSection.writeBrcbField_locking conn found.2 isResvTms value now).mono _ fun _ _ _ => of_locking
  cases field <;> first | exact found | exact .pure _

theorem clientWrites (writes : List ClientWrite) : (clientWrites conn writes).Respects (Polite conn) := by
  induction writes with
  | nil => exact .pure _
  | cons write rest ih => exact .bind (handleSetBrcbField write.field write.value write.now) fun _ => ih

end Polite

theorem Event.isChange_of_internal {event : Event} (internal : event.isInternal = true) : event.isChange = false := by
  cases event <;> first | rfl | cases internal

namespace Harmless

variable {α : Type}

theorem of_same (client : after.state.clientConnId = before.state.clientConnId)
    (rptEna : after.state.rptEna = before.state.rptEna) (resvTms : after.state.resvTms = before.state.resvTms) :
    Harmless conn before [] after :=
  ⟨by simp, openTo_of_same client rptEna resvTms⟩

theorem of_internal {program : BrcbM α} (internal : program.Respects Internal) : program.Respects (Harmless conn) :=
  internal.mono _ fun _ _ _ ran =>
    ⟨fun event member => Event.isChange_of_internal (ran.events event member), Slot.openTo_of_rights ran.rights⟩

theorem withEngine {body : BrcbM α} (internal : body.Respects Internal) : (withEngine body).Respects (Harmless conn) :=
  .bind (.whenReady fun _ => of_same rfl rfl rfl) fun _ => .bind (of_internal internal) fun _ =>
    .bind (.atomically fun _ => of_same rfl rfl rfl) fun _ => .pure _

theorem setBrcbGi (value : RcbWriteValue) : (setBrcbGi value).Respects (Harmless conn) := by
  match value with
  | .bool false => exact .pure _
  | .bool true =>
    refine .atomically fun slot => ?_
    dsimp only
    split_ifs <;> exact of_same rfl rfl rfl
  | .unsigned _ | .integer _ | .visibleString _ | .bitString _ | .octetString _ => exact .pure _

theorem setBrcbRptEna (value : RcbWriteValue) : (setBrcbRptEna conn writerIp value).Respects (Harmless conn) := by
  cases value with
  | bool value =>
    refine .atomically fun slot => ?_
    cases entitled : claimBrcbLocked slot.brcb slot.state conn writerIp with
    | none => exact of_same rfl rfl rfl
    | some claimed =>
      have effect := applyRptEna_effect claimed value conn writerIp
      dsimp only
      generalize (applyRptEna claimed value conn writerIp).events = events at effect ⊢
      generalize (applyRptEna claimed value conn writerIp).state = state at effect ⊢
      have free := openTo_of_entitled entitled
      cases effect with
      | none => exact ⟨by simp, fun _ => free⟩
      | again owner enabled => exact ⟨by simp, fun _ => openTo_of_holder rfl⟩
      | enable owner disabled => exact ⟨by simp [Event.isChange], fun _ => openTo_of_holder rfl⟩
      | disable owner enabled =>
        refine ⟨by simp [Event.isChange], fun _ other different held => ?_⟩
        obtain ⟨client, enabled | reserved⟩ := held
        · cases enabled
        · exact free other different ⟨client, .inr reserved⟩
  | _ => exact .pure _

theorem setBrcbResvTms (value : RcbWriteValue) : (setBrcbResvTms conn writerIp value).Respects (Harmless conn) := by
  unfold Reporting.setBrcbResvTms
  cases decoded : resvTmsValue value with
  | error reason => exact .pure _
  | ok seconds =>
    refine .atomically fun slot => ?_
    cases entitled : claimBrcbLocked slot.brcb slot.state conn writerIp with
    | none => exact of_same rfl rfl rfl
    | some claimed =>
      refine ⟨by simp, fun _ => ?_⟩
      unfold applyResvTms
      dsimp only
      split
      · exact openTo_of_entitled entitled
      split
      · exact openTo_of_holder rfl
      · exact openTo_of_unheld rfl
      · next wire => exact absurd wire (fromWire_resvTmsValue decoded)

end Harmless

/-- A write that may write to the block: it changes nothing until it has found the block disabled,
and after that it leaves alone who holds it. -/
abbrev Guarded {α : Type} (conn : ConnectionId) : BrcbM α → Prop := Until (Harmless conn) Checks (Respects SameHold)

theorem runPurgeBufProcedure_sameHold : runPurgeBufProcedure.Respects SameHold :=
  .bind (.whenReady fun _ => ⟨rfl, rfl, rfl⟩) fun _ => .bind (.atomically fun _ => ⟨rfl, rfl, rfl⟩) fun _ =>
    .bind (.atomically fun _ => ⟨rfl, rfl, rfl⟩) fun _ => .bind (.atomically fun _ => ⟨rfl, rfl, rfl⟩) fun _ =>
      .bind (.atomically fun _ => ⟨rfl, rfl, rfl⟩) fun _ =>
        .bind (.atomically fun _ => ⟨rfl, rfl, rfl⟩) fun _ => .pure _

namespace Guarded

variable {α : Type}

theorem setConfigField {continuation : Option ConfigChangeResult → BrcbM α} (field : BrcbConfigField)
    (harmless : ∀ result, (continuation result).Respects (Harmless conn))
    (sameHold : ∀ result, (continuation result).Respects SameHold) :
    Guarded conn (setConfigField field >>= continuation) := by
  unfold Reporting.setConfigField
  rw [bind_assoc]
  refine .atomically fun slot => ?_
  cases applied : slot.state.applyConfigField slot.mmsPath field with
  | none => exact .inl ⟨.of_same rfl rfl rfl, .of_respects (harmless none)⟩
  | some outcome =>
    obtain ⟨changed, state⟩ := outcome
    obtain ⟨disabled, -, frame⟩ := FieldSection.applyConfigField_frame applied
    have rptEna : state.rptEna = slot.state.rptEna := by rw [frame]
    have client : state.clientConnId = slot.state.clientConnId := by rw [frame]
    have resvTms : state.resvTms = slot.state.resvTms := by rw [frame]
    refine .inr ⟨⟨disabled, rptEna.trans disabled, client, resvTms⟩, ?_⟩
    cases changed with
    | false => exact sameHold (some .noChange)
    | true => exact .bind (.bind runPurgeBufProcedure_sameHold fun _ => .pure _) sameHold

theorem answerConfigChange (field : BrcbConfigField) : Guarded conn (answerConfigChange field) := by
  refine setConfigField field ?_ ?_
  · intro result
    cases result with
    | none | some outcome => exact .pure _
  · intro result
    cases result with
    | none | some outcome => exact .pure _

theorem setBrcbPurgeBuf (value : RcbWriteValue) : Guarded conn (setBrcbPurgeBuf value) := by
  cases value with
  | bool value =>
    unfold Reporting.setBrcbPurgeBuf handlePurgeBufWrite
    dsimp only
    rw [bind_assoc]
    refine .atomically fun slot => ?_
    dsimp only
    cases enabled : slot.state.rptEna with
    | true => exact .inl ⟨.of_same rfl rfl rfl, .pure _⟩
    | false =>
      refine .inr ⟨⟨enabled, enabled, rfl, rfl⟩, ?_⟩
      cases value with
      | false => exact .pure _
      | true =>
        refine .bind (.bind runPurgeBufProcedure_sameHold fun _ => .pure _) fun outcome => ?_
        cases outcome with
        | none | some purged => exact .pure _
  | _ => exact .pure _

theorem setBrcbOptFlds (value : RcbWriteValue) : Guarded conn (setBrcbOptFlds value) := by
  cases value with
  | bitString bytes =>
    unfold Reporting.setBrcbOptFlds
    dsimp only
    split
    · exact .pure _
    next fields decoded =>
    refine .atomically fun slot => ?_
    dsimp only
    split
    · exact .inl ⟨.of_same rfl rfl rfl, .pure _⟩
    · next enabled =>
      have disabled : slot.state.rptEna = false := by simpa using enabled
      exact .inr ⟨⟨disabled, disabled, rfl, rfl⟩, .pure _⟩
  | _ => exact .pure _

theorem withEngine {body : BrcbM α} (guarded : Guarded conn body) : Guarded conn (withEngine body) := by
  refine .bind (.whenReady fun _ => .of_same rfl rfl rfl) fun _ => .andThen guarded ?_ ?_
  · exact fun _ => .bind (.atomically fun _ => .of_same rfl rfl rfl) fun _ => .pure _
  · exact fun _ => .bind (.atomically fun _ => ⟨rfl, rfl, rfl⟩) fun _ => .pure _

theorem changeBrcbDatSet (name : String) : Guarded conn (changeBrcbDatSet name) := by
  refine .bind (Harmless.of_internal (Internal.readState _)) fun found => ?_
  dsimp only
  split
  · exact .pure _
  split
  · exact .pure _
  split
  · exact .pure _
  refine .bind (Harmless.of_internal (Internal.readSlot _)) fun resolved => ?_
  split
  · exact .pure _
  refine setConfigField _ ?_ ?_
  · intro change
    match change with
    | none | some .noChange => exact .pure _
    | some (.requiresPurge purged) =>
      exact .bind (.atomically fun _ => .of_same rfl rfl rfl) fun _ => .pure _
  · intro change
    match change with
    | none | some .noChange => exact .pure _
    | some (.requiresPurge purged) => exact .bind (.atomically fun _ => ⟨rfl, rfl, rfl⟩) fun _ => .pure _

theorem writeBrcbField (field : RcbField) (value : RcbWriteValue) (writerIp : Option IpAddr) (now : Instant) :
    Guarded conn (writeBrcbField field value conn writerIp now) := by
  cases field with
  | entryId => exact .of_respects (Harmless.of_internal (Internal.setBrcbEntryId value))
  | purgeBuf => exact setBrcbPurgeBuf value
  | rptEna =>
    refine .bind (Harmless.setBrcbRptEna value) fun outcome => ?_
    match outcome with
    | .ok true =>
      exact .of_respects
        (.bind (Harmless.withEngine (Internal.refreshBrcbIntegrityPeriod now)) fun _ => .pure _)
    | .ok false => exact .pure _
    | .error error => exact .pure _
  | gi => exact .of_respects (Harmless.setBrcbGi value)
  | rptId =>
    cases value with
    | visibleString text =>
      unfold Reporting.writeBrcbField setBrcbRptId
      dsimp only
      split
      · exact .pure _
      · exact answerConfigChange _
    | _ => exact .pure _
  | datSet =>
    cases value with
    | visibleString text =>
      refine .bind (Harmless.of_internal (Internal.readSlot _)) fun name => ?_
      split
      · exact .pure _
      · exact withEngine (changeBrcbDatSet name)
    | _ => exact .pure _
  | optFlds => exact setBrcbOptFlds value
  | bufTm =>
    cases value with
    | unsigned value => exact answerConfigChange _
    | _ => exact .pure _
  | trgOps =>
    cases value with
    | bitString bytes =>
      unfold Reporting.writeBrcbField setBrcbTrgOps
      dsimp only
      split
      · exact answerConfigChange _
      · exact .pure _
    | _ => exact .pure _
  | intgPd =>
    cases value with
    | unsigned value => exact answerConfigChange _
    | _ => exact .pure _
  | resvTms => exact .of_respects (Harmless.setBrcbResvTms value)
  | owner | timeOfEntry | unknown name | confRev | sqNum | resv => exact .pure _

end Guarded

end Sections

/-- Where an association is: between two writes, about to claim the block, in a write that has
claimed it, or in one that has found it disabled as well. -/
inductive WriterPlace (conn : ConnectionId) (slot : Slot) : BrcbM Unit → Prop
  | between (rest : List ClientWrite) : WriterPlace conn slot (clientWrites conn rest)
  | found (write : ClientWrite) (found : Brcb × Option IpAddr) (rest : List ClientWrite) :
      WriterPlace conn slot
        (writeFound write.field write.value conn write.now found >>= fun _ => clientWrites conn rest)
  | claimed (rest : List ClientWrite) {program : BrcbM Unit} (openTo : slot.OpenTo conn)
      (amid : Amid (Guarded conn) (fun _ : Answer => clientWrites conn rest) program) : WriterPlace conn slot program
  | checked (rest : List ClientWrite) {program : BrcbM Unit} (openTo : slot.OpenTo conn)
      (disabled : slot.state.rptEna = false)
      (amid : Amid (Respects SameHold) (fun _ : Answer => clientWrites conn rest) program) :
      WriterPlace conn slot program

section Steps

variable {conn : ConnectionId} {slot : Slot} {ready : Slot → Bool} {effect : Slot → Slot}
  {emitted : Slot → List Event} {next : Slot → BrcbM Unit}

theorem clientWrites_step {writes : List ClientWrite} (slot : Slot)
    (program : clientWrites conn writes = .critical ready effect emitted next) :
    effect slot = slot ∧ emitted slot = [] ∧ WriterPlace conn slot (next slot) := by
  induction writes with
  | nil => cases program
  | cons write rest ih =>
    by_cases writable : write.field ≠ .confRev ∧ write.field ≠ .sqNum ∧ write.field ≠ .resv
    · rw [clientWrites, handleSetBrcbField_eq writable, bind_assoc] at program
      obtain ⟨rfl, rfl, rfl, rfl⟩ := Proc.critical.inj program
      have place : WriterPlace conn slot _ := .found write (slot.brcb, (slot.peers conn).map (·.ip)) rest
      exact ⟨rfl, rfl, place⟩
    · refine ih ?_
      rw [clientWrites] at program
      have refused : write.field = .confRev ∨ write.field = .sqNum ∨ write.field = .resv := by tauto
      rcases refused with field | field | field
      · rw [field] at program
        exact program
      · rw [field] at program
        exact program
      · rw [field] at program
        exact program

structure Proper (conn : ConnectionId) (slot : Slot) (events : List Event) : Prop where
  changes : (∃ event ∈ events, event.isChange = true) → slot.state.rptEna = false ∧ slot.OpenTo conn

theorem Proper.of_harmless {events : List Event} (harmless : ∀ event ∈ events, event.isChange = false) :
    Proper conn slot events := by
  refine ⟨fun change => ?_⟩
  obtain ⟨event, member, isChange⟩ := change
  rw [harmless event member] at isChange
  cases isChange

theorem writeFound_step {write : ClientWrite} {found : Brcb × Option IpAddr} {rest : List ClientWrite}
    (program : (writeFound write.field write.value conn write.now found >>= fun _ => clientWrites conn rest) =
      .critical ready effect emitted next) :
    WriterPlace conn (effect slot) (next slot) ∧ Proper conn slot (emitted slot) := by
  unfold writeFound at program
  split at program
  · obtain ⟨same, silent, place⟩ := clientWrites_step slot program
    rw [same, silent]
    exact ⟨place, .of_harmless (by simp)⟩
  · rw [bind_assoc] at program
    obtain ⟨rfl, rfl, rfl, rfl⟩ := Proc.critical.inj program
    dsimp only
    cases entitled : claimBrcbLocked slot.brcb slot.state conn found.2 with
    | none => exact ⟨.between rest, .of_harmless (by simp)⟩
    | some claimed =>
      refine ⟨.claimed rest (openTo_of_entitled entitled) (.enter ?_), .of_harmless (by simp [Event.isChange])⟩
      exact Guarded.writeBrcbField write.field write.value found.2 write.now

theorem between_step {rest : List ClientWrite} (slot : Slot)
    (program : clientWrites conn rest = .critical ready effect emitted next) :
    WriterPlace conn (effect slot) (next slot) ∧ Proper conn slot (emitted slot) := by
  obtain ⟨same, silent, place⟩ := clientWrites_step slot program
  rw [same, silent]
  exact ⟨place, .of_harmless (by simp)⟩

theorem WriterPlace.step {program : BrcbM Unit} (place : WriterPlace conn slot program)
    (critical : program = .critical ready effect emitted next) :
    WriterPlace conn (effect slot) (next slot) ∧ Proper conn slot (emitted slot) := by
  cases place with
  | between rest => exact between_step slot critical
  | found write found rest => exact writeFound_step critical
  | claimed rest openTo amid =>
    subst critical
    rcases amid.next_until with ⟨result, finished⟩ | within
    · exact between_step slot finished.symm
    rcases within slot with ⟨harmless, later⟩ | ⟨checks, later⟩
    · exact ⟨.claimed rest (harmless.openTo openTo) later, .of_harmless harmless.events⟩
    · have stillOpen := openTo_of_same checks.client (checks.rptEna.trans checks.disabled.symm) checks.resvTms openTo
      exact ⟨.checked rest stillOpen checks.rptEna later, ⟨fun _ => ⟨checks.disabled, openTo⟩⟩⟩
  | checked rest openTo disabled amid =>
    subst critical
    rcases amid.next with ⟨result, finished⟩ | within
    · exact between_step slot finished.symm
    · obtain ⟨same, later⟩ := within slot
      have stillOpen := openTo_of_same same.client same.rptEna same.resvTms openTo
      exact ⟨.checked rest stillOpen (same.rptEna.trans disabled) later, ⟨fun _ => ⟨disabled, openTo⟩⟩⟩

theorem WriterPlace.other {program : BrcbM Unit} {after : Slot} (place : WriterPlace conn slot program)
    (kept : slot.OpenTo conn → after.OpenTo conn ∧ (slot.state.rptEna = false → after.state.rptEna = false)) :
    WriterPlace conn after program := by
  cases place with
  | between rest => exact .between rest
  | found write found rest => exact .found write found rest
  | claimed rest openTo amid => exact .claimed rest (kept openTo).1 amid
  | checked rest openTo disabled amid => exact .checked rest (kept openTo).1 ((kept openTo).2 disabled) amid

end Steps

/-- The next section of `conn` makes it the holder of the block, enabled or reserved. -/
def Takes (config : Writers) (conn : ConnectionId) : Prop :=
  ∃ next, config.advance conn = some next ∧ next.state.HeldBy conn ∧ ¬ config.state.HeldBy conn

def UnderWay (config : Writers) (conn : ConnectionId) : Prop := ∀ rest, config.threads conn ≠ clientWrites conn rest

/-- No association takes the block while a write of another one is under way. -/
def TakesInTurn (config : Writers) (conn : ConnectionId) : Prop :=
  Takes config conn → ∀ other, other ≠ conn → ¬ UnderWay config other

/-- Every association is at a known place and polite to the others. -/
structure Mannered (config : Writers) : Prop where
  place : ∀ conn, WriterPlace conn config.state (config.threads conn)
  polite : ∀ conn, (config.threads conn).Respects (Polite conn)

theorem Mannered.start (slot : Slot) (writes : ConnectionId → List ClientWrite) :
    Mannered (Writers.start slot writes) :=
  ⟨fun conn => .between (writes conn), fun conn => Polite.clientWrites (writes conn)⟩

theorem Mannered.step {config after : Writers} {conn : ConnectionId} (mannered : Mannered config)
    (inTurn : TakesInTurn config conn) (advanced : config.advance conn = some after) :
    Mannered after ∧ ∃ events : List Event, after.history = config.history ++ events.map (Prod.mk conn) ∧
      Proper conn config.state events := by
  obtain ⟨ready, effect, emitted, rest, program, -, state, threads, history⟩ := Config.advance_eq advanced
  have polite := mannered.polite conn
  rw [program] at polite
  obtain ⟨now, later⟩ := polite config.state
  obtain ⟨place, proper⟩ := (mannered.place conn).step program
  refine ⟨⟨fun other => ?_, fun other => ?_⟩, emitted config.state, history, proper⟩
  · rw [state, threads]
    by_cases same : other = conn
    · subst same
      rw [Function.update_self]
      exact place
    · rw [Function.update_of_ne same]
      by_cases takes : Takes config conn
      · have idle := inTurn takes other same
        simp only [UnderWay, ne_eq, not_forall, not_not] at idle
        obtain ⟨writes, between⟩ := idle
        rw [between]
        exact .between writes
      · refine (mannered.place other).other (now ?_ other same)
        intro holds
        by_contra free
        exact takes ⟨after, advanced, state ▸ holds, free⟩
  · rw [threads]
    by_cases same : other = conn
    · subst same
      rw [Function.update_self]
      exact later
    · rw [Function.update_of_ne same]
      exact mannered.polite other

/-- A write empties the buffer or changes the configuration of a disabled block only, and of one
that no other association holds, as long as no association takes the block while a write of another
one is under way. -/
theorem changes_only_when_disabled_and_unheld (slot : Slot) (writes : ConnectionId → List ClientWrite)
    {config : Writers} (reached : Config.Reaches TakesInTurn (Writers.start slot writes) config) (conn : ConnectionId)
    (after : Writers) (inTurn : TakesInTurn config conn) (advanced : config.advance conn = some after) :
    ∃ events : List Event, after.history = config.history ++ events.map (Prod.mk conn) ∧
      ((∃ event ∈ events, event.isChange = true) → config.state.state.rptEna = false ∧
        ∀ other, other ≠ conn → ¬ config.state.HeldBy other) := by
  have mannered : Mannered config :=
    reached.invariant _ (.start slot writes) fun _ _ _ mannered inTurn advanced => (mannered.step inTurn advanced).1
  obtain ⟨-, events, history, proper⟩ := mannered.step inTurn advanced
  exact ⟨events, history, proper.changes⟩

def purgingAndEnabling (conn : ConnectionId) : List ClientWrite :=
  if conn = 1 then [{ field := .purgeBuf, value := .bool true, now := 0 }]
  else if conn = 2 then [{ field := .rptEna, value := .bool true, now := 0 }]
  else []

def aboutToPurge : Writers :=
  ((Writers.start bareBlock purgingAndEnabling).schedule (List.replicate 7 1)).get (by decide +kernel)

def aboutToPurgeEnabled : Writers :=
  ((Writers.start bareBlock purgingAndEnabling).schedule [1, 1, 1, 2, 2, 2, 1, 1, 1, 1]).get (by decide +kernel)

theorem change_of_aboutToPurge : ∃ after, aboutToPurge.advance 1 = some after ∧
      ∃ events : List Event, after.history = aboutToPurge.history ++ events.map (Prod.mk 1) ∧
        ((∃ event ∈ events, event.isChange = true) → aboutToPurge.state.state.rptEna = false ∧
          ∀ other, other ≠ 1 → ¬ aboutToPurge.state.HeldBy other) := by
  have ran : (Writers.start bareBlock purgingAndEnabling).schedule (List.replicate 7 1) = some aboutToPurge :=
    (Option.some_get _).symm
  have alone {config : Writers} {count : Nat}
      (ran : (Writers.start bareBlock purgingAndEnabling).schedule (List.replicate count 1) = some config) :
      TakesInTurn config 1 := by
    intro _ other different underWay
    exact underWay _ (Config.schedule_other (by simp [different]) ran)
  have reached : Config.Reaches TakesInTurn (Writers.start bareBlock purgingAndEnabling) aboutToPurge := by
    refine Config.reaches_of_schedule ran fun earlier thread later config split before => ?_
    obtain ⟨-, sections, rest⟩ := List.append_eq_replicate_iff.mp split.symm
    have same : thread = 1 := by
      exact (List.cons.inj rest).1
    rw [same]
    rw [sections] at before
    exact alone before
  obtain ⟨after, advanced⟩ : ∃ after, aboutToPurge.advance 1 = some after :=
    Option.isSome_iff_exists.mp (by decide +kernel)
  exact ⟨after, advanced,
    changes_only_when_disabled_and_unheld bareBlock purgingAndEnabling reached 1 after (alone ran) advanced⟩

/-- The buffer of a block that another association has enabled is emptied. -/
theorem buffer_emptied_under_another_association :
    Config.Reaches (fun _ _ => True) (Writers.start bareBlock purgingAndEnabling) aboutToPurgeEnabled ∧
      aboutToPurgeEnabled.state.state.rptEna = true ∧ aboutToPurgeEnabled.state.HeldBy 2 ∧
      ∃ after event, aboutToPurgeEnabled.advance 1 = some after ∧
        after.history = aboutToPurgeEnabled.history ++ [(1, event)] ∧ event.isChange = true := by
  have ran : (Writers.start bareBlock purgingAndEnabling).schedule [1, 1, 1, 2, 2, 2, 1, 1, 1, 1] =
      some aboutToPurgeEnabled := (Option.some_get _).symm
  have emptied : (aboutToPurgeEnabled.advance 1).map (fun after =>
    (after.history.drop aboutToPurgeEnabled.history.length).map fun event => event.2.isChange) = some [true] := by
    decide +kernel
  obtain ⟨after, advanced, changes⟩ := Option.map_eq_some_iff.mp emptied
  obtain ⟨-, -, emitted, -, -, -, -, -, history⟩ := Config.advance_eq advanced
  rw [history, List.drop_left, List.map_map] at changes
  obtain ⟨event, emits, isChange⟩ := List.map_eq_singleton_iff.mp changes
  rw [emits] at history
  refine ⟨Config.reaches_of_schedule ran fun _ _ _ _ _ _ => trivial, by decide +kernel, ⟨by decide +kernel, ?_⟩,
    after, event, advanced, history, isChange⟩
  exact .inl (by decide +kernel)

end Iec61850.Reporting
