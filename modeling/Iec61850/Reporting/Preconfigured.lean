import Iec61850.Reporting.Section

/-!
A block with a pre-configured owner address. As long as the owner does not write ResvTms, the block
stays reserved for that address, whatever else the clients write and however often they come and go.
-/

namespace Iec61850.Reporting

open Concurrency Model Proc

def Slot.peerIp (slot : Slot) (conn : ConnectionId) : Option IpAddr := (slot.peers conn).map (·.ip)

structure Slot.ReservedFor (slot : Slot) (ip : IpAddr) : Prop where
  configured : slot.brcb.clientReservation = some ip
  resvTms : slot.state.resvTms = .preconfigured
  holder : ∀ conn, slot.state.clientConnId = some conn → slot.peerIp conn = some ip

variable {ip : IpAddr} {slot before after : Slot} {conn : ConnectionId} {writerIp : Option IpAddr}
  {events : List Event}

theorem Slot.Fresh.reservedFor (fresh : slot.Fresh) (configured : slot.brcb.clientReservation = some ip) :
    slot.ReservedFor ip := by
  refine ⟨configured, ?_, ?_⟩
  · rw [fresh.state]
    simp [BrcbState.fromBrcb, configured]
  · intro conn held
    rw [fresh.state] at held
    cases held

theorem Slot.ReservedFor.of_rights (reserved : before.ReservedFor ip) (rights : after.rights = before.rights) :
    after.ReservedFor ip := by
  have brcb : after.brcb = before.brcb := congrArg Rights.brcb rights
  have peers : after.peers = before.peers := congrArg Rights.peers rights
  have resvTms : after.state.resvTms = before.state.resvTms := congrArg Rights.resvTms rights
  have holder : after.state.clientConnId = before.state.clientConnId := congrArg Rights.clientConnId rights
  refine ⟨brcb ▸ reserved.configured, resvTms.trans reserved.resvTms, ?_⟩
  intro conn held
  rw [holder] at held
  unfold Slot.peerIp
  rw [peers]
  exact reserved.holder conn held

theorem Slot.ReservedFor.entitled (reserved : slot.ReservedFor ip) {claimed : BrcbState}
    (entitled : claimBrcbLocked slot.brcb slot.state conn (slot.peerIp conn) = some claimed) :
    slot.peerIp conn = some ip ∧ claimed.resvTms = .preconfigured ∧ claimed.clientConnId = some conn ∧
      claimed.rptEna = slot.state.rptEna := by
  have isReserved : slot.state.resvTms.isReserved = true := by rw [reserved.resvTms]; rfl
  rcases claimBrcbLocked_cases entitled with ⟨rfl, mine | ⟨free, -⟩⟩ | ⟨rfl, takenOver⟩
  · exact ⟨reserved.holder conn mine, reserved.resvTms, mine, rfl⟩
  · rw [isReserved] at free
    cases free
  · have owner : reservationOwner slot.brcb slot.state = some ip := by
      simp [reservationOwner, reserved.resvTms, reserved.configured]
    exact ⟨takenOver.owner ip owner, reserved.resvTms, rfl, rfl⟩

theorem Slot.ReservedFor.hold (reserved : slot.ReservedFor ip) {state : BrcbState}
    (address : slot.peerIp conn = some ip) (resvTms : state.resvTms = .preconfigured)
    (holder : state.clientConnId = some conn) : ({ slot with state } : Slot).ReservedFor ip := by
  refine ⟨reserved.configured, resvTms, ?_⟩
  intro other held
  have same : conn = other := Option.some.inj (holder.symm.trans held)
  rw [← same]
  exact address

structure KeepsReserved (ip : IpAddr) (before : Slot) (_events : List Event) (after : Slot) : Prop where
  reserved : before.ReservedFor ip → after.ReservedFor ip
  peers : after.peers = before.peers

namespace KeepsReserved

theorem of_rights (rights : after.rights = before.rights) : KeepsReserved ip before events after :=
  ⟨fun reserved => reserved.of_rights rights, congrArg Rights.peers rights⟩

theorem trans {first middle last : Slot} {earlier later : List Event} (front : KeepsReserved ip first earlier middle)
    (back : KeepsReserved ip middle later last) : KeepsReserved ip first (earlier ++ later) last :=
  ⟨fun reserved => back.reserved (front.reserved reserved), back.peers.trans front.peers⟩

theorem engineSection (ran : EngineSection before events after) : KeepsReserved ip before events after := by
  cases ran with
  | internal internal => exact of_rights internal.rights
  | drop conn now holds =>
    refine ⟨fun reserved => ⟨reserved.configured, ?_, ?_⟩, rfl⟩
    · simp [BrcbState.connectionDropped, reserved.resvTms]
    · intro other held
      simp [BrcbState.connectionDropped, reserved.resvTms] at held
  | expire now =>
    refine ⟨fun reserved => ?_, rfl⟩
    have unchanged : (before.state.tickReservation now).2 = before.state := by
      simp [BrcbState.tickReservation, reserved.resvTms]
    rw [unchanged]
    exact reserved

theorem writeSection (address : before.peerIp conn = writerIp) (ran : WriteSection conn writerIp before events after) :
    KeepsReserved ip before events after := by
  subst address
  cases ran with
  | field field => exact of_rights field.rights
  | claim state entitled =>
    refine ⟨fun reserved => ?_, rfl⟩
    obtain ⟨address, resvTms, holder, -⟩ := reserved.entitled entitled
    exact reserved.hold address resvTms holder
  | rptEna claimed entitled effect =>
    refine ⟨fun reserved => ?_, rfl⟩
    obtain ⟨address, resvTms, holder, -⟩ := reserved.entitled entitled
    cases effect with
    | none => exact reserved.hold address resvTms holder
    | again owner enabled | enable owner disabled => exact reserved.hold address resvTms rfl
    | disable owner enabled => exact reserved.hold address resvTms holder
  | interrogate gi enabled => exact of_rights rfl

theorem locking {step : Slot → List Event → Slot → Prop}
    (inside : ∀ before events after, step before events after → KeepsReserved ip before events after)
    (ran : Locking step before events after) : KeepsReserved ip before events after := by
  cases ran with
  | inside ran => exact inside _ _ _ ran
  | engine engineLocked => exact ⟨fun reserved => ⟨reserved.configured, reserved.resvTms, reserved.holder⟩, rfl⟩

variable {α : Type} {program : BrcbM α}

theorem run (respects : program.Respects (KeepsReserved ip)) (slot : Slot) :
    KeepsReserved ip slot (program.run slot).events (program.run slot).state :=
  respects.run (fun _ => of_rights rfl) (fun _ _ _ _ _ => trans) slot

theorem of_engine {body : BrcbM α} (inside : body.Respects EngineSection) :
    (withEngine body).Respects (KeepsReserved ip) :=
  (withEngine_locking inside).mono _ fun _ _ _ => locking fun _ _ _ => engineSection

theorem of_internal (internal : program.Respects Internal) : program.Respects (KeepsReserved ip) :=
  internal.mono _ fun _ _ _ ran => of_rights ran.rights

theorem of_write (ip : IpAddr) (sections : program.Respects (Locking (WriteSection conn writerIp)))
    (slot : Slot) (address : slot.peerIp conn = writerIp) :
    KeepsReserved ip slot (program.run slot).events (program.run slot).state := by
  refine (sections.mono (fun before events after => before.peerIp conn = writerIp →
    KeepsReserved ip before events after) ?_).run ?_ ?_ slot address
  · intro before events after ran address
    cases ran with
    | inside ran => exact writeSection address ran
    | engine engineLocked => exact locking (fun _ _ _ => engineSection) (.engine before engineLocked)
  · intro slot _
    exact of_rights rfl
  · intro first middle last earlier later front back address
    have kept := front address
    refine kept.trans (back ?_)
    unfold Slot.peerIp
    rw [kept.peers]
    exact address

end KeepsReserved

def RcbWriteValue.isResvTms (value : RcbWriteValue) : Bool := (resvTmsValue value).isOk

/-- The step is not a ResvTms write in range that the owner makes while the block is disabled. -/
def Step.SparesReservation (ip : IpAddr) (step : Step) (slot : Slot) : Prop :=
  match step with
  | .write .resvTms value conn _ =>
    slot.brcb.withResvTms = true → slot.peerIp conn = some ip → slot.state.rptEna = false → value.isResvTms = false
  | _ => True

section

variable (reserved : slot.ReservedFor ip)

include reserved

theorem setBrcbResvTms_keeps {value : RcbWriteValue} (spared : slot.state.rptEna = false → value.isResvTms = false) :
    ((setBrcbResvTms conn (slot.peerIp conn) value).run slot).state.ReservedFor ip ∧
      ((setBrcbResvTms conn (slot.peerIp conn) value).run slot).state.peers = slot.peers := by
  unfold setBrcbResvTms
  cases decoded : resvTmsValue value with
  | error reason => exact ⟨reserved, rfl⟩
  | ok seconds =>
    have enabled : slot.state.rptEna = true := by
      cases rptEna : slot.state.rptEna with
      | true => rfl
      | false =>
        have outOfRange := spared rptEna
        simp [RcbWriteValue.isResvTms, decoded, Except.isOk, Except.toBool] at outOfRange
    rw [run_atomically]
    cases entitled : claimBrcbLocked slot.brcb slot.state conn (slot.peerIp conn) with
    | none => exact ⟨reserved, rfl⟩
    | some claimed =>
      obtain ⟨address, resvTms, holder, rptEna⟩ := reserved.entitled entitled
      have refused : applyResvTms claimed seconds conn (slot.peerIp conn) =
          (.refused .temporarilyUnavailable, claimed) := by
        simp [applyResvTms, rptEna, enabled]
      simp only [refused]
      exact ⟨reserved.hold address resvTms holder, trivial⟩

theorem handleSetBrcbField_keepsReserved {field : RcbField} {value : RcbWriteValue} {now : Instant}
    (spared : Step.SparesReservation ip (.write field value conn now) slot) :
    let after := ((handleSetBrcbField field value conn now).run slot).state
    after.ReservedFor ip ∧ after.peers = slot.peers := by
  by_cases writable : field ≠ .confRev ∧ field ≠ .sqNum ∧ field ≠ .resv
  · rw [handleSetBrcbField_run field writable]
    dsimp only
    split
    · exact ⟨reserved, rfl⟩
    next present =>
    rw [show (slot.peers conn).map (·.ip) = slot.peerIp conn from rfl]
    cases entitled : claimBrcbLocked slot.brcb slot.state conn (slot.peerIp conn) with
    | none => exact ⟨reserved, rfl⟩
    | some claimed =>
      obtain ⟨address, resvTms, holder, rptEna⟩ := reserved.entitled entitled
      have held := reserved.hold address resvTms holder
      dsimp only
      by_cases isResvTms : field = .resvTms
      · subst isResvTms
        refine setBrcbResvTms_keeps held fun disabled => ?_
        have present : slot.brcb.withResvTms = true := by simpa [brcbHasField] using present
        exact spared present address (rptEna ▸ disabled)
      · have kept := KeepsReserved.of_write ip
          (WriteSection.writeBrcbField_locking conn (slot.peerIp conn) isResvTms value now)
          { slot with state := claimed } rfl
        exact ⟨kept.reserved held, kept.peers⟩
  · have refused : field = .confRev ∨ field = .sqNum ∨ field = .resv := by tauto
    rcases refused with rfl | rfl | rfl
    · exact ⟨reserved, rfl⟩
    · exact ⟨reserved, rfl⟩
    · exact ⟨reserved, rfl⟩

theorem Step.after_reservedFor {step : Step} (spared : step.SparesReservation ip slot) :
    (step.after slot).ReservedFor ip ∧ (step.after slot).peers = slot.peers := by
  have keeps {program : BrcbM Answer} (respects : program.Respects (KeepsReserved ip)) :
      (program.run slot).state.ReservedFor ip ∧ (program.run slot).state.peers = slot.peers :=
    ⟨(KeepsReserved.run respects slot).reserved reserved, (KeepsReserved.run respects slot).peers⟩
  have channelled (channel : Channel) :
      (modifySlot fun slot => { slot with channel }).Respects (KeepsReserved ip) :=
    .atomically fun _ => .of_rights rfl
  cases step with
  | enqueue nowMs isIntegrity isGi payload | enqueueSnapshot nowMs isIntegrity isGi snapshot =>
    exact keeps
      (.bind (KeepsReserved.of_internal (Internal.enqueues (EnqueueSection.enqueueAllocated _ _)))
        fun _ => .pure _)
  | enqueueStored oldestCommit timeMs snapshot =>
    exact keeps
      (.bind (KeepsReserved.of_internal
        (Internal.enqueues (EnqueueSection.enqueueStoredEntry _ _ _))) fun _ => .pure _)
  | write field value conn now => exact handleSetBrcbField_keepsReserved reserved spared
  | connectionLost conn now =>
    exact keeps (.bind (KeepsReserved.of_engine (EngineSection.onConnectionDropped conn now)) fun _ => .pure _)
  | reservationTick now =>
    exact keeps (.bind (KeepsReserved.of_engine (EngineSection.tickBrcbReservations now)) fun _ => .pure _)
  | tick channel now nowMs =>
    exact keeps (.bind (channelled channel) fun _ =>
      .bind (KeepsReserved.of_engine (EngineSection.tickBrcb now nowMs)) fun _ =>
      .pure _)
  | flush channel now =>
    exact keeps (.bind (channelled channel) fun _ =>
      .bind (KeepsReserved.of_engine (EngineSection.flushAllBrcbPending now)) fun _ => .pure _)

theorem runSteps_reservedFor {steps : List Step} (spared : Along (Step.SparesReservation ip) steps slot) :
    (runSteps steps slot).ReservedFor ip ∧ (runSteps steps slot).peers = slot.peers := by
  induction steps generalizing slot with
  | nil => exact ⟨reserved, rfl⟩
  | cons step rest ih =>
    obtain ⟨now, later⟩ := spared
    obtain ⟨stillReserved, samePeers⟩ := Step.after_reservedFor reserved now
    obtain ⟨reservedAfter, peersAfter⟩ := ih stillReserved later
    exact ⟨reservedAfter, peersAfter.trans samePeers⟩

theorem Slot.ReservedFor.refuses (stranger : slot.peerIp conn ≠ some ip)
    (field : RcbField) (value : RcbWriteValue) (now : Instant) :
    ((handleSetBrcbField field value conn now).run slot).result ≠ .accepted := by
  by_cases writable : field ≠ .confRev ∧ field ≠ .sqNum ∧ field ≠ .resv
  · rw [handleSetBrcbField_run field writable]
    dsimp only
    split
    · nofun
    have denied : claimBrcbLocked slot.brcb slot.state conn ((slot.peers conn).map (·.ip)) = none := by
      cases entitled : claimBrcbLocked slot.brcb slot.state conn ((slot.peers conn).map (·.ip)) with
      | none => rfl
      | some claimed => exact absurd (reserved.entitled entitled).1 stranger
    rw [denied]
    nofun
  · have refused : field = .confRev ∨ field = .sqNum ∨ field = .resv := by tauto
    rcases refused with rfl | rfl | rfl
    · nofun
    · nofun
    · nofun

end

/-- A block with a pre-configured owner accepts no write from another address, as long as the owner
makes no ResvTms write in range while the block is disabled. -/
theorem preconfigured_owner_keeps_strangers_out {slot : Slot} {ip : IpAddr} (fresh : slot.Fresh)
    (configured : slot.brcb.clientReservation = some ip) (steps : List Step)
    (spared : Along (Step.SparesReservation ip) steps slot) (field : RcbField) (value : RcbWriteValue)
    (conn : ConnectionId) (now : Instant) (stranger : slot.peerIp conn ≠ some ip) :
    ((handleSetBrcbField field value conn now).run (runSteps steps slot)).result ≠ .accepted := by
  obtain ⟨reserved, peers⟩ := runSteps_reservedFor (fresh.reservedFor configured) spared
  refine reserved.refuses ?_ field value now
  unfold Slot.peerIp
  rw [peers]
  exact stranger

/-- The bare block, pre-configured for the address of connection 1; every other connection has
another address. -/
def ownedBlock : Slot :=
  let brcb := { bareBlock.brcb with clientReservation := some (.v4 ⟨#[10, 0, 0, 1], rfl⟩) }
  { bareBlock with
    brcb
    state := { BrcbState.fromBrcb brcb with datSet := qualifiedDatSet "LD0/LLN0$BR$brcb01" "events" }
    peers := fun conn => some
      { ip := if conn = 1 then .v4 ⟨#[10, 0, 0, 1], rfl⟩ else .v4 ⟨#[10, 0, 0, 2], rfl⟩, maxPduSizeBytes := 64 } }

theorem ownedBlock_fresh : ownedBlock.Fresh :=
  ⟨rfl, ⟨.dropOldest, rfl⟩, rfl, rfl, rfl, rfl, rfl, rfl⟩

/-- The owner comes and goes without writing ResvTms. -/
theorem stranger_refused_after_owner_left : ((handleSetBrcbField .intgPd (.unsigned 500) 2 0).run
      (runSteps [.write .rptEna (.bool true) 1 0, .write .resvTms (.integer 0) 1 0, .connectionLost 1 0]
        ownedBlock)).result ≠ .accepted :=
  preconfigured_owner_keeps_strangers_out ownedBlock_fresh rfl
    [.write .rptEna (.bool true) 1 0, .write .resvTms (.integer 0) 1 0, .connectionLost 1 0]
    ⟨trivial, fun _ _ disabled => absurd disabled (by decide +kernel), trivial, trivial⟩
    .intgPd (.unsigned 500) 2 0 (by decide)

/-- Once the owner has written ResvTms, every address is accepted. -/
theorem stranger_accepted_after_owner_wrote_resvTms :
    ownedBlock.Fresh ∧ ownedBlock.brcb.clientReservation = ownedBlock.peerIp 1 ∧
      ownedBlock.peerIp 2 ≠ ownedBlock.peerIp 1 ∧
      ((handleSetBrcbField .intgPd (.unsigned 500) 2 0).run
        (runSteps [.write .resvTms (.integer 0) 1 0] ownedBlock)).result = .accepted := by
  refine ⟨ownedBlock_fresh, by decide, by decide, ?_⟩
  decide +kernel

end Iec61850.Reporting
