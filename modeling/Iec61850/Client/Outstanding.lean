import Iec61850.Client.Connection
import Mathlib.Data.List.Perm.Basic

/-!
The outstanding limit of the client: what the allocator and the connection keep count of are the
requests that the peer has not answered.
-/

namespace Iec61850.Client

open Concurrency List

theorem MmsConnection.stashUnconfirmed_eq (connection : MmsConnection) (inner : Bytes) :
    ∃ pendingUnconfirmed, connection.stashUnconfirmed inner = { connection with pendingUnconfirmed } := by
  unfold stashUnconfirmed pushPendingUnconfirmed
  split
  · exact ⟨_, rfl⟩
  · split
    · exact ⟨_, rfl⟩
    · exact ⟨_, rfl⟩

theorem MmsConnection.abandonInvokeId_eq {connection : MmsConnection}
    (room : connection.abandonedInvokeIds.length < connection.outstandingLimit) (invokeId : UInt32) :
    connection.abandonInvokeId invokeId =
      { connection with abandonedInvokeIds := connection.abandonedInvokeIds ++ [invokeId] } := by
  have below : connection.outstandingLimit ≤ max maxAbandonedInvokeIds connection.negotiatedMaxCalling.toNat := by
    rw [outstandingLimit, maxAbandonedInvokeIds]
    omega
  have none : connection.abandonedInvokeIds.length + 1 -
      max maxAbandonedInvokeIds connection.negotiatedMaxCalling.toNat = 0 := by omega
  simp [abandonInvokeId, none]

/-- The requests without an answer are those that were abandoned and those in flight. -/
structure Ledger (connection : MmsConnection) (unanswered inFlight : List UInt32) (limit : Nat) : Prop where
  limited : connection.outstandingLimit = limit
  connected : connection.cotp = true → connection.state = .connected
  counted : connection.cotp = true → unanswered.Perm (connection.abandonedInvokeIds ++ inFlight)
  bounded : unanswered.length ≤ limit

namespace Ledger

variable {connection : MmsConnection} {unanswered inFlight : List UInt32} {limit : Nat} {invokeId : UInt32}

section

variable (ledger : Ledger connection unanswered inFlight limit)

include ledger

theorem stash (inner : Bytes) : Ledger (connection.stashUnconfirmed inner) unanswered inFlight limit := by
  obtain ⟨pendingUnconfirmed, same⟩ := connection.stashUnconfirmed_eq inner
  rw [same]
  exact ⟨ledger.limited, ledger.connected, ledger.counted, ledger.bounded⟩

theorem close (others : List UInt32) : Ledger connection.closeRaw unanswered others limit :=
  ⟨ledger.limited, nofun, nofun, ledger.bounded⟩

theorem discard (stray : invokeId ∉ inFlight) :
    Ledger (connection.discardStrayAnswer invokeId) (unanswered.erase invokeId) inFlight limit := by
  refine ⟨ledger.limited, ledger.connected, ?_, Nat.le_trans length_erase_le ledger.bounded⟩
  intro isOpen
  have counted := (ledger.counted isOpen).erase invokeId
  by_cases abandoned : invokeId ∈ connection.abandonedInvokeIds
  · rwa [erase_append_left _ abandoned] at counted
  · rw [erase_append_right _ abandoned, erase_of_not_mem stray] at counted
    simpa only [MmsConnection.discardStrayAnswer, erase_of_not_mem abandoned] using counted

end

theorem answer (ledger : Ledger connection unanswered [invokeId] limit) :
    Ledger connection (unanswered.erase invokeId) [] limit := by
  refine ⟨ledger.limited, ledger.connected, ?_, Nat.le_trans length_erase_le ledger.bounded⟩
  intro isOpen
  have counted := (ledger.counted isOpen).trans perm_append_comm
  simpa using counted.erase invokeId

theorem abandon (ledger : Ledger connection unanswered [invokeId] limit)
    (room : connection.abandonedInvokeIds.length < limit) :
    Ledger (connection.abandonDroppedCall invokeId) unanswered [] limit := by
  rw [← ledger.limited] at room
  unfold MmsConnection.abandonDroppedCall
  split
  · rw [MmsConnection.abandonInvokeId_eq room]
    refine ⟨ledger.limited, ledger.connected, ?_, ledger.bounded⟩
    intro isOpen
    rw [append_nil]
    exact ledger.counted isOpen
  · next unconnected =>
    exact ⟨ledger.limited, ledger.connected,
      fun isOpen => absurd (ledger.connected isOpen) unconnected, ledger.bounded⟩

theorem send (ledger : Ledger connection unanswered [] limit) (isOpen : connection.cotp = true)
    (room : connection.abandonedInvokeIds.length < limit) (invokeId : UInt32) :
    Ledger connection (unanswered ++ [invokeId]) [invokeId] limit := by
  have counted := ledger.counted isOpen
  have length := counted.length_eq
  refine ⟨ledger.limited, ledger.connected, ?_, ?_⟩
  · intro _
    rw [append_nil] at counted
    exact counted.append_right _
  · rw [append_nil] at length
    rw [length_append, length, length_singleton]
    omega

end Ledger

namespace MmsPdu

/-- A PDU that may come during the wait for an answer and, if it is an answer, names its request or
none. -/
def legible (pdu : MmsPdu) : Bool :=
  match pdu with
  | .unconfirmed _ => true
  | .concludeRequest => true
  | .confirmedResponse _ => (responseInvokeId pdu).isOk
  | .confirmedError _ => (responseInvokeId pdu).isOk
  | .reject _ => true
  | _ => false

theorem decoded_isOk {carried : Option UInt32} (decoded : (responseInvokeId.decoded carried).isOk = true) :
    ∃ id, responseInvokeId.decoded carried = .ok (some id) := by
  cases carried with
  | none => cases decoded
  | some id => exact ⟨id, rfl⟩

theorem legible_cases {pdu : MmsPdu} (legible : pdu.legible = true) :
    pdu = .concludeRequest ∨ (∃ inner, pdu = .unconfirmed inner) ∨ pdu = .reject none ∨
      (∃ id, responseInvokeId pdu = .ok (some id)) := by
  cases pdu with
  | concludeRequest => exact .inl rfl
  | unconfirmed inner => exact .inr (.inl ⟨inner, rfl⟩)
  | reject carried =>
    cases carried with
    | none => exact .inr (.inr (.inl rfl))
    | some id => exact .inr (.inr (.inr ⟨id, rfl⟩))
  | confirmedResponse inner | confirmedError inner => exact .inr (.inr (.inr (decoded_isOk legible)))
  | _ => cases legible

end MmsPdu

def Incoming.legible : Incoming → Bool
  | .pdu received => received.legible
  | .undecodable _ => false
  | .finish => true
  | .ended => true
  | .failed _ => true

def Call.inFlight (call : Call) : List UInt32 :=
  match call.place with
  | .reserving _ => []
  | .sending => [call.invokeId]
  | .awaiting _ => [call.invokeId]

namespace MmsClient

def orderly (client : MmsClient) (input : Input) : Bool :=
  match client.call, input with
  | some call, .receive incoming => call.place ≠ .awaiting .reading || incoming.legible
  | _, _ => true

def inFlight (client : MmsClient) : List UInt32 := client.call.elim [] Call.inFlight

def Answers (returned : List (UInt32 × Except ClientError MmsPdu)) : Prop :=
  ∀ id pdu, (id, Except.ok pdu) ∈ returned → responseInvokeId pdu = .ok (some id) ∨ pdu = .reject none

structure Kept (client : MmsClient) (limit : Nat) : Prop where
  pending : client.alloc.pending = (client.call.map Call.invokeId).toList
  ledger : Ledger client.connection client.unanswered client.inFlight limit
  room : client.inFlight ≠ [] → client.connection.cotp = true ∧ client.connection.abandonedInvokeIds.length < limit
  answers : Answers client.returned

variable {client next : MmsClient} {limit : Nat} {call : Call} {invokeId : UInt32}

theorem kept_finish {result : Except ClientError MmsPdu} (pending : client.alloc.pending = [invokeId])
    (ledger : Ledger client.connection client.unanswered [] limit) (answers : Answers client.returned)
    (own : ∀ pdu, result = .ok pdu → responseInvokeId pdu = .ok (some invokeId) ∨ pdu = .reject none) :
    (client.finish invokeId result).Kept limit := by
  refine ⟨?_, ledger, fun flying => absurd rfl flying, ?_⟩
  · simp [finish, InvokeIdAllocator.release, pending]
  · intro id pdu member
    rcases mem_append.mp member with earlier | last
    · exact answers id pdu earlier
    · cases mem_singleton.mp last
      exact own pdu rfl

variable {error : ClientError} {awaited : Option UInt32} {place : Place}

theorem kept_error (pending : client.alloc.pending = [invokeId])
    (ledger : Ledger client.connection client.unanswered [] limit) (answers : Answers client.returned) :
    (client.finish invokeId (.error error)).Kept limit :=
  kept_finish pending ledger answers nofun

theorem kept_sendMmsPdu (pending : client.alloc.pending = [call.invokeId])
    (ledger : Ledger client.connection client.unanswered [] limit) (answers : Answers client.returned)
    (room : client.connection.abandonedInvokeIds.length < limit) : (client.sendMmsPdu call).Kept limit := by
  simp only [sendMmsPdu]
  split
  · exact kept_error pending ledger answers
  split
  · exact kept_error pending ledger answers
  · next isOpen =>
    rw [Bool.not_eq_true', Bool.not_eq_false] at isOpen
    exact ⟨pending, ledger.send isOpen room _, fun _ => ⟨isOpen, room⟩, answers⟩

theorem kept_reserveOutstandingSlot (pending : client.alloc.pending = [call.invokeId])
    (ledger : Ledger client.connection client.unanswered [] limit) (answers : Answers client.returned) :
    (client.reserveOutstandingSlot call).Kept limit := by
  simp only [reserveOutstandingSlot]
  split
  · next room =>
    rw [ledger.limited] at room
    exact kept_sendMmsPdu pending ledger answers room
  · simp only [read]
    split
    · exact ⟨pending, ledger, fun flying => absurd rfl flying, answers⟩
    · exact kept_error pending ledger answers

theorem allocate_of_none {alloc : InvokeIdAllocator} (none : alloc.pending = []) :
    (∃ error, alloc.allocate = (.error error, alloc)) ∨
      ∃ id after, alloc.allocate = (.ok id, after) ∧ after.pending = [id] := by
  simp only [InvokeIdAllocator.allocate]
  split
  · exact .inl ⟨_, rfl⟩
  · simp only [InvokeIdAllocator.tryCandidates, none, not_mem_nil, if_false]
    exact .inr ⟨_, _, rfl, rfl⟩

theorem Kept.beginCall (kept : client.Kept limit) (free : client.call = none) (full : Except ClientError Bytes) :
    (client.beginCall full).Kept limit := by
  have pending : client.alloc.pending = [] := by simpa [free] using kept.pending
  have ledger : Ledger client.connection client.unanswered [] limit := by simpa [inFlight, free] using kept.ledger
  simp only [MmsClient.beginCall]
  rcases allocate_of_none pending with ⟨error, refused⟩ | ⟨id, after, allocated, taken⟩
  · rw [refused]
    exact kept
  rw [allocated]
  cases full with
  | error error => exact kept_error taken ledger kept.answers
  | ok full =>
    simp only [exchange]
    split
    · exact kept_error taken ledger kept.answers
    · exact kept_reserveOutstandingSlot taken ledger kept.answers

variable {pdu : MmsPdu}

theorem answeredBy_of_id (carries : responseInvokeId pdu = .ok (some invokeId)) :
    client.answeredBy awaited pdu = client.unanswered.erase invokeId := by
  unfold answeredBy
  rw [carries]

theorem answeredBy_of_error (illegible : responseInvokeId pdu = .error error) :
    client.answeredBy awaited pdu = client.unanswered := by
  unfold answeredBy
  rw [illegible]

theorem answeredBy_none (anonymous : responseInvokeId pdu = .ok none) :
    client.answeredBy none pdu = client.unanswered := by
  unfold answeredBy
  rw [anonymous]
  cases pdu with
  | reject rejected => cases rejected <;> rfl
  | _ => rfl

theorem ledger_awaitOutstandingSlot (ledger : Ledger client.connection client.unanswered [] limit) (pdu : MmsPdu) :
    Ledger (client.connection.awaitOutstandingSlot pdu) (client.answeredBy none pdu) [] limit := by
  simp only [MmsConnection.awaitOutstandingSlot]
  split
  · next inner =>
    exact ledger.stash inner
  · cases carried : responseInvokeId pdu with
    | error error =>
      rw [answeredBy_of_error carried]
      exact ledger
    | ok carried' =>
      cases carried' with
      | none =>
        rw [answeredBy_none carried]
        exact ledger
      | some id =>
        rw [answeredBy_of_id carried]
        exact ledger.discard not_mem_nil

theorem awaitResponse_legible (legible : pdu.legible = true) (noRelease : pdu ≠ .concludeRequest)
    (ledger : Ledger client.connection client.unanswered [invokeId] limit) :
    (∃ connection, client.connection.awaitResponse invokeId pdu = (connection, none) ∧
        connection.cotp = client.connection.cotp ∧
        connection.abandonedInvokeIds.length ≤ client.connection.abandonedInvokeIds.length ∧
        Ledger connection (client.answeredBy (some invokeId) pdu) [invokeId] limit) ∨
      client.connection.awaitResponse invokeId pdu = (client.connection, some (.ok pdu)) ∧
        (responseInvokeId pdu = .ok (some invokeId) ∨ pdu = .reject none) ∧
        Ledger client.connection (client.answeredBy (some invokeId) pdu) [] limit := by
  rcases MmsPdu.legible_cases legible with release | ⟨inner, rfl⟩ | rfl | ⟨id, carried⟩
  · exact absurd release noRelease
  · left
    obtain ⟨pendingUnconfirmed, same⟩ := client.connection.stashUnconfirmed_eq inner
    refine ⟨client.connection.stashUnconfirmed inner, rfl, by rw [same], by rw [same], ledger.stash inner⟩
  · exact .inr ⟨rfl, .inr rfl, ledger.answer⟩
  · have named : client.connection.awaitResponse invokeId pdu =
        if id = invokeId then (client.connection, some (.ok pdu))
          else (client.connection.discardStrayAnswer id, none) := by
      cases pdu <;> simp_all [MmsConnection.awaitResponse, responseInvokeId]
    rw [named, answeredBy_of_id carried]
    by_cases own : id = invokeId
    · subst own
      exact .inr ⟨if_pos rfl, .inl carried, ledger.answer⟩
    · refine .inl ⟨client.connection.discardStrayAnswer id, if_neg own, rfl, length_erase_le, ledger.discard ?_⟩
      rw [mem_singleton]
      exact own

section

variable (kept : client.Kept limit) (calling : client.call = some call)

include kept calling

theorem Kept.of_call :
    client.alloc.pending = [call.invokeId] ∧ Ledger client.connection client.unanswered call.inFlight limit ∧
      (call.inFlight ≠ [] → client.connection.cotp = true ∧ client.connection.abandonedInvokeIds.length < limit) := by
  have flying : client.inFlight = call.inFlight := by simp [inFlight, calling]
  have pending := kept.pending
  have ledger := kept.ledger
  have room := kept.room
  rw [calling] at pending
  rw [flying] at ledger room
  exact ⟨pending, ledger, room⟩

theorem Kept.closed_finish (error : ClientError) : (client.closed.finish call.invokeId (.error error)).Kept limit := by
  obtain ⟨pending, ledger, _⟩ := kept.of_call calling
  have closed : Ledger client.closed.connection client.closed.unanswered [] limit := ledger.close []
  exact kept_error pending closed kept.answers

theorem Kept.moved (same : { call with place }.inFlight = call.inFlight) :
    Kept { client with call := some { call with place } } limit := by
  obtain ⟨pending, ledger, room⟩ := kept.of_call calling
  refine ⟨pending, ?_, ?_, kept.answers⟩
  · simpa only [inFlight, Option.elim_some, same] using ledger
  · simpa only [inFlight, Option.elim_some, same] using room

theorem Kept.receivePdu (legible : call.place = .awaiting .reading → pdu.legible = true)
    (noRelease : pdu ≠ .concludeRequest) (received : client.receivePdu call pdu = some next) : next.Kept limit := by
  obtain ⟨pending, ledger, room⟩ := kept.of_call calling
  simp only [MmsClient.receivePdu] at received
  split at received
  · next reserving =>
    cases received
    simp only [Call.inFlight, reserving] at ledger
    exact kept_reserveOutstandingSlot pending (ledger_awaitOutstandingSlot ledger pdu) kept.answers
  · next awaiting =>
    simp only [Call.inFlight, awaiting, ne_eq, cons_ne_nil, not_false_eq_true, true_imp_iff] at ledger room
    rcases awaitResponse_legible (legible awaiting) noRelease ledger with
      ⟨connection, readsOn, cotp, fewer, ledger⟩ | ⟨returns, own, ledger⟩
    · rw [readsOn] at received
      cases received
      refine ⟨by rw [calling]; exact pending, ?_, ?_, kept.answers⟩
      · simpa only [inFlight, calling, Option.elim_some, Call.inFlight, awaiting] using ledger
      · intro _
        exact ⟨cotp.trans room.1, Nat.lt_of_le_of_lt fewer room.2⟩
    · rw [returns] at received
      cases received
      refine kept_finish pending ledger kept.answers ?_
      intro pdu' same
      cases same
      exact own
  · cases received

end

theorem answering_eq (answering : call.place.answering = some place) :
    { call with place }.inFlight = call.inFlight ∧ (call.inFlight = [] ∨ call.place = .awaiting .reading) := by
  simp only [Place.answering] at answering
  split at answering
  · next reserving =>
    cases answering
    simp [Call.inFlight, reserving]
  · next awaiting =>
    cases answering
    simp [Call.inFlight, awaiting]
  · cases answering

section

variable (kept : client.Kept limit) (calling : client.call = some call)

include kept calling

theorem Kept.receive {incoming : Incoming}
    (legible : call.place = .awaiting .reading → incoming.legible = true)
    (received : client.receive call incoming = some next) :
    next.Kept limit := by
  simp only [MmsClient.receive] at received
  split at received
  · cases received
  · next place answering =>
    cases received
    exact kept.moved calling (answering_eq answering).1
  · next place answering =>
    cases received
    exact kept.moved calling (answering_eq answering).1
  · cases received
    exact kept.closed_finish calling _
  · cases received
    exact kept.closed_finish calling _
  · next error place answering =>
    cases received
    obtain ⟨pending, ledger, _⟩ := kept.of_call calling
    rcases (answering_eq answering).2 with none | awaiting
    · rw [none] at ledger
      exact kept_error pending ledger kept.answers
    · cases legible awaiting
  · next pdu place noRelease answering => exact kept.receivePdu calling legible noRelease received

theorem Kept.timeOut (timedOut : client.timeOut call = some next) : next.Kept limit := by
  obtain ⟨pending, ledger, room⟩ := kept.of_call calling
  simp only [MmsClient.timeOut] at timedOut
  split at timedOut
  · next receiving reserving =>
    cases timedOut
    simp only [Call.inFlight, reserving] at ledger
    exact kept_error pending ledger kept.answers
  · cases timedOut
  · next receiving awaiting =>
    cases timedOut
    simp only [Call.inFlight, awaiting, ne_eq, cons_ne_nil, not_false_eq_true, true_imp_iff] at ledger room
    exact kept_error pending (ledger.abandon room.2) kept.answers

theorem Kept.dropCall : (client.dropCall call).Kept limit := by
  obtain ⟨pending, ledger, room⟩ := kept.of_call calling
  have released : (client.alloc.release call.invokeId).pending = [] := by simp [InvokeIdAllocator.release, pending]
  refine ⟨released, ?_, fun flying => absurd rfl flying, kept.answers⟩
  show Ledger (client.dropCall call).connection client.unanswered [] limit
  simp only [MmsClient.dropCall]
  split
  · next receiving reserving => simpa only [Call.inFlight, reserving] using ledger
  · exact ledger.close []
  · next receiving awaiting =>
    simp only [Call.inFlight, awaiting, ne_eq, cons_ne_nil, not_false_eq_true, true_imp_iff] at ledger room
    exact ledger.abandon room.2

theorem Kept.sent (sending : call.place = .sending) : (client.read call .awaiting).Kept limit := by
  obtain ⟨_, _, room⟩ := kept.of_call calling
  simp only [Call.inFlight, sending, ne_eq, cons_ne_nil, not_false_eq_true, true_imp_iff] at room
  rw [MmsClient.read, if_pos room.1]
  exact kept.moved calling (by simp only [Call.inFlight, sending])

end

theorem Kept.step (kept : client.Kept limit) {input : Input} (orderly : client.orderly input = true)
    (stepped : client.step input = some next) : next.Kept limit := by
  cases calling : client.call with
  | none =>
    cases input with
    | call full =>
      simp only [MmsClient.step, calling] at stepped
      cases stepped
      exact kept.beginCall calling full
    | _ => simp [MmsClient.step, calling] at stepped
  | some call =>
    cases input with
    | call full => simp [MmsClient.step, calling] at stepped
    | sent =>
      simp only [MmsClient.step, calling] at stepped
      split at stepped
      · next sending =>
        cases stepped
        exact kept.sent calling sending
      · cases stepped
    | sendFailed error =>
      simp only [MmsClient.step, calling] at stepped
      split at stepped
      · cases stepped
        exact kept.closed_finish calling error
      · cases stepped
    | receive incoming =>
      simp only [MmsClient.step, calling] at stepped
      simp only [MmsClient.orderly, calling, Bool.or_eq_true, decide_eq_true_eq, ne_eq] at orderly
      refine kept.receive calling ?_ stepped
      intro awaiting
      exact orderly.resolve_left (not_not.mpr awaiting)
    | released =>
      simp only [MmsClient.step, calling] at stepped
      split at stepped
      · cases stepped
        exact kept.closed_finish calling _
      · cases stepped
    | timeout =>
      simp only [MmsClient.step, calling] at stepped
      exact kept.timeOut calling stepped
    | drop =>
      simp only [MmsClient.step, calling] at stepped
      cases stepped
      exact kept.dropCall calling

theorem toNat_negotiateMaxCalling (localProposal serverAnswer : UInt16) :
    1 ≤ (negotiateMaxCalling localProposal serverAnswer).toNat := by
  have bound := serverAnswer.toNat_lt
  rw [negotiateMaxCalling, UInt16.toNat_ofNat', Nat.mod_eq_of_lt (by omega)]
  omega

variable (localProposal serverAnswer : UInt16) (connection : MmsConnection) (alloc : InvokeIdAllocator)

theorem kept_established : (established localProposal serverAnswer connection alloc).Kept
      (negotiateMaxCalling localProposal serverAnswer).toNat := by
  refine ⟨rfl, ⟨?_, fun _ => rfl, fun _ => List.Perm.nil, Nat.zero_le _⟩, fun flying => absurd rfl flying, nofun⟩
  have positive := toNat_negotiateMaxCalling localProposal serverAnswer
  simp only [MmsConnection.outstandingLimit, established]
  omega

/-- In a run in which everything that arrives during the wait for an answer is legible, the client
keeps its side of the negotiated limit and never takes an answer for that of another call. -/
theorem client_keeps_outstanding_limit (inputs : List Input) (client : MmsClient)
    (ran : Machine.run step (established localProposal serverAnswer connection alloc) inputs = some client)
    (orderly : Machine.Within step (orderly · · = true)
      (established localProposal serverAnswer connection alloc) inputs) :
    (∀ id, id ∈ client.alloc.pending ↔ ∃ call, client.call = some call ∧ call.invokeId = id) ∧
      (∀ id pdu, (id, Except.ok pdu) ∈ client.returned → responseInvokeId pdu = .ok (some id) ∨ pdu = .reject none) ∧
      client.unanswered.length ≤ (negotiateMaxCalling localProposal serverAnswer).toNat := by
  have kept := Machine.invariant_within (Kept · _) (fun kept orderly stepped => kept.step orderly stepped) ran orderly
    (kept_established localProposal serverAnswer connection alloc)
  refine ⟨?_, kept.answers, kept.ledger.bounded⟩
  intro id
  rw [kept.pending]
  simp

def sampleConnection : MmsConnection where
  cotp := true
  state := .connected
  negotiatedMaxPduSize := 65000
  negotiatedMaxCalling := 1
  requestTimeoutMs := 5000
  maxPendingUnconfirmed := 1024
  pendingUnconfirmed := []
  abandonedInvokeIds := []

def oneOutstanding : MmsClient := established 1 1 sampleConnection (.new 5)

def lateAnswer : List Input :=
  [.call (.ok [0xa0, 0x00]), .sent, .drop, .call (.ok [0xa0, 0x00]),
    .receive (.pdu (.confirmedResponse [0x02, 0x01, 0x01])), .sent,
    .receive (.pdu (.confirmedResponse [0x02, 0x01, 0x02]))]

theorem lateAnswer_keeps_outstanding_limit :
    ∃ client, Machine.run step oneOutstanding lateAnswer = some client ∧ client.alloc.pending = [] ∧
      client.unanswered.length ≤ 1 := by
  have ran : Machine.run step oneOutstanding lateAnswer =
      some ((Machine.run step oneOutstanding lateAnswer).get (by decide +kernel)) := (Option.some_get _).symm
  have kept := client_keeps_outstanding_limit 1 1 sampleConnection (.new 5) lateAnswer _ ran (by decide +kernel)
  exact ⟨_, ran, by decide +kernel, kept.2.2⟩

/-- Octets that do not decode end a call as if they had answered it, and so does a PDU that is no
answer at all; the request stays with the peer and is not counted. -/
theorem undecodable_exceeds_outstanding_limit :
    (∃ client, Machine.run step oneOutstanding [.call (.ok [0xa0, 0x00]), .sent,
        .receive (.undecodable (.pduParse "unknown tag")), .call (.ok [0xa0, 0x00]), .sent] = some client ∧
      client.connection.cotp = true ∧ client.connection.negotiatedMaxCalling = 1 ∧ client.unanswered = [1, 2]) ∧
    ∃ client, Machine.run step oneOutstanding [.call (.ok [0xa0, 0x00]), .sent, .receive (.pdu .concludeResponse)] =
        some client ∧
      client.returned = [(1, .ok .concludeResponse)] := by
  refine ⟨⟨_, (Option.some_get (by decide +kernel)).symm, ?_⟩, ⟨_, (Option.some_get (by decide +kernel)).symm, ?_⟩⟩
  · decide +kernel
  · decide +kernel

end MmsClient

end Iec61850.Client
