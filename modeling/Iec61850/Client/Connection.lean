import Iec61850.Concurrency.Machine
import Iec61850.Mms.InvokeId

/-!
Confirmed calls of the client on one association. The invokeIDs in use are kept by an allocator;
those of requests that were given up unanswered are kept by the connection, which counts them
against the outstanding limit until their late answers arrive.
-/

namespace Iec61850.Client

open Concurrency Mms Wire

abbrev Bytes := List UInt8

inductive ConnectionState where
  | closed
  | connecting
  | connected
  | closing
  deriving DecidableEq, Repr

/-- A PDU of the peer. The raw variants hold the content; of the others only what tells an answer is
kept. -/
inductive MmsPdu where
  | confirmedRequest (inner : Bytes)
  | confirmedResponse (inner : Bytes)
  | confirmedError (inner : Bytes)
  | unconfirmed (inner : Bytes)
  | reject (invokeId : Option UInt32)
  | initiateRequest
  | initiateResponse
  | initiateError
  | concludeRequest
  | concludeResponse
  deriving DecidableEq, Repr

inductive ClientError where
  | outstandingCallLimit
  | invokeIdExhausted
  | pduParse (message : String)
  | isoError (message : String)
  | pduTooLarge (pduSize maxSize : Nat)
  | notConnected (state : ConnectionState)
  | connectionLost
  /-- The transport reports an error; its cause is left out. -/
  | transport
  | releasedByPeer
  | serviceTimeout (timeoutMs : UInt64)
  deriving DecidableEq, Repr

structure InvokeIdAllocator where
  next : UInt32
  pending : List UInt32
  maxOutstanding : UInt32
  deriving DecidableEq, Repr

namespace InvokeIdAllocator

def new (maxOutstanding : UInt32) : InvokeIdAllocator where
  next := 0
  pending := []
  maxOutstanding := maxOutstanding

def tryCandidates : Nat → InvokeIdAllocator → Except ClientError UInt32 × InvokeIdAllocator
  | 0, alloc => (.error .invokeIdExhausted, alloc)
  | count + 1, alloc =>
    let next := if alloc.next + 1 = 0 then 1 else alloc.next + 1
    if next ∈ alloc.pending then tryCandidates count { alloc with next }
    else (.ok next, { alloc with next, pending := next :: alloc.pending })

def allocate (alloc : InvokeIdAllocator) : Except ClientError UInt32 × InvokeIdAllocator :=
  if alloc.maxOutstanding ≤ UInt32.ofNat alloc.pending.length then (.error .outstandingCallLimit, alloc)
  else alloc.tryCandidates (alloc.maxOutstanding.toNat + 1)

def release (alloc : InvokeIdAllocator) (id : UInt32) : InvokeIdAllocator :=
  { alloc with pending := alloc.pending.filter (· ≠ id) }

end InvokeIdAllocator

def maxAbandonedInvokeIds : Nat := 64

/-- The outstanding limit of an association: the server's answer, never above the proposal and never
below 1. -/
def negotiateMaxCalling (localProposal serverAnswer : UInt16) : UInt16 :=
  UInt16.ofNat (max 1 (min serverAnswer.toNat (max localProposal.toNat 1)))

structure MmsConnection where
  cotp : Bool
  state : ConnectionState
  negotiatedMaxPduSize : Nat
  negotiatedMaxCalling : UInt16
  requestTimeoutMs : UInt64
  maxPendingUnconfirmed : Nat
  pendingUnconfirmed : List Bytes
  abandonedInvokeIds : List UInt32
  deriving DecidableEq, Repr

def responseInvokeId : MmsPdu → Except ClientError (Option UInt32)
  | .confirmedResponse inner => decoded (leadingUnsigned32 inner 0x02)
  | .confirmedError inner => decoded (leadingUnsigned32 inner 0x80)
  | .reject invokeId => .ok invokeId
  | _ => .ok none
where
  decoded : Option UInt32 → Except ClientError (Option UInt32)
    | some id => .ok (some id)
    | none => .error (.pduParse "the invokeid of a confirmed answer does not decode")

namespace MmsConnection

variable (connection : MmsConnection)

variable (inner : Bytes) (invokeId : UInt32) (pdu : MmsPdu)

def pushPendingUnconfirmed : MmsConnection :=
  if connection.maxPendingUnconfirmed = 0 then connection
  else
    let surplus := connection.pendingUnconfirmed.length + 1 - connection.maxPendingUnconfirmed
    { connection with pendingUnconfirmed := connection.pendingUnconfirmed.drop surplus ++ [inner] }

def stashUnconfirmed : MmsConnection :=
  if inner.isEmpty then connection else connection.pushPendingUnconfirmed inner

/-- Remembers the invokeID of a request whose answer did not arrive, forgetting the oldest beyond
the ceiling. -/
def abandonInvokeId : MmsConnection :=
  let ceiling := max maxAbandonedInvokeIds connection.negotiatedMaxCalling.toNat
  let surplus := connection.abandonedInvokeIds.length + 1 - ceiling
  { connection with abandonedInvokeIds := connection.abandonedInvokeIds.drop surplus ++ [invokeId] }

def abandonDroppedCall : MmsConnection :=
  if connection.state = .connected then connection.abandonInvokeId invokeId else connection

def discardStrayAnswer : MmsConnection :=
  { connection with abandonedInvokeIds := connection.abandonedInvokeIds.erase invokeId }

def closeRaw : MmsConnection := { connection with cotp := false, abandonedInvokeIds := [], state := .closed }

def outstandingLimit : Nat := max connection.negotiatedMaxCalling.toNat 1

/-- A PDU that arrives while the answer to a request is awaited: it ends the wait, or the loop reads
on. -/
def awaitResponse : MmsConnection × Option (Except ClientError MmsPdu) :=
  match pdu with
  | .unconfirmed inner => (connection.stashUnconfirmed inner, none)
  | pdu =>
    match responseInvokeId pdu with
    | .ok (some id) => if id = invokeId then (connection, some (.ok pdu)) else (connection.discardStrayAnswer id, none)
    | .ok none => (connection, some (.ok pdu))
    | .error error => (connection, some (.error error))

def awaitOutstandingSlot : MmsConnection :=
  match pdu with
  | .unconfirmed inner => connection.stashUnconfirmed inner
  | pdu =>
    match responseInvokeId pdu with
    | .ok (some id) => connection.discardStrayAnswer id
    | _ => connection

end MmsConnection

def stripConfirmedWrapper (full : Bytes) : Except ClientError Bytes :=
  if full.head? ≠ some 0xa0 then
    let octet := (full.headD 0).toNat
    let hex := String.ofList [Nat.digitChar (octet / 16), Nat.digitChar (octet % 16)]
    .error (.pduParse ("strip_confirmed_wrapper: expected 0xa0 tag, got 0x" ++ hex))
  else
    match (full.drop 1).head?.bind lenBytes with
    | none => .error (.pduParse "strip_confirmed_wrapper: malformed outer ber length")
    | some count =>
      if full.length < 1 + count then .error (.pduParse "strip_confirmed_wrapper: outer wrapper truncated")
      else .ok (full.drop (1 + count))
where
  lenBytes (first : UInt8) : Option Nat :=
    if first ≤ 0x7f then some 1
    else if first = 0x81 then some 2
    else if first = 0x82 then some 3
    else if first = 0x83 then some 4
    else if first = 0x84 then some 5
    else none

inductive Receiving where
  | reading
  | answering
  deriving DecidableEq, Repr

inductive Place where
  | reserving (receiving : Receiving)
  | sending
  | awaiting (receiving : Receiving)
  deriving DecidableEq, Repr

def Place.answering : Place → Option Place
  | .reserving .reading => some (.reserving .answering)
  | .awaiting .reading => some (.awaiting .answering)
  | _ => none

structure Call where
  invokeId : UInt32
  request : Bytes
  place : Place
  deriving DecidableEq, Repr

inductive Incoming where
  | pdu (pdu : MmsPdu)
  /-- Something that does not decode at some layer; the error does not close the connection. -/
  | undecodable (error : ClientError)
  | finish
  | ended
  | failed (error : ClientError)
  deriving DecidableEq, Repr

inductive Input where
  | call (full : Except ClientError Bytes)
  | sent
  | sendFailed (error : ClientError)
  | receive (incoming : Incoming)
  | released
  | timeout
  | drop
  deriving DecidableEq

structure MmsClient where
  connection : MmsConnection
  alloc : InvokeIdAllocator
  call : Option Call
  /-- The invokeIDs of the requests handed to the transport whose answer has not been received. -/
  unanswered : List UInt32
  returned : List (UInt32 × Except ClientError MmsPdu)
  deriving DecidableEq

namespace MmsClient

variable (client : MmsClient)

variable (localProposal serverAnswer : UInt16) (invokeId : UInt32) (call : Call) (awaited : Option UInt32)
  (pdu : MmsPdu)

def finish (result : Except ClientError MmsPdu) : MmsClient :=
  { client with
    alloc := client.alloc.release invokeId, call := none, returned := client.returned ++ [(invokeId, result)] }

def read (place : Receiving → Place) : MmsClient :=
  if client.connection.cotp then { client with call := some { call with place := place .reading } }
  else client.finish call.invokeId (.error (.notConnected client.connection.state))

/-- Hands the request to the transport, unless it is too large or the transport is gone. -/
def sendMmsPdu : MmsClient :=
  let pduSize := (encodeTlv 0xa0 call.request).length
  if client.connection.negotiatedMaxPduSize < pduSize then
    client.finish call.invokeId (.error (.pduTooLarge pduSize client.connection.negotiatedMaxPduSize))
  else if !client.connection.cotp then client.finish call.invokeId (.error (.notConnected client.connection.state))
  else { client with call := some { call with place := .sending }, unanswered := client.unanswered ++ [call.invokeId] }

def reserveOutstandingSlot : MmsClient :=
  if client.connection.abandonedInvokeIds.length < client.connection.outstandingLimit then client.sendMmsPdu call
  else client.read call .reserving

def exchange (full : Bytes) : MmsClient :=
  match stripConfirmedWrapper full with
  | .error error => client.finish invokeId (.error error)
  | .ok request => client.reserveOutstandingSlot { invokeId, request, place := .reserving .reading }

def beginCall (full : Except ClientError Bytes) : MmsClient :=
  match client.alloc.allocate with
  | (.error _, alloc) => { client with alloc }
  | (.ok invokeId, alloc) =>
    match full with
    | .error error => { client with alloc }.finish invokeId (.error error)
    | .ok full => { client with alloc }.exchange invokeId full

/-- The requests that are left unanswered when a PDU has arrived. A Reject without an invokeID
answers the request whose answer is awaited. -/
def answeredBy : List UInt32 :=
  match responseInvokeId pdu, pdu with
  | .ok (some id), _ => client.unanswered.erase id
  | .ok none, .reject none => awaited.elim client.unanswered client.unanswered.erase
  | _, _ => client.unanswered

def receivePdu : Option MmsClient :=
  match call.place with
  | .reserving .reading =>
    some <| { client with
      connection := client.connection.awaitOutstandingSlot pdu
      unanswered := client.answeredBy none pdu }.reserveOutstandingSlot call
  | .awaiting .reading =>
    let (connection, outcome) := client.connection.awaitResponse call.invokeId pdu
    let client := { client with connection, unanswered := client.answeredBy (some call.invokeId) pdu }
    match outcome with
    | none => some client
    | some result => some (client.finish call.invokeId result)
  | _ => none

def closed : MmsClient := { client with connection := client.connection.closeRaw }

def receive (incoming : Incoming) : Option MmsClient :=
  match incoming, call.place.answering with
  | _, none => none
  | .pdu .concludeRequest, some place => some { client with call := some { call with place } }
  | .finish, some place => some { client with call := some { call with place } }
  | .ended, some _ => some (client.closed.finish call.invokeId (.error .connectionLost))
  | .failed error, some _ => some (client.closed.finish call.invokeId (.error error))
  | .undecodable error, some _ => some (client.finish call.invokeId (.error error))
  | .pdu pdu, some _ => client.receivePdu call pdu

def timeOut : Option MmsClient :=
  match call.place with
  | .reserving _ => some (client.finish call.invokeId (.error .outstandingCallLimit))
  | .sending => none
  | .awaiting _ =>
    some ({ client with connection := client.connection.abandonDroppedCall call.invokeId }.finish call.invokeId
      (.error (.serviceTimeout client.connection.requestTimeoutMs)))

def dropCall : MmsClient :=
  let connection :=
    match call.place with
    | .reserving _ => client.connection
    | .sending => client.connection.closeRaw
    | .awaiting _ => client.connection.abandonDroppedCall call.invokeId
  { client with connection, alloc := client.alloc.release call.invokeId, call := none }

/-- What the input makes of the client; `none` when it cannot come. -/
def step (input : Input) : Option MmsClient :=
  match client.call, input with
  | none, .call full => some (client.beginCall full)
  | some call, .sent => if call.place = .sending then some (client.read call .awaiting) else none
  | some call, .sendFailed error =>
    if call.place = .sending then some (client.closed.finish call.invokeId (.error error)) else none
  | some call, .receive incoming => client.receive call incoming
  | some call, .released =>
    if call.place = .reserving .answering ∨ call.place = .awaiting .answering then
      some (client.closed.finish call.invokeId (.error .releasedByPeer))
    else none
  | some call, .timeout => client.timeOut call
  | some call, .drop => some (client.dropCall call)
  | _, _ => none

def established (connection : MmsConnection) (alloc : InvokeIdAllocator) : MmsClient where
  connection := { connection with
    cotp := true, state := .connected, abandonedInvokeIds := []
    negotiatedMaxCalling := negotiateMaxCalling localProposal serverAnswer }
  alloc := { alloc with pending := [] }
  call := none
  unanswered := []
  returned := []

end MmsClient

end Iec61850.Client
