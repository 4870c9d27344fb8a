import Iec61850.Concurrency.Machine
import Iec61850.Wire.BigEndian
import Iec61850.Wire.Pieces

/-!
Data transfer of a COTP class 0 connection. A TSDU is cut into DT TPDUs, each framed by a TPKT
header; the receiver keeps the octets of an unfinished packet and of an unfinished TSDU in the
connection, where a receive that is dropped leaves them to the next one.
-/

namespace Iec61850.Iso

open Concurrency Wire

abbrev Bytes := List UInt8

inductive CotpState where
  | closed
  | connectSent
  | connected
  | closing
  deriving DecidableEq, Repr

inductive CotpError where
  | invalidTpktVersion (version reserved : UInt8)
  | tpktLengthTooSmall (packetLen : UInt16)
  | tpktLengthOverflow (packetLen : UInt16) (maxSize : Nat)
  | unknownTpduType (tpduType : UInt8)
  | invalidDtLi (li : UInt8)
  | emptyDtPayload
  | invalidState (state : CotpState) (op : String)
  /-- The transport failed other than by its end; what it reports is left out. -/
  | io
  | unexpectedEof
  | tsduTooLarge (accumulated limit : Nat)
  deriving DecidableEq, Repr

def tpktVersion : UInt8 := 0x03
def tpktReserved : UInt8 := 0x00
def tpktHeaderLen : Nat := 4

structure TpktHeader where
  packetLen : UInt16
  deriving DecidableEq, Repr

namespace TpktHeader

def decode (buf : Bytes) : Except CotpError TpktHeader :=
  let octet (index : Nat) := buf.getD index 0
  if octet 0 ≠ tpktVersion ∨ octet 1 ≠ tpktReserved then
    .error (.invalidTpktVersion (octet 0) (octet 1))
  else
    let packetLen := UInt16.ofNat (ofBytes [octet 2, octet 3])
    if packetLen ≤ 4 then .error (.tpktLengthTooSmall packetLen) else .ok { packetLen }

def encode (header : TpktHeader) : Bytes :=
  [tpktVersion, tpktReserved, (header.packetLen >>> 8).toUInt8, header.packetLen.toUInt8]

/-- The length is taken modulo the range of the field. -/
def new (totalLen : Nat) : TpktHeader := { packetLen := UInt16.ofNat totalLen }

def cotpLen (header : TpktHeader) : Nat := header.packetLen.toNat - tpktHeaderLen

end TpktHeader

def cotpMaxBufferSize : Nat := 8192 + tpktHeaderLen
def cotpDataHeaderSize : Nat := 3
def cotpMinTpduSizeEncoded : Nat := 0x07
def cotpMaxTpduSizeEncoded : Nat := 0x0d
def tpduDt : UInt8 := 0xf0

structure TpduSize where
  encoded : Nat
  legal : cotpMinTpduSizeEncoded ≤ encoded ∧ encoded ≤ cotpMaxTpduSizeEncoded
  deriving DecidableEq

namespace TpduSize

def bytes (size : TpduSize) : Nat := 1 <<< size.encoded

end TpduSize

inductive ReadState where
  | idle
  | readingHeader (got : Nat) (buf : Bytes)
  | readingBody (header : TpktHeader) (got : Nat)
  deriving DecidableEq, Repr

structure CotpConnection where
  state : CotpState
  tpduSize : TpduSize
  readBuf : Bytes
  payloadBuf : Bytes
  readState : ReadState
  maxTsduSize : Option Nat
  deriving DecidableEq

def encodeDt (payload : Bytes) (isLast : Bool) : Bytes :=
  [0x02, tpduDt, if isLast then 0x80 else 0x00] ++ payload

def parseDt (buf : Bytes) : Except CotpError (Bytes × Bool) :=
  match buf with
  | [] => .error .unexpectedEof
  | li :: rest =>
    if li ≠ 2 then .error (.invalidDtLi li)
    else
      match rest with
      | [] => .error .unexpectedEof
      | tpduType :: rest =>
        if tpduType ≠ tpduDt then .error (.unknownTpduType tpduType)
        else
          match rest with
          | [] => .error .unexpectedEof
          | nr :: payload =>
            if payload.isEmpty then .error .emptyDtPayload else .ok (payload, nr &&& 0x80 != 0)

def writeTpkt (cotpPdu : Bytes) : Bytes := (TpktHeader.new (tpktHeaderLen + cotpPdu.length)).encode ++ cotpPdu

def dataTpdus (size : TpduSize) (payload : Bytes) : List Bytes :=
  let segments := chunks (size.bytes - cotpDataHeaderSize) payload
  segments.zipIdx.map fun (segment, index) => encodeDt segment (index == segments.length - 1)

namespace CotpConnection

variable (connection : CotpConnection)

def sendData (payload : Bytes) : Except CotpError (List Bytes) :=
  if connection.state ≠ .connected then .error (.invalidState connection.state "send_data")
  else .ok ((dataTpdus connection.tpduSize payload).map writeTpkt)

def readTpktTurn : Turn CotpConnection (Except CotpError Bytes) :=
  match connection.readState with
  | .idle => .again { connection with readState := .readingHeader 0 [0, 0, 0, 0] }
  | .readingHeader got buf =>
    if got < 4 then .pending connection
    else
      match TpktHeader.decode buf with
      | .error error => .returned connection (.error error)
      | .ok header =>
        if cotpMaxBufferSize < header.packetLen.toNat then
          .returned { connection with readState := .idle }
            (.error (.tpktLengthOverflow header.packetLen cotpMaxBufferSize))
        else
          .again { connection with
            readBuf := resize connection.readBuf header.cotpLen 0, readState := .readingBody header 0 }
  | .readingBody header got =>
    if got < header.cotpLen then .pending connection
    else .returned { connection with readState := .idle } (.ok (connection.readBuf.take header.cotpLen))

/-- `read_tpkt` up to its next wait for the transport; no more than two turns lie between two
waits. -/
def readTpkt : Turn CotpConnection (Except CotpError Bytes) := Turn.loop readTpktTurn 2 connection

def exceeded : Option Nat := connection.maxTsduSize.filter (· < connection.payloadBuf.length)

def checkReassembly (isLast : Bool) : Turn CotpConnection (Except CotpError Bytes) :=
  match connection.exceeded with
  | some limit =>
    .returned { connection with payloadBuf := [], state := .closed }
      (.error (.tsduTooLarge connection.payloadBuf.length limit))
  | none =>
    if isLast then .returned { connection with payloadBuf := [] } (.ok connection.payloadBuf)
    else .again connection

def appendPayload (payload : Bytes) : CotpConnection :=
  { connection with payloadBuf := connection.payloadBuf ++ payload }

def recvDataTurn : Turn CotpConnection (Except CotpError Bytes) :=
  match connection.readTpkt with
  | .pending connection => .pending connection
  | .again connection => .again connection
  | .returned connection (.error error) => .returned connection (.error error)
  | .returned connection (.ok raw) =>
    match parseDt raw with
    | .error error => .returned connection (.error error)
    | .ok (payload, isLast) => (connection.appendPayload payload).checkReassembly isLast

/-- The loop of `recv_data` up to its next wait for the transport; the turn after a segment finds no
packet begun. -/
def recvDataLoop : Turn CotpConnection (Except CotpError Bytes) := Turn.loop recvDataTurn 2 connection

def recvData : Turn CotpConnection (Except CotpError Bytes) :=
  if connection.state ≠ .connected then
    .returned connection (.error (.invalidState connection.state "recv_data"))
  else connection.recvDataLoop

def wanted : Nat :=
  match connection.readState with
  | .idle => 0
  | .readingHeader got _ => 4 - got
  | .readingBody _ got => connection.readBuf.length - got

def received (bytes : Bytes) : CotpConnection :=
  match connection.readState with
  | .idle => connection
  | .readingHeader got buf =>
    { connection with readState := .readingHeader (got + bytes.length) (overwrite buf got bytes) }
  | .readingBody header got =>
    { connection with
      readBuf := overwrite connection.readBuf got bytes, readState := .readingBody header (got + bytes.length) }

end CotpConnection

structure Receiver where
  connection : CotpConnection
  receiving : Bool
  results : List (Except CotpError Bytes)

inductive Receiver.Input where
  | call
  | read (bytes : Bytes)
  | eof
  | failure
  | drop
  deriving DecidableEq, Repr

namespace Receiver

variable (receiver : Receiver)

/-- On a connection just established; what the handshake left in the read buffer does not matter. -/
def start (size : TpduSize) (limit : Option Nat) (readBuf : Bytes) : Receiver where
  connection :=
    { state := .connected, tpduSize := size, readBuf, payloadBuf := [], readState := .idle
      maxTsduSize := limit }
  receiving := false
  results := []

def settle : Turn CotpConnection (Except CotpError Bytes) → Option Receiver
  | .pending connection => some { receiver with connection, receiving := true }
  | .again _ => none
  | .returned connection result => some { connection, receiving := false, results := receiver.results ++ [result] }

def step : Input → Option Receiver
  | .call => if receiver.receiving then none else receiver.settle receiver.connection.recvData
  | .read bytes =>
    if receiver.receiving = false ∨ bytes = [] ∨ receiver.connection.wanted < bytes.length then none
    else receiver.settle (receiver.connection.received bytes).recvDataLoop
  | .eof =>
    if receiver.receiving then
      some { receiver with receiving := false, results := receiver.results ++ [.error .unexpectedEof] }
    else none
  | .failure =>
    if receiver.receiving then some { receiver with receiving := false, results := receiver.results ++ [.error .io] }
    else none
  | .drop => if receiver.receiving then some { receiver with receiving := false } else none

def run : List Input → Option Receiver := Machine.run step receiver

end Receiver

structure Link where
  unwritten : List Bytes
  inTransit : Bytes
  receiver : Receiver

inductive Link.Event where
  | write
  | call
  | read (count : Nat)
  | drop
  deriving DecidableEq, Repr

namespace Link

variable (link : Link)

def step : Event → Option Link
  | .write =>
    match link.unwritten with
    | [] => none
    | packet :: rest => some { link with unwritten := rest, inTransit := link.inTransit ++ packet }
  | .call => (link.receiver.step .call).map fun receiver => { link with receiver }
  | .read count =>
    if link.inTransit.length < count then none
    else
      (link.receiver.step (.read (link.inTransit.take count))).map fun receiver =>
        { link with inTransit := link.inTransit.drop count, receiver }
  | .drop => (link.receiver.step .drop).map fun receiver => { link with receiver }

def run : List Event → Option Link := Machine.run step link

end Link

end Iec61850.Iso
