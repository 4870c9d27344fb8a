import Iec61850.Client.Compat
import Iec61850.Client.Instant
import Iec61850.Concurrency.Machine
import Iec61850.Service.JournalPage

/-!
The journal queries of the client: one ReadJournal request for a query, and the loop that follows
moreFollows with a continuation behind the last entry of every page.
-/

namespace Iec61850.Client.Journal

open Concurrency Mms Model Service

structure ClientJournalEntryData where
  dataRef : String
  value : MmsValue
  reasonCode : UInt8

structure ClientJournalEntry where
  entryId : UInt64
  timeMs : UInt64
  journalVariables : List ClientJournalEntryData

inductive JournalStart where
  | time (ms : UInt64)
  | entry (entryId : UInt64)
  deriving DecidableEq, Repr

inductive JournalStop where
  | time (ms : UInt64)
  | count (number : UInt32)
  deriving DecidableEq, Repr

structure JournalCursor where
  timeMs : UInt64
  entryId : UInt64
  deriving DecidableEq, Repr

structure JournalQuery where
  start : Option JournalStart := none
  stop : Option JournalStop := none
  listOfVariables : List String := []
  after : Option JournalCursor := none
  deriving DecidableEq, Repr

inductive ClientError where
  | invalidArgument (message : String)
  | refused (reason : ErrorClass)
  | pduTooLarge (pduSize maxSize : Nat)
  | journalNotAdvancing
  deriving DecidableEq, Repr

/-- A page shortens the count by its entries, which saturate at the counter's width. -/
def JournalStop.less (received : Nat) : JournalStop → JournalStop
  | .time ms => .time ms
  | .count number => .count (UInt32.ofNat (number.toNat - min received (UInt32.size - 1)))

namespace JournalQuery

def new : JournalQuery := {}

variable (query : JournalQuery) (timeMs entryId : UInt64)

def withEntryToStartAfter : JournalQuery :=
  { query with after := some ⟨timeMs, entryId⟩ }

/-- `none` behind an empty page, which leaves no entry to resume after. -/
def continuation (page : List ClientJournalEntry) : Option JournalQuery :=
  page.getLast?.map fun last =>
    let next := query.withEntryToStartAfter last.timeMs last.entryId
    { next with stop := next.stop.map (JournalStop.less page.length) }

def endMs : Option UInt64 :=
  match query.stop with
  | some (.time ms) => some ms
  | _ => none

def maxEntries : Option Nat :=
  match query.stop with
  | some (.count number) => some number.toNat
  | _ => none

end JournalQuery

/-- Keeps the entries whose identifiers are not among those received, and adds theirs. -/
def retainNew (received : List UInt64) : List ClientJournalEntry → List UInt64 × List ClientJournalEntry
  | [] => (received, [])
  | entry :: rest =>
    if entry.entryId ∈ received then
      retainNew received rest
    else
      let (received, kept) := retainNew (entry.entryId :: received) rest
      (received, entry :: kept)

variable (wire entry : WireJournalEntry) (peer : Peer) (domain item logRef : String) (query : JournalQuery)
  (cursor : Option JournalCursor) (received : List UInt64) (endMs : UInt64) (page : List ClientJournalEntry)

def behindCursor : List ClientJournalEntry :=
  match cursor with
  | none => page
  | some cursor => (page.reverse.takeWhile fun entry => entry.entryId ≠ cursor.entryId).reverse

def keepNewEntries : List UInt64 × List ClientJournalEntry :=
  retainNew received (behindCursor cursor page)

def dropPastEnd : List ClientJournalEntry × Bool :=
  let kept := page.filter fun entry => entry.timeMs ≤ endMs
  (kept, kept.length < page.length)

def parseJournalRef : Except ClientError (String × String) :=
  match Reporting.splitOnceSlash logRef with
  | none => .error (.invalidArgument ("journal log reference must be '<domain>/<item>', got " ++ logRef.quote))
  | some (domain, item) =>
    if domain = "" ∨ item = "" then
      .error (.invalidArgument ("journal log reference has an empty domain or item: " ++ logRef.quote))
    else
      .ok (domain, item)

def wireEntryToClient : ClientJournalEntry where
  entryId := wire.entryId
  timeMs := wire.occurenceTimeMs
  journalVariables := wire.journalVariables.map fun point =>
    ⟨point.dataRef, Client.mmsDataToMmsValue point.value, point.reasonCode⟩

def buildWireRequest : ReadJournalRequest where
  domainId := domain
  itemId := item
  rangeStart := query.start.map fun
    | .time ms => .startingTime ms
    | .entry entryId => .startingEntry entryId
  rangeStop := query.stop.map fun
    | .time ms => .endingTime ms
    | .count number => .numberOfEntries number
  listOfVariables := query.listOfVariables
  entryToStartAfter := query.after.map fun cursor => ⟨cursor.timeMs, cursor.entryId⟩

/-! What arrives of a request and of a response: an instant as BINARY-TIME expresses it, a count as
an Integer32, and the seven bits of a reason code. -/

def carriedCount (count : UInt32) : UInt32 := if count ≤ 0x7fffffff then count else 0x7fffffff

def carriedRequest (request : ReadJournalRequest) : ReadJournalRequest where
  domainId := request.domainId
  itemId := request.itemId
  rangeStart := request.rangeStart.map fun
    | .startingTime timeMs => .startingTime (carriedMs timeMs)
    | .startingEntry entryId => .startingEntry entryId
  rangeStop := request.rangeStop.map fun
    | .endingTime timeMs => .endingTime (carriedMs timeMs)
    | .numberOfEntries count => .numberOfEntries (carriedCount count)
  listOfVariables := request.listOfVariables
  entryToStartAfter := request.entryToStartAfter.map fun cursor => ⟨carriedMs cursor.timeMs, cursor.entryId⟩

def carriedEntry : WireJournalEntry where
  entryId := entry.entryId
  occurenceTimeMs := carriedMs entry.occurenceTimeMs
  journalVariables := entry.journalVariables.map fun point =>
    ⟨point.dataRef, point.value, reverseBits (reasonCodeToWire point.reasonCode)⟩

def receivedEntry : ClientJournalEntry := wireEntryToClient (carriedEntry entry)

/-- What the server decodes. A part of the name of 128 octets or more has a longer length field than
its encoder counts, and the server finds the name truncated. -/
def receivedRequest (request : ReadJournalRequest) : Except MmsError ReadJournalRequest :=
  if 128 ≤ stringLen request.domainId ∨ 128 ≤ stringLen request.itemId then
    .error .truncatedPdu
  else
    .ok (carriedRequest request)

/-- The server, with the size its responses keep to, and the client's side of the association: the
size its requests keep to, and the invokeID of each request. -/
structure Peer where
  registry : LogControlRegistry
  negotiatedMaxPduSize : Option UInt32
  maxRequestSize : Nat
  invokeId : Nat → UInt32

/-- The request is encoded, and refused by the client itself if it is too large. -/
def queryJournal (number : Nat) : Except ClientError (List ClientJournalEntry × Bool) :=
  match parseJournalRef logRef with
  | .error failure => .error failure
  | .ok (domain, item) =>
    let request := buildWireRequest domain item query
    let pduSize := (encodeConfirmedReadJournalRequest (peer.invokeId number) request).length
    if peer.maxRequestSize < pduSize then
      .error (.pduTooLarge pduSize peer.maxRequestSize)
    else
      match answerReadJournal peer.registry peer.negotiatedMaxPduSize (receivedRequest request) with
      | .error reason => .error (.refused reason)
      | .ok response => .ok (response.entries.map receivedEntry, response.moreFollows.getD false)

/-- `number` counts the requests. -/
structure Reading where
  all : List ClientJournalEntry
  received : List UInt64
  next : JournalQuery
  number : Nat

def Reading.begin : Reading := ⟨[], [], query, 0⟩

def queryJournalTurn (reading : Reading) : Turn Reading (Except ClientError (List ClientJournalEntry)) :=
  match queryJournal peer logRef reading.next reading.number with
  | .error failure => .returned reading (.error failure)
  | .ok (page, more) =>
    let (received, page) := keepNewEntries reading.next.after reading.received page
    let (page, pastEnd) := query.endMs.elim (page, false) fun endMs => dropPastEnd endMs page
    let page := query.maxEntries.elim page fun max => page.take (max - reading.all.length)
    let full := query.maxEntries.any fun max => max ≤ reading.all.length + page.length
    if !more || pastEnd || full then
      .returned { reading with received := received } (.ok (reading.all ++ page))
    else
      match reading.next.continuation page with
      | none => .returned { reading with received := received } (.error .journalNotAdvancing)
      | some next => .again ⟨reading.all ++ page, received, next, reading.number + 1⟩

def queryJournalAll (requests : Nat) : Turn Reading (Except ClientError (List ClientJournalEntry)) :=
  Turn.loop (queryJournalTurn peer logRef query) requests (.begin query)

end Iec61850.Client.Journal
