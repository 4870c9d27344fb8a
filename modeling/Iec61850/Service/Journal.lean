import Iec61850.Reporting.Pdu
import Iec61850.Service.Convert
import Iec61850.Service.Read
import Mathlib.Data.List.Destutter
import Mathlib.Data.List.Sort

/-!
The ReadJournal service: the entries a request selects, in storage order, as long as each fits what
is left of the budget.
-/

namespace Iec61850.Service

open Mms Model

structure JournalEntryData where
  dataRef : String
  value : MmsValue
  reasonCode : UInt8

/-- An entry of a log; its identifier is the number its eight octets give. -/
structure JournalEntry where
  entryId : UInt64
  timeMs : UInt64
  journalVariables : List JournalEntryData

inductive LogStorageError where
  | entryIdNotFound (entryId : UInt64)
  | backend (message : String)
  deriving DecidableEq, Repr

/-- What a backend yields: its entries in ascending order of their identifiers, or a failure. -/
structure LogStorage where
  entries : Except LogStorageError (List JournalEntry)

structure LogControl where
  logRef : Option String
  storage : Option LogStorage

namespace LogControl

variable (control : LogControl) (domain ln : String) (startingTimeMs entryId startMs endMs : UInt64)

def effectiveLogRef : String :=
  control.logRef.getD (domain ++ "/" ++ ln ++ "$GeneralLog")

/-- The entries a walk visits; none without a storage. -/
def query (matching : JournalEntry → Bool) : Except LogStorageError (List JournalEntry) :=
  match control.storage with
  | none => .ok []
  | some storage => storage.entries.map (List.filter matching)

def queryByTime : Except LogStorageError (List JournalEntry) :=
  control.query fun entry => startMs ≤ entry.timeMs && entry.timeMs ≤ endMs

def queryAfter : Except LogStorageError (List JournalEntry) :=
  control.query fun entry => entryId < entry.entryId && startingTimeMs ≤ entry.timeMs

end LogControl

abbrev LogControlRegistry := List ((String × String) × LogControl)

namespace LogControlRegistry

variable (named left right : (String × String) × LogControl) (registry : LogControlRegistry)
  (domain item : String)

def lnOf : String := (componentNames item).headD ""

def logRefOf : String :=
  named.2.effectiveLogRef named.1.1 (lnOf named.1.2)

def keyLe : Prop :=
  left.1.1 < right.1.1 ∨ left.1.1 = right.1.1 ∧ left.1.2 ≤ right.1.2

instance : DecidableRel keyLe := fun _ _ => inferInstanceAs (Decidable (_ ∨ _))

/-- Of the control blocks that name the log, the first by key with a storage, or the first. -/
def resolveJournal : Option LogControl :=
  let named := (registry.filter fun named => logRefOf named = domain ++ "/" ++ item).insertionSort keyLe
  ((named.find? fun control => control.2.storage.isSome).or named.head?).map Prod.snd

def journalNamesInDomain : List String :=
  let names := registry.filterMap fun named => do
    let (logDomain, logItem) ← Reporting.splitOnceSlash (logRefOf named)
    if logDomain = domain ∧ logItem ≠ "" then some logItem else none
  (names.insertionSort (· ≤ ·)).destutter (· ≠ ·)

end LogControlRegistry

inductive JournalRangeStart where
  | startingTime (timeMs : UInt64)
  | startingEntry (entryId : UInt64)
  deriving DecidableEq, Repr

inductive JournalRangeStop where
  | endingTime (timeMs : UInt64)
  | numberOfEntries (count : UInt32)
  deriving DecidableEq, Repr

structure JournalEntryToStartAfter where
  timeMs : UInt64
  entryId : UInt64
  deriving DecidableEq, Repr

/-- An empty list of variables stands for an absent one. -/
structure ReadJournalRequest where
  domainId : String
  itemId : String
  rangeStart : Option JournalRangeStart
  rangeStop : Option JournalRangeStop
  listOfVariables : List String
  entryToStartAfter : Option JournalEntryToStartAfter

/-- The length of the name counts two octets of tag and length for each part, however long it is. -/
def encodeObjectNameDomainSpecific (domainId itemId : String) : List UInt8 :=
  0xa1 :: (encodeLength (2 + stringLen domainId + 2 + stringLen itemId) ++
    encodeTlv 0x1a (stringBytes domainId) ++ encodeTlv 0x1a (stringBytes itemId))

def encodeJournalName (domainId itemId : String) : List UInt8 :=
  encodeTlv 0xa0 (encodeObjectNameDomainSpecific domainId itemId)

def encodeTimeChoice (outerTag : UInt8) (timeMs : UInt64) : List UInt8 :=
  encodeTlv outerTag (encodeTlv 0x80 (Reporting.binaryTime6FromEpochMs timeMs))

def encodeEntryChoice (outerTag : UInt8) (entryId : UInt64) : List UInt8 :=
  encodeTlv outerTag (encodeTlv 0x81 (bigEndian64 entryId))

def encodeNumberOfEntries (count : UInt32) : List UInt8 :=
  let clamped := min count.toNat 0x7fffffff
  encodeTlv 0xa2 (encodeTlv 0x81 (encodeSignedIntMinimal (Int64.ofNat clamped)))

def encodeListOfVariables (names : List String) : List UInt8 :=
  encodeTlv 0xa4 (names.flatMap fun name => encodeTlv 0x1a (stringBytes name))

def encodeEntryToStartAfter (after : JournalEntryToStartAfter) : List UInt8 :=
  encodeTlv 0xa5 (encodeTlv 0x80 (Reporting.binaryTime6FromEpochMs after.timeMs) ++
    encodeTlv 0x81 (bigEndian64 after.entryId))

def ReadJournalRequest.encode (request : ReadJournalRequest) : List UInt8 :=
  0xbf :: encodeTlv 0x41
    (encodeJournalName request.domainId request.itemId ++
      request.rangeStart.elim [] (fun
        | .startingTime timeMs => encodeTimeChoice 0xa1 timeMs
        | .startingEntry entryId => encodeEntryChoice 0xa1 entryId) ++
      request.rangeStop.elim [] (fun
        | .endingTime timeMs => encodeTimeChoice 0xa2 timeMs
        | .numberOfEntries count => encodeNumberOfEntries count) ++
      (if request.listOfVariables.isEmpty then [] else encodeListOfVariables request.listOfVariables) ++
      request.entryToStartAfter.elim [] encodeEntryToStartAfter)

def encodeConfirmedReadJournalRequest (invokeId : UInt32) (request : ReadJournalRequest) : List UInt8 :=
  encodeConfirmed tagConfirmedRequest invokeId request.encode

structure WireJournalVariable where
  dataRef : String
  value : MmsData
  reasonCode : UInt8

structure WireJournalEntry where
  entryId : UInt64
  occurenceTimeMs : UInt64
  journalVariables : List WireJournalVariable

def reasonCodeBits : UInt8 := 7

variable (reasonCode byte : UInt8) (registry : LogControlRegistry) (invokeId : UInt32)
  (decoded : Except MmsError ReadJournalRequest) (negotiatedMaxPduSize : Option UInt32)
  (response : ReadJournalResponse) (entries : List WireJournalEntry) (entry : WireJournalEntry) (baseline len : Nat)

def reverseBits : UInt8 :=
  ([0, 1, 2, 3, 4, 5, 6, 7] : List UInt8).foldl
    (fun reversed position => reversed ||| (((byte >>> position) &&& 1) <<< (7 - position))) 0

def reasonCodeToWire : UInt8 := reverseBits reasonCode &&& (0xff <<< (8 - reasonCodeBits))

def encodeVariable (tag : String) (value : MmsData) : List UInt8 :=
  encodeTlv 0x30 (encodeTlv 0x80 (stringBytes tag) ++ encodeTlv 0xa1 value.encode)

/-- Every data point is followed by its reason code, a bit string of seven bits. -/
def WireJournalVariable.encode (point : WireJournalVariable) : List UInt8 :=
  encodeVariable point.dataRef point.value ++
    encodeVariable "ReasonCode" (.bitString (8 - reasonCodeBits) [reasonCodeToWire point.reasonCode])

def originatingApplicationFixed : List UInt8 := [0xa1, 0x02, 0x30, 0x00]

def WireJournalEntry.encode : List UInt8 :=
  encodeTlv 0x30
    (encodeTlv 0x80 (bigEndian64 entry.entryId) ++ originatingApplicationFixed ++
      encodeTlv 0xa2
        (encodeTlv 0x80 (Reporting.binaryTime6FromEpochMs entry.occurenceTimeMs) ++
          encodeTlv 0xa2 (encodeTlv 0xa1 (entry.journalVariables.flatMap WireJournalVariable.encode))))

structure ReadJournalResponse where
  entries : List WireJournalEntry
  moreFollows : Option Bool

/-- The service tag takes two octets. -/
def ReadJournalResponse.encode : List UInt8 :=
  0xbf :: encodeTlv 0x41
    (encodeTlv 0xa0 (response.entries.flatMap WireJournalEntry.encode) ++
      response.moreFollows.elim [] fun more => [0x81, 0x01, if more then 0xff else 0x00])

def encodeConfirmedReadJournalResponse : List UInt8 :=
  encodeConfirmed tagConfirmedResponse invokeId response.encode

def journalEntryToWire (entry : JournalEntry) (keep : String → Bool) : WireJournalEntry where
  entryId := entry.entryId
  occurenceTimeMs := entry.timeMs
  journalVariables := (entry.journalVariables.filter fun point => keep point.dataRef).map fun point =>
    ⟨point.dataRef, mmsValueToMmsData point.value, point.reasonCode⟩

structure JournalSelection where
  startTime : Option UInt64
  startEntry : Option UInt64
  endTime : Option UInt64
  limit : Option UInt32
  after : Option (UInt64 × UInt64)
  listOfVariables : List String

def greatest : List UInt64 → Option UInt64
  | [] => none
  | first :: rest => some (rest.foldl (fun most number => if most ≤ number then number else most) first)

namespace JournalSelection

def fromRequest (request : ReadJournalRequest) : JournalSelection where
  startTime := match request.rangeStart with
    | some (.startingTime timeMs) => some timeMs
    | _ => none
  startEntry := match request.rangeStart with
    | some (.startingEntry entryId) => some entryId
    | _ => none
  endTime := match request.rangeStop with
    | some (.endingTime timeMs) => some timeMs
    | _ => none
  limit := match request.rangeStop with
    | some (.numberOfEntries count) => some count
    | _ => none
  after := request.entryToStartAfter.map fun cursor => (cursor.timeMs, cursor.entryId)
  listOfVariables := request.listOfVariables

variable (selection : JournalSelection) (entry : JournalEntry)

/-- The narrowest walk the backend offers: behind the cursor or the starting entry if there is one,
else by time. -/
def query (control : LogControl) : Except LogStorageError (List JournalEntry) :=
  let earliest := (greatest (selection.startTime.toList ++ (selection.after.map Prod.fst).toList)).getD 0
  let beforeStart := selection.startEntry.bind fun entryId => if entryId = 0 then none else some (entryId - 1)
  match greatest ((selection.after.map Prod.snd).toList ++ beforeStart.toList) with
  | some entryId => control.queryAfter earliest entryId
  | none => control.queryByTime earliest (selection.endTime.getD 0xffffffffffffffff)

def admits : Bool :=
  selection.startTime.all (fun timeMs => timeMs ≤ entry.timeMs) &&
    selection.startEntry.all (fun entryId => entryId ≤ entry.entryId) &&
    selection.endTime.all (fun timeMs => entry.timeMs ≤ timeMs) &&
    selection.after.all fun (timeMs, entryId) => entryId < entry.entryId && timeMs ≤ entry.timeMs

/-- `none` when the listed variables leave the entry no data point. -/
def toWire : Option WireJournalEntry :=
  let wire := journalEntryToWire entry fun dataRef =>
    selection.listOfVariables.isEmpty || selection.listOfVariables.contains dataRef
  if selection.listOfVariables.isEmpty || !wire.journalVariables.isEmpty then some wire else none

end JournalSelection

def readJournalFrameOverhead : Nat := 32

def readJournalHardCapBytes : Nat := 60000

def readJournalBudget : Nat :=
  match negotiatedMaxPduSize with
  | some max => max.toNat - readJournalFrameOverhead - pduOverheadReserve
  | none => readJournalHardCapBytes

def emptyResponseBaseline : Nat := (ReadJournalResponse.encode ⟨[], none⟩).length

/-- The entry is encoded into a response of its own, and the response without entries is taken
off. -/
def estimateEntryWireSize : Nat :=
  (ReadJournalResponse.encode ⟨[entry], none⟩).length - baseline

structure BudgetedJournalVisitor where
  budget : Nat
  baseline : Nat
  consumed : Nat
  selection : JournalSelection
  accepted : List WireJournalEntry
  moreFollows : Bool

namespace BudgetedJournalVisitor

def new (budget : Nat) (selection : JournalSelection) : BudgetedJournalVisitor :=
  ⟨budget, emptyResponseBaseline, 0, selection, [], false⟩

def limitReached (visitor : BudgetedJournalVisitor) : Bool :=
  visitor.selection.limit.any fun count => count.toNat ≤ visitor.accepted.length

def visit (visitor : BudgetedJournalVisitor) (entry : JournalEntry) : BudgetedJournalVisitor × Bool :=
  if !visitor.selection.admits entry then
    (visitor, true)
  else
    match visitor.selection.toWire entry with
    | none => (visitor, true)
    | some wire =>
      if visitor.limitReached then
        (visitor, false)
      else
        let entrySize := estimateEntryWireSize wire visitor.baseline
        if visitor.budget < visitor.consumed + entrySize then
          ({ visitor with moreFollows := true }, false)
        else
          let visitor := { visitor with
            consumed := visitor.consumed + entrySize
            accepted := visitor.accepted ++ [wire] }
          (visitor, !visitor.limitReached)

def walk (visitor : BudgetedJournalVisitor) : List JournalEntry → BudgetedJournalVisitor
  | [] => visitor
  | entry :: rest =>
    let (visitor, goesOn) := visitor.visit entry
    if goesOn then visitor.walk rest else visitor

end BudgetedJournalVisitor

def dispatchReadJournal : ConfirmedResponse :=
  match decoded with
  | .error _ => makeConfirmedError invokeId .accessOther
  | .ok request =>
    match registry.resolveJournal request.domainId request.itemId with
    | none => makeConfirmedError invokeId .accessObjectNonExistent
    | some control =>
      let selection := JournalSelection.fromRequest request
      match selection.query control with
      | .error _ => makeConfirmedError invokeId .accessOther
      | .ok entries =>
        let visitor :=
          (BudgetedJournalVisitor.new (readJournalBudget negotiatedMaxPduSize) selection).walk entries
        .response (encodeConfirmedReadJournalResponse invokeId ⟨visitor.accepted, some visitor.moreFollows⟩)

def entriesSize : Nat := (entries.flatMap WireJournalEntry.encode).length

theorem encode_length_le_estimate : entry.encode.length ≤ estimateEntryWireSize entry emptyResponseBaseline := by
  have baseline : emptyResponseBaseline = 5 := by decide
  have outer := lengthSize_pos (encodeTlv 0xa0 entry.encode).length
  have inner := lengthSize_pos entry.encode.length
  simp only [estimateEntryWireSize, baseline, ReadJournalResponse.encode, List.flatMap_cons, List.flatMap_nil,
    List.append_nil, Option.elim_none, List.length_cons, encodeTlv_length] at outer ⊢
  omega

/-- The accepted entries fit what was consumed, and that fits the budget. -/
structure BudgetedJournalVisitor.Within (visitor : BudgetedJournalVisitor) (budget : Nat) : Prop where
  budget_eq : visitor.budget = budget
  baseline_eq : visitor.baseline = emptyResponseBaseline
  fits : entriesSize visitor.accepted ≤ visitor.consumed
  bounded : visitor.consumed ≤ budget

namespace BudgetedJournalVisitor.Within

variable {visitor : BudgetedJournalVisitor} {budget : Nat}

theorem new (budget : Nat) (selection : JournalSelection) :
    (BudgetedJournalVisitor.new budget selection).Within budget :=
  ⟨rfl, rfl, Nat.le_refl 0, Nat.zero_le budget⟩

theorem visit (within : visitor.Within budget) (entry : JournalEntry) : (visitor.visit entry).1.Within budget := by
  unfold BudgetedJournalVisitor.visit
  split
  · exact within
  split
  · exact within
  rename_i wire _
  split
  · exact within
  dsimp only
  split
  · exact ⟨within.budget_eq, within.baseline_eq, within.fits, within.bounded⟩
  rename_i room
  refine ⟨within.budget_eq, within.baseline_eq, ?_, ?_⟩
  · have estimated := encode_length_le_estimate wire
    have fits := within.fits
    rw [← within.baseline_eq] at estimated
    simp only [entriesSize, List.flatMap_append, List.length_append, List.flatMap_cons, List.flatMap_nil,
      List.append_nil] at fits ⊢
    omega
  · have limit := within.budget_eq
    simp only
    omega

theorem walk (within : visitor.Within budget) (entries : List JournalEntry) : (visitor.walk entries).Within budget := by
  induction entries generalizing visitor with
  | nil => exact within
  | cons entry rest ih =>
    have visited := within.visit entry
    unfold BudgetedJournalVisitor.walk
    split
    rename_i next goesOn step
    rw [step] at visited
    split
    · exact ih visited
    · exact visited

end BudgetedJournalVisitor.Within

theorem readJournalResponse_length_le (moreFollows : Bool) :
    (encodeConfirmedReadJournalResponse invokeId ⟨entries, some moreFollows⟩).length ≤ 28 + entriesSize entries := by
  let response : ReadJournalResponse := ⟨entries, some moreFollows⟩
  let list := encodeTlv 0xa0 (entries.flatMap WireJournalEntry.encode)
  let flag : List UInt8 := [0x81, 0x01, if moreFollows then 0xff else 0x00]
  have listed : list.length ≤ 4 + entriesSize entries := encodeTlv_length_le _ _
  have service : (encodeTlv 0x41 (list ++ flag)).length ≤ 4 + (list ++ flag).length := encodeTlv_length_le _ _
  have tagged : response.encode.length = (encodeTlv 0x41 (list ++ flag)).length + 1 := rfl
  have flagged : (list ++ flag).length = list.length + 3 := List.length_append
  have whole : (encodeConfirmedReadJournalResponse invokeId response).length ≤ 16 + response.encode.length :=
    encodeConfirmed_length_le _ _ _
  exact Nat.le_trans whole (by omega)

theorem dispatchReadJournal_length_le {registry : LogControlRegistry} {invokeId max : UInt32}
    {decoded : Except MmsError ReadJournalRequest} {octets : List UInt8} (large : 64 ≤ max.toNat)
    (answered : dispatchReadJournal registry invokeId decoded (some max) = .response octets) :
    octets.length ≤ max.toNat := by
  cases decoded with
  | error failure => cases answered
  | ok request =>
    unfold dispatchReadJournal at answered
    dsimp only at answered
    split at answered
    · cases answered
    split at answered
    · cases answered
    rename_i entries _
    cases answered
    have visited := (BudgetedJournalVisitor.Within.new (readJournalBudget (some max))
      (JournalSelection.fromRequest request)).walk entries
    have fits := Nat.le_trans visited.fits visited.bounded
    refine Nat.le_trans (readJournalResponse_length_le invokeId _ _) ?_
    have budget : readJournalBudget (some max) = max.toNat - 32 - 16 := rfl
    omega

end Iec61850.Service
