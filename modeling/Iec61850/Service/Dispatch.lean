import Iec61850.Service.Journal
import Iec61850.Service.NameList

/-!
The dispatcher and the outbound size limit. Read, GetNameList and ReadJournal size their own
answers; every other answer that exceeds the negotiated maximum PDU size is replaced by a resource
error.
-/

namespace Iec61850.Service

open Mms

def selfBudgetedServiceTags : List UInt8 := [serviceTagRead, serviceTagGetNameList]

def confirmedResponseBudget (negotiatedMaxPduSize : Option UInt32) : Option Nat :=
  negotiatedMaxPduSize.map fun max => max.toNat - pduOverheadReserve

def responseExceedsPduBudget (encodedLen : Nat) (negotiatedMaxPduSize : Option UInt32) : Bool :=
  match confirmedResponseBudget negotiatedMaxPduSize with
  | some budget => budget < encodedLen
  | none => false

def guardOutboundPduSize (invokeId : UInt32) (serviceTag : UInt8) (response : ConfirmedResponse)
    (negotiatedMaxPduSize : Option UInt32) : ConfirmedResponse :=
  match response with
  | .response octets =>
    if selfBudgetedServiceTags.contains serviceTag then response
    else if !responseExceedsPduBudget octets.length negotiatedMaxPduSize then response
    else makeConfirmedError invokeId .resourceOther
  | response => response

/-- The services that leave the size of their answers to the guard. -/
inductive GuardedService where
  | getVarAccessAttrs
  | status
  | identify
  | write
  | defineNamedVariableList
  | getNamedVariableListAttributes
  | deleteNamedVariableList
  deriving DecidableEq, Repr

def GuardedService.tag : GuardedService → UInt8
  | .getVarAccessAttrs => 0xa6
  | .status => 0x80
  | .identify => 0x82
  | .write => 0xa5
  | .defineNamedVariableList => 0xab
  | .getNamedVariableListAttributes => 0xac
  | .deleteNamedVariableList => 0xad

/-- A service body by its tag, with what the decoder of the service made of it where the answer is
sized by its service. A long-form tag is `0xbf` with the tag number behind it, if there is one. -/
inductive ServiceBody where
  | empty
  | longForm (tagNumber : Option UInt8)
  | readJournal (decoded : Except MmsError ReadJournalRequest)
  | getNameList (decoded : Except MmsError GetNameListRequest)
  | read (decoded : Except MmsError ReadRequest)
  | guarded (service : GuardedService) (content : List UInt8)
  | unknown (serviceTag : UInt8)

structure ConfirmedRequest where
  invokeId : UInt32
  serviceBody : ServiceBody

/-- The model and the registries behind one association. `controlBlockPaths` are the flattened names
of the registered report, log and GOOSE control blocks of a domain, `answer` the handlers of the
guarded services. -/
structure MmsModelDispatcher where
  mmsModel : MmsDeviceModel
  controlBlockPaths : String → List String
  routes : ReadRoutes
  logControls : LogControlRegistry
  answer : GuardedService → UInt32 → List UInt8 → ConfirmedResponse

namespace MmsModelDispatcher

variable (dispatcher : MmsModelDispatcher)

def runtimeExtras (request : GetNameListRequest) : List String :=
  match request.objectClass, request.objectScope with
  | .namedVariable, .domainSpecific domain => dispatcher.controlBlockPaths domain
  | .journal, .domainSpecific domain => dispatcher.logControls.journalNamesInDomain domain
  | .namedVariableList, .domainSpecific domain =>
    ((dispatcher.routes.datasets.map Prod.fst).filter fun key => key.1 = domain).map Prod.snd
  | _, _ => []

def dispatchGetNameList (invokeId : UInt32) (decoded : Except MmsError GetNameListRequest) : ConfirmedResponse :=
  match decoded with
  | .error _ => makeConfirmedError invokeId .accessOther
  | .ok request =>
    match handleGetNameListWithExtras dispatcher.mmsModel request (dispatcher.runtimeExtras request) with
    | .response page => .response (encodeConfirmedGetNameListResponse invokeId page)
    | .notFound => makeConfirmedError invokeId .accessObjectNonExistent

def dispatch (negotiatedMaxPduSize : Option UInt32) (request : ConfirmedRequest) : ConfirmedResponse :=
  let invokeId := request.invokeId
  match request.serviceBody with
  | .empty => .reject
  -- WriteJournal is known and not served.
  | .longForm (some 0x42) => makeConfirmedError invokeId .accessObjectAccessUnsupported
  | .longForm _ => .reject
  | .readJournal decoded => dispatchReadJournal dispatcher.logControls invokeId decoded negotiatedMaxPduSize
  | .getNameList decoded =>
    guardOutboundPduSize invokeId serviceTagGetNameList (dispatcher.dispatchGetNameList invokeId decoded)
      negotiatedMaxPduSize
  | .read decoded =>
    guardOutboundPduSize invokeId serviceTagRead
      (dispatchRead dispatcher.routes invokeId decoded negotiatedMaxPduSize) negotiatedMaxPduSize
  | .guarded service content =>
    guardOutboundPduSize invokeId service.tag (dispatcher.answer service invokeId content) negotiatedMaxPduSize
  | .unknown serviceTag => guardOutboundPduSize invokeId serviceTag .reject negotiatedMaxPduSize

end MmsModelDispatcher

variable {invokeId : UInt32} {response : ConfirmedResponse} {octets : List UInt8}

theorem guardOutboundPduSize_eq_response {serviceTag : UInt8} {negotiatedMaxPduSize : Option UInt32}
    (passed : guardOutboundPduSize invokeId serviceTag response negotiatedMaxPduSize = .response octets) :
    response = .response octets ∧
      (serviceTag ∉ selfBudgetedServiceTags → responseExceedsPduBudget octets.length negotiatedMaxPduSize = false) := by
  unfold guardOutboundPduSize at passed
  split at passed
  · rename_i answered
    split at passed
    · rename_i exempt
      cases passed
      exact ⟨rfl, fun guarded => absurd (List.contains_iff_mem.mp exempt) guarded⟩
    · split at passed
      · rename_i fits
        cases passed
        exact ⟨rfl, fun _ => Bool.not_eq_true' _ ▸ fits⟩
      · cases passed
  · rename_i other
    exact absurd passed (other octets)

theorem guarded_length_le {max : UInt32} {service : GuardedService}
    (passed : guardOutboundPduSize invokeId service.tag response (some max) = .response octets) :
    octets.length ≤ max.toNat := by
  have guarded : service.tag ∉ selfBudgetedServiceTags := by cases service <;> decide
  have fits := (guardOutboundPduSize_eq_response passed).2 guarded
  simp only [responseExceedsPduBudget, confirmedResponseBudget, Option.map_some, decide_eq_false_iff_not] at fits
  omega

theorem dispatchGetNameList_paged {dispatcher : MmsModelDispatcher} {decoded : Except MmsError GetNameListRequest}
    (answered : dispatcher.dispatchGetNameList invokeId decoded = .response octets) :
    ∃ page : GetNameListResponse, page.identifiers.length ≤ pageSize ∧
      octets = encodeConfirmedGetNameListResponse invokeId page := by
  cases decoded with
  | error failure => cases answered
  | ok request =>
    have paged := handleGetNameListWithExtras_paged dispatcher.mmsModel request (dispatcher.runtimeExtras request)
    unfold MmsModelDispatcher.dispatchGetNameList at answered
    dsimp only at answered
    split at answered
    · rename_i page handled
      rw [handled] at paged
      cases answered
      exact ⟨page, paged, rfl⟩
    · cases answered

namespace MmsModelDispatcher

/-- No answer exceeds the negotiated maximum, except that GetNameList delivers its page of at most a
hundred names whatever their length. Nothing is said about a Read that echoes its specification
without charging a result. -/
theorem dispatch_within_negotiated {dispatcher : MmsModelDispatcher} {max : UInt32} {request : ConfirmedRequest}
    {octets : List UInt8} (large : 64 ≤ max.toNat)
    (answered : dispatcher.dispatch (some max) request = .response octets) : match request.serviceBody with
    | .getNameList _ =>
      ∃ page : GetNameListResponse, page.identifiers.length ≤ pageSize ∧
        octets = encodeConfirmedGetNameListResponse request.invokeId page
    | .read (.ok read) => EchoesUncharged dispatcher.routes read ∨ octets.length ≤ max.toNat
    | _ => octets.length ≤ max.toNat := by
  obtain ⟨invokeId, serviceBody⟩ := request
  cases serviceBody with
  | empty => cases answered
  | longForm tagNumber =>
    unfold dispatch at answered
    split at answered <;> first | cases answered | contradiction
  | readJournal decoded => exact dispatchReadJournal_length_le large answered
  | getNameList decoded => exact dispatchGetNameList_paged (guardOutboundPduSize_eq_response answered).1
  | read decoded =>
    obtain echoes | fits := dispatchRead_length_le large (guardOutboundPduSize_eq_response answered).1
    · obtain ⟨read, rfl, uncharged⟩ := echoes
      exact .inl uncharged
    · cases decoded with
      | error failure => exact fits
      | ok read => exact .inr fits
  | guarded service content => exact guarded_length_le answered
  | unknown serviceTag => cases answered

/-- One logical device with a name of sixty letters, no registered object, and an integer behind
every variable. -/
def longNamed : MmsModelDispatcher where
  mmsModel := ⟨[⟨"AAAAAAAAAAAAAAAAAAAAAAAAAAAAAAAAAAAAAAAAAAAAAAAAAAAAAAAAAAAA", []⟩]⟩
  controlBlockPaths := fun _ => []
  routes := ⟨[], fun _ => false, fun _ _ _ => .result (.success (.integer 1))⟩
  logControls := []
  answer := fun _ _ _ => .reject

def readOneVariable : ReadRequest := ⟨true, .listOfVariable [⟨.domainSpecific "LD0" "LLN0$ST$Mod$stVal", none⟩]⟩

theorem read_within_negotiated : ∃ octets, longNamed.dispatch (some 128) ⟨1, .read (.ok readOneVariable)⟩ =
    .response octets ∧ octets.length ≤ 128 := by
  obtain ⟨octets, answered⟩ :
      ∃ octets, longNamed.dispatch (some 128) ⟨1, .read (.ok readOneVariable)⟩ = .response octets := ⟨_, rfl⟩
  have sized := dispatch_within_negotiated (by decide) answered
  exact ⟨octets, answered, Or.resolve_left sized fun echoes => echoes.2⟩

theorem nameList_exceeds_negotiated : ∃ octets,
    longNamed.dispatch (some 64) ⟨1, .getNameList (.ok ⟨.domain, .vmdSpecific, none⟩)⟩ = .response octets ∧
      64 < octets.length :=
  ⟨_, rfl, by decide +kernel⟩

-- A name that is not one of a data set is repeated in the answer without a charge.
example : ∃ octets,
    longNamed.dispatch (some 64) ⟨1, .read (.ok ⟨true, .variableListName
      (.vmdSpecific "AAAAAAAAAAAAAAAAAAAAAAAAAAAAAAAAAAAAAAAAAAAAAAAAAAAAAAAAAAAA")⟩)⟩ = .response octets ∧
      64 < octets.length :=
  ⟨_, rfl, by decide +kernel⟩

end MmsModelDispatcher

end Iec61850.Service
