import Iec61850.Mms.Services

/-!
The Read service: every access result is charged against one budget, and a list that outgrows it is
answered with a resource error.
-/

namespace Iec61850.Service

open Mms

def pduOverheadReserve : Nat := 16

def readResponseFrameOverhead : Nat := 24

variable (routes : ReadRoutes) (request : ReadRequest) (negotiatedMaxPduSize : Option UInt32)

def pduBudgetForAccessResults : Option Nat :=
  negotiatedMaxPduSize.map fun max => max.toNat - pduOverheadReserve - readResponseFrameOverhead

def echoedAccessSpec : Option VariableAccessSpecification :=
  if request.specificationWithResult then some request.variableAccessSpec else none

/-- An echoed specification is taken off the budget, with four octets for its wrapper. -/
def readResultsBudget : Option Nat :=
  (pduBudgetForAccessResults negotiatedMaxPduSize).map fun budget =>
    if request.specificationWithResult then budget - (request.variableAccessSpec.encode.length + 4) else budget

/-- The leading component selections name the variable one level deeper. -/
def foldLeadingComponents (name : ObjectName) (altAccess : Option AlternateAccess) :
    ObjectName × Option AlternateAccess :=
  match altAccess with
  | none => (name, none)
  | some access =>
    let (components, rest) := access.leadingComponents
    let extend (base : String) : String := components.foldl (fun flat component => flat ++ "$" ++ component) base
    if components.isEmpty then
      (name, some access)
    else
      match name with
      | .domainSpecific domainId itemId => (.domainSpecific domainId (extend itemId), rest)
      | .vmdSpecific item => (.vmdSpecific (extend item), rest)
      | .aaSpecific item => (.aaSpecific (extend item), rest)

inductive ReadRoutingOutcome where
  | result (result : AccessResult)
  | overBudget

/-- What a Read finds behind the names: the data sets with what each member answers under its read
handlers, the names in a closed edit buffer, and the routes of the model and the control blocks,
which see the budget left. -/
structure ReadRoutes where
  datasets : List ((String × String) × List AccessResult)
  readsClosedEditBuffer : ObjectName → Bool
  route : ObjectName → Option AlternateAccess → Option Nat → ReadRoutingOutcome

/-- What is left of the budget behind a result, `none` if the result does not fit. -/
def charge (remainingBudget : Option Nat) (result : AccessResult) : Option (Option Nat) :=
  match remainingBudget with
  | none => some none
  | some budget =>
    let used := result.estimatedEncodedSize
    if budget < used then none else some (some (budget - used))

/-- The loop over the members of a data set and over the listed variables; `none` is the resource
error. -/
def collectResults {α : Type} (answer : α → Option Nat → ReadRoutingOutcome) :
    Option Nat → List α → Option (List AccessResult)
  | _, [] => some []
  | remainingBudget, item :: rest =>
    match answer item remainingBudget with
    | .overBudget => none
    | .result result => do
        let left ← charge remainingBudget result
        let results ← collectResults answer left rest
        return result :: results

namespace ReadRoutes

def answerVariable (routes : ReadRoutes) (entry : ListOfVariableEntry) (remainingBudget : Option Nat) :
    ReadRoutingOutcome :=
  let (name, altAccess) := foldLeadingComponents entry.name entry.altAccess
  if routes.readsClosedEditBuffer name then .result (.failure .temporarilyUnavailable)
  else routes.route name altAccess remainingBudget

def answerMember (member : AccessResult) (_ : Option Nat) : ReadRoutingOutcome := .result member

end ReadRoutes

def respondRead (invokeId : UInt32) (request : ReadRequest) (results : List AccessResult) : ConfirmedResponse :=
  .response (encodeConfirmedReadResponse invokeId ⟨echoedAccessSpec request, results⟩)

/-- A list that outgrew its budget is refused as a whole. -/
def respondCollected (invokeId : UInt32) (request : ReadRequest) (collected : Option (List AccessResult)) :
    ConfirmedResponse :=
  match collected with
  | none => makeConfirmedError invokeId .resourceOther
  | some results => respondRead invokeId request results

def dispatchRead (invokeId : UInt32) (decoded : Except MmsError ReadRequest)
    (negotiatedMaxPduSize : Option UInt32) : ConfirmedResponse :=
  match decoded with
  | .error _ => makeConfirmedError invokeId .accessOther
  | .ok request =>
    let remainingBudget := readResultsBudget request negotiatedMaxPduSize
    match request.variableAccessSpec with
    | .listOfVariable entries =>
      respondCollected invokeId request (collectResults routes.answerVariable remainingBudget entries)
    | .variableListName (.domainSpecific domainId itemId) =>
      match routes.datasets.lookup (domainId, itemId) with
      | none => makeConfirmedError invokeId .accessObjectNonExistent
      | some members =>
        respondCollected invokeId request (collectResults ReadRoutes.answerMember remainingBudget members)
    -- Only a domain-specific data set name is served; this answer is not charged.
    | .variableListName _ => respondRead invokeId request [.failure .objectAccessUnsupported]

def encodedSize (results : List AccessResult) : Nat := (results.map AccessResult.estimatedEncodedSize).sum

@[simp] theorem length_flatMap_encode (results : List AccessResult) :
    (results.flatMap AccessResult.encode).length = encodedSize results := by
  simp [encodedSize, List.length_flatMap]

variable {results : List AccessResult} {budget : Nat} {α : Type} {answer : α → Option Nat → ReadRoutingOutcome}
  {items : List α} {invokeId max : UInt32} {octets : List UInt8}

theorem charge_eq_some {result : AccessResult} {left : Option Nat} (charged : charge (some budget) result = some left) :
    ∃ rest, left = some rest ∧ rest + result.estimatedEncodedSize = budget := by
  unfold charge at charged
  dsimp only at charged
  split at charged
  · cases charged
  · rename_i fits
    cases charged
    exact ⟨_, rfl, by omega⟩

theorem collectResults_fits (collected : collectResults answer (some budget) items = some results) :
    encodedSize results ≤ budget ∧ results.length = items.length := by
  induction items generalizing budget results with
  | nil =>
    cases collected
    exact ⟨Nat.zero_le budget, rfl⟩
  | cons item rest ih =>
    unfold collectResults at collected
    split at collected
    · cases collected
    rename_i result answered
    obtain ⟨left, charged, collected⟩ := Option.bind_eq_some_iff.mp collected
    obtain ⟨others, collectedRest, finished⟩ := Option.bind_eq_some_iff.mp collected
    cases finished
    obtain ⟨remaining, rfl, spent⟩ := charge_eq_some charged
    obtain ⟨fits, counted⟩ := ih collectedRest
    have size : encodedSize (result :: others) = result.estimatedEncodedSize + encodedSize others := by
      simp [encodedSize]
    exact ⟨by omega, by simp [counted]⟩

theorem encodedSize_pos (nonempty : results ≠ []) : 0 < encodedSize results := by
  cases results with
  | nil => exact absurd rfl nonempty
  | cons result rest =>
    have positive := result.estimatedEncodedSize_pos
    simp only [encodedSize, List.map_cons, List.sum_cons]
    omega

def echoSize : Nat :=
  if request.specificationWithResult then request.variableAccessSpec.encode.length + 4 else 0

theorem readResponse_length_le (invokeId : UInt32) (request : ReadRequest) (results : List AccessResult) :
    (encodeConfirmedReadResponse invokeId ⟨echoedAccessSpec request, results⟩).length ≤
      24 + echoSize request + encodedSize results := by
  let echo := (echoedAccessSpec request).elim [] fun spec => encodeTlv 0xa0 spec.encode
  let response : ReadResponse := ⟨echoedAccessSpec request, results⟩
  have echoed : echo.length ≤ echoSize request := by
    by_cases asked : request.specificationWithResult = true
    · have framed := encodeTlv_length_le 0xa0 request.variableAccessSpec.encode
      simp only [echo, echoedAccessSpec, echoSize, asked, if_true, Option.elim_some]
      omega
    · simp [echo, echoedAccessSpec, asked]
  have list : (encodeTlv 0xa1 (results.flatMap AccessResult.encode)).length ≤ 4 + encodedSize results := by
    rw [← length_flatMap_encode]
    exact encodeTlv_length_le _ _
  have service : response.encode.length ≤ 4 + (echo ++ encodeTlv 0xa1 (results.flatMap AccessResult.encode)).length :=
    encodeTlv_length_le _ _
  have whole : (encodeConfirmedReadResponse invokeId response).length ≤ 16 + response.encode.length :=
    encodeConfirmed_length_le _ _ _
  rw [List.length_append] at service
  exact Nat.le_trans whole (by omega)

/-- The request asks for its specification back, and the answer holds no result the budget was
charged for: the name is not one of a data set, or the data set has no members. -/
def EchoesUncharged : Prop :=
  request.specificationWithResult = true ∧
    match request.variableAccessSpec with
    | .listOfVariable _ => False
    | .variableListName (.domainSpecific domainId itemId) => routes.datasets.lookup (domainId, itemId) = some []
    | .variableListName _ => True

/-- A charged result leaves room for the frame and the echo. An answer without results has to have a
small echo. -/
theorem respondCollected_length_le {request : ReadRequest} (large : 64 ≤ max.toNat)
    (small : items = [] → echoSize request ≤ 40) (answered : respondCollected invokeId request
      (collectResults answer (readResultsBudget request (some max)) items) = .response octets) :
    octets.length ≤ max.toNat := by
  unfold respondCollected at answered
  split at answered
  · cases answered
  rename_i results collected
  cases answered
  have length := readResponse_length_le invokeId request results
  obtain ⟨fits, counted⟩ := collectResults_fits collected
  cases results with
  | nil =>
    have echo := small (List.length_eq_zero_iff.mp counted.symm)
    have size : encodedSize [] = 0 := rfl
    omega
  | cons result rest =>
    have positive := encodedSize_pos (List.cons_ne_nil result rest)
    simp only [pduOverheadReserve, readResponseFrameOverhead] at fits
    unfold echoSize at length
    split at fits
    · rename_i asked
      rw [if_pos asked] at length
      omega
    · rename_i asked
      rw [if_neg asked] at length
      omega

theorem unserved_length_le (invokeId : UInt32) (spec : VariableAccessSpecification) :
    (encodeConfirmedReadResponse invokeId
      ⟨echoedAccessSpec ⟨false, spec⟩, [.failure .objectAccessUnsupported]⟩).length ≤ 27 :=
  readResponse_length_le invokeId ⟨false, spec⟩ [.failure .objectAccessUnsupported]

theorem dispatchRead_length_le {routes : ReadRoutes} {decoded : Except MmsError ReadRequest} (large : 64 ≤ max.toNat)
    (answered : dispatchRead routes invokeId decoded (some max) = .response octets) :
    (∃ request, decoded = .ok request ∧ EchoesUncharged routes request) ∨ octets.length ≤ max.toNat := by
  by_cases uncharged : ∃ request, decoded = .ok request ∧ EchoesUncharged routes request
  · exact .inl uncharged
  refine .inr ?_
  cases decoded with
  | error failure => cases answered
  | ok request =>
    obtain ⟨asked, spec⟩ := request
    have charged : ¬ EchoesUncharged routes ⟨asked, spec⟩ := fun echoes => uncharged ⟨_, rfl, echoes⟩
    unfold dispatchRead at answered
    cases spec with
    | listOfVariable entries =>
      refine respondCollected_length_le large ?_ answered
      rintro rfl
      cases asked <;> decide
    | variableListName name =>
      cases asked with
      | false =>
        cases name with
        | domainSpecific domainId itemId =>
          dsimp only at answered
          split at answered
          · cases answered
          · refine respondCollected_length_le large ?_ answered
            intro _
            exact Nat.zero_le 40
        | vmdSpecific name | aaSpecific name =>
          cases answered
          exact Nat.le_trans (unserved_length_le invokeId _) (by omega)
      | true =>
        cases name with
        | domainSpecific domainId itemId =>
          dsimp only at answered
          split at answered
          · cases answered
          rename_i members registered
          refine respondCollected_length_le large ?_ answered
          rintro rfl
          exact absurd ⟨rfl, registered⟩ charged
        | vmdSpecific name | aaSpecific name => exact absurd ⟨rfl, trivial⟩ charged

end Iec61850.Service
