import Iec61850.Service.Dispatch

/-!
The GetNameList walk of the client: page after page behind the last name of the page before, up to a
limit of names. A walk ends whatever the peer answers; against the server of this repository it
misses no name that stays listed.
-/

namespace Iec61850.Client.Directory

open List Mms Service Wire

inductive ClientError where
  | refused (reason : ErrorClass)
  | pduTooLarge (pduSize maxSize : Nat)
  | nameListNotAdvancing
  | nameListLimit (limit : Nat)
  deriving DecidableEq, Repr

def keepNew (limit : Nat) (all : List String) : List String → Except ClientError (List String)
  | [] => .ok all
  | name :: rest =>
    if name ∈ all then keepNew limit all rest
    else if all.length = limit then .error (.nameListLimit limit)
    else keepNew limit (all ++ [name]) rest

structure Ended where
  outcome : Except ClientError (List String)
  requests : Nat

/-- What a peer answers to each request, given its continuation: a page and whether more follow, or
an error. -/
abbrev Peer := Nat → Option String → Except ClientError (List String × Bool)

/-- The loop of `fetch_all_names` from the request `turn` on; `none` when the fuel runs out. -/
def walkFrom (limit : Nat) (peer : Peer) : (fuel turn : Nat) → (all : List String) → (continueAfter : Option String) →
    Option Ended
  | 0, _, _, _ => none
  | fuel + 1, turn, all, continueAfter =>
    match peer turn continueAfter with
    | .error error => some ⟨.error error, turn + 1⟩
    | .ok (page, more) =>
      match keepNew limit all page with
      | .error error => some ⟨.error error, turn + 1⟩
      | .ok collected =>
        if !more then
          some ⟨.ok collected, turn + 1⟩
        else
          match page.getLast?.filter fun last => all.length < collected.length ∧ continueAfter ≠ some last with
          | none => some ⟨.error .nameListNotAdvancing, turn + 1⟩
          | some last => walkFrom limit peer fuel (turn + 1) collected (some last)

def fetchAllNames (limit : Nat) (peer : Peer) (fuel : Nat) : Option Ended := walkFrom limit peer fuel 0 [] none

def maxContinueAfterLen : Nat := 129

def maxDomainNameLen : Nat := 64

/-- The decoder of the server refuses a longer cursor, and a longer domain name. -/
def decodeGetNameListRequest (request : GetNameListRequest) : Except MmsError GetNameListRequest :=
  if request.continueAfter.any fun name => maxContinueAfterLen < stringLen name then
    .error .invalidPdu
  else
    match request.objectScope with
    | .domainSpecific domain => if maxDomainNameLen < stringLen domain then .error .invalidPdu else .ok request
    | _ => .ok request

def serve (server : MmsModelDispatcher) (request : GetNameListRequest) : Except ErrorClass GetNameListResponse :=
  match decodeGetNameListRequest request with
  | .error _ => .error .accessOther
  | .ok request =>
    match handleGetNameListWithExtras server.mmsModel request (server.runtimeExtras request) with
    | .response page => .ok page
    | .notFound => .error .accessObjectNonExistent

theorem dispatchGetNameList_eq_serve (server : MmsModelDispatcher) (invokeId : UInt32) (request : GetNameListRequest) :
    server.dispatchGetNameList invokeId (decodeGetNameListRequest request) =
      match serve server request with
      | .ok page => .response (encodeConfirmedGetNameListResponse invokeId page)
      | .error reason => makeConfirmedError invokeId reason := by
  rw [serve]
  cases decodeGetNameListRequest request with
  | error _ => rfl
  | ok request =>
    rw [MmsModelDispatcher.dispatchGetNameList]
    dsimp only
    cases handleGetNameListWithExtras server.mmsModel request (server.runtimeExtras request) <;> rfl

def scopeOf : Option String → ObjectScope
  | some domain => .domainSpecific domain
  | none => .vmdSpecific

/-- An association with the server: the size that was negotiated, and for each request its invokeID
and the state the server is in. -/
structure Association where
  negotiatedMaxPduSize : Nat
  invokeId : Nat → UInt32
  server : Nat → MmsModelDispatcher

/-- The request with its cursor is encoded, and refused by the client itself if it is too large. -/
def getNameList (association : Association) (turn : Nat) (objectClass : ObjectClass)
    (domain continueAfter : Option String) : Except ClientError (List String × Bool) :=
  let request : GetNameListRequest := ⟨objectClass, scopeOf domain, continueAfter⟩
  let pduSize := (encodeConfirmedGetNameListRequest (association.invokeId turn) request).length
  if association.negotiatedMaxPduSize < pduSize then
    .error (.pduTooLarge pduSize association.negotiatedMaxPduSize)
  else
    match serve (association.server turn) request with
    | .error reason => .error (.refused reason)
    | .ok response => .ok (response.identifiers, response.moreFollows)

/-- The server as the peer of a walk. -/
def serverPeer (association : Association) (objectClass : ObjectClass) (domain : Option String) : Peer :=
  fun turn continueAfter => getNameList association turn objectClass domain continueAfter

def modelNames (server : MmsModelDispatcher) : ObjectClass → Option String → List String
  | .domain, none => server.mmsModel.listDomains
  | .namedVariable, some domain => (server.mmsModel.listNamedVariablesFlat domain).getD []
  | _, _ => []

def names (server : MmsModelDispatcher) (objectClass : ObjectClass) (domain : Option String) : List String :=
  modelNames server objectClass domain ++ server.runtimeExtras ⟨objectClass, scopeOf domain, none⟩

variable {limit : Nat} {page all : List String}

theorem keepNew_spec {collected : List String} (distinct : all.Nodup)
    (bounded : all.length ≤ limit) (kept : keepNew limit all page = .ok collected) :
    collected.Nodup ∧ collected.length ≤ limit ∧ all.length ≤ collected.length := by
  induction page generalizing all with
  | nil =>
    cases kept
    exact ⟨distinct, bounded, Nat.le_refl _⟩
  | cons name rest ih =>
    rw [keepNew] at kept
    split at kept
    · exact ih distinct bounded kept
    rename_i fresh
    split at kept
    · cases kept
    have longer : (all ++ [name]).length = all.length + 1 := by simp
    have distinct' : (all ++ [name]).Nodup :=
      nodup_append_comm.mp (nodup_cons.mpr ⟨fresh, distinct⟩)
    have grown := ih distinct' (by omega) kept
    exact ⟨grown.1, grown.2.1, by omega⟩

theorem walkFrom_ends {limit : Nat} (peer : Peer) {fuel turn : Nat} {all : List String} (continueAfter : Option String)
    (distinct : all.Nodup) (bounded : all.length ≤ limit) (enough : limit + 1 - all.length ≤ fuel) :
    ∃ ended, walkFrom limit peer fuel turn all continueAfter = some ended ∧
      ended.requests + all.length ≤ turn + limit + 1 ∧
      ∀ names, ended.outcome = .ok names → names.Nodup ∧ names.length ≤ limit := by
  induction fuel generalizing turn all continueAfter with
  | zero => omega
  | succ fuel ih =>
    rw [walkFrom]
    cases answered : peer turn continueAfter with
    | error error => exact ⟨_, rfl, by dsimp only; omega, nofun⟩
    | ok answer =>
      obtain ⟨page, more⟩ := answer
      dsimp only
      cases kept : keepNew limit all page with
      | error error => exact ⟨_, rfl, by dsimp only; omega, nofun⟩
      | ok collected =>
        obtain ⟨distinct', bounded', grown⟩ := keepNew_spec distinct bounded kept
        dsimp only
        cases more with
        | false =>
          refine ⟨⟨.ok collected, turn + 1⟩, rfl, by dsimp only; omega, ?_⟩
          intro names same
          cases same
          exact ⟨distinct', bounded'⟩
        | true =>
          cases moved : page.getLast?.filter fun last =>
            all.length < collected.length ∧ continueAfter ≠ some last with
          | none => exact ⟨_, rfl, by dsimp only; omega, nofun⟩
          | some last =>
            have brought : all.length < collected.length := by
              have advances := (Option.filter_eq_some_iff.mp moved).2
              exact (of_decide_eq_true advances).1
            obtain ⟨ended, ends, requests, result⟩ :=
              @ih (turn + 1) collected (some last) distinct' bounded' (by omega)
            exact ⟨ended, ends, by omega, result⟩

theorem walkFrom_lt_requests {peer : Peer} {fuel turn : Nat} {continueAfter : Option String} {ended : Ended}
    (ends : walkFrom limit peer fuel turn all continueAfter = some ended) : turn < ended.requests := by
  induction fuel generalizing turn all continueAfter with
  | zero => cases ends
  | succ fuel ih =>
    rw [walkFrom] at ends
    split at ends
    · cases ends
      exact Nat.lt_succ_self turn
    split at ends
    · cases ends
      exact Nat.lt_succ_self turn
    split at ends
    · cases ends
      exact Nat.lt_succ_self turn
    split at ends
    · cases ends
      exact Nat.lt_succ_self turn
    · exact Nat.lt_of_succ_lt (ih ends)

def Serves (server : MmsModelDispatcher) (domain : Option String) : Prop :=
  ∀ name ∈ domain, stringLen name ≤ maxDomainNameLen ∧ (server.mmsModel.listNamedVariablesFlat name).isSome

variable (listed extras domains : List String) (continueAfter : Option String)

theorem mergedPage_page :
    Cursor.Page (listed ++ extras) continueAfter (mergedPage listed extras continueAfter).identifiers
      (mergedPage listed extras continueAfter).moreFollows := by
  obtain ⟨ascending, members⟩ := Cursor.sortedOnce (listed ++ extras)
  have paged := Cursor.firstBehind_page ascending (show 0 < pageSize by decide) continueAfter
  exact {
    ascending := paged.ascending
    listed := fun name member => (members name).mp (paged.listed member)
    behind := paged.behind
    complete := fun name member => paged.complete name ((members name).mpr member)
    nonempty := paged.nonempty }

theorem emptyPage_page : Cursor.Page [] continueAfter emptyPage.identifiers emptyPage.moreFollows where
  ascending := .nil
  listed := nofun
  behind := nofun
  complete := nofun
  nonempty := nofun

def Pages (listed : List String) (continueAfter : Option String) : GetNameListResult → Prop
  | .response response => Cursor.Page listed continueAfter response.identifiers response.moreFollows
  | .notFound => False

section Server

variable {server : MmsModelDispatcher} {objectClass : ObjectClass} {domain : Option String}

theorem registered_pages {name : String} {flat : List String}
    (found : server.mmsModel.listNamedVariablesFlat name = some flat)
    (registered : objectClass = .namedVariableList ∨ objectClass = .journal)
    (continueAfter : Option String) :
    Pages (names server objectClass (some name)) continueAfter
      (handleGetNameListWithExtras server.mmsModel ⟨objectClass, .domainSpecific name, continueAfter⟩
        (server.runtimeExtras ⟨objectClass, .domainSpecific name, continueAfter⟩)) := by
  have cursorless : server.runtimeExtras ⟨objectClass, .domainSpecific name, continueAfter⟩ =
      server.runtimeExtras ⟨objectClass, .domainSpecific name, none⟩ := rfl
  have listed : modelNames server objectClass (some name) = [] := by
    rcases registered with rfl | rfl <;> rfl
  rw [names, listed, cursorless, scopeOf]
  generalize server.runtimeExtras ⟨objectClass, .domainSpecific name, none⟩ = extras
  have paged := mergedPage_page [] extras continueAfter
  have empty := emptyPage_page continueAfter
  rcases registered with rfl | rfl
  · cases extras with
    | nil => simpa [handleGetNameListWithExtras, handleGetNameList, found, Pages] using empty
    | cons first later => simpa [handleGetNameListWithExtras, found, Pages] using paged
  · cases extras with
    | nil => simpa [handleGetNameListWithExtras, handleGetNameList, found, Pages] using empty
    | cons first later => simpa [handleGetNameListWithExtras, found, Pages] using paged

theorem handleGetNameListWithExtras_pages (serves : Serves server domain) (objectClass : ObjectClass)
    (continueAfter : Option String) : Pages (names server objectClass domain) continueAfter
      (handleGetNameListWithExtras server.mmsModel ⟨objectClass, scopeOf domain, continueAfter⟩
        (server.runtimeExtras ⟨objectClass, scopeOf domain, continueAfter⟩)) := by
  cases domain with
  | none =>
    cases objectClass with
    | domain => exact mergedPage_page _ _ continueAfter
    | _ => exact emptyPage_page continueAfter
  | some domain =>
    obtain ⟨flat, found⟩ := Option.isSome_iff_exists.mp (serves domain rfl).2
    cases objectClass with
    | domain => exact emptyPage_page continueAfter
    | namedVariable =>
      have listed : modelNames server .namedVariable (some domain) = flat := by simp [modelNames, found]
      rw [names, listed]
      have cursorless : server.runtimeExtras ⟨.namedVariable, scopeOf (some domain), continueAfter⟩ =
          server.runtimeExtras ⟨.namedVariable, scopeOf (some domain), none⟩ := rfl
      rw [cursorless]
      generalize server.runtimeExtras ⟨.namedVariable, scopeOf (some domain), none⟩ = extras
      have paged := mergedPage_page flat extras continueAfter
      cases extras with
      | nil => simpa [handleGetNameListWithExtras, handleGetNameList, scopeOf, found, Pages] using paged
      | cons first later => simpa [handleGetNameListWithExtras, scopeOf, found, Pages] using paged
    | namedVariableList => exact registered_pages found (.inl rfl) continueAfter
    | journal => exact registered_pages found (.inr rfl) continueAfter

def ShortNames (server : MmsModelDispatcher) (objectClass : ObjectClass) (domain : Option String) : Prop :=
  ∀ name ∈ names server objectClass domain, stringLen name ≤ maxContinueAfterLen

theorem decodeGetNameListRequest_ok (serves : Serves server domain) {continueAfter : Option String}
    (cursor : ∀ name ∈ continueAfter, stringLen name ≤ maxContinueAfterLen) :
    decodeGetNameListRequest ⟨objectClass, scopeOf domain, continueAfter⟩ =
      .ok ⟨objectClass, scopeOf domain, continueAfter⟩ := by
  have short : ¬ (continueAfter.any fun name => maxContinueAfterLen < stringLen name) = true := by
    cases continueAfter with
    | none => exact Bool.false_ne_true
    | some name => simpa using cursor name rfl
  rw [decodeGetNameListRequest, if_neg short]
  cases domain with
  | none => rfl
  | some name => exact if_neg (Nat.not_lt.mpr (serves name rfl).1)

theorem serve_page (serves : Serves server domain) {continueAfter : Option String}
    (cursor : ∀ name ∈ continueAfter, stringLen name ≤ maxContinueAfterLen) :
    ∃ response, serve server ⟨objectClass, scopeOf domain, continueAfter⟩ = .ok response ∧
      Cursor.Page (names server objectClass domain) continueAfter response.identifiers
        response.moreFollows := by
  have paged := handleGetNameListWithExtras_pages serves objectClass continueAfter
  rw [serve, decodeGetNameListRequest_ok serves cursor]
  dsimp only
  cases handled : handleGetNameListWithExtras server.mmsModel ⟨objectClass, scopeOf domain, continueAfter⟩
      (server.runtimeExtras ⟨objectClass, scopeOf domain, continueAfter⟩) with
  | notFound =>
    rw [handled] at paged
    exact paged.elim
  | response response =>
    rw [handled] at paged
    exact ⟨response, rfl, paged⟩

end Server

/-- The first request of a walk fits the negotiated size, and so does the one behind every name that
is ever listed. -/
def Sendable (association : Association) (objectClass : ObjectClass) (domain : Option String) : Prop :=
  ∀ turn cursor, (∀ name ∈ cursor, ∃ earlier, name ∈ names (association.server earlier) objectClass domain) →
    (encodeConfirmedGetNameListRequest (association.invokeId turn)
      ⟨objectClass, scopeOf domain, cursor⟩).length ≤ association.negotiatedMaxPduSize

section Association

variable {association : Association} {objectClass : ObjectClass} {domain : Option String}
  (serves : ∀ turn, Serves (association.server turn) domain)
  (short : ∀ turn, ShortNames (association.server turn) objectClass domain)

include serves short

/-- A negotiated size of 240 octets is enough for every request with names the server accepts. -/
theorem sendable_of_le (large : 240 ≤ association.negotiatedMaxPduSize) :
    Sendable association objectClass domain := by
  intro turn cursor listed
  refine Nat.le_trans ?_ large
  have scope : (scopeOf domain).encode.length ≤ 68 := by
    cases domain with
    | none => exact Nat.le_of_ble_eq_true rfl
    | some name =>
      have field := encodeTlv_length_le 0x81 (stringBytes name)
      have bound : (stringBytes name).length ≤ 64 := by
        rw [stringBytes_length]
        exact (serves 0 name rfl).1
      exact Nat.le_trans field (by omega)
  have cursorField : (cursor.elim [] fun name => encodeTlv 0x82 (stringBytes name)).length ≤ 133 := by
    cases cursor with
    | none => exact Nat.zero_le _
    | some name =>
      obtain ⟨earlier, member⟩ := listed name rfl
      have field := encodeTlv_length_le 0x82 (stringBytes name)
      have bound : (stringBytes name).length ≤ 129 := by
        rw [stringBytes_length]
        exact short earlier name member
      exact Nat.le_trans field (by omega)
  have scopeField := encodeTlv_length_le 0xa1 (scopeOf domain).encode
  have whole := encodeConfirmed_length_le tagConfirmedRequest (association.invokeId turn)
    (GetNameListRequest.encode ⟨objectClass, scopeOf domain, cursor⟩)
  have body : (GetNameListRequest.encode ⟨objectClass, scopeOf domain, cursor⟩).length ≤ 218 := by
    refine Nat.le_trans (encodeTlv_length_le _ _) ?_
    simp only [length_append, length_cons, length_nil]
    omega
  exact Nat.le_trans whole (by omega)

theorem getNameList_page (sendable : Sendable association objectClass domain) {turn : Nat}
    {continueAfter : Option String} (listed : ∀ name ∈ continueAfter, ∃ earlier,
      name ∈ names (association.server earlier) objectClass domain) :
    ∃ page more, getNameList association turn objectClass domain continueAfter = .ok (page, more) ∧
      Cursor.Page (names (association.server turn) objectClass domain) continueAfter page more := by
  have cursor : ∀ name ∈ continueAfter, stringLen name ≤ maxContinueAfterLen := by
    intro name reached
    obtain ⟨earlier, member⟩ := listed name reached
    exact short earlier name member
  obtain ⟨response, served, paged⟩ := @serve_page _ objectClass _ (serves turn) _ cursor
  refine ⟨response.identifiers, response.moreFollows, ?_, paged⟩
  rw [getNameList, if_neg (Nat.not_lt.mpr (sendable turn continueAfter listed)), served]

end Association

theorem keepNew_fresh (distinct : (all ++ page).Nodup) (bounded : all.length ≤ limit) : keepNew limit all page =
      if (all ++ page).length ≤ limit then .ok (all ++ page) else .error (.nameListLimit limit) := by
  induction page generalizing all with
  | nil =>
    rw [append_nil, if_pos bounded]
    rfl
  | cons name rest ih =>
    have fresh : name ∉ all := fun member =>
      (nodup_append.mp distinct).2.2 name member name mem_cons_self rfl
    rw [keepNew, if_neg fresh]
    by_cases full : all.length = limit
    · rw [if_pos full, if_neg (by rw [length_append, length_cons]; omega)]
    · rw [append_cons] at distinct
      rw [if_neg full, ih distinct (by rw [length_append, length_singleton]; omega), ← append_cons]

/-- What a walk against the server comes to: every name of `kept` once, or the name limit. -/
def Complete (limit : Nat) (listed : Nat → List String) (kept : String → Prop) (ended : Ended) : Prop :=
  match ended.outcome with
  | .ok all => all.Nodup ∧ ∀ name, kept name → name ∈ all
  | .error error => error = .nameListLimit limit ∧
      ∃ received : List String, received.Nodup ∧ limit < received.length ∧
        ∀ name ∈ received, ∃ turn < ended.requests, name ∈ listed turn

section Walk

variable {association : Association} {objectClass : ObjectClass} {domain : Option String}
  (serves : ∀ turn, Serves (association.server turn) domain)
  (short : ∀ turn, ShortNames (association.server turn) objectClass domain)
  (sendable : Sendable association objectClass domain)

include serves short sendable

theorem walkFrom_complete {limit : Nat} {kept : String → Prop} {fuel turn : Nat} {all : List String}
    {continueAfter : Option String} {ended : Ended} (gathered : Cursor.Gathered kept all continueAfter)
    (bounded : all.length ≤ limit)
    (received : ∀ name ∈ all, ∃ earlier < turn,
      name ∈ names (association.server earlier) objectClass domain)
    (ends : walkFrom limit (serverPeer association objectClass domain) fuel turn all continueAfter = some ended)
    (present : ∀ name, kept name → ∀ later < ended.requests,
      name ∈ names (association.server later) objectClass domain) :
    Complete limit (fun turn => names (association.server turn) objectClass domain) kept ended := by
  induction fuel generalizing turn all continueAfter with
  | zero => cases ends
  | succ fuel ih =>
    have cursor : ∀ name ∈ continueAfter, ∃ earlier,
        name ∈ names (association.server earlier) objectClass domain := by
      intro name reached
      rw [← gathered.ends] at reached
      obtain ⟨earlier, _, listed⟩ := received name (mem_of_getLast? reached)
      exact ⟨earlier, listed⟩
    obtain ⟨page, more, answered, paged⟩ := getNameList_page serves short sendable cursor
    have ascending := gathered.append paged
    have distinct : (all ++ page).Nodup := ascending.imp ne_of_lt
    have listed : ∀ name ∈ all ++ page, ∃ earlier < turn + 1,
        name ∈ names (association.server earlier) objectClass domain := by
      intro name member
      rcases mem_append.mp member with old | new
      · obtain ⟨earlier, before, listed⟩ := received name old
        exact ⟨earlier, Nat.lt_succ_of_lt before, listed⟩
      · exact ⟨turn, Nat.lt_succ_self turn, paged.listed new⟩
    rw [walkFrom, serverPeer, answered] at ends
    dsimp only at ends
    rw [keepNew_fresh distinct bounded] at ends
    by_cases room : (all ++ page).length ≤ limit
    · rw [if_pos room] at ends
      cases more with
      | false =>
        cases ends
        exact ⟨distinct, gathered.last paged fun name stays => present name stays turn (Nat.lt_succ_self turn)⟩
      | true =>
        let last := page.getLast (paged.nonempty rfl)
        have final : page.getLast? = some last := getLast?_eq_getLast_of_ne_nil (paged.nonempty rfl)
        have advances : (page.getLast?.filter fun last =>
          all.length < (all ++ page).length ∧ continueAfter ≠ some last) = some last := by
          rw [final, Option.filter_some, if_pos]
          rw [decide_eq_true_eq]
          refine ⟨?_, fun same => ?_⟩
          · have brought := length_pos_of_ne_nil (paged.nonempty rfl)
            rw [length_append]
            omega
          · exact lt_irrefl last (paged.behind last (getLast_mem _) last same)
        dsimp only at ends
        rw [if_neg (show ¬ (!true) = true by decide), advances] at ends
        have later := walkFrom_lt_requests ends
        have next := gathered.next paged fun name stays => present name stays turn (by omega)
        rw [final] at next
        exact ih next room listed ends
    · rw [if_neg room] at ends
      cases ends
      exact ⟨rfl, all ++ page, distinct, Nat.lt_of_not_le room, listed⟩

end Walk

def bareServer : MmsModelDispatcher where
  mmsModel := ⟨domains.map fun name => ⟨name, []⟩⟩
  controlBlockPaths := fun _ => []
  routes := ⟨[], fun _ => false, fun _ _ _ => .result (.success (.integer 1))⟩
  logControls := []
  answer := fun _ _ _ => .reject

def unchanging (negotiatedMaxPduSize : Nat) (domains : List String) : Association :=
  ⟨negotiatedMaxPduSize, fun turn => UInt32.ofNat (turn + 1), fun _ => bareServer domains⟩

/-- More names than one page holds. -/
def manyDevices : List String :=
  (range 101).map fun index =>
    String.ofList [Char.ofNat (65 + index / 16), Char.ofNat (65 + index % 16)]

end Iec61850.Client.Directory
