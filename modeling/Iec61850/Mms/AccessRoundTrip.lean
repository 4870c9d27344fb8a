import Iec61850.Mms.AccessSpelling

/-!
Alternate accesses and the paths they select: what a builder builds is read back, and what the
decoder accepts selects what the octets say.
-/

namespace Iec61850.Mms

open List Wire Wire.Fallible WireAccess AlternateAccess

inductive AccessStep where
  | element (index : Nat)
  | component (name : String)
  deriving DecidableEq, Repr

def AccessStep.isComponent : AccessStep → Bool
  | .element _ => false
  | .component _ => true

namespace AlternateAccess

def path : AlternateAccess → List AccessStep
  | .index position => [.element position.toNat]
  | .indexComponent position names => .element position.toNat :: (componentNames names).map .component
  | .component name none => [.component name]
  | .component name (some nested) => .component name :: path nested

def Sound : AlternateAccess → Prop
  | .index _ => True
  | .indexComponent _ names => ∀ name ∈ componentNames names, Identifier name
  | .component name none => Identifier name
  | .component name (some nested) => Identifier name ∧ Sound nested

end AlternateAccess

theorem joinNames_toList (names : List String) :
    (joinNames names).toList = ['$'].intercalate (names.map String.toList) := by
  induction names with
  | nil => rfl
  | cons head rest ih =>
    cases rest with
    | nil => simp [joinNames]
    | cons second rest =>
      rw [joinNames, String.toList_append, String.toList_append, ih]
      · simp only [map_cons]
        rw [intercalate_cons_cons]
        rfl
      · nofun

theorem toList_componentNames (path : String) : (componentNames path).map String.toList = path.toList.splitOn '$' := by
  rw [componentNames, map_map]
  have same : String.toList ∘ String.ofList = id := funext fun _ => String.toList_ofList
  rw [same, map_id]

theorem componentNames_ne_nil (path : String) : componentNames path ≠ [] := by
  intro nothing
  have parts := toList_componentNames path
  rw [nothing] at parts
  exact splitOn_ne_nil '$' path.toList parts.symm

theorem joinNames_componentNames (path : String) : joinNames (componentNames path) = path := by
  apply String.toList_injective
  rw [joinNames_toList, toList_componentNames, intercalate_splitOn]

theorem notMem_of_mem_splitOn {α : Type} [DecidableEq α] (separator : α) (list : List α) :
    ∀ part ∈ list.splitOn separator, separator ∉ part := by
  induction list with
  | nil => simp
  | cons first rest ih =>
    rw [splitOn_cons_eq_if_modifyHead]
    split
    · intro part listed
      cases mem_cons.mp listed with
      | inl empty => simp [empty]
      | inr later => exact ih part later
    · next other =>
      cases parts : rest.splitOn separator with
      | nil => exact absurd parts (splitOn_ne_nil _ _)
      | cons head tail =>
        rw [parts] at ih
        intro part listed
        cases mem_cons.mp listed with
        | inl front =>
          subst front
          have apart : separator ≠ first := fun same => other (by simp [same])
          rw [mem_cons, not_or]
          exact ⟨apart, ih head mem_cons_self⟩
        | inr later => exact ih part (mem_cons_of_mem _ later)

variable {names : List String} {number : List UInt8} {chain : List ChainLink} {bytes member : List UInt8}

theorem componentNames_joinNames_iff (nonempty : names ≠ []) :
    componentNames (joinNames names) = names ↔ ∀ name ∈ names, '$' ∉ name.toList := by
  constructor
  · intro same name listed
    rw [← same] at listed
    have part := mem_map_of_mem (f := String.toList) listed
    rw [toList_componentNames] at part
    exact notMem_of_mem_splitOn '$' _ _ part
  · intro plain
    have parts : (joinNames names).toList.splitOn '$' = names.map String.toList := by
      rw [joinNames_toList, splitOn_intercalate]
      · intro part listed
        obtain ⟨name, member, rfl⟩ := mem_map.mp listed
        exact plain name member
      · simpa using nonempty
    rw [componentNames, parts, map_map]
    have same : String.ofList ∘ String.toList = id := funext fun _ => String.ofList_toList
    rw [same, map_id]

namespace AlternateAccess

def wire : AlternateAccess → WireAccess
  | .index position => .index (encodeUnsignedIntMinimal position.toUInt64)
  | .indexComponent position names =>
    .indexThen (encodeUnsignedIntMinimal position.toUInt64) ((componentNames names).map fun name => ⟨name, [], []⟩)
  | .component name none => .component name
  | .component name (some nested) => .componentThen name (wire nested)

theorem unsignedOf_encode (position : UInt32) :
    (unsignedOf (encodeUnsignedIntMinimal position.toUInt64)).toUInt32 = position := by
  have decoded := decodeUnsignedInt_encode position.toUInt64
  obtain ⟨-, same⟩ := content_of_decodeUnsignedInt decoded
  rw [← same]
  simp

theorem unsignedContent_encode (value : UInt64) : UnsignedContent (encodeUnsignedIntMinimal value) :=
  (content_of_decodeUnsignedInt (decodeUnsignedInt_encode value)).1

theorem map_name_links (names : List String) :
    (names.map fun name => (⟨name, [], []⟩ : ChainLink)).map (·.name) = names := by
  rw [map_map]
  exact map_id names

theorem read_wire : (access : AlternateAccess) → access.wire.read = access
  | .index position => by rw [wire, WireAccess.read, unsignedOf_encode]
  | .indexComponent position names => by
      rw [wire, WireAccess.read, unsignedOf_encode, map_name_links, joinNames_componentNames]
  | .component name none => rfl
  | .component name (some nested) => by rw [wire, WireAccess.read, read_wire nested]

theorem depth_wire : (access : AlternateAccess) → access.wire.depth = access.nestingDepth
  | .index position => rfl
  | .indexComponent position names => by rw [wire, depth, length_map, nestingDepth]
  | .component name none => rfl
  | .component name (some nested) => by rw [wire, depth, depth_wire nested, nestingDepth]

theorem length_identifier {name : String} (identifier : Identifier name) (tag : UInt8) :
    (encodeTlv tag (stringBytes name)).length ≤ 66 := by
  have short : stringLen name ≤ 64 := identifier.2
  have one : lengthSize (stringLen name) = 1 := if_pos (by omega)
  rw [encodeTlv_length, stringBytes_length, one]
  omega

theorem encodeComponentChain_cons (head second : String) (rest : List String) :
    encodeComponentChain (head :: second :: rest) =
      encodeTlv 0xa0 (encodeTlv 0x80 (stringBytes head) ++
        encodeTlv 0x30 (encodeComponentChain (second :: rest))) := rfl

variable {names : List String} {access : AlternateAccess} {count : Nat} {component : String}
  {tail : Option AlternateAccess}

theorem length_encodeComponentChain (identifiers : ∀ name ∈ names, Identifier name) :
    (encodeComponentChain names).length ≤ 74 * names.length := by
  induction names with
  | nil => exact Nat.le_refl 0
  | cons head rest ih =>
    have first := identifiers head mem_cons_self
    cases rest with
    | nil =>
      have short := length_identifier first 0x81
      rw [encodeComponentChain]
      simp only [length_cons, length_nil]
      omega
    | cons second rest =>
      have short := length_identifier first 0x80
      have later := ih fun name listed => identifiers name (mem_cons_of_mem _ listed)
      have inner := lengthSize_le (encodeComponentChain (second :: rest)).length
      rw [encodeComponentChain_cons, encodeTlv_length]
      generalize content : encodeTlv 0x80 _ ++ encodeTlv 0x30 _ = selected
      have outer := lengthSize_le selected.length
      rw [← content, length_append, encodeTlv_length 0x30] at outer ⊢
      simp only [length_cons] at later ⊢
      omega

theorem spellsChain_encode (identifiers : ∀ name ∈ names, Identifier name) (nonempty : names ≠ [])
    (short : names.length ≤ 32) :
    SpellsChain (names.map fun name => ⟨name, [], []⟩) (encodeTlv 0x30 (encodeComponentChain names)) := by
  induction names with
  | nil => exact absurd rfl nonempty
  | cons head rest ih =>
    have first := identifiers head mem_cons_self
    have whole := length_encodeComponentChain identifiers
    have name : (stringBytes head).length ≤ 65535 := Nat.le_trans first.2 (by decide)
    have sequence : Tlv 0x30 (encodeComponentChain (head :: rest) ++ [])
        (encodeTlv 0x30 (encodeComponentChain (head :: rest))) := by
      rw [append_nil]
      exact tlv_encodeTlv 0x30 (by omega)
    rw [← append_nil (encodeTlv 0x30 _)]
    cases rest with
    | nil => exact .last first (tlv_encodeTlv 0x81 name) sequence
    | cons second rest =>
      have others : ∀ name ∈ second :: rest, Identifier name :=
        fun name listed => identifiers name (mem_cons_of_mem _ listed)
      have nested := ih others (cons_ne_nil _ _) (Nat.le_of_succ_le short)
      have member : Tlv 0xa0 (encodeTlv 0x80 (stringBytes head) ++
          encodeTlv 0x30 (encodeComponentChain (second :: rest)))
          (encodeComponentChain (head :: second :: rest)) := by
        rw [encodeComponentChain_cons, encodeTlv_length] at whole
        exact tlv_encodeTlv 0xa0 (by omega)
      exact .more first (tlv_encodeTlv 0x80 name) nested member sequence

theorem length_encodeMember : (access : AlternateAccess) → access.Sound →
    access.encodeMember.length ≤ 74 * (access.nestingDepth + 1)
  | .index position, _ => by
      have digits := (unsignedContent_encode position.toUInt64).2
      have size := lengthSize_le (encodeUnsignedIntMinimal position.toUInt64).length
      rw [encodeMember, encodeTlv_length]
      omega
  | .indexComponent position names, sound => by
      have digits := (unsignedContent_encode position.toUInt64).2
      have size := lengthSize_le (encodeUnsignedIntMinimal position.toUInt64).length
      have chain := length_encodeComponentChain sound
      have inner := lengthSize_le (encodeComponentChain (componentNames names)).length
      rw [encodeMember, encodeTlv_length, nestingDepth]
      generalize content : encodeTlv 0x81 _ ++ encodeTlv 0x30 _ = selected
      have outer := lengthSize_le selected.length
      rw [← content, length_append, encodeTlv_length, encodeTlv_length] at outer ⊢
      omega
  | .component name none, sound => by
      have short := length_identifier sound 0x81
      rw [encodeMember, nestingDepth]
      omega
  | .component name (some nested), sound => by
      have short := length_identifier sound.1 0x80
      have below := length_encodeMember nested sound.2
      have inner := lengthSize_le nested.encodeMember.length
      rw [encodeMember, encodeTlv_length, nestingDepth]
      generalize content : encodeTlv 0x80 _ ++ encodeTlv 0x30 _ = selected
      have outer := lengthSize_le selected.length
      rw [← content, length_append, encodeTlv_length 0x30] at outer ⊢
      omega

theorem spellsMember_encode : (access : AlternateAccess) → access.Sound → access.nestingDepth ≤ 32 →
    SpellsMember access.wire access.encodeMember
  | .index position, sound, _ =>
    .index (unsignedContent_encode _) (tlv_encodeTlv 0x82 (Nat.le_trans (unsignedContent_encode _).2 (by decide)))
  | .indexComponent position names, sound, shallow => by
      have whole := length_encodeMember (.indexComponent position names) sound
      have digits := unsignedContent_encode position.toUInt64
      have nested := spellsChain_encode sound (componentNames_ne_nil names) shallow
      rw [encodeMember, encodeTlv_length] at whole
      exact .indexThen digits (tlv_encodeTlv 0x81 (Nat.le_trans digits.2 (by decide))) nested
        (tlv_encodeTlv 0xa0 (by omega))
  | .component name none, sound, _ => .component sound (tlv_encodeTlv 0x81 (Nat.le_trans sound.2 (by decide)))
  | .component name (some nested), sound, shallow => by
      have whole := length_encodeMember (.component name (some nested)) sound
      have size := length_encodeMember nested sound.2
      rw [nestingDepth] at shallow
      have inner := spellsMember_encode nested sound.2 (by omega)
      rw [encodeMember, encodeTlv_length, nestingDepth] at whole
      exact .componentThen sound.1 (tlv_encodeTlv 0x80 (Nat.le_trans sound.1.2 (by decide))) inner
        (tlv_encodeTlv 0x30 (by omega)) (tlv_encodeTlv 0xa0 (by omega))

theorem spells_encode (sound : access.Sound) (shallow : access.nestingDepth ≤ 32) :
    Spells access.wire access.encode := by
  have size := length_encodeMember access sound
  exact ⟨access.encodeMember, spellsMember_encode access sound shallow, tlv_encodeTlv 0x30 (by omega)⟩

theorem decodeWithMax_encode (sound : access.Sound) {maxDepth : UInt8}
    (within : access.nestingDepth ≤ (nestingCeiling maxDepth).toNat) :
    decodeWithMax access.encode maxDepth = .ok (access, access.encode.length) := by
  have ceiling := nestingCeiling_le maxDepth
  have read := decodeWithMax_spelled (spells_encode sound (by omega)) (access.depth_wire.symm ▸ within) []
  rwa [append_nil, read_wire] at read

theorem length_componentChain (names : List String) :
    (encodeComponentChain names).length = componentChainLen names := by
  induction names with
  | nil => rfl
  | cons head rest ih =>
    cases rest with
    | nil => rw [encodeComponentChain, encodeTlv_length, componentChainLen, stringBytes_length]
    | cons second rest =>
      rw [encodeComponentChain_cons, encodeTlv_length, length_append, encodeTlv_length, encodeTlv_length,
        stringBytes_length, ih]
      rfl

theorem length_member : (access : AlternateAccess) → access.encodeMember.length = access.altAccessMemberLen
  | .index position => by rw [encodeMember, encodeTlv_length, altAccessMemberLen]
  | .indexComponent position names => by
      rw [encodeMember, encodeTlv_length, length_append, encodeTlv_length, encodeTlv_length, length_componentChain,
        altAccessMemberLen]
  | .component name none => by rw [encodeMember, encodeTlv_length, stringBytes_length, altAccessMemberLen]
  | .component name (some nested) => by
      rw [encodeMember, encodeTlv_length, length_append, encodeTlv_length, encodeTlv_length, stringBytes_length,
        length_member nested, altAccessMemberLen]

theorem length_encode (access : AlternateAccess) : access.encode.length = access.encodedLen := by
  rw [encode, encodeTlv_length, length_member, encodedLen]

theorem length_path : (access : AlternateAccess) → access.path.length = access.nestingDepth + 1
  | .index position => rfl
  | .indexComponent position names => by rw [path, length_cons, length_map, nestingDepth]
  | .component name none => rfl
  | .component name (some nested) => by rw [path, length_cons, length_path nested, nestingDepth]

theorem leadingComponents_path : (access : AlternateAccess) →
    access.leadingComponents.1.map .component = access.path.takeWhile (·.isComponent) ∧
      access.leadingComponents.2.elim [] path = access.path.dropWhile (·.isComponent)
  | .index position => ⟨rfl, rfl⟩
  | .indexComponent position names => ⟨rfl, rfl⟩
  | .component name none => ⟨rfl, rfl⟩
  | .component name (some nested) => by
      obtain ⟨names, rest⟩ := leadingComponents_path nested
      constructor
      · rw [leadingComponents, path, takeWhile_cons_of_pos rfl, ← names]
        rfl
      · rw [leadingComponents, path, dropWhile_cons_of_pos rfl, ← rest]

theorem countSegments_ok (counted : countSegments names = .ok count) :
    count = names.length ∧ ∀ name ∈ names, Identifier name := by
  induction names generalizing count with
  | nil =>
    cases counted
    exact ⟨rfl, nofun⟩
  | cons name rest ih =>
    rw [countSegments] at counted
    split at counted
    · cases counted
    next present =>
    split at counted
    · cases counted
    next short =>
    cases later : countSegments rest with
    | error error => rw [later] at counted; cases counted
    | ok segments =>
      rw [later] at counted
      cases counted
      obtain ⟨rfl, identifiers⟩ := ih later
      refine ⟨rfl, ?_⟩
      intro other listed
      cases mem_cons.mp listed with
      | inl same =>
        subst same
        exact ⟨by simpa using present, Nat.not_lt.mp short⟩
      | inr member => exact identifiers other member

theorem validateComponentPath_ok (valid : validateComponentPath component = .ok count) :
    count = (componentNames component).length ∧ ∀ name ∈ componentNames component, Identifier name := by
  unfold validateComponentPath at valid
  split at valid
  · cases valid
  · exact countSegments_ok valid

theorem wrapped (nonempty : names ≠ [])
    (built : names.foldr (fun segment nested => some (.component segment nested)) tail = some access)
    (identifiers : ∀ name ∈ names, Identifier name) (sound : ∀ rest ∈ tail, rest.Sound) :
    access.Sound ∧ access.path = names.map .component ++ tail.elim [] path := by
  induction names generalizing access with
  | nil => exact absurd rfl nonempty
  | cons name rest ih =>
    have first := identifiers name mem_cons_self
    have others : ∀ name ∈ rest, Identifier name := fun other listed => identifiers other (mem_cons_of_mem _ listed)
    rw [foldr_cons, Option.some.injEq] at built
    subst built
    cases rest with
    | nil =>
      cases tail with
      | none => exact ⟨first, rfl⟩
      | some access => exact ⟨⟨first, sound access rfl⟩, rfl⟩
    | cons second rest =>
      obtain ⟨deeper, path⟩ := ih (cons_ne_nil _ _) rfl others
      refine ⟨⟨first, deeper⟩, ?_⟩
      rw [map_cons, cons_append, ← path]
      rfl

theorem componentChain_ok (built : componentChain component tail = .ok access) (sound : ∀ rest ∈ tail, rest.Sound) :
    access.Sound ∧ access.path = (componentNames component).map .component ++ tail.elim [] path := by
  unfold componentChain at built
  cases valid : validateComponentPath component with
  | error error => rw [valid] at built; cases built
  | ok count =>
    rw [valid] at built
    dsimp only [bind, Except.bind] at built
    split at built
    · cases built
    split at built
    · next found =>
      cases built
      exact wrapped (componentNames_ne_nil component) found (validateComponentPath_ok valid).2 sound
    · cases built

end AlternateAccess

inductive AccessRecipe where
  | index (position : UInt32)
  | indexComponent (position : UInt32) (component : String)
  | component (component : String)
  | componentThen (component : String) (tail : AccessRecipe)

namespace AccessRecipe

open AlternateAccess

def build : AccessRecipe → Except MmsError AlternateAccess
  | .index position => .ok (buildIndex position)
  | .indexComponent position names => buildIndexComponent position names
  | .component names => buildComponent names
  | .componentThen names tail => do buildComponentThen names (← tail.build)

def steps : AccessRecipe → List AccessStep
  | .index position => [.element position.toNat]
  | .indexComponent position names => .element position.toNat :: (componentNames names).map .component
  | .component names => (componentNames names).map .component
  | .componentThen names tail => (componentNames names).map .component ++ tail.steps

theorem build_ok {recipe : AccessRecipe} {access : AlternateAccess} (built : recipe.build = .ok access) :
    access.Sound ∧ access.path = recipe.steps := by
  induction recipe generalizing access with
  | index position =>
    cases built
    exact ⟨trivial, rfl⟩
  | indexComponent position component =>
    unfold build buildIndexComponent at built
    cases valid : validateComponentPath component with
    | error error => rw [valid] at built; cases built
    | ok count =>
      rw [valid] at built
      dsimp only [bind, Except.bind] at built
      split at built
      · cases built
      · cases built
        exact ⟨(validateComponentPath_ok valid).2, rfl⟩
  | component component =>
    obtain ⟨sound, path⟩ := componentChain_ok built nofun
    exact ⟨sound, path.trans (append_nil _)⟩
  | componentThen component tail ih =>
    cases inner : tail.build with
    | error error => rw [build, inner] at built; cases built
    | ok rest =>
      rw [build, inner] at built
      obtain ⟨restSound, restPath⟩ := ih inner
      obtain ⟨sound, path⟩ := componentChain_ok built fun other same => Option.mem_some.mp same ▸ restSound
      refine ⟨sound, path.trans ?_⟩
      rw [Option.elim_some, restPath, steps]

end AccessRecipe

open AlternateAccess in
/-- What the builders build is read back from its encoding, has the length predicted for it, and
selects the path it was built from. -/
theorem built_access_read_back (recipe : AccessRecipe) (access : AlternateAccess) (built : recipe.build = .ok access) :
    (∀ maxDepth, access.nestingDepth ≤ (nestingCeiling maxDepth).toNat →
      decodeWithMax access.encode maxDepth = .ok (access, access.encode.length)) ∧
    access.encodedLen = access.encode.length ∧ access.path = recipe.steps ∧
    access.nestingDepth + 1 = recipe.steps.length ∧
    access.leadingComponents.1.map .component = recipe.steps.takeWhile (·.isComponent) ∧
    access.leadingComponents.2.elim [] path = recipe.steps.dropWhile (·.isComponent) := by
  obtain ⟨sound, path⟩ := AccessRecipe.build_ok built
  rw [← path]
  exact ⟨fun _ => decodeWithMax_encode sound, (length_encode access).symm, rfl, (length_path access).symm,
    leadingComponents_path access⟩

open AlternateAccess in
/-- Element 7 of an array that two components lead to, and three components inside it. -/
theorem harmonic_access_read_back :
    ∃ access, (AccessRecipe.componentThen "HA$phsAHar" (.indexComponent 7 "cVal$mag$f")).build = .ok access ∧
      access.nestingDepth = 5 ∧ decodeWithMax access.encode 32 = .ok (access, access.encode.length) := by
  have built : (AccessRecipe.componentThen "HA$phsAHar" (.indexComponent 7 "cVal$mag$f")).build =
      .ok (.component "HA" (some (.component "phsAHar" (some (.indexComponent 7 "cVal$mag$f"))))) := rfl
  exact ⟨_, built, rfl, (built_access_read_back _ _ built).1 32 (by decide +kernel)⟩

namespace WireAccess

def path : WireAccess → List AccessStep
  | .index number => [.element (ofBytes number)]
  | .component name => [.component name]
  | .componentThen name nested => .component name :: nested.path
  | .indexThen number chain => .element (ofBytes number) :: chain.map fun link => .component link.name

def Tight : WireAccess → Prop
  | .index _ => True
  | .component _ => True
  | .componentThen _ nested => nested.Tight
  | .indexThen _ chain => ∀ link ∈ chain, link.inside = [] ∧ link.behind = []

def Narrow : WireAccess → Prop
  | .index number => ofBytes number < 2 ^ 32
  | .component _ => True
  | .componentThen _ nested => nested.Narrow
  | .indexThen number _ => ofBytes number < 2 ^ 32

def Plain : WireAccess → Prop
  | .index _ => True
  | .component _ => True
  | .componentThen _ nested => nested.Plain
  | .indexThen _ chain => ∀ link ∈ chain, '$' ∉ link.name.toList

end WireAccess

theorem element_eq_iff (unsigned : UnsignedContent number) :
    (unsignedOf number).toUInt32.toNat = ofBytes number ↔ ofBytes number < 2 ^ 32 := by
  have value : (unsignedOf number).toNat = ofBytes number := shiftInto64_zero unsigned.2
  rw [UInt64.toNat_toUInt32, value]
  constructor
  · intro same
    rw [← same]
    exact Nat.mod_lt _ (by decide)
  · exact Nat.mod_eq_of_lt

theorem chain_ne_nil (spelled : SpellsChain chain bytes) : chain ≠ [] := by
  cases spelled <;> exact cons_ne_nil _ _

theorem chain_names_iff (spelled : SpellsChain chain bytes) :
    componentNames (joinNames (chain.map (·.name))) = chain.map (·.name) ↔ ∀ link ∈ chain, '$' ∉ link.name.toList := by
  rw [componentNames_joinNames_iff (by simpa using chain_ne_nil spelled)]
  simp

theorem map_component_injective {names' : List String}
    (same : names.map AccessStep.component = names'.map AccessStep.component) : names = names' :=
  map_injective_iff.mpr (fun _ _ equal => AccessStep.component.inj equal) same

theorem path_read_iff {wire : WireAccess} (spelled : SpellsMember wire member) :
    wire.read.path = wire.path ↔ wire.Narrow ∧ wire.Plain := by
  induction spelled with
  | index unsigned spelled =>
    have number := element_eq_iff unsigned
    simp only [WireAccess.read, AlternateAccess.path, WireAccess.path, cons.injEq, and_true,
      AccessStep.element.injEq, number, WireAccess.Narrow, WireAccess.Plain]
  | component identifier spelled => exact iff_of_true rfl ⟨trivial, trivial⟩
  | componentThen identifier selected nested whole spelled ih =>
    simp only [WireAccess.read, AlternateAccess.path, WireAccess.path, cons.injEq, true_and]
    exact ih
  | @indexThen number selection tail member chain unsigned selected nested spelled =>
    have element := element_eq_iff unsigned
    have names : (componentNames (joinNames (chain.map (·.name)))).map AccessStep.component =
        chain.map (fun link => AccessStep.component link.name) ↔ ∀ link ∈ chain, '$' ∉ link.name.toList := by
      have steps : chain.map (fun link => AccessStep.component link.name) =
          (chain.map (·.name)).map AccessStep.component := by
        rw [map_map]
        rfl
      rw [← chain_names_iff nested, steps]
      exact ⟨map_component_injective, congrArg _⟩
    simp only [WireAccess.read, AlternateAccess.path, WireAccess.path, cons.injEq, AccessStep.element.injEq,
      element, names, Narrow, Plain]

theorem identifiers_of_spellsChain (spelled : SpellsChain chain bytes) :
    ∀ name ∈ chain.map (·.name), Identifier name := by
  induction spelled with
  | last identifier spelled whole => simpa using identifier
  | more identifier selected nested spelled whole ih =>
    intro name listed
    cases mem_cons.mp listed with
    | inl same => exact same ▸ identifier
    | inr later => exact ih name later

theorem sound_read {wire : WireAccess} (spelled : SpellsMember wire member) (plain : wire.Plain) :
    wire.read.Sound ∧ wire.read.nestingDepth = wire.depth := by
  induction spelled with
  | index unsigned spelled => exact ⟨trivial, rfl⟩
  | component identifier spelled => exact ⟨identifier, rfl⟩
  | componentThen identifier selected nested whole spelled ih =>
    obtain ⟨sound, depth⟩ := ih plain
    refine ⟨⟨identifier, sound⟩, ?_⟩
    rw [WireAccess.read, nestingDepth, depth, WireAccess.depth]
  | indexThen unsigned selected nested spelled =>
    have names := (chain_names_iff nested).mpr plain
    constructor
    · rw [WireAccess.read, Sound, names]
      exact identifiers_of_spellsChain nested
    · rw [WireAccess.read, nestingDepth, names, length_map, WireAccess.depth]

/-- The octets are one access and nothing else, the access selects what they name, and it is read
back from its own encoding. -/
structure Faithful (maxDepth : UInt8) (bytes : List UInt8) (access : AlternateAccess) : Prop where
  spelled : ∃ wire, Spells wire bytes ∧ wire.Tight ∧ access.path = wire.path
  again : decodeWithMax access.encode maxDepth = .ok (access, access.encode.length)

theorem faithful_read_iff {wire : WireAccess} {bytes : List UInt8} {maxDepth : UInt8} (spelled : Spells wire bytes)
    (shallow : wire.depth ≤ (nestingCeiling maxDepth).toNat) :
    Faithful maxDepth bytes wire.read ↔ wire.Tight ∧ wire.Narrow ∧ wire.Plain := by
  obtain ⟨member, inner, whole⟩ := spelled
  constructor
  · intro faithful
    obtain ⟨wire', spelled', tight, path⟩ := faithful.spelled
    have same : wire = wire' := spells_unique ⟨member, inner, whole⟩ spelled'
    subst same
    exact ⟨tight, (path_read_iff inner).mp path⟩
  · rintro ⟨tight, narrow, plain⟩
    obtain ⟨sound, depth⟩ := sound_read inner plain
    exact ⟨⟨wire, ⟨member, inner, whole⟩, tight, (path_read_iff inner).mpr ⟨narrow, plain⟩⟩,
      decodeWithMax_encode sound (depth.symm ▸ shallow)⟩

/-- An accepted access is what its octets say exactly if nothing is passed over behind the names
that follow an index, the index is an Unsigned32, and those names do not contain the separator. -/
theorem accepted_access_faithful_iff (data : List UInt8) (maxDepth : UInt8) (access : AlternateAccess) (total : Nat)
    (accepted : decodeWithMax data maxDepth = .ok (access, total)) :
    ∃ wire bytes rest, data = bytes ++ rest ∧ bytes.length = total ∧ Spells wire bytes ∧
      (Faithful maxDepth bytes access ↔ wire.Tight ∧ wire.Narrow ∧ wire.Plain) := by
  obtain ⟨wire, bytes, rest, split, size, spelled, rfl, shallow⟩ := spelled_of_decodeWithMax accepted
  exact ⟨wire, bytes, rest, split, size.symm, spelled, faithful_read_iff spelled shallow⟩

theorem spells_indexThen {slack : List UInt8} {name : String} (unsigned : UnsignedContent number)
    (identifier : Identifier name) (short : slack.length ≤ 1000) : Spells (.indexThen number [⟨name, slack, []⟩])
      (encodeTlv 0x30 (encodeTlv 0xa0 (encodeTlv 0x81 number ++
        (encodeTlv 0x30 (encodeTlv 0x81 (stringBytes name) ++ slack) ++ [])))) := by
  have digits := unsigned.2
  have nameSize : (encodeTlv 0x81 (stringBytes name)).length ≤ 66 := length_identifier identifier 0x81
  have numberSize : (encodeTlv 0x81 number).length ≤ 12 := by
    have field := lengthSize_le number.length
    rw [encodeTlv_length]
    omega
  have chainSize : (encodeTlv 0x30 (encodeTlv 0x81 (stringBytes name) ++ slack)).length ≤ 1070 := by
    have field := lengthSize_le (encodeTlv 0x81 (stringBytes name) ++ slack).length
    rw [encodeTlv_length]
    rw [length_append] at field ⊢
    omega
  have sequence : Tlv 0x30 (encodeTlv 0x81 (stringBytes name) ++ slack)
      (encodeTlv 0x30 (encodeTlv 0x81 (stringBytes name) ++ slack)) :=
    tlv_encodeTlv 0x30 (by rw [length_append]; omega)
  have nested : SpellsChain [⟨name, slack, []⟩] (encodeTlv 0x30 (encodeTlv 0x81 (stringBytes name) ++ slack) ++ []) :=
    .last identifier (tlv_encodeTlv 0x81 (Nat.le_trans identifier.2 (by decide))) sequence
  have selected : (encodeTlv 0x81 number ++
      (encodeTlv 0x30 (encodeTlv 0x81 (stringBytes name) ++ slack) ++ [])).length ≤
      1082 := by
    rw [append_nil, length_append]
    omega
  refine ⟨_, .indexThen unsigned (tlv_encodeTlv 0x81 (by omega)) nested (tlv_encodeTlv 0xa0 (by omega)),
    tlv_encodeTlv 0x30 ?_⟩
  have field := lengthSize_le
    (encodeTlv 0x81 number ++ (encodeTlv 0x30 (encodeTlv 0x81 (stringBytes name) ++ slack) ++ [])).length
  rw [encodeTlv_length]
  omega

/-- Component `a` of element 7. -/
theorem plain_access_faithful :
    let data : List UInt8 := [0x30, 0x0a, 0xa0, 0x08, 0x81, 0x01, 0x07, 0x30, 0x03, 0x81, 0x01, 0x61]
    decodeWithMax data 32 = .ok (.indexComponent 7 "a", 12) ∧ Faithful 32 data (.indexComponent 7 "a") := by
  intro data
  have spelled : Spells (.indexThen [7] [⟨"a", [], []⟩]) data :=
    spells_indexThen ⟨by decide, by decide⟩ ⟨by decide, by decide⟩ (by decide)
  have accepted : decodeWithMax data 32 = .ok (.indexComponent 7 "a", 12) :=
    @AlternateAccess.decodeWithMax_spelled _ _ spelled 32 (by decide) []
  obtain ⟨wire, bytes, rest, split, size, spelled', iff⟩ := accepted_access_faithful_iff data 32 _ _ accepted
  have whole : data = bytes := by
    have length : data.length = bytes.length := size.symm
    have nothing : rest = [] := by
      rw [split, length_append] at length
      exact length_eq_zero_iff.mp (by omega)
    rw [split, nothing, append_nil]
  rw [← whole] at spelled' iff
  refine ⟨accepted, iff.mpr ?_⟩
  rw [spells_unique spelled' spelled]
  have fits : ofBytes [7] < 2 ^ 32 := by decide
  exact ⟨by simp [Tight], fits, by simp [Plain]⟩

/-- An index that does not fit, octets that are passed over, and a name that is taken for two. -/
theorem accepted_accesses_misread : let wide : List UInt8 := [0x30, 0x07, 0x82, 0x05, 0x01, 0x00, 0x00, 0x00, 0x07]
    let slack : List UInt8 := [0x30, 0x0c, 0xa0, 0x0a, 0x81, 0x01, 0x07, 0x30, 0x05, 0x81, 0x01, 0x61, 0x05, 0x00]
    let separated : List UInt8 := [0x30, 0x0c, 0xa0, 0x0a, 0x81, 0x01, 0x07, 0x30, 0x05, 0x81, 0x03, 0x61, 0x24, 0x62]
    (decodeWithMax wide 32 = .ok (.index 7, 9) ∧ ¬ Faithful 32 wide (.index 7)) ∧
    (decodeWithMax slack 32 = .ok (.indexComponent 7 "a", 14) ∧
      ¬ Faithful 32 slack (.indexComponent 7 "a")) ∧
    decodeWithMax separated 32 = .ok (.indexComponent 7 "a$b", 14) ∧
      ¬ Faithful 32 separated (.indexComponent 7 "a$b") := by
  intro wide slack separated
  have wideSpelled : Spells (.index [1, 0, 0, 0, 7]) wide :=
    ⟨encodeTlv 0x82 [1, 0, 0, 0, 7], .index ⟨by decide, by decide⟩ (tlv_encodeTlv 0x82 (by decide)),
      tlv_encodeTlv 0x30 (by decide)⟩
  have slackSpelled : Spells (.indexThen [7] [⟨"a", [0x05, 0x00], []⟩]) slack :=
    spells_indexThen ⟨by decide, by decide⟩ ⟨by decide, by decide⟩ (by decide)
  have separatedSpelled : Spells (.indexThen [7] [⟨"a$b", [], []⟩]) separated :=
    spells_indexThen ⟨by decide, by decide⟩ ⟨by decide, by decide⟩ (by decide)
  refine ⟨⟨?_, ?_⟩, ⟨?_, ?_⟩, ?_, ?_⟩
  · exact @AlternateAccess.decodeWithMax_spelled _ _ wideSpelled 32 (by decide) []
  · intro faithful
    have fits : ofBytes [1, 0, 0, 0, 7] < 2 ^ 32 :=
      ((@faithful_read_iff _ _ 32 wideSpelled (by decide)).mp faithful).2.1
    exact absurd fits (by decide)
  · exact @AlternateAccess.decodeWithMax_spelled _ _ slackSpelled 32 (by decide) []
  · intro faithful
    have tight := ((@faithful_read_iff _ _ 32 slackSpelled (by decide)).mp faithful).1
    exact absurd (tight _ mem_cons_self).1 (by decide)
  · exact @AlternateAccess.decodeWithMax_spelled _ _ separatedSpelled 32 (by decide) []
  · intro faithful
    have plain := ((@faithful_read_iff _ _ 32 separatedSpelled (by decide)).mp faithful).2.2
    exact absurd (plain _ mem_cons_self) (by decide)

end Iec61850.Mms
