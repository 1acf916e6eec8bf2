import SuperHerdr.Files.Listing
import SuperHerdr.Library.JsonWriter
import SuperHerdr.Library.KeyedMaps
import SuperHerdr.Naming.Aliases
import SuperHerdr.Protocol.Wire

/-!
# The file of local names

The daemon writes its names, favourites and slots to a file after every request that changed something,
and reads them when it starts. The file is replaced as a whole, so what is found is what was saved last.

What is read is bounded by `MAX_ALIASES_BYTES` and what is written is not: the text that is kept with a
name is as long as a client sent it. So the names of a store are loaded again if and only if they fit
(`saved_names_are_loaded_iff`), and one request is enough that they do not (`long_evidence_is_lost`).
The stores beside this one refuse to save what they would not load.
-/

namespace SuperHerdr

open Std Transducer JsonText

/-! ### How references are written -/

namespace ResourceRef

/-- The name of a kind. -/
def kind : ResourceRef → String
  | target _ => "target"
  | workspace _ => "workspace"
  | tab _ => "tab"
  | pane _ => "pane"
  | agent _ => "agent"

def members (self : ResourceRef) : List (String × Json) :=
  [("kind", .text self.kind), ("target", .text self.targetOf.target),
    ("session", .text self.targetOf.session)] ++
      match self with
      | target _ => []
      | _ => [("resource", .text self.resource)]

def json (self : ResourceRef) : Json := .record self.members

/-- A reference of a kind, from its other fields. -/
def ofTagged (kind : String) (content : Value) : Option ResourceRef :=
  if kind = "target" then
    (content.fields ["target", "session"] false).bind fun
      | [.string host, .string session] => some (.target ⟨host, session⟩)
      | _ => none
  else
    (content.fields ["target", "session", "resource"] false).bind fun
      | [.string host, .string session, .string resource] =>
          if kind = "workspace" then some (.workspace ⟨host, session, resource⟩)
          else if kind = "tab" then some (.tab ⟨host, session, resource⟩)
          else if kind = "pane" then some (.pane ⟨host, session, resource⟩)
          else if kind = "agent" then some (.agent ⟨host, session, resource⟩)
          else none
      | _ => none

/-- The kind stands among the fields, or in front of them. -/
def ofValue : Value → Option ResourceRef
  | .array (.string kind :: rest) => ofTagged kind (.array rest)
  | .object members =>
      match members.filter fun member => member.1 = "kind" with
      | [(_, .string kind)] => ofTagged kind (.object (members.filter fun member => member.1 ≠ "kind"))
      | _ => none
  | _ => none

/-- **A reference is read back** as it was written. -/
theorem ofValue_json (self : ResourceRef) : ofValue self.json.value = some self := by
  rw [json, value_record]
  cases self <;>
    simp [members, ofValue, kind, targetOf, resource, ofTagged, Value.fields, QualifiedId.targetSession]

end ResourceRef

namespace LocalAlias

def json (self : LocalAlias) : Json :=
  .record [("label", .text self.label), ("observed", .text self.observed)]

def ofValue (value : Value) : Option LocalAlias :=
  (value.fields ["label", "observed"] true).bind fun
    | [.string label, .string observed] => some ⟨label, observed⟩
    | _ => none

theorem ofValue_json (self : LocalAlias) : ofValue self.json.value = some self := by
  simp [json, ofValue, Value.fields]

end LocalAlias

/-- The message that asks for a change. -/
def LocalChange.message (request : ℕ) : LocalChange → Json
  | .name resource label observed =>
      .record ([("type", .text "local.name"), ("request", .number request), ("resource", resource.json)] ++
        (label.map fun label => ("label", .text label)).toList ++ [("observed", .text observed)])
  | .confirmName resource observed =>
      .record [("type", .text "local.confirm_name"), ("request", .number request),
        ("resource", resource.json), ("observed", .text observed)]
  | .favourite resource =>
      .record [("type", .text "local.favourite"), ("request", .number request),
        ("resource", resource.json)]
  | .slot number resource =>
      .record ([("type", .text "local.slot"), ("request", .number request),
        ("slot", .number number.toNat)] ++
          (resource.map fun resource => ("resource", resource.json)).toList)

/-- A change that one message can ask for. -/
def LocalChange.Sendable (change : LocalChange) : Prop :=
  ∃ request < 2 ^ 64, size (change.message request).chars < MAX_MESSAGE_BYTES

namespace Naming

/-! ### What is written -/

def ALIASES_VERSION : ℕ := 1
def MAX_ALIASES_BYTES : ℕ := 256 * 1024

structure PersistedAliases where
  version : ℕ
  names : List (ResourceRef × LocalAlias)
  favourites : List ResourceRef
  slots : List (UInt8 × ResourceRef)

namespace PersistedAliases

/-- `From<&Aliases>`. -/
def of (aliases : Aliases) : PersistedAliases :=
  ⟨ALIASES_VERSION, aliases.names.toList, aliases.favourites, aliases.slots.toList⟩

/-- `Aliases::try_from`. -/
def toAliases (self : PersistedAliases) : Except String Aliases :=
  if self.version ≠ ALIASES_VERSION then .error "persisted aliases have an unsupported version"
  else if MAX_ALIASES < self.names.length ∨ MAX_FAVOURITES < self.favourites.length then
    .error "persisted aliases hold more than the limits allow"
  else
    .ok { names := ExtTreeMap.ofList self.names
          favourites := self.favourites
          slots := ExtTreeMap.ofList (self.slots.filter fun (slot, _) => isJumpSlot slot) }

def nameJson : ResourceRef × LocalAlias → Json
  | (resource, held) => .list [resource.json, held.json]

def slotJson : UInt8 × ResourceRef → Json
  | (slot, resource) => .list [.number slot.toNat, resource.json]

def json (self : PersistedAliases) : Json :=
  .record [("version", .number self.version), ("names", .list (self.names.map nameJson)),
    ("favourites", .list (self.favourites.map ResourceRef.json)),
    ("slots", .list (self.slots.map slotJson))]

def nameOf : Value → Option (ResourceRef × LocalAlias)
  | .array [resource, held] => do return (← ResourceRef.ofValue resource, ← LocalAlias.ofValue held)
  | _ => none

def slotOf : Value → Option (UInt8 × ResourceRef)
  | .array [slot, resource] => do
      return (UInt8.ofNat (← slot.natural (2 ^ 8 - 1)), ← ResourceRef.ofValue resource)
  | _ => none

def ofValue (value : Value) : Option PersistedAliases :=
  (value.fields ["version", "names", "favourites", "slots"] true).bind fun
    | [version, .array names, .array favourites, .array slots] => do
        return ⟨← version.natural (2 ^ 32 - 1), ← names.mapM nameOf,
          ← favourites.mapM ResourceRef.ofValue, ← slots.mapM slotOf⟩
    | _ => none

theorem mapM_json {α : Type} {json : α → Json} {read : Value → Option α}
    (h : ∀ a, read (json a).value = some a) (as : List α) :
    ((as.map json).map Json.value).mapM read = some as := by
  induction as with
  | nil => rfl
  | cons a as ih =>
    rw [List.map_cons, List.map_cons, List.mapM_cons, h, ih]
    rfl

theorem nameOf_json (name : ResourceRef × LocalAlias) : nameOf (nameJson name).value = some name := by
  obtain ⟨resource, held⟩ := name
  simp [nameJson, nameOf, ResourceRef.ofValue_json, LocalAlias.ofValue_json]

theorem slotOf_json (slot : UInt8 × ResourceRef) : slotOf (slotJson slot).value = some slot := by
  obtain ⟨slot, resource⟩ := slot
  have hslot : slot.toNat ≤ 2 ^ 8 - 1 := Nat.le_sub_one_of_lt slot.toNat_lt
  rw [slotJson, value_list]
  show (do return (UInt8.ofNat (← (Json.number slot.toNat).value.natural (2 ^ 8 - 1)),
    ← ResourceRef.ofValue resource.json.value)) = _
  rw [natural_number hslot, ResourceRef.ofValue_json]
  simp

/-- **What was written is read back**, if its version is one. -/
theorem ofValue_json (self : PersistedAliases) (hversion : self.version ≤ 2 ^ 32 - 1) :
    ofValue self.json.value = some self := by
  have hfields : self.json.value.fields ["version", "names", "favourites", "slots"] true =
      some [(Json.number self.version).value, .array ((self.names.map nameJson).map Json.value),
        .array ((self.favourites.map ResourceRef.json).map Json.value),
        .array ((self.slots.map slotJson).map Json.value)] := by
    rw [json, value_record, ← value_list, ← value_list, ← value_list]
    exact fields_object [("version", _), ("names", _), ("favourites", _), ("slots", _)]
      (by simp) true
  rw [ofValue, hfields, Option.bind_some]
  simp only [natural_number hversion, mapM_json nameOf_json, mapM_json ResourceRef.ofValue_json,
    mapM_json slotOf_json]
  rfl

end PersistedAliases

variable {aliases : Aliases}

/-- **What was made of well-formed names is made into them again.** -/
theorem toAliases_of (h : WellFormed aliases) :
    (PersistedAliases.of aliases).toAliases = .ok aliases := by
  have hslots : (aliases.slots.toList.filter fun (slot, _) => isJumpSlot slot) =
      aliases.slots.toList := by
    refine List.filter_eq_self.mpr fun (slot, resource) hmem => ?_
    exact h.digits slot resource (ExtTreeMap.mem_toList_iff_getElem?_eq_some.mp hmem)
  have hbounds : ¬(MAX_ALIASES < aliases.names.toList.length ∨
      MAX_FAVOURITES < aliases.favourites.length) := by
    rw [ExtTreeMap.length_toList, not_or]
    exact ⟨Nat.not_lt.mpr h.names, Nat.not_lt.mpr h.favourites⟩
  rw [PersistedAliases.toAliases, PersistedAliases.of, if_neg fun h => h rfl, if_neg hbounds]
  simp only [hslots, KeyedMap.ofList_toList]

/-! ### The file -/

inductive SaveStep
  | parent
  | createDirectory
  | secureDirectory
  | createTemporary
  | secureTemporary
  | encode
  | finish
  | synchronize
  | replace
deriving DecidableEq

/-- What is said when a step fails. -/
def SaveStep.context : SaveStep → String
  | parent => "the aliases path has no parent directory"
  | createDirectory => "failed to create the aliases directory"
  | secureDirectory => "failed to secure the attention state directory"
  | createTemporary => "failed to create a temporary aliases file"
  | secureTemporary => "failed to secure the attention state file"
  | encode => "failed to encode aliases"
  | finish => "failed to finish aliases"
  | synchronize => "failed to synchronize aliases"
  | replace => "failed to atomically replace aliases"

/-- What a file of names is: one line. -/
def stored (aliases : Aliases) : List UInt8 := utf8 (PersistedAliases.of aliases).json.line.text

/-- `AliasStore::save`: the file afterwards, and the result. The file is replaced by the last step. -/
def save (failure : Option SaveStep) (file : Option (List UInt8)) (aliases : Aliases) :
    Option (List UInt8) × Except String Unit :=
  match failure with
  | some step => (file, .error step.context)
  | none => (some (stored aliases), .ok ())

inductive LoadStep
  | inspect
  | read
deriving DecidableEq

/-- `AliasStore::load`. -/
def load (failure : Option LoadStep) (file : Option (List UInt8)) : Except String Aliases :=
  if failure = some .inspect then .error "failed to inspect aliases"
  else
    match file with
    | none => .ok .default
    | some bytes =>
        if MAX_ALIASES_BYTES < bytes.length then .error "persisted aliases exceed the size limit"
        else if failure = some .read then .error "failed to read aliases"
        else
          match (fromUtf8 bytes).bind fun text =>
              (readDocument text.toList).bind PersistedAliases.ofValue with
          | none => .error "persisted aliases are invalid"
          | some persisted => persisted.toAliases

/-- What a save says it saved is loaded by the next start. -/
def Reloads (aliases : Aliases) : Prop :=
  ∀ failure file, (save failure file aliases).2 = .ok () →
    load none (save failure file aliases).1 = .ok aliases

/-! ### How long the file is -/

/-- How many bytes a reference is written with. -/
def referenceSize (resource : ResourceRef) : ℕ :=
  32 + resource.kind.length + literalSize resource.targetOf.target +
    literalSize resource.targetOf.session +
      match resource with
      | .target _ => 0
      | _ => 12 + literalSize resource.resource

def nameSize (name : ResourceRef × LocalAlias) : ℕ :=
  25 + referenceSize name.1 + literalSize name.2.label + literalSize name.2.observed

def slotSize (slot : UInt8 × ResourceRef) : ℕ := 4 + referenceSize slot.2

/-- Parts with a comma between two of them. -/
def listSize (sizes : List ℕ) : ℕ := sizes.sum + (sizes.length - 1)

/-- How many bytes names, favourites and slots are written with. -/
def storedSize (aliases : Aliases) : ℕ :=
  52 + listSize (aliases.names.toList.map nameSize) +
    listSize (aliases.favourites.map referenceSize) + listSize (aliases.slots.toList.map slotSize)

theorem literalSize_ascii {text : String} (h : ∀ c ∈ text.toList, writtenSize c = 1) :
    literalSize text = 2 + text.length := by
  rw [literalSize, List.map_congr_left h, List.map_const', List.sum_replicate, smul_eq_mul, mul_one,
    String.length_toList]

theorem size_resource (resource : ResourceRef) : size resource.json.chars = referenceSize resource := by
  have hkind : literalSize resource.kind = 2 + resource.kind.length := by
    have hall : ∀ kind ∈ ["target", "workspace", "tab", "pane", "agent"],
        literalSize kind = 2 + kind.length := by
      decide
    cases resource <;> exact hall _ (by simp [ResourceRef.kind])
  have hkeys : literalSize "kind" = 6 ∧ literalSize "target" = 8 ∧ literalSize "session" = 9 ∧
      literalSize "resource" = 10 := by
    decide
  rw [ResourceRef.json, size_record]
  cases resource <;>
    · simp only [ResourceRef.members, List.map_append, List.map_cons, List.map_nil, List.sum_append,
        List.sum_cons, List.sum_nil, List.length_append, List.length_cons, List.length_nil,
        Json.text, Json.chars, size_quoted, hkind, hkeys, referenceSize]
      omega

theorem size_name (name : ResourceRef × LocalAlias) :
    size (PersistedAliases.nameJson name).chars = nameSize name := by
  obtain ⟨resource, held⟩ := name
  have hkeys : literalSize "label" = 7 ∧ literalSize "observed" = 10 := by decide
  rw [PersistedAliases.nameJson, size_list]
  simp only [List.map_cons, List.map_nil, List.sum_cons, List.sum_nil, List.length_cons,
    List.length_nil, size_resource, LocalAlias.json, size_record, Json.text, Json.chars, size_quoted,
    hkeys, nameSize]
  omega

theorem size_slot (slot : UInt8 × ResourceRef) (h : isJumpSlot slot.1 = true) :
    size (PersistedAliases.slotJson slot).chars = slotSize slot := by
  obtain ⟨slot, resource⟩ := slot
  have hdigit : slot.toNat < 10 := by
    simp only [isJumpSlot, Bool.and_eq_true, decide_eq_true_eq, UInt8.le_iff_toNat_le] at h
    exact Nat.lt_succ_of_le h.2
  have hone := size_digitChar (hdigit.trans (by decide))
  rw [PersistedAliases.slotJson, size_list]
  simp only [List.map_cons, List.map_nil, List.sum_cons, List.sum_nil, List.length_cons,
    List.length_nil, size_resource, Json.number, Json.chars, Nat.toDigits_of_lt_base hdigit, size_cons,
    size_nil, hone, slotSize]
  omega

theorem size_listOf {α : Type} {json : α → Json} {sizeOf : α → ℕ} {as : List α}
    (h : ∀ a ∈ as, size (json a).chars = sizeOf a) :
    size (Json.list (as.map json)).chars = 2 + listSize (as.map sizeOf) := by
  have hsizes : (as.map json).map (fun json => size json.chars) = as.map sizeOf := by
    rw [List.map_map]
    exact List.map_congr_left h
  rw [size_list, hsizes, List.length_map, listSize, List.length_map]

/-- **The file is as long as its parts.** -/
theorem length_stored (h : WellFormed aliases) : (stored aliases).length = storedSize aliases := by
  have hkeys : literalSize "version" = 9 ∧ literalSize "names" = 7 ∧ literalSize "favourites" = 12 ∧
      literalSize "slots" = 7 := by
    decide
  have hversion : size (Json.number ALIASES_VERSION).chars = 1 := by
    simp [Json.number, Json.chars, ALIASES_VERSION]
    rfl
  have hnames := size_listOf fun name (_ : name ∈ aliases.names.toList) => size_name name
  have hfavourites :=
    size_listOf fun resource (_ : resource ∈ aliases.favourites) => size_resource resource
  have hslots : size (Json.list (aliases.slots.toList.map PersistedAliases.slotJson)).chars =
      2 + listSize (aliases.slots.toList.map slotSize) :=
    size_listOf fun slot hmem =>
      size_slot slot (h.digits slot.1 slot.2 (ExtTreeMap.mem_toList_iff_getElem?_eq_some.mp hmem))
  have hbytes : (stored aliases).length = size (PersistedAliases.of aliases).json.line.text.toList := by
    rw [stored, utf8, ← Utf8.encode_toList, size]
  rw [hbytes, size_line, PersistedAliases.json, size_record, storedSize]
  simp only [PersistedAliases.of, List.map_cons, List.map_nil, List.sum_cons, List.sum_nil,
    List.length_cons, List.length_nil, hkeys, hversion, hnames, hfavourites, hslots]
  omega

/-! ### What is saved is loaded -/

/-- **What is loaded of a file that was saved**: the names, or nothing if the file is too long. -/
theorem load_stored (h : WellFormed aliases) : load none (some (stored aliases)) =
      if MAX_ALIASES_BYTES < storedSize aliases then
        .error "persisted aliases exceed the size limit"
      else .ok aliases := by
  have hread : ((fromUtf8 (stored aliases)).bind fun text =>
      (readDocument text.toList).bind PersistedAliases.ofValue) = some (.of aliases) := by
    have hversion : (PersistedAliases.of aliases).version ≤ 2 ^ 32 - 1 := by
      simp [PersistedAliases.of, ALIASES_VERSION]
    rw [stored, fromUtf8_eq_some_iff.mpr rfl, Option.bind_some, readDocument_text, Option.bind_some]
    exact PersistedAliases.ofValue_json _ hversion
  rw [load, if_neg (by simp)]
  simp only [length_stored h, hread, toAliases_of h]
  rw [if_neg (by simp : ¬(none = some LoadStep.read))]

theorem reloads_iff (h : WellFormed aliases) :
    Reloads aliases ↔ storedSize aliases ≤ MAX_ALIASES_BYTES := by
  constructor
  · intro hreloads
    by_contra hlong
    have hload := hreloads none none rfl
    rw [show (save none none aliases).1 = some (stored aliases) from rfl, load_stored h,
      if_pos (Nat.lt_of_not_le hlong)] at hload
    cases hload
  · intro hfits failure file hsave
    cases failure with
    | some step => cases hsave
    | none =>
      rw [show (save none file aliases).1 = some (stored aliases) from rfl, load_stored h,
        if_neg (Nat.not_lt.mpr hfits)]

/-- **What a store saves it loads again** if and only if it is no more than may be loaded: so of all the
names, favourites and slots that any sequence of edits leads to. -/
theorem saved_names_are_loaded_iff (edits : List Edit) :
    AllStates step (fun aliases => Reloads aliases ↔ storedSize aliases ≤ MAX_ALIASES_BYTES)
      Aliases.default edits :=
  (allStates_wellFormed edits).imp fun _ => reloads_iff

/-! ### Evidence that is too long -/

/-- Somebody names a workspace that their host calls something. -/
def namedBuild (observed : String) : LocalChange :=
  .name (.workspace ⟨"local", "default", "w1"⟩) (some "build") observed

theorem sendable_namedBuild {observed : String} (h : literalSize observed + 1024 ≤ MAX_MESSAGE_BYTES) :
    (namedBuild observed).Sendable := by
  refine ⟨0, by decide, Nat.lt_of_lt_of_le ?_ h⟩
  have hkeys : literalSize "type" = 6 ∧ literalSize "local.name" = 12 ∧ literalSize "request" = 9 ∧
      literalSize "resource" = 10 ∧ literalSize "label" = 7 ∧ literalSize "build" = 7 ∧
        literalSize "observed" = 10 := by
    decide
  have hzero : size (Json.number 0).chars = 1 := by
    simp [Json.number, Json.chars]
    rfl
  have hresource : referenceSize (.workspace ⟨"local", "default", "w1"⟩) < 100 := by decide
  rw [namedBuild, LocalChange.message, size_record]
  simp only [Option.map_some, Option.toList_some, List.cons_append, List.nil_append, List.map_cons,
    List.map_nil, List.sum_cons, List.sum_nil, List.length_cons, List.length_nil, Json.text, Json.chars,
    size_quoted, size_resource, hkeys, hzero]
  omega

/-- Where the host's name is too long, the names it led to are not loaded again. -/
theorem not_reloads_namedBuild (observed : String) (h : MAX_ALIASES_BYTES < literalSize observed) :
    ¬AllStates step Reloads Aliases.default ([namedBuild observed].map Edit.ofChange) := by
  intro hreloads
  have hwell := (allStates_wellFormed ([namedBuild observed].map Edit.ofChange)).last
  have hfits := (reloads_iff hwell).mp hreloads.last
  have htrim : Texts.trim "build".toList = "build".toList := by decide
  have hlabel : ¬("build".toList = [] ∨ MAX_ALIAS_CHARACTERS < "build".toList.length) := by decide
  have hplain : ¬("build".toList.any isControl = true) := by decide
  have hroom : ¬(MAX_ALIASES ≤ Aliases.default.names.size ∧
      .workspace ⟨"local", "default", "w1"⟩ ∉ Aliases.default.names) := by
    simp [Aliases.default, MAX_ALIASES]
  have hset : (exec step Aliases.default ([namedBuild observed].map Edit.ofChange)).1 =
      ⟨Aliases.default.names.insert (.workspace ⟨"local", "default", "w1"⟩) ⟨"build", observed⟩,
        [], ∅⟩ := by
    rw [List.map_singleton, exec_singleton, namedBuild, Edit.ofChange, step, Edit.apply, Aliases.set,
      htrim, if_neg hlabel, if_neg hplain, if_neg hroom, String.ofList_toList]
    rfl
  have hmem : (ResourceRef.workspace ⟨"local", "default", "w1"⟩, LocalAlias.mk "build" observed) ∈
      (Aliases.default.names.insert (.workspace ⟨"local", "default", "w1"⟩)
        ⟨"build", observed⟩).toList :=
    ExtTreeMap.mem_toList_iff_getElem?_eq_some.mpr ExtTreeMap.getElem?_insert_self
  have hsize := List.le_sum_of_mem (List.mem_map_of_mem (f := nameSize) hmem)
  rw [hset, storedSize, listSize] at hfits
  rw [nameSize] at hsize
  dsimp only at hfits hsize
  omega

/-- One request that one message holds, and the names it led to are saved and not loaded. -/
theorem long_evidence_is_lost : ¬∀ changes : List LocalChange, (∀ change ∈ changes, change.Sendable) →
    AllStates step Reloads Aliases.default (changes.map Edit.ofChange) := by
  have hlength : ∀ n, literalSize (String.ofList (List.replicate n 'x')) = 2 + n := by
    intro n
    rw [literalSize_ascii, String.length_ofList, List.length_replicate]
    intro c hc
    rw [String.toList_ofList] at hc
    rw [List.eq_of_mem_replicate hc]
    rfl
  intro h
  refine not_reloads_namedBuild (String.ofList (List.replicate MAX_ALIASES_BYTES 'x')) ?_ ?_
  · rw [hlength]
    omega
  · refine h _ fun change hchange => ?_
    rw [List.mem_singleton.mp hchange]
    refine sendable_namedBuild ?_
    rw [hlength, MAX_ALIASES_BYTES, MAX_MESSAGE_BYTES]
    omega

end Naming

end SuperHerdr
