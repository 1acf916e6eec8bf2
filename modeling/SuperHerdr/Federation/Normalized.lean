import SuperHerdr.Library.Json
import SuperHerdr.Protocol.State

/-!
# A snapshot as a host reports it

A host answers with a JSON value in its own names, and `fromValue` makes of it a snapshot whose every
identifier is qualified by the target it came from. What is not of the form it should be is left out,
item by item; what an agent's session is identified by has to be there whole, short and printable.
-/

namespace JsonText

namespace Value

def asStr : Value → Option String
  | .string text => some text
  | _ => none

def asArray : Value → Option (List Value)
  | .array elements => some elements
  | _ => none

/-- A number of 64 bits without a sign, a fraction or an exponent. -/
def asU64 : Value → Option ℕ
  | .scalar chars =>
      if chars ≠ [] ∧ chars.all Char.isDigit then
        let value := chars.foldl (fun value digit => value * 10 + (digit.toNat - '0'.toNat)) 0
        if value < 2 ^ 64 then some value else none
      else none
  | _ => none

def asBool : Value → Option Bool
  | .scalar chars =>
      if chars = "true".toList then some true
      else if chars = "false".toList then some false
      else none
  | _ => none

def isNull : Value → Bool
  | .scalar chars => chars = "null".toList
  | _ => false

end Value

end JsonText

namespace SuperHerdr

open Std JsonText

def MAX_AGENT_SESSION_FIELD_BYTES : ℕ := 256

/-- The character between the parts of an agent key. -/
def keySeparator : Char := '\x1f'

section Reading

def arrayLen (value : Value) (key : String) : ℕ :=
  (((value.get key).bind Value.asArray).map List.length).getD 0

def collection (value : Value) (key : String) : List Value :=
  ((value.get key).bind Value.asArray).getD []

def optionalString (value : Value) (key : String) : Option String := (value.get key).bind Value.asStr

def optionalU64 (value : Value) (key : String) : Option ℕ := (value.get key).bind Value.asU64

def optionalBool (value : Value) (key : String) : Option Bool := (value.get key).bind Value.asBool

def qualified {kind : ResourceKind} (target : TargetSession) (resource : String) : QualifiedId kind :=
  ⟨target.target, target.session, resource⟩

def qualifiedId {kind : ResourceKind} (value : Value) (idKey : String) (target : TargetSession) :
    Option (QualifiedId kind) :=
  (optionalString value idKey).map (qualified target)

def qualifiedIds {kind : ResourceKind} (value : Value) (key idKey : String) (target : TargetSession) :
    ExtTreeSet (QualifiedId kind) :=
  ((collection value key).filterMap fun item => qualifiedId item idKey target).foldl
    (fun ids id => ids.insert id) ∅

/-- States by what they are named; the last of a name counts. -/
def collected {kind : ResourceKind} {α : Type} (states : List (QualifiedId kind × α)) :
    ExtTreeMap (QualifiedId kind) α :=
  states.foldl (fun collected entry => collected.insert entry.1 entry.2) ∅

def capabilityNames : Option Value → ExtTreeSet String
  | some (.array values) => (values.filterMap Value.asStr).foldl (fun names name => names.insert name) ∅
  | some (.object members) =>
      let offered := members.filter fun (name, _) =>
        ((Value.object members).get name).any fun value => value.asBool.getD !value.isNull
      offered.foldl (fun names (name, _) => names.insert name) ∅
  | _ => ∅

end Reading

/-! ### The parts of a snapshot -/

def workspaceStates (snapshot : Value) (target : TargetSession) :
    ExtTreeMap WorkspaceId WorkspaceState :=
  collected ((collection snapshot "workspaces").filterMap fun item => do
    let id ← qualifiedId item "workspace_id" target
    return (id,
      { id
        activeTab := qualifiedId item "active_tab_id" target
        label := optionalString item "label"
        number := optionalU64 item "number"
        focused := (optionalBool item "focused").getD false
        agentStatus := optionalString item "agent_status" }))

def tabStates (snapshot : Value) (target : TargetSession) : ExtTreeMap TabId TabState :=
  collected ((collection snapshot "tabs").filterMap fun item => do
    let id ← qualifiedId item "tab_id" target
    return (id,
      { id
        workspace := qualifiedId item "workspace_id" target
        label := optionalString item "label"
        number := optionalU64 item "number"
        focused := (optionalBool item "focused").getD false
        agentStatus := optionalString item "agent_status" }))

def paneStates (snapshot : Value) (target : TargetSession) : ExtTreeMap PaneId PaneState :=
  collected ((collection snapshot "panes").filterMap fun item => do
    let id ← qualifiedId item "pane_id" target
    return (id,
      { id
        workspace := qualifiedId item "workspace_id" target
        tab := qualifiedId item "tab_id" target
        terminal := qualifiedId item "terminal_id" target
        label := optionalString item "label"
        focused := (optionalBool item "focused").getD false
        agent := optionalString item "agent"
        agentStatus := optionalString item "agent_status"
        revision := optionalU64 item "revision" }))

/-- A number of 16 bits. -/
def optionalU16 (value : Value) (key : String) : Option UInt16 :=
  (optionalU64 value key).bind fun number =>
    if number < 2 ^ 16 then some (UInt16.ofNat number) else none

def layoutRect (value : Value) : Option LayoutRect := do
  return ⟨← optionalU16 value "x", ← optionalU16 value "y", ← optionalU16 value "width",
    ← optionalU16 value "height"⟩

def layoutStates (snapshot : Value) (target : TargetSession) : ExtTreeMap TabId LayoutState :=
  collected ((collection snapshot "layouts").filterMap fun item => do
    let workspace ← qualifiedId item "workspace_id" target
    let tab ← qualifiedId item "tab_id" target
    let focusedPane ← qualifiedId item "focused_pane_id" target
    let area ← (item.get "area").bind layoutRect
    let panes : List LayoutPane := (collection item "panes").filterMap fun pane => do
      return (⟨← qualifiedId pane "pane_id" target, (optionalBool pane "focused").getD false,
        ← (pane.get "rect").bind layoutRect⟩ : LayoutPane)
    return (tab,
      { workspace, tab, zoomed := (optionalBool item "zoomed").getD false, area, focusedPane, panes }))

/-- What may be a part of an identity: short, printable and free of the separator. -/
def boundedIdentity (value : String) : Option String :=
  if value ≠ "" ∧ value.utf8ByteSize ≤ MAX_AGENT_SESSION_FIELD_BYTES ∧
      keySeparator ∉ value.toList ∧ ¬value.toList.any isControl then some value
  else none

/-- An agent session that is described whole. -/
def agentSession (value : Option Value) : Option AgentSessionRef := do
  let value ← value
  return {
    source := ← (optionalString value "source").bind boundedIdentity
    agent := ← (optionalString value "agent").bind boundedIdentity
    kind := ← (optionalString value "kind").bind boundedIdentity
    value := ← (optionalString value "value").bind boundedIdentity }

def agentStates (snapshot : Value) (target : TargetSession) : ExtTreeMap PaneId AgentState :=
  collected ((collection snapshot "agents").filterMap fun item => do
    let pane ← qualifiedId item "pane_id" target
    return (pane,
      { pane
        name := optionalString item "name"
        agent := optionalString item "agent"
        status := optionalString item "agent_status"
        interactiveReady := optionalBool item "interactive_ready"
        revision := optionalU64 item "revision"
        session := agentSession (item.get "agent_session") }))

/-- The snapshot of a target, of what its host reports. -/
def NormalizedSnapshot.fromValue (target : TargetSession) (snapshot : Value) : NormalizedSnapshot where
  serverVersion := optionalString snapshot "version"
  protocol := optionalU64 snapshot "protocol"
  revision := optionalU64 snapshot "revision"
  capabilities := capabilityNames (snapshot.get "capabilities")
  counts :=
    { workspaces := arrayLen snapshot "workspaces"
      tabs := arrayLen snapshot "tabs"
      panes := arrayLen snapshot "panes"
      agents := arrayLen snapshot "agents" }
  focusedWorkspace := qualifiedId snapshot "focused_workspace_id" target
  focusedTab := qualifiedId snapshot "focused_tab_id" target
  focusedPane := qualifiedId snapshot "focused_pane_id" target
  workspaces := workspaceStates snapshot target
  tabs := tabStates snapshot target
  panes := paneStates snapshot target
  layouts := layoutStates snapshot target
  agents := agentStates snapshot target
  terminals := qualifiedIds snapshot "panes" "terminal_id" target

end SuperHerdr
