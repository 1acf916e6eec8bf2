import SuperHerdr.Federation.Supervisor
import SuperHerdr.Library.Dialogue
import SuperHerdr.Library.Values

/-!
# The context of a plugin's action

An action is invoked from a session, a workspace, a tab or a pane, and Herdr is told all three of
workspace, tab and pane: what it is not told it takes from what happens to have its focus. What the target
does not say is asked for, one question after another. Where the target is a workspace, its active tab is
taken; a workspace without one still has its pane asked for, and the context has no tab then
(`plugin_context_is_complete_iff`).
-/

namespace SuperHerdr

namespace Plugins

open Dialogue JsonData

/-! ### Asking Herdr -/

/-- The members of an object. -/
abbrev Object : Type := List (String × Value)

/-- What Herdr is asked while a context is built. -/
inductive Call
  | paneGet (paneId : String)
  | paneCurrent
  | tabGet (tabId : String)
  | workspaceGet (workspaceId : String)
  | paneList (workspaceId : String)
deriving DecidableEq

/-- A request: its method and its parameters. -/
abbrev Request : Type := String × Value

def Call.request : Call → Request
  | paneGet paneId => ("pane.get", .object [("pane_id", .string paneId)])
  | paneCurrent => ("pane.current", .object [])
  | tabGet tabId => ("tab.get", .object [("tab_id", .string tabId)])
  | workspaceGet workspaceId => ("workspace.get", .object [("workspace_id", .string workspaceId)])
  | paneList workspaceId => ("pane.list", .object [("workspace_id", .string workspaceId)])

/-- What asks Herdr and may fail. -/
abbrev Api : Type → Type := Talk Request (Except SnapshotError Value) SnapshotError

def unavailable {α : Type} (message : String) : Except SnapshotError α := .error ⟨.unavailable, message⟩

def stringRef (value : Option Object) (field : String) : Option String :=
  (value.bind (Value.member field)).bind Value.asStr

def responseObject (value : Value) (expectedType field : String) : Except SnapshotError Object :=
  if (value.get "type").bind Value.asStr ≠ some expectedType then
    unavailable s!"Herdr returned an unexpected {expectedType} response"
  else
    match (value.get field).bind Value.asObject with
    | some object => .ok object
    | none => unavailable s!"Herdr returned invalid {expectedType} data"

def ensureRequested (kind : String) (requested returned : Option String) : Except SnapshotError Unit :=
  if requested.any fun requested => returned ≠ some requested then
    unavailable s!"Herdr returned a different {kind} while building plugin context"
  else .ok ()

def insertOptional (context : Object) (field : String) : Option String → Object
  | some value => Value.insert field (.string value) context
  | none => context

/-- What a request describes. -/
def described (call : Call) (expectedType field : String) : Api Object := do
  let value ← Talk.request call.request
  .done (responseObject value expectedType field)

/-! ### The parts of a context -/

/-- The pane a target says, or the one a session has its focus on. -/
def invokedPane : PluginInvocationTarget → Api (Option Object)
  | .pane pane => some <$> described (.paneGet pane.resource) "pane_info" "pane"
  | .session _ => some <$> described .paneCurrent "pane_current" "pane"
  | _ => pure none

def describedTab : Option String → Api (Option Object)
  | some tabId => some <$> described (.tabGet tabId) "tab_info" "tab"
  | none => pure none

def describedWorkspace : Option String → Api (Option Object)
  | some workspaceId => some <$> described (.workspaceGet workspaceId) "workspace_info" "workspace"
  | none => pure none

/-- The tab that is known, or else the active one of the workspace. -/
def orActiveTab (tabId : Option String) (tab workspace : Option Object) :
    Api (Option String × Option Object) :=
  if tabId.isNone then do
    let tabId := stringRef workspace "active_tab_id"
    let tab ← match tabId with
      | some activeTabId => describedTab (some activeTabId)
      | none => pure tab
    return (tabId, tab)
  else pure (tabId, tab)

/-- Of the panes that are listed, those of the tab: the focused one, or else the first. -/
def chosenPane (panes : List Value) (tabId : Option String) : Option Object :=
  let ofTab := fun candidate : Value =>
    tabId.all fun tabId => (candidate.get "tab_id").bind Value.asStr = some tabId
  (((panes.filter ofTab).find? fun candidate =>
    ((candidate.get "focused").bind Value.asBool).getD false).or (panes.find? ofTab)).bind Value.asObject

/-- The pane that is known, or else one that the workspace lists. -/
def orListedPane (pane : Option Object) (workspaceId tabId : Option String) : Api (Option Object) :=
  match pane, workspaceId with
  | none, some workspaceId => do
      let listed ← Talk.request (Call.paneList workspaceId).request
      if (listed.get "type").bind Value.asStr ≠ some "pane_list" then
        .done (unavailable "Herdr returned an unexpected pane list while building plugin context")
      else
        return ((listed.get "panes").bind Value.asArray).bind fun panes => chosenPane panes tabId
  | pane, _ => pure pane

/-- What Herdr is told. -/
def contextOf (pane tab workspace : Option Object) (tabId workspaceId : Option String) : Value :=
  let paneCwd := (stringRef pane "foreground_cwd").or (stringRef pane "cwd")
  let worktree := (workspace.bind (Value.member "worktree")).filter fun worktree => !worktree.isNull
  let workspaceCwd := ((worktree.bind (·.get "checkout_path")).bind Value.asStr).or paneCwd
  let status := (pane.bind (Value.member "agent_status")).filter fun status => !status.isNull
  let context := insertOptional [] "workspace_id" workspaceId
  let context := insertOptional context "workspace_label" (stringRef workspace "label")
  let context := insertOptional context "workspace_cwd" workspaceCwd
  let context := match worktree with
    | some worktree => Value.insert "worktree" worktree context
    | none => context
  let context := insertOptional context "tab_id" tabId
  let context := insertOptional context "tab_label" (stringRef tab "label")
  let context := insertOptional context "focused_pane_id" (stringRef pane "pane_id")
  let context := insertOptional context "focused_pane_cwd" paneCwd
  let context := insertOptional context "focused_pane_agent"
    ((stringRef pane "display_agent").or (stringRef pane "agent"))
  let context := match status with
    | some status => Value.insert "focused_pane_status" status context
    | none => context
  let context := Value.insert "invocation_source" (.string "super-herdr") context
  let context := Value.insert "selected_text" (.string "") context
  let context := Value.insert "clicked_url" (.string "") context
  let context := Value.insert "link_handler_id" (.string "") context
  .object context

/-- What comes last: the checks, and that there is a pane. -/
def finished (requestedPane tabId workspaceId : Option String) (pane tab workspace : Option Object) :
    Api Value := do
  Talk.done (ensureRequested "pane" requestedPane (stringRef pane "pane_id"))
  Talk.done (ensureRequested "tab" tabId (stringRef tab "tab_id"))
  Talk.done (ensureRequested "workspace" workspaceId (stringRef workspace "workspace_id"))
  if workspaceId.isSome && pane.isNone then
    .done (unavailable "Herdr returned no pane in the selected plugin context")
  else return contextOf pane tab workspace tabId workspaceId

def hydratedContext (target : PluginInvocationTarget) : Api Value := do
  let requestedPane := match target with
    | .pane pane => some pane.resource
    | _ => none
  let requestedTab := match target with
    | .tab tab => some tab.resource
    | _ => none
  let requestedWorkspace := match target with
    | .workspace workspace => some workspace.resource
    | _ => none
  let pane ← invokedPane target
  let tabId := requestedTab.or (stringRef pane "tab_id")
  let workspaceId := requestedWorkspace.or (stringRef pane "workspace_id")
  let tab ← describedTab tabId
  let workspaceId := workspaceId.or (stringRef tab "workspace_id")
  let workspace ← describedWorkspace workspaceId
  let (tabId, tab) ← orActiveTab tabId tab workspace
  let pane ← orListedPane pane workspaceId tabId
  finished requestedPane tabId workspaceId pane tab workspace

/-! ### What Herdr holds -/

/-- The panes, tabs and workspaces of a session as Herdr describes them: each pane is in a tab and the
tab's workspace, and each tab in a workspace. -/
structure Herdr where
  panes : List Object
  tabs : List Object
  workspaces : List Object
  pane_named : ∀ pane ∈ panes, ∃ id, stringRef (some pane) "pane_id" = some id
  pane_in_tab : ∀ pane ∈ panes, ∃ tab ∈ tabs, ∃ id, stringRef (some tab) "tab_id" = some id ∧
    stringRef (some pane) "tab_id" = some id ∧
    stringRef (some pane) "workspace_id" = stringRef (some tab) "workspace_id"
  tab_in_workspace : ∀ tab ∈ tabs, ∃ workspace ∈ workspaces, ∃ id,
    stringRef (some workspace) "workspace_id" = some id ∧ stringRef (some tab) "workspace_id" = some id

namespace Herdr

/-- What a request is about, for those that are about one thing. -/
def Holds (herdr : Herdr) : Call → Object → Prop
  | .paneGet paneId, pane => pane ∈ herdr.panes ∧ stringRef (some pane) "pane_id" = some paneId
  | .paneCurrent, pane => pane ∈ herdr.panes
  | .tabGet tabId, tab => tab ∈ herdr.tabs ∧ stringRef (some tab) "tab_id" = some tabId
  | .workspaceGet workspaceId, workspace =>
      workspace ∈ herdr.workspaces ∧ stringRef (some workspace) "workspace_id" = some workspaceId
  | .paneList _, _ => False

/-- The panes of a workspace. -/
def panesOf (herdr : Herdr) (workspaceId : String) : List Object :=
  herdr.panes.filter fun pane => stringRef (some pane) "workspace_id" = some workspaceId

/-- An answer that describes what the request is about. -/
def Tells (herdr : Herdr) : Call → Value → Prop
  | .paneList workspaceId, value =>
      (value.get "type").bind Value.asStr = some "pane_list" ∧
        (value.get "panes").bind Value.asArray = some ((herdr.panesOf workspaceId).map .object)
  | .paneGet paneId, value =>
      ∃ pane, herdr.Holds (.paneGet paneId) pane ∧ responseObject value "pane_info" "pane" = .ok pane
  | .paneCurrent, value =>
      ∃ pane, herdr.Holds .paneCurrent pane ∧ responseObject value "pane_current" "pane" = .ok pane
  | .tabGet tabId, value =>
      ∃ tab, herdr.Holds (.tabGet tabId) tab ∧ responseObject value "tab_info" "tab" = .ok tab
  | .workspaceGet workspaceId, value =>
      ∃ workspace, herdr.Holds (.workspaceGet workspaceId) workspace ∧
        responseObject value "workspace_info" "workspace" = .ok workspace

/-- A truthful answer: what Herdr holds, or an error. -/
def Answers (herdr : Herdr) (request : Request) (answer : Except SnapshotError Value) : Prop :=
  ∀ call value, request = Call.request call → answer = .ok value → herdr.Tells call value

theorem request_injective : Function.Injective Call.request := by
  intro call other h
  cases call <;> cases other <;> simp_all [Call.request]

variable {herdr : Herdr}

theorem yields_request_iff {call : Call} {value : Value} :
    Talk.Yields herdr.Answers (Talk.request call.request) value ↔ herdr.Tells call value := by
  rw [Talk.yields_request_iff]
  constructor
  · intro h
    exact h call value rfl rfl
  · rintro h other held hcall hvalue
    rw [← request_injective hcall, ← Except.ok.inj hvalue]
    exact h

variable {expectedType field : String}

theorem yields_described_iff {call : Call} {object : Object} :
    Talk.Yields herdr.Answers (described call expectedType field) object ↔
      ∃ value, herdr.Tells call value ∧ responseObject value expectedType field = .ok object := by
  simp only [described, Talk.yields_bind_iff, yields_request_iff, Talk.yields_done_iff]

theorem responseObject_eq_ok (hfield : field ≠ "type") (object : Object) :
    responseObject (.object [("type", .string expectedType), (field, .object object)]) expectedType field =
      .ok object := by
  simp [responseObject, Value.get, Value.member, hfield, Value.asStr, Value.asObject]

/-- **A request for one thing can be answered with each that Herdr holds**, and with no other. -/
theorem yields_described_iff_holds {call : Call} {object : Object} (hfield : field ≠ "type")
    (htells : ∀ value, herdr.Tells call value ↔
      ∃ held, herdr.Holds call held ∧ responseObject value expectedType field = .ok held) :
    Talk.Yields herdr.Answers (described call expectedType field) object ↔ herdr.Holds call object := by
  simp only [yields_described_iff, htells]
  constructor
  · rintro ⟨value, ⟨held, hheld, hvalue⟩, hobject⟩
    rw [hvalue] at hobject
    rwa [← Except.ok.inj hobject]
  · intro h
    exact ⟨_, ⟨object, h, responseObject_eq_ok hfield object⟩, responseObject_eq_ok hfield object⟩

variable {found : Option Object}

theorem yields_some_described_iff {call : Call} (hfield : field ≠ "type")
    (htells : ∀ value, herdr.Tells call value ↔
      ∃ held, herdr.Holds call held ∧ responseObject value expectedType field = .ok held) :
    Talk.Yields herdr.Answers (some <$> described call expectedType field) found ↔
      ∃ held, herdr.Holds call held ∧ some held = found := by
  rw [Talk.yields_map_iff]
  exact exists_congr fun held => and_congr_left' (yields_described_iff_holds hfield htells)

theorem yields_describedTab_iff {tabId : String} :
    Talk.Yields herdr.Answers (describedTab (some tabId)) found ↔
      ∃ held, herdr.Holds (.tabGet tabId) held ∧ some held = found :=
  yields_some_described_iff (by decide) fun _ => Iff.rfl

theorem yields_describedWorkspace_iff {workspaceId : String} :
    Talk.Yields herdr.Answers (describedWorkspace (some workspaceId)) found ↔
      ∃ held, herdr.Holds (.workspaceGet workspaceId) held ∧ some held = found :=
  yields_some_described_iff (by decide) fun _ => Iff.rfl

theorem yields_invokedPane_iff {pane : PaneId} :
    Talk.Yields herdr.Answers (invokedPane (.pane pane)) found ↔
      ∃ held, herdr.Holds (.paneGet pane.resource) held ∧ some held = found :=
  yields_some_described_iff (by decide) fun _ => Iff.rfl

theorem yields_currentPane_iff {session : TargetSession} :
    Talk.Yields herdr.Answers (invokedPane (.session session)) found ↔
      ∃ held, herdr.Holds .paneCurrent held ∧ some held = found :=
  yields_some_described_iff (by decide) fun _ => Iff.rfl

theorem yields_orListedPane_iff {workspaceId : String} {tabId : Option String} {pane : Option Object} :
    Talk.Yields herdr.Answers (orListedPane none (some workspaceId) tabId) pane ↔
      chosenPane ((herdr.panesOf workspaceId).map .object) tabId = pane := by
  simp only [orListedPane, Talk.yields_bind_iff, yields_request_iff, Tells]
  constructor
  · rintro ⟨listed, ⟨htype, hpanes⟩, hyields⟩
    rw [if_neg (not_not.mpr htype), Talk.yields_pure_iff, hpanes] at hyields
    exact hyields
  · rintro rfl
    have hlisted : ∃ listed : Value, (listed.get "type").bind Value.asStr = some "pane_list" ∧
        (listed.get "panes").bind Value.asArray = some ((herdr.panesOf workspaceId).map .object) :=
      ⟨.object [("type", .string "pane_list"),
        ("panes", .array ((herdr.panesOf workspaceId).map .object))], rfl, rfl⟩
    obtain ⟨listed, htype, hpanes⟩ := hlisted
    refine ⟨listed, ⟨htype, hpanes⟩, ?_⟩
    rw [if_neg (not_not.mpr htype), Talk.yields_pure_iff, hpanes]
    rfl

/-- The pane that is chosen is one that was listed, in the tab if there is one. -/
theorem of_chosenPane {panes : List Object} {tabId : Option String} {pane : Object}
    (h : chosenPane (panes.map .object) tabId = some pane) :
    pane ∈ panes ∧ ∀ id ∈ tabId, stringRef (some pane) "tab_id" = some id := by
  obtain ⟨candidate, hcandidate, hpane⟩ := Option.bind_eq_some_iff.mp h
  have hfound : candidate ∈ panes.map .object ∧
      (tabId.all fun tabId => (candidate.get "tab_id").bind Value.asStr = some tabId) = true := by
    rcases Option.or_eq_some_iff.mp hcandidate with hfocused | ⟨-, hfirst⟩
    · exact List.mem_filter.mp (List.mem_of_find?_eq_some hfocused)
    · have hkept := List.find?_some hfirst
      exact ⟨List.mem_of_find?_eq_some hfirst, hkept⟩
  obtain ⟨held, hheld, rfl⟩ := List.mem_map.mp hfound.1
  obtain rfl := Option.some.inj hpane
  refine ⟨hheld, ?_⟩
  rintro id rfl
  have hid := hfound.2
  rw [Option.all_some, decide_eq_true_eq] at hid
  exact hid

theorem exists_chosenPane {panes : List Object} (h : panes ≠ []) :
    ∃ pane, chosenPane (panes.map .object) none = some pane := by
  obtain ⟨first, rest, rfl⟩ := List.exists_cons_of_ne_nil h
  rw [chosenPane]
  simp only [Option.all_none, List.filter_true]
  cases hfocused : ((first :: rest).map Value.object).find? fun candidate =>
      ((candidate.get "focused").bind Value.asBool).getD false with
  | none => exact ⟨first, rfl⟩
  | some candidate =>
    obtain ⟨pane, -, rfl⟩ := List.mem_map.mp (List.mem_of_find?_eq_some hfocused)
    exact ⟨pane, rfl⟩

/-! ### Contexts that say everything -/

/-- The context names a workspace, a tab and a pane, the pane is in the tab and the tab in the workspace,
and what the target names is the one. -/
def Complete (herdr : Herdr) (target : PluginInvocationTarget) (context : Value) : Prop :=
  ∃ workspaceId tabId paneId,
    (context.get "workspace_id" = some (.string workspaceId) ∧
      context.get "tab_id" = some (.string tabId) ∧
      context.get "focused_pane_id" = some (.string paneId)) ∧
    (∃ pane ∈ herdr.panes, stringRef (some pane) "pane_id" = some paneId ∧
      stringRef (some pane) "tab_id" = some tabId) ∧
    (∃ tab ∈ herdr.tabs, stringRef (some tab) "tab_id" = some tabId ∧
      stringRef (some tab) "workspace_id" = some workspaceId) ∧
    match target with
    | .session _ => True
    | .workspace workspace => workspace.resource = workspaceId
    | .tab tab => tab.resource = tabId
    | .pane pane => pane.resource = paneId

/-- The target is a workspace that has a pane but says no active tab. -/
def LacksTab (herdr : Herdr) : PluginInvocationTarget → Prop
  | .workspace id =>
      (∃ workspace ∈ herdr.workspaces, stringRef (some workspace) "workspace_id" = some id.resource ∧
        stringRef (some workspace) "active_tab_id" = none) ∧
      ∃ pane ∈ herdr.panes, stringRef (some pane) "workspace_id" = some id.resource
  | _ => False

theorem get_insertOptional (context : Object) (field name : String) (value : Option String) :
    (Value.object (insertOptional context field value)).get name =
      if name = field then (value.map Value.string).or ((Value.object context).get name)
      else (Value.object context).get name := by
  cases value with
  | none => simp [insertOptional]
  | some value =>
    rw [insertOptional, Value.get_object_insert]
    rfl

theorem get_contextOf (pane tab workspace : Option Object) (tabId workspaceId : Option String) :
    (contextOf pane tab workspace tabId workspaceId).get "workspace_id" = workspaceId.map .string ∧
      (contextOf pane tab workspace tabId workspaceId).get "tab_id" = tabId.map .string ∧
      (contextOf pane tab workspace tabId workspaceId).get "focused_pane_id" =
        (stringRef pane "pane_id").map .string := by
  simp only [contextOf]
  split <;> split <;> simp [Value.get_object_insert, get_insertOptional]

/-- A context of one pane, its tab and its workspace says everything, if they are those of the target. -/
theorem complete_contextOf {target : PluginInvocationTarget} {pane : Object}
    (tab workspace : Option Object)
    {tabId workspaceId : String} (hpane : pane ∈ herdr.panes)
    (htab : stringRef (some pane) "tab_id" = some tabId)
    (hworkspace : stringRef (some pane) "workspace_id" = some workspaceId)
    (htarget : match target with
      | .session _ => True
      | .workspace workspace => workspace.resource = workspaceId
      | .tab tab => tab.resource = tabId
      | .pane id => stringRef (some pane) "pane_id" = some id.resource) :
    herdr.Complete target (contextOf (some pane) tab workspace (some tabId) (some workspaceId)) := by
  obtain ⟨paneId, hid⟩ := herdr.pane_named pane hpane
  obtain ⟨held, hheld, heldId, hheldId, hpaneTab, hpaneWorkspace⟩ := herdr.pane_in_tab pane hpane
  obtain ⟨hworkspaceSlot, htabSlot, hpaneSlot⟩ :=
    get_contextOf (some pane) tab workspace (some tabId) (some workspaceId)
  rw [htab] at hpaneTab
  obtain rfl := Option.some.inj hpaneTab
  refine ⟨workspaceId, tabId, paneId, ⟨hworkspaceSlot, htabSlot, ?_⟩, ⟨pane, hpane, hid, htab⟩,
    ⟨held, hheld, hheldId, hpaneWorkspace.symm.trans hworkspace⟩, ?_⟩
  · rw [hpaneSlot, hid]
    rfl
  · cases target with
    | session session => trivial
    | workspace workspace => exact htarget
    | tab tab => exact htarget
    | pane id =>
      rw [hid] at htarget
      exact (Option.some.inj htarget).symm

theorem ensureRequested_eq_ok_iff {kind : String} {requested returned : Option String} {u : Unit} :
    ensureRequested kind requested returned = .ok u ↔
      ∀ id, requested = some id → returned = some id := by
  rw [ensureRequested]
  cases requested with
  | none => simp
  | some id =>
    by_cases h : returned = some id
    · simp [h]
    · simp [h, unavailable]

variable {context : Value}

theorem yields_finished_iff {requestedPane tabId workspaceId : Option String}
    {pane tab workspace : Option Object} :
    Talk.Yields herdr.Answers (finished requestedPane tabId workspaceId pane tab workspace) context ↔
      (∀ id, requestedPane = some id → stringRef pane "pane_id" = some id) ∧
      (∀ id, tabId = some id → stringRef tab "tab_id" = some id) ∧
      (∀ id, workspaceId = some id → stringRef workspace "workspace_id" = some id) ∧
      ¬(workspaceId.isSome ∧ pane = none) ∧ contextOf pane tab workspace tabId workspaceId = context := by
  simp only [finished, Talk.yields_bind_iff, Talk.yields_done_iff, ensureRequested_eq_ok_iff, exists_const]
  by_cases h : workspaceId.isSome && pane.isNone
  · rw [if_pos h]
    simp only [Bool.and_eq_true, Option.isNone_iff_eq_none] at h
    simp [Talk.yields_done_iff, unavailable, h]
  · rw [if_neg h]
    simp only [Bool.and_eq_true, Option.isNone_iff_eq_none] at h
    simp [Talk.yields_pure_iff, h]

/-! ### From each target -/

theorem exists_places (herdr : Herdr) {pane : Object} (h : pane ∈ herdr.panes) :
    ∃ tabId workspaceId, stringRef (some pane) "tab_id" = some tabId ∧
      stringRef (some pane) "workspace_id" = some workspaceId := by
  obtain ⟨tab, htab, tabId, -, htabId, hworkspace⟩ := herdr.pane_in_tab pane h
  obtain ⟨workspace, -, workspaceId, -, hid⟩ := herdr.tab_in_workspace tab htab
  exact ⟨tabId, workspaceId, htabId, hworkspace.trans hid⟩

theorem yields_orActiveTab_of_tab {tabId : String} {tab workspace : Option Object}
    {found : Option String × Option Object} :
    Talk.Yields herdr.Answers (orActiveTab (some tabId) tab workspace) found ↔ (some tabId, tab) = found :=
  Talk.yields_pure_iff _

theorem yields_orListedPane_of_pane {pane : Object} {workspaceId tabId : Option String} :
    Talk.Yields herdr.Answers (orListedPane (some pane) workspaceId tabId) found ↔ some pane = found :=
  Talk.yields_pure_iff _

theorem complete_of_session {session : TargetSession}
    (h : Talk.Yields herdr.Answers (hydratedContext (.session session)) context) :
    herdr.Complete (.session session) context := by
  simp only [hydratedContext, Talk.yields_bind_iff, yields_currentPane_iff, yields_finished_iff,
    Option.none_or] at h
  obtain ⟨_, ⟨pane, hpane, rfl⟩, tab, -, workspace, -, ⟨tabId, found⟩, hactive, listed, hlisted, -, -, -, -,
    rfl⟩ := h
  obtain ⟨tabId, workspaceId, htab, hworkspace⟩ := exists_places herdr hpane
  rw [htab, yields_orActiveTab_of_tab] at hactive
  obtain ⟨rfl, rfl⟩ := Prod.mk.inj hactive
  obtain rfl := yields_orListedPane_of_pane.mp hlisted
  rw [hworkspace, Option.some_or]
  exact complete_contextOf _ _ hpane htab hworkspace trivial

theorem complete_of_pane {id : PaneId}
    (h : Talk.Yields herdr.Answers (hydratedContext (.pane id)) context) :
    herdr.Complete (.pane id) context := by
  simp only [hydratedContext, Talk.yields_bind_iff, yields_invokedPane_iff, yields_finished_iff,
    Option.none_or] at h
  obtain ⟨_, ⟨pane, hpane, rfl⟩, tab, -, workspace, -, ⟨tabId, found⟩, hactive, listed, hlisted, -, -, -, -,
    rfl⟩ := h
  obtain ⟨tabId, workspaceId, htab, hworkspace⟩ := exists_places herdr hpane.1
  rw [htab, yields_orActiveTab_of_tab] at hactive
  obtain ⟨rfl, rfl⟩ := Prod.mk.inj hactive
  obtain rfl := yields_orListedPane_of_pane.mp hlisted
  rw [hworkspace, Option.some_or]
  exact complete_contextOf _ _ hpane.1 htab hworkspace hpane.2

theorem exists_listed {workspaceId tabId : String}
    (h : chosenPane ((herdr.panesOf workspaceId).map .object) (some tabId) = found)
    (hfound : found ≠ none) :
    ∃ pane ∈ herdr.panes, found = some pane ∧ stringRef (some pane) "tab_id" = some tabId ∧
      stringRef (some pane) "workspace_id" = some workspaceId := by
  obtain ⟨pane, rfl⟩ := Option.ne_none_iff_exists'.mp hfound
  obtain ⟨hmem, htab⟩ := of_chosenPane h
  obtain ⟨hpane, hworkspace⟩ := List.mem_filter.mp hmem
  exact ⟨pane, hpane, rfl, htab tabId rfl, of_decide_eq_true hworkspace⟩

theorem complete_of_tab {id : TabId}
    (h : Talk.Yields herdr.Answers (hydratedContext (.tab id)) context) :
    herdr.Complete (.tab id) context := by
  simp only [hydratedContext, Talk.yields_bind_iff, invokedPane, Talk.yields_pure_iff, yields_finished_iff,
    Option.none_or, Option.some_or, exists_eq_left', yields_describedTab_iff] at h
  obtain ⟨_, ⟨tab, htab, rfl⟩, workspace, -, found, hactive, pane, hlisted, -, -, -, hpane, rfl⟩ := h
  obtain ⟨held, -, workspaceId, -, hworkspace⟩ := herdr.tab_in_workspace tab htab.1
  obtain rfl := yields_orActiveTab_of_tab.mp hactive
  have hfield : (stringRef none "workspace_id").or (stringRef (some tab) "workspace_id") = some workspaceId :=
    hworkspace
  rw [hfield] at hlisted hpane ⊢
  obtain ⟨pane, hmem, rfl, hpaneTab, hpaneWorkspace⟩ :=
    exists_listed (yields_orListedPane_iff.mp hlisted) fun hnone => hpane ⟨rfl, hnone⟩
  exact complete_contextOf _ _ hmem hpaneTab hpaneWorkspace rfl

theorem yields_orActiveTab_of_none {tab : Option Object} {workspace : Object} {tabId : Option String} :
    Talk.Yields herdr.Answers (orActiveTab none tab (some workspace)) (tabId, found) →
      tabId = stringRef (some workspace) "active_tab_id" := by
  simp only [orActiveTab, Option.isNone_none, if_true]
  cases stringRef (some workspace) "active_tab_id" <;>
    · simp only [Talk.yields_bind_iff, Talk.yields_pure_iff]
      rintro ⟨_, _, heq⟩
      exact (Prod.mk.inj heq).1.symm

/-- From a workspace, the context is of its active tab, or of none if it says none. -/
theorem of_workspace {id : WorkspaceId}
    (h : Talk.Yields herdr.Answers (hydratedContext (.workspace id)) context) :
    herdr.Complete (.workspace id) context ∨ herdr.LacksTab (.workspace id) := by
  simp only [hydratedContext, Talk.yields_bind_iff, invokedPane, Talk.yields_pure_iff, yields_finished_iff,
    Option.none_or, Option.some_or, exists_eq_left', yields_describedWorkspace_iff] at h
  obtain ⟨tab, -, _, ⟨workspace, hworkspace, rfl⟩, ⟨tabId, found⟩, hactive, pane, hlisted, -, -, -, hpane,
    rfl⟩ := h
  obtain rfl := yields_orActiveTab_of_none hactive
  have hchosen := yields_orListedPane_iff.mp hlisted
  have hfound : pane ≠ none := fun hnone => hpane ⟨rfl, hnone⟩
  cases htab : stringRef (some workspace) "active_tab_id" with
  | some tabId =>
    simp only [htab] at hchosen ⊢
    obtain ⟨pane, hmem, rfl, hpaneTab, hpaneWorkspace⟩ := exists_listed hchosen hfound
    exact .inl (complete_contextOf _ _ hmem hpaneTab hpaneWorkspace rfl)
  | none =>
    obtain ⟨pane, rfl⟩ := Option.ne_none_iff_exists'.mp hfound
    obtain ⟨hpane, hid⟩ := List.mem_filter.mp (of_chosenPane hchosen).1
    exact .inr ⟨⟨workspace, hworkspace.1, hworkspace.2, htab⟩, pane, hpane, of_decide_eq_true hid⟩

/-- A workspace with a pane but no active tab has a context without a tab. -/
theorem exists_incomplete {target : PluginInvocationTarget} (h : herdr.LacksTab target) :
    ∃ context, Talk.Yields herdr.Answers (hydratedContext target) context ∧ context.get "tab_id" = none := by
  cases target with
  | workspace id =>
    obtain ⟨⟨workspace, hworkspace, hid, hactive⟩, pane, hpane, hpaneWorkspace⟩ := h
    have hlisted : herdr.panesOf id.resource ≠ [] :=
      List.ne_nil_of_mem (List.mem_filter.mpr ⟨hpane, decide_eq_true hpaneWorkspace⟩)
    obtain ⟨chosen, hchosen⟩ := exists_chosenPane hlisted
    refine ⟨contextOf (some chosen) none (some workspace) none (some id.resource), ?_,
      (get_contextOf _ _ _ _ _).2.1⟩
    simp only [hydratedContext, Talk.yields_bind_iff, invokedPane, Talk.yields_pure_iff,
      yields_finished_iff, Option.none_or, Option.some_or, exists_eq_left', yields_describedWorkspace_iff]
    refine ⟨none, (Talk.yields_pure_iff _).mpr rfl, some workspace, ⟨workspace, ⟨hworkspace, hid⟩, rfl⟩,
      (none, none), ?_, some chosen, yields_orListedPane_iff.mpr hchosen, ?_⟩
    · have hnone : stringRef none "tab_id" = none := rfl
      simp only [orActiveTab, hnone, Option.isNone_none, if_true, hactive, Talk.yields_bind_iff,
        Talk.yields_pure_iff, exists_eq_left']
    · refine ⟨?_, ?_, fun other h => hid.trans h, fun h => Option.some_ne_none chosen h.2, rfl⟩
      · rintro other ⟨⟩
      · rintro other ⟨⟩
  | session session => cases h
  | tab tab => cases h
  | pane pane => cases h

/-- **The context of an action says all three slots**, and they belong together and to the target, exactly
if the target is not a workspace that has a pane but says no active tab. -/
theorem plugin_context_is_complete_iff (herdr : Herdr) (target : PluginInvocationTarget) :
    (∀ context, Talk.Yields herdr.Answers (hydratedContext target) context →
      herdr.Complete target context) ↔ ¬herdr.LacksTab target := by
  constructor
  · intro hcomplete hlacks
    obtain ⟨context, hyields, hnone⟩ := exists_incomplete hlacks
    obtain ⟨-, tabId, -, ⟨-, htab, -⟩, -⟩ := hcomplete context hyields
    rw [hnone] at htab
    cases htab
  · intro hlacks context hyields
    cases target with
    | session session => exact complete_of_session hyields
    | workspace id => exact (of_workspace hyields).resolve_right hlacks
    | tab id => exact complete_of_tab hyields
    | pane id => exact complete_of_pane hyields

/-- A workspace with one tab and one pane, which says no active tab. -/
def restored : Herdr where
  panes := [[("pane_id", .string "w1:p1"), ("tab_id", .string "w1:t1"), ("workspace_id", .string "w1")]]
  tabs := [[("tab_id", .string "w1:t1"), ("workspace_id", .string "w1")]]
  workspaces := [[("workspace_id", .string "w1")]]
  pane_named := by
    rintro pane (_ | ⟨_, ⟨⟩⟩)
    exact ⟨"w1:p1", rfl⟩
  pane_in_tab := by
    rintro pane (_ | ⟨_, ⟨⟩⟩)
    exact ⟨_, List.mem_cons_self, "w1:t1", rfl, rfl, rfl⟩
  tab_in_workspace := by
    rintro tab (_ | ⟨_, ⟨⟩⟩)
    exact ⟨_, List.mem_cons_self, "w1", rfl, rfl⟩

/-- From that workspace the context has no tab. -/
theorem context_without_tab :
    ¬∀ (herdr : Herdr) (target : PluginInvocationTarget) (context : Value),
      Talk.Yields herdr.Answers (hydratedContext target) context → herdr.Complete target context := by
  intro h
  have hlacks : restored.LacksTab (.workspace ⟨"box", "main", "w1"⟩) :=
    ⟨⟨_, List.mem_cons_self, rfl, rfl⟩, _, List.mem_cons_self, rfl⟩
  obtain ⟨context, hyields, hnone⟩ := exists_incomplete hlacks
  obtain ⟨-, tabId, -, ⟨-, htab, -⟩, -⟩ := h _ _ context hyields
  rw [hnone] at htab
  cases htab

end Herdr

end Plugins

end SuperHerdr
