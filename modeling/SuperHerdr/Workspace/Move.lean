import Mathlib.Data.List.Forall2
import SuperHerdr.Library.Dialogue
import SuperHerdr.Workspace.Plan

/-!
# Moving a workspace

`moveWorkspace` asks a session for the tabs of a workspace and their layouts, and then moves pane
after pane as each tab's plan says. A pane has another name when it has been moved, which the answer
tells; the next split has to name its target as it is called by then, so the names are kept in a
map.

What the answers of a run tell is followed by `follow`, which knows a request by its JSON alone.
Whoever answers, and whatever names the panes are given: the requests for one tab add one tab to
those that are there, and it has the layout that was exported, under the new names
(`moves_rebuild_layouts`).
-/

namespace SuperHerdr

namespace Workspace

open JsonData Dialogue
open Std (ExtTreeMap)

/-! ### Asking a session -/

/-- The session that a workspace is in, and the one that it is recreated on. -/
inductive Side
  | source
  | destination
deriving DecidableEq

inductive Question
  | openSession (side : Side)
  | request (side : Side) (method : String) (params : Value)

/-- The result, or the message of an error. -/
abbrev Answer : Type := Except String Value

/-- What asks sessions and may fail. -/
abbrev Api : Type → Type := Talk Question Answer String

def openSession (side : Side) : Api Value := Talk.request (.openSession side)

def request (side : Side) (method : String) (params : Value) : Api Value :=
  Talk.request (.request side method params)

/-- What fails with a message of its own where something is missing. -/
def require {α : Type} (message : String) (value : Option α) : Api α := .done (okOr message value)

/-- One source tab as it was exported. -/
structure ExportedTab where
  label : Option String
  root : Value

/-- Ask for the layout of each tab that was listed. -/
def exportTabs (side : Side) : List Value → Api (List ExportedTab)
  | [] => pure []
  | tab :: tabs => do
      let tabId ← require "Herdr listed a tab without an identifier" (text tab "tab_id")
      let label := (text tab "label").filter (· ≠ "")
      let layout ← request side "layout.export" (.ofMembers [("tab_id", .string tabId)])
      let root ← require "Herdr exported a tab without a layout"
        ((layout.get "layout").bind fun layout => layout.get "root")
      let exported ← exportTabs side tabs
      return ⟨label, root⟩ :: exported

/-- Read every tab of one workspace and its split tree. -/
def exportWorkspaceTabs (side : Side) (workspace : String) : Api (List ExportedTab) := do
  let listed ← request side "tab.list" (.ofMembers [("workspace_id", .string workspace)])
  let tabs := ((listed.get "tabs").bind Value.asArray).getD []
  if tabs.isEmpty then .done (.error "the source workspace has no tabs")
  else exportTabs side tabs

/-! ### Moving -/

structure WorkspaceMoveSummary where
  tabs : ℕ
  panes : ℕ
  sourceClosed : Bool
deriving DecidableEq

/-- Addition of 64 bits that stops at the greatest number. -/
def saturatingAdd64 (x y : ℕ) : ℕ := min (x + y) (2 ^ 64 - 1)

/-- What a move keeps: the names that the moved panes have now, and the summary. -/
structure Moving where
  movedIds : ExtTreeMap String String
  summary : WorkspaceMoveSummary

/-- What a pane that was moved is called now. -/
def movedPane (response : Value) : Option String :=
  ((response.get "move_result").bind fun result => result.get "pane").bind fun pane =>
    text pane "pane_id"

/-- The tab that was opened for a pane. -/
def createdTab (response : Value) : Option String :=
  ((response.get "move_result").bind fun result => result.get "created_tab").bind fun tab =>
    text tab "tab_id"

def recordMove (sourcePane : String) (response : Value) (moving : Moving) : Moving where
  movedIds :=
    match movedPane response with
    | some moved => moving.movedIds.insert sourcePane moved
    | none => moving.movedIds
  summary :=
    { moving.summary with
      sourceClosed :=
        ((response.get "move_result").bind fun result =>
          text result "closed_workspace_id").isSome || moving.summary.sourceClosed
      panes := saturatingAdd64 moving.summary.panes 1 }

def ofRatio : Option Double → Value
  | some ratio => .number (.float ratio)
  | none => .null

/-- Move a pane to a tab of its own. -/
def newTabParams (pane workspace : String) (label : Option String) : Value :=
  .ofMembers
    [("pane_id", .string pane),
      ("destination", .ofMembers
        [("type", .string "new_tab"), ("workspace_id", .string workspace),
          ("label", .ofOption label)])]

/-- Move a pane next to another. -/
def splitParams (split : SplitMove) (tab target : String) : Value :=
  .ofMembers
    [("pane_id", .string split.pane),
      ("destination", .ofMembers
        [("type", .string "tab"), ("tab_id", .string tab),
          ("split", .string split.direction.cliValue), ("target_pane_id", .string target),
          ("ratio", ofRatio split.ratio)])]

/-- The splits of a tab that was opened. -/
def moveSplits (tab : String) : List SplitMove → Moving → Api Moving
  | [], moving => pure moving
  | split :: splits, moving => do
      let target := (moving.movedIds[split.targetPane]?).getD split.targetPane
      let placed ← request .source "pane.move" (splitParams split tab target)
      moveSplits tab splits (recordMove split.pane placed moving)

def moveTab (destination : String) (tab : ExportedTab) (moving : Moving) : Api Moving := do
  let plan ← .done (planTabMove tab.root)
  let opened ← request .source "pane.move" (newTabParams plan.anchorPane destination tab.label)
  let moving := recordMove plan.anchorPane opened moving
  let created ← require "Herdr did not report the created destination tab" (createdTab opened)
  moveSplits created plan.splits
    { moving with
      summary := { moving.summary with tabs := saturatingAdd64 moving.summary.tabs 1 } }

def moveTabs (destination : String) : List ExportedTab → Moving → Api Moving
  | [], moving => pure moving
  | tab :: tabs, moving => do
      let moving ← moveTab destination tab moving
      moveTabs destination tabs moving

/-- Move every tab of one workspace into another of the same session. -/
def moveWorkspace (source destination : String) : Api WorkspaceMoveSummary :=
  if source = destination then .done (.error "a workspace cannot be moved into itself")
  else do
    let _ ← openSession .source
    let exported ← exportWorkspaceTabs .source source
    let moving ← moveTabs destination exported ⟨∅, 0, 0, false⟩
    return moving.summary

/-! ### What the moves make -/

/-- The tabs that were opened, the last one first. -/
abbrev Tabs : Type := List (String × Layout)

/-- Change the tab that was opened last of those of an id. -/
def onTab (id : String) (change : Layout → Option Layout) : Tabs → Option Tabs
  | [] => none
  | (other, layout) :: tabs =>
      if other = id then (change layout).map fun layout => (id, layout) :: tabs
      else (onTab id change tabs).map ((other, layout) :: ·)

/-- The pane that a move is of, and what it is called then. -/
def renamed : Question × Answer → Option (String × String)
  | (.request .source "pane.move" params, .ok response) => do
      return (← text params "pane_id", ← movedPane response)
  | _ => none

/-- What a move makes of the tabs. Other requests leave them as they are. -/
def follow (tabs : Tabs) : Question × Answer → Option Tabs
  | (.request .source "pane.move" params, .ok response) => do
      let pane ← movedPane response
      let destination ← params.get "destination"
      if text destination "type" = some "new_tab" then
        return (← createdTab response, .pane pane) :: tabs
      else if text destination "type" = some "tab" then
        let direction ← (text destination "split").bind SplitDirection.fromApiValue
        let target ← text destination "target_pane_id"
        onTab (← text destination "tab_id")
          (SplitMove.place ⟨pane, target, direction, ratio destination⟩) tabs
      else none
  | _ => some tabs

/-- The exchange makes one more tab, which has the layout, its panes under the names they have now,
and moves each of the layout's panes once. -/
def Rebuilds (layout : Layout) (said : List (Question × Answer)) : Prop :=
  ((said.filterMap renamed).map Prod.fst).Perm layout.panes ∧
    ∃ id, ∀ tabs : Tabs, said.foldlM follow tabs =
      some ((id, layout.rename fun pane =>
        ((said.filterMap renamed).lookup pane).getD pane) :: tabs)

/-- Every pane has another name when it has been moved. -/
def Renaming (said : List (Question × Answer)) : Prop :=
  (∀ params response, (.request .source "pane.move" params, .ok response) ∈ said →
      (movedPane response).isSome) ∧
    ((said.filterMap renamed).map Prod.snd).Nodup

variable {response : Value}

theorem follow_newTab (tabs : Tabs) (pane workspace : String) (label : Option String)
    {name id : String} (hname : movedPane response = some name)
    (hid : createdTab response = some id) :
    follow tabs (.request .source "pane.move" (newTabParams pane workspace label), .ok response) =
      some ((id, .pane name) :: tabs) := by
  simp [follow, newTabParams, Value.ofMembers, Value.get_object_insert, text, Value.asStr, hname,
    hid]

theorem renamed_newTab (pane workspace : String) (label : Option String)
    {name : String} (hname : movedPane response = some name) :
    renamed (.request .source "pane.move" (newTabParams pane workspace label), .ok response) =
      some (pane, name) := by
  simp [renamed, newTabParams, Value.ofMembers, Value.get_object_insert, text, Value.asStr, hname]

theorem follow_split (tabs : Tabs) (split : SplitMove) (tab target : String)
    {name : String} (hname : movedPane response = some name) :
    follow tabs (.request .source "pane.move" (splitParams split tab target), .ok response) =
      onTab tab (SplitMove.place ⟨name, target, split.direction, split.ratio⟩) tabs := by
  have hratio : ((ofRatio split.ratio).asF64) = split.ratio := by
    cases split.ratio <;> rfl
  simp [follow, splitParams, Value.ofMembers, Value.get_object_insert, text, Value.asStr, hname,
    Workspace.ratio, hratio]

theorem renamed_split (split : SplitMove) (tab target : String) {name : String}
    (hname : movedPane response = some name) :
    renamed (.request .source "pane.move" (splitParams split tab target), .ok response) =
      some (split.pane, name) := by
  simp [renamed, splitParams, Value.ofMembers, Value.get_object_insert, text, Value.asStr, hname]

/-! ### Moving one tab -/

theorem movedIds_recordMove {pane name : String}
    (hname : movedPane response = some name) (moving : Moving) :
    (recordMove pane response moving).movedIds = moving.movedIds.insert pane name := by
  rw [recordMove]
  simp only [hname]

variable {said : List (Question × Answer)} {moving ended : Moving}

theorem ends_moveSplits_cons {tab : String} {split : SplitMove} {splits : List SplitMove}
    (h : Talk.Ends (moveSplits tab (split :: splits) moving) said (.ok ended)) :
    ∃ response rest,
      said = (.request .source "pane.move" (splitParams split tab
        ((moving.movedIds[split.targetPane]?).getD split.targetPane)), .ok response) :: rest ∧
      Talk.Ends (moveSplits tab splits (recordMove split.pane response moving)) rest
        (.ok ended) := by
  rw [moveSplits] at h
  obtain ⟨first, rest, response, rfl, hfirst, hrest⟩ := Talk.ends_bind_ok_iff.mp h
  rw [request, Talk.ends_request_iff] at hfirst
  subst hfirst
  exact ⟨response, rest, rfl, hrest⟩

/-- The splits move their panes, in order. -/
theorem renamed_moveSplits {tab : String} {splits : List SplitMove}
    (h : Talk.Ends (moveSplits tab splits moving) said (.ok ended))
    (hnamed : ∀ params response, (.request .source "pane.move" params, .ok response) ∈ said →
      (movedPane response).isSome) :
    (said.filterMap renamed).map Prod.fst = splits.map SplitMove.pane := by
  induction splits generalizing moving said with
  | nil =>
    rw [moveSplits, Talk.ends_pure_iff] at h
    rw [h.1]
    rfl
  | cons split splits ih =>
    obtain ⟨response, rest, rfl, hrest⟩ := ends_moveSplits_cons h
    obtain ⟨now, hnow⟩ := Option.isSome_iff_exists.mp (hnamed _ _ List.mem_cons_self)
    have hmoved := ih hrest fun params response hmem =>
      hnamed params response (List.mem_cons_of_mem _ hmem)
    rw [List.filterMap_cons_some (renamed_split split tab _ hnow), List.map_cons, List.map_cons,
      hmoved]

/-- **The splits of a tab.** What has been placed so far is there under the names it has now. The
splits make of it what they make of it under the names it had, which are those of the plan. -/
theorem moveSplits_rebuilds {name : String → String} {among : List String}
    (hname : ∀ pane ∈ among, ∀ other ∈ among, name pane = name other → pane = other)
    {tab : String} {splits : List SplitMove}
    (h : Talk.Ends (moveSplits tab splits moving) said (.ok ended))
    (hnamed : ∀ params response, (.request .source "pane.move" params, .ok response) ∈ said →
      (movedPane response).isSome)
    (hrenamed : ∀ pane now, (pane, now) ∈ said.filterMap renamed → name pane = now)
    {layout whole : Layout} (hexecute : execute layout splits = some whole)
    (hplaced : ∀ pane ∈ layout.panes, moving.movedIds[pane]? = some (name pane))
    (hlayout : ∀ pane ∈ layout.panes, pane ∈ among)
    (hsplits : ∀ split ∈ splits, split.pane ∈ among) :
    ∀ tabs, said.foldlM follow ((tab, layout.rename name) :: tabs) =
      some ((tab, whole.rename name) :: tabs) := by
  induction splits generalizing moving said layout with
  | nil =>
    rw [moveSplits, Talk.ends_pure_iff] at h
    obtain ⟨rfl, -⟩ := h
    cases hexecute
    exact fun tabs => rfl
  | cons split splits ih =>
    obtain ⟨response, rest, rfl, hrest⟩ := ends_moveSplits_cons h
    rw [execute, List.foldlM_cons, Option.bind_eq_bind, Option.bind_eq_some_iff] at hexecute
    obtain ⟨next, hplace, hexecute⟩ := hexecute
    -- a split that can be executed names a pane that was placed before
    have hthere : split.targetPane ∈ layout.panes := by
      by_contra hmissing
      rw [SplitMove.place, if_neg hmissing] at hplace
      cases hplace
    -- the target is called what the map says
    have htarget : (moving.movedIds[split.targetPane]?).getD split.targetPane =
        name split.targetPane := by
      rw [hplaced _ hthere, Option.getD_some]
    rw [htarget] at hnamed hrenamed ⊢
    obtain ⟨now, hnow⟩ := Option.isSome_iff_exists.mp (hnamed _ _ List.mem_cons_self)
    have hfirst := renamed_split split tab (name split.targetPane) hnow
    rw [List.filterMap_cons_some hfirst] at hrenamed
    have hsame : name split.pane = now := hrenamed _ _ List.mem_cons_self
    have hnext : ∀ pane ∈ next.panes, pane ∈ layout.panes ∨ pane = split.pane := fun pane hpane =>
      SplitMove.mem_panes_of_place hplace hpane
    have hamong : split.pane ∈ among := hsplits split List.mem_cons_self
    have hfollow := ih hrest
      (fun params response hmem => hnamed params response (List.mem_cons_of_mem _ hmem))
      (fun pane now hmem => hrenamed pane now (List.mem_cons_of_mem _ hmem)) hexecute
      (fun pane hpane => by
        rw [movedIds_recordMove hnow, ExtTreeMap.getElem?_insert]
        by_cases hmoved : split.pane = pane
        · simp [← hmoved, hsame]
        · rw [if_neg (by simpa using hmoved)]
          exact hplaced pane ((hnext pane hpane).resolve_right (Ne.symm hmoved)))
      (fun pane hpane => (hnext pane hpane).elim (hlayout pane) fun hpane => hpane ▸ hamong)
      (fun other hother => hsplits other (List.mem_cons_of_mem _ hother))
    intro tabs
    have hrename := SplitMove.place_rename hplace fun pane hpane =>
      hname pane (hlayout pane hpane) _ (hlayout _ hthere)
    rw [hsame] at hrename
    rw [List.foldlM_cons, follow_split _ _ _ _ hnow, onTab, if_pos rfl, hrename, Option.map_some,
      Option.bind_eq_bind, Option.bind_some]
    exact hfollow tabs

variable {names : List (String × String)}

theorem lookup_of_mem (h : (names.map Prod.fst).Nodup)
    {pane now : String} (hmem : (pane, now) ∈ names) : names.lookup pane = some now := by
  induction names with
  | nil => cases hmem
  | cons first names ih =>
    obtain ⟨other, held⟩ := first
    obtain ⟨hfirst, hrest⟩ := List.nodup_cons.mp h
    rw [List.lookup_cons]
    rcases List.mem_cons.mp hmem with hsame | hmem
    · cases hsame
      simp
    · have hne : pane ≠ other := fun hsame => hfirst (List.mem_map.mpr ⟨_, hmem, hsame⟩)
      rw [beq_false_of_ne hne]
      exact ih hrest hmem

theorem getD_lookup_of_mem (h : (names.map Prod.fst).Nodup)
    {pane now : String} (hmem : (pane, now) ∈ names) : (names.lookup pane).getD pane = now := by
  rw [lookup_of_mem h hmem, Option.getD_some]

theorem lookup_injective (hpanes : (names.map Prod.fst).Nodup)
    (hnames : (names.map Prod.snd).Nodup) :
    ∀ pane ∈ names.map Prod.fst, ∀ other ∈ names.map Prod.fst,
      (names.lookup pane).getD pane = (names.lookup other).getD other → pane = other := by
  intro pane hpane other hother hsame
  obtain ⟨⟨_, now⟩, hmem, rfl⟩ := List.mem_map.mp hpane
  obtain ⟨⟨_, later⟩, hmem', rfl⟩ := List.mem_map.mp hother
  rw [getD_lookup_of_mem hpanes hmem, getD_lookup_of_mem hpanes hmem'] at hsame
  exact congrArg Prod.fst (List.inj_on_of_nodup_map hnames hmem hmem' hsame)

variable {destination : String}

/-- A tab is planned and opened with its anchor, and then come its splits. -/
theorem ends_moveTab {tab : ExportedTab}
    (h : Talk.Ends (moveTab destination tab moving) said (.ok ended)) :
    ∃ plan opened splits id begun, planTabMove tab.root = .ok plan ∧
      said = (.request .source "pane.move" (newTabParams plan.anchorPane destination tab.label),
        .ok opened) :: splits ∧
      createdTab opened = some id ∧
      begun.movedIds = (recordMove plan.anchorPane opened moving).movedIds ∧
      Talk.Ends (moveSplits id plan.splits begun) splits (.ok ended) := by
  rw [moveTab] at h
  obtain ⟨planning, moves, plan, rfl, hplanning, hmoves⟩ := Talk.ends_bind_ok_iff.mp h
  obtain ⟨rfl, hplan⟩ := Talk.ends_done_iff.mp hplanning
  obtain ⟨opening, rest, opened, rfl, hopening, hrest⟩ := Talk.ends_bind_ok_iff.mp hmoves
  rw [request, Talk.ends_request_iff] at hopening
  subst hopening
  obtain ⟨reading, splits, id, rfl, hreading, hsplits⟩ := Talk.ends_bind_ok_iff.mp hrest
  obtain ⟨rfl, hid⟩ := Talk.ends_done_iff.mp hreading
  refine ⟨plan, opened, splits, id, _, hplan.symm, rfl, okOr_eq_ok_iff.mp hid.symm, ?_, hsplits⟩
  rfl

/-- The moves of a tab rebuild its layout. -/
theorem moveTab_rebuilds {tab : ExportedTab}
    (h : Talk.Ends (moveTab destination tab moving) said (.ok ended)) (hrenaming : Renaming said)
    {layout : Layout} (hlayout : layout.Exported tab.root) (hnodup : layout.panes.Nodup) :
    Rebuilds layout said := by
  obtain ⟨plan, opened, splits, id, begun, hplan, rfl, hcreated, hbegun, hsplits⟩ := ends_moveTab h
  obtain ⟨other, hother, -, rfl⟩ := planTabMove_eq_ok_iff.mp hplan
  cases hother.unique hlayout
  obtain ⟨hnamed, hdistinct⟩ := hrenaming
  obtain ⟨now, hnow⟩ := Option.isSome_iff_exists.mp (hnamed _ _ List.mem_cons_self)
  have hnamedSplits (params response : Value)
      (hmem : (.request .source "pane.move" params, .ok response) ∈ splits) :
      (movedPane response).isSome := hnamed params response (List.mem_cons_of_mem _ hmem)
  rw [Rebuilds]
  rw [List.filterMap_cons_some (renamed_newTab _ _ _ hnow)] at hdistinct ⊢
  generalize hnames : (layout.plan.anchorPane, now) :: splits.filterMap renamed = names at *
  -- every pane of the layout is renamed once
  have hperm : (names.map Prod.fst).Perm layout.panes := by
    rw [← hnames, List.map_cons, renamed_moveSplits hsplits hnamedSplits]
    exact layout.moved_plan_perm
  have hkeys : (names.map Prod.fst).Nodup := hperm.nodup_iff.mpr hnodup
  have hinjective : ∀ pane ∈ layout.panes, ∀ other ∈ layout.panes,
      (names.lookup pane).getD pane = (names.lookup other).getD other → pane = other := by
    simpa only [hperm.mem_iff] using lookup_injective hkeys hdistinct
  have hanchor : (names.lookup layout.leftmost).getD layout.leftmost = now :=
    getD_lookup_of_mem hkeys (hnames ▸ List.mem_cons_self)
  have hamong (split : SplitMove) (hsplit : split ∈ layout.plan.splits) :
      split.pane ∈ layout.panes :=
    layout.moved_plan_perm.mem_iff.mp (List.mem_cons_of_mem _ (List.mem_map_of_mem hsplit))
  refine ⟨hperm, id, fun tabs => ?_⟩
  -- the anchor is the layout that the splits begin with
  have hfollow := moveSplits_rebuilds hinjective hsplits hnamedSplits
    (fun pane now hmem => getD_lookup_of_mem hkeys (hnames ▸ List.mem_cons_of_mem _ hmem))
    (Layout.execute_plan hnodup) (fun pane hpane => by
      rw [List.mem_singleton.mp hpane, hbegun, movedIds_recordMove hnow,
        ExtTreeMap.getElem?_insert_self]
      exact congrArg some hanchor.symm)
    (fun pane hpane => List.mem_singleton.mp hpane ▸ layout.leftmost_mem_panes) hamong tabs
  rw [Layout.rename] at hfollow
  rw [List.foldlM_cons, follow_newTab _ _ _ _ hnow hcreated, Option.bind_eq_bind, Option.bind_some,
    ← hanchor]
  exact hfollow

theorem exported_of_moveTab {tab : ExportedTab}
    (h : Talk.Ends (moveTab destination tab moving) said (.ok ended)) :
    ∃ layout : Layout, layout.Exported tab.root := by
  obtain ⟨plan, _, _, _, _, hplan, -⟩ := ends_moveTab h
  obtain ⟨layout, hlayout, -⟩ := planTabMove_eq_ok_iff.mp hplan
  exact ⟨layout, hlayout⟩

/-! ### Moving all of them -/

theorem Renaming.append {first rest : List (Question × Answer)} (h : Renaming (first ++ rest)) :
    Renaming first ∧ Renaming rest := by
  obtain ⟨hnamed, hdistinct⟩ := h
  rw [List.filterMap_append, List.map_append] at hdistinct
  obtain ⟨hfirst, hrest, -⟩ := List.nodup_append.mp hdistinct
  exact ⟨⟨fun params response hmem => hnamed params response (List.mem_append_left _ hmem), hfirst⟩,
    fun params response hmem => hnamed params response (List.mem_append_right _ hmem), hrest⟩

/-- The moves of each tab rebuild its layout. -/
theorem moveTabs_rebuild {tabs : List ExportedTab}
    (h : Talk.Ends (moveTabs destination tabs moving) said (.ok ended))
    (hrenaming : Renaming said) :
    ∃ layouts : List Layout,
      List.Forall₂ (fun layout tab => layout.Exported tab.root) layouts tabs ∧
        ((∀ layout ∈ layouts, layout.panes.Nodup) →
          ∃ parts, said = parts.flatten ∧ List.Forall₂ Rebuilds layouts parts) := by
  induction tabs generalizing moving said with
  | nil =>
    rw [moveTabs, Talk.ends_pure_iff] at h
    exact ⟨[], .nil, fun _ => ⟨[], h.1, .nil⟩⟩
  | cons tab tabs ih =>
    rw [moveTabs] at h
    obtain ⟨first, rest, between, rfl, hfirst, hrest⟩ := Talk.ends_bind_ok_iff.mp h
    obtain ⟨hfirstNames, hrestNames⟩ := hrenaming.append
    obtain ⟨layout, hlayout⟩ := exported_of_moveTab hfirst
    obtain ⟨layouts, hlayouts, hrebuild⟩ := ih hrest hrestNames
    refine ⟨layout :: layouts, .cons hlayout hlayouts, fun hnodup => ?_⟩
    obtain ⟨hone, hmore⟩ := List.forall_mem_cons.mp hnodup
    obtain ⟨parts, rfl, hparts⟩ := hrebuild hmore
    exact ⟨first :: parts, rfl, .cons (moveTab_rebuilds hfirst hfirstNames hlayout hone) hparts⟩

/-- **Moves rebuild the layouts.** A tab is planned exactly if it is a layout that is not too deep.
Its plan ends with the layout and moves each pane once. In a run that ends well, whoever answers it,
the requests for each tab make one more tab of that layout, if every move renames its pane. -/
theorem moves_rebuild_layouts :
    (∀ root, (∃ plan, planTabMove root = .ok plan) ↔
      ∃ layout : Layout, layout.Exported root ∧ layout.height ≤ MAX_LAYOUT_DEPTH) ∧
    (∀ root plan, planTabMove root = .ok plan → ∃ layout : Layout, layout.Exported root ∧
      plan.moved.Perm layout.panes ∧ (layout.panes.Nodup → plan.execute = some layout)) ∧
    ∀ source destination said summary,
      Talk.Ends (moveWorkspace source destination) said (.ok summary) → Renaming said →
        ∃ asked exported moves, said = asked ++ moves ∧
          Talk.Ends (openSession .source >>= fun _ => exportWorkspaceTabs .source source) asked
            (.ok exported) ∧
          ∃ layouts : List Layout,
            List.Forall₂ (fun layout tab => layout.Exported tab.root) layouts exported ∧
              ((∀ layout ∈ layouts, layout.panes.Nodup) →
                ∃ parts, moves = parts.flatten ∧ List.Forall₂ Rebuilds layouts parts) := by
  refine ⟨fun root => ?_, fun root plan hplan => ?_,
    fun source destination said summary h hrenaming => ?_⟩
  · simp only [planTabMove_eq_ok_iff]
    constructor
    · rintro ⟨plan, layout, hlayout, hheight, -⟩
      exact ⟨layout, hlayout, hheight⟩
    · rintro ⟨layout, hlayout, hheight⟩
      exact ⟨layout.plan, layout, hlayout, hheight, rfl⟩
  · obtain ⟨layout, hlayout, -, rfl⟩ := planTabMove_eq_ok_iff.mp hplan
    exact ⟨layout, hlayout, layout.moved_plan_perm, Layout.execute_plan⟩
  · rw [moveWorkspace] at h
    split at h
    · exact absurd (Talk.ends_done_iff.mp h).2 (by simp)
    · obtain ⟨opening, rest, opened, rfl, hopening, hrest⟩ := Talk.ends_bind_ok_iff.mp h
      obtain ⟨reading, more, exported, rfl, hreading, hmore⟩ := Talk.ends_bind_ok_iff.mp hrest
      obtain ⟨moves, last, ended, rfl, hmoves, hlast⟩ := Talk.ends_bind_ok_iff.mp hmore
      obtain ⟨rfl, -⟩ := Talk.ends_pure_iff.mp hlast
      rw [List.append_nil, ← List.append_assoc] at hrenaming ⊢
      exact ⟨opening ++ reading, exported, moves, rfl,
        Talk.ends_bind_ok_iff.mpr ⟨opening, reading, opened, rfl, hopening, hreading⟩,
        moveTabs_rebuild hmoves hrenaming.append.2⟩

/-- A tab of two panes. -/
def twoPanes : Value :=
  .ofMembers
    [("type", .string "split"), ("direction", .string "right"), ("ratio", .number (.float .HALF)),
      ("first", .ofMembers [("type", .string "pane"), ("pane_id", .string "w1:p1")]),
      ("second", .ofMembers [("type", .string "pane"), ("pane_id", .string "w1:p2")])]

/-- The answer to a move. -/
def movedAs (pane : String) (rest : List (String × Value)) : Value :=
  .ofMembers
    [("move_result", .ofMembers (("pane", .ofMembers [("pane_id", .string pane)]) :: rest))]

/-- A workspace of one tab is moved. -/
def oneTabMoved : List (Question × Answer) :=
  [(.openSession .source, .ok .null),
    (.request .source "tab.list" (.ofMembers [("workspace_id", .string "w1")]),
      .ok (.ofMembers [("tabs", .array
        [.ofMembers [("tab_id", .string "w1:t1"), ("label", .string "build")]])])),
    (.request .source "layout.export" (.ofMembers [("tab_id", .string "w1:t1")]),
      .ok (.ofMembers [("layout", .ofMembers [("root", twoPanes)])])),
    (.request .source "pane.move" (newTabParams "w1:p1" "w9" (some "build")),
      .ok (movedAs "w9:p1" [("created_tab", .ofMembers [("tab_id", .string "w9:t4")])])),
    (.request .source "pane.move"
        (splitParams ⟨"w1:p2", "w1:p1", .right, some .HALF⟩ "w9:t4" "w9:p1"),
      .ok (movedAs "w9:p2" [("closed_workspace_id", .string "w1")]))]

theorem one_tab_is_rebuilt :
    Talk.Ends (moveWorkspace "w1" "w9") oneTabMoved (.ok ⟨1, 2, true⟩) ∧ Renaming oneTabMoved ∧
      ∃ asked exported moves, oneTabMoved = asked ++ moves ∧
        Talk.Ends (openSession .source >>= fun _ => exportWorkspaceTabs .source "w1") asked
          (.ok exported) ∧
        ∃ layouts : List Layout,
          List.Forall₂ (fun layout tab => layout.Exported tab.root) layouts exported ∧
            ((∀ layout ∈ layouts, layout.panes.Nodup) →
              ∃ parts, moves = parts.flatten ∧ List.Forall₂ Rebuilds layouts parts) := by
  have hends : Talk.Ends (moveWorkspace "w1" "w9") oneTabMoved (.ok ⟨1, 2, true⟩) :=
    .ask (.ask (.ask (.ask (.ask (.done _)))))
  have hrenaming : Renaming oneTabMoved := by
    have hnames : (oneTabMoved.filterMap renamed).map Prod.snd = ["w9:p1", "w9:p2"] := by rfl
    refine ⟨fun params response hmem => ?_, by rw [hnames]; decide⟩
    simp only [oneTabMoved, List.mem_cons, List.not_mem_nil, or_false, Prod.mk.injEq,
      Question.request.injEq, Except.ok.injEq] at hmem
    rcases hmem with h | h | h | h | h
    · cases h.1
    · exact absurd h.1.2.1 (by decide)
    · exact absurd h.1.2.1 (by decide)
    · rw [h.2]
      rfl
    · rw [h.2]
      rfl
  exact ⟨hends, hrenaming, moves_rebuild_layouts.2.2 "w1" "w9" oneTabMoved _ hends hrenaming⟩

end Workspace

end SuperHerdr
