import SuperHerdr.Cards.Identity
import SuperHerdr.Federation.Generations
import SuperHerdr.Library.KeyedMaps

/-!
# Snapshots on the wire

The maps of a snapshot and of a federation are sent as the sequences of their values, and are made again
where they arrive. What is made of a host's answer is named by its target throughout and stands under its
own key (`sound_fromValue`), so it arrives as it was; and so does every federation that the supervisors
publish, whatever the hosts answer and in whatever order (`snapshots_survive_the_wire`).
-/

namespace SuperHerdr

open Std JsonText KeyedMap Transducer

/-! ### What a value is keyed by -/

instance : Keyed WorkspaceId WorkspaceState := ⟨WorkspaceState.id⟩
instance : Keyed TabId TabState := ⟨TabState.id⟩
instance : Keyed PaneId PaneState := ⟨PaneState.id⟩
instance : Keyed TabId LayoutState := ⟨LayoutState.tab⟩
instance : Keyed PaneId AgentState := ⟨AgentState.pane⟩
instance : Keyed TargetSession TargetRuntimeState := ⟨TargetRuntimeState.key⟩

/-! ### How snapshots and federations are sent -/

structure NormalizedSnapshot.Wire where
  serverVersion : Option String
  protocol : Option ℕ
  revision : Option ℕ
  capabilities : ExtTreeSet String
  counts : ResourceCounts
  focusedWorkspace : Option WorkspaceId
  focusedTab : Option TabId
  focusedPane : Option PaneId
  workspaces : List WorkspaceState
  tabs : List TabState
  panes : List PaneState
  layouts : List LayoutState
  agents : List AgentState
  terminals : ExtTreeSet TerminalId

def NormalizedSnapshot.wire (self : NormalizedSnapshot) : Wire :=
  { self with
    workspaces := serialize self.workspaces
    tabs := serialize self.tabs
    panes := serialize self.panes
    layouts := serialize self.layouts
    agents := serialize self.agents }

def NormalizedSnapshot.Wire.snapshot (self : Wire) : NormalizedSnapshot :=
  { self with
    workspaces := deserialize self.workspaces
    tabs := deserialize self.tabs
    panes := deserialize self.panes
    layouts := deserialize self.layouts
    agents := deserialize self.agents }

structure TargetRuntimeState.Wire where
  key : TargetSession
  endpoint : String
  connection : TargetConnectionState
  updateMode : TargetUpdateMode
  eventError : Option String
  connectionGeneration : ℕ
  selectedHerdrBin : Option String
  roots : List String
  snapshot : Option NormalizedSnapshot.Wire
  lastError : Option String
  lastSuccess : Option ℕ
  retryAt : Option ℕ

def TargetRuntimeState.wire (self : TargetRuntimeState) : Wire :=
  { self with snapshot := self.snapshot.map NormalizedSnapshot.wire }

def TargetRuntimeState.Wire.target (self : Wire) : TargetRuntimeState :=
  { self with snapshot := self.snapshot.map NormalizedSnapshot.Wire.snapshot }

structure FederationState.Wire where
  revision : ℕ
  targets : List TargetRuntimeState.Wire

def FederationState.wire (self : FederationState) : Wire :=
  { self with targets := (serialize self.targets).map TargetRuntimeState.wire }

def FederationState.Wire.state (self : Wire) : FederationState :=
  { self with targets := deserialize (self.targets.map TargetRuntimeState.Wire.target) }

/-! ### Snapshots that are named by their target -/

namespace NormalizedSnapshot

/-- Every identifier is qualified by one target. -/
structure QualifiedBy (target : TargetSession) (snapshot : NormalizedSnapshot) : Prop where
  focusedWorkspace : ∀ id ∈ snapshot.focusedWorkspace, id.targetSession = target
  focusedTab : ∀ id ∈ snapshot.focusedTab, id.targetSession = target
  focusedPane : ∀ id ∈ snapshot.focusedPane, id.targetSession = target
  workspaces : ∀ (id : WorkspaceId) state, snapshot.workspaces[id]? = some state →
    id.targetSession = target ∧ ∀ tab ∈ state.activeTab, tab.targetSession = target
  tabs : ∀ (id : TabId) state, snapshot.tabs[id]? = some state →
    id.targetSession = target ∧ ∀ workspace ∈ state.workspace, workspace.targetSession = target
  panes : ∀ (id : PaneId) state, snapshot.panes[id]? = some state →
    id.targetSession = target ∧ (∀ workspace ∈ state.workspace, workspace.targetSession = target) ∧
      (∀ tab ∈ state.tab, tab.targetSession = target) ∧
        ∀ terminal ∈ state.terminal, terminal.targetSession = target
  layouts : ∀ (id : TabId) state, snapshot.layouts[id]? = some state →
    id.targetSession = target ∧ state.workspace.targetSession = target ∧
      state.focusedPane.targetSession = target ∧
        ∀ pane ∈ state.panes, pane.pane.targetSession = target
  agents : ∀ (id : PaneId) state, snapshot.agents[id]? = some state → id.targetSession = target
  terminals : ∀ id ∈ snapshot.terminals, id.targetSession = target

/-- Every value stands under its own key. -/
structure Filed (snapshot : NormalizedSnapshot) : Prop where
  workspaces : KeyedMap.Filed snapshot.workspaces
  tabs : KeyedMap.Filed snapshot.tabs
  panes : KeyedMap.Filed snapshot.panes
  layouts : KeyedMap.Filed snapshot.layouts
  agents : KeyedMap.Filed snapshot.agents

/-- **A snapshot arrives as it was** if and only if it is filed. -/
theorem snapshot_wire_iff (self : NormalizedSnapshot) : self.wire.snapshot = self ↔ self.Filed := by
  have hparts : self.wire.snapshot = self ↔
      deserialize (serialize self.workspaces) = self.workspaces ∧
        deserialize (serialize self.tabs) = self.tabs ∧
          deserialize (serialize self.panes) = self.panes ∧
            deserialize (serialize self.layouts) = self.layouts ∧
              deserialize (serialize self.agents) = self.agents := by
    cases self
    simp [wire, Wire.snapshot]
  rw [hparts, deserialize_serialize_iff, deserialize_serialize_iff, deserialize_serialize_iff,
    deserialize_serialize_iff, deserialize_serialize_iff]
  exact ⟨fun ⟨workspaces, tabs, panes, layouts, agents⟩ => ⟨workspaces, tabs, panes, layouts, agents⟩,
    fun h => ⟨h.workspaces, h.tabs, h.panes, h.layouts, h.agents⟩⟩

/-- A snapshot of a target: named by it throughout, and filed. -/
structure Sound (target : TargetSession) (snapshot : NormalizedSnapshot) : Prop where
  qualified : snapshot.QualifiedBy target
  filed : snapshot.Filed

section FromValue

variable {target : TargetSession} {snapshot : Value}

theorem targetSession_of_qualifiedId {kind : ResourceKind} {value : Value} {idKey : String}
    {id : QualifiedId kind} (h : qualifiedId value idKey target = some id) :
    id.targetSession = target := by
  obtain ⟨resource, -, rfl⟩ := Option.map_eq_some_iff.mp h
  rfl

theorem of_workspaceStates {id : WorkspaceId} {state : WorkspaceState}
    (h : (workspaceStates snapshot target)[id]? = some state) :
    state.id = id ∧ id.targetSession = target ∧
      ∀ tab ∈ state.activeTab, tab.targetSession = target := by
  obtain ⟨item, -, hitem⟩ := List.mem_filterMap.mp (of_getElem?_collected h)
  simp only [Option.bind_eq_bind, Option.bind_eq_some_iff, Option.pure_def, Option.some.injEq,
    Prod.mk.injEq] at hitem
  obtain ⟨id, hid, rfl, rfl⟩ := hitem
  exact ⟨rfl, targetSession_of_qualifiedId hid, fun _ htab => targetSession_of_qualifiedId htab⟩

theorem of_tabStates {id : TabId} {state : TabState}
    (h : (tabStates snapshot target)[id]? = some state) :
    state.id = id ∧ id.targetSession = target ∧
      ∀ workspace ∈ state.workspace, workspace.targetSession = target := by
  obtain ⟨item, -, hitem⟩ := List.mem_filterMap.mp (of_getElem?_collected h)
  simp only [Option.bind_eq_bind, Option.bind_eq_some_iff, Option.pure_def, Option.some.injEq,
    Prod.mk.injEq] at hitem
  obtain ⟨id, hid, rfl, rfl⟩ := hitem
  exact ⟨rfl, targetSession_of_qualifiedId hid, fun _ hworkspace => targetSession_of_qualifiedId hworkspace⟩

theorem of_paneStates {id : PaneId} {state : PaneState}
    (h : (paneStates snapshot target)[id]? = some state) :
    state.id = id ∧ id.targetSession = target ∧
      (∀ workspace ∈ state.workspace, workspace.targetSession = target) ∧
        (∀ tab ∈ state.tab, tab.targetSession = target) ∧
          ∀ terminal ∈ state.terminal, terminal.targetSession = target := by
  obtain ⟨item, -, hitem⟩ := List.mem_filterMap.mp (of_getElem?_collected h)
  simp only [Option.bind_eq_bind, Option.bind_eq_some_iff, Option.pure_def, Option.some.injEq,
    Prod.mk.injEq] at hitem
  obtain ⟨id, hid, rfl, rfl⟩ := hitem
  exact ⟨rfl, targetSession_of_qualifiedId hid, fun _ hworkspace => targetSession_of_qualifiedId hworkspace,
    fun _ htab => targetSession_of_qualifiedId htab,
    fun _ hterminal => targetSession_of_qualifiedId hterminal⟩

theorem of_layoutStates {id : TabId} {state : LayoutState}
    (h : (layoutStates snapshot target)[id]? = some state) :
    state.tab = id ∧ id.targetSession = target ∧ state.workspace.targetSession = target ∧
      state.focusedPane.targetSession = target ∧
        ∀ pane ∈ state.panes, pane.pane.targetSession = target := by
  obtain ⟨item, -, hitem⟩ := List.mem_filterMap.mp (of_getElem?_collected h)
  simp only [Option.bind_eq_bind, Option.bind_eq_some_iff, Option.pure_def, Option.some.injEq,
    Prod.mk.injEq] at hitem
  obtain ⟨workspace, hworkspace, tab, htab, focusedPane, hfocused, area, -, rfl, rfl⟩ := hitem
  refine ⟨rfl, targetSession_of_qualifiedId htab, targetSession_of_qualifiedId hworkspace,
    targetSession_of_qualifiedId hfocused, fun pane hpane => ?_⟩
  obtain ⟨part, -, hpart⟩ := List.mem_filterMap.mp hpane
  simp only [Option.bind_eq_some_iff, Option.some.injEq] at hpart
  obtain ⟨id, hid, rect, -, rfl⟩ := hpart
  exact targetSession_of_qualifiedId hid

theorem mem_qualifiedIds {kind : ResourceKind} {key idKey : String} {id : QualifiedId kind}
    (h : id ∈ qualifiedIds snapshot key idKey target) : id.targetSession = target := by
  have hids : ∀ ids : List (QualifiedId kind), (∀ id ∈ ids, id.targetSession = target) →
      ∀ held : ExtTreeSet (QualifiedId kind),
        (∀ id : QualifiedId kind, id ∈ held → id.targetSession = target) →
          ∀ id : QualifiedId kind, id ∈ ids.foldl (fun ids id => ids.insert id) held →
            id.targetSession = target := by
    intro ids
    induction ids with
    | nil => exact fun _ held hheld => hheld
    | cons first ids ih =>
      intro hall held hheld
      refine ih (fun id hid => hall id (List.mem_cons_of_mem first hid)) _ fun id hid => ?_
      rcases ExtTreeSet.mem_insert.mp hid with heq | hid
      · rw [← LawfulEqCmp.eq_of_compare heq]
        exact hall first List.mem_cons_self
      · exact hheld id hid
  refine hids _ (fun id hid => ?_) ∅ (fun id hid => ?_) id h
  · obtain ⟨item, -, hitem⟩ := List.mem_filterMap.mp hid
    exact targetSession_of_qualifiedId hitem
  · simp at hid

/-- **What is made of a host's answer** is named by its target throughout and stands under its own
key. -/
theorem sound_fromValue (target : TargetSession) (snapshot : Value) :
    Sound target (fromValue target snapshot) where
  qualified :=
    { focusedWorkspace := fun _ h => targetSession_of_qualifiedId h
      focusedTab := fun _ h => targetSession_of_qualifiedId h
      focusedPane := fun _ h => targetSession_of_qualifiedId h
      workspaces := fun _ _ h => (of_workspaceStates h).2
      tabs := fun _ _ h => (of_tabStates h).2
      panes := fun _ _ h => (of_paneStates h).2
      layouts := fun _ _ h => (of_layoutStates h).2
      agents := fun _ _ h => (exists_item h).2.1
      terminals := fun _ h => mem_qualifiedIds h }
  filed :=
    { workspaces := fun _ _ h => (of_workspaceStates h).1
      tabs := fun _ _ h => (of_tabStates h).1
      panes := fun _ _ h => (of_paneStates h).1
      layouts := fun _ _ h => (of_layoutStates h).1
      agents := fun _ _ h => (exists_item h).1 }

end FromValue

end NormalizedSnapshot

namespace FederationState

/-- Every target stands under its own key, and its snapshot is one of it. -/
def Sound (state : FederationState) : Prop :=
  ∀ (key : TargetSession) target, state.targets[key]? = some target → target.key = key ∧
    ∀ snapshot ∈ target.snapshot, NormalizedSnapshot.Sound key snapshot

/-- **A sound federation arrives as it was.** -/
theorem Sound.state_wire {state : FederationState} (h : state.Sound) : state.wire.state = state := by
  have htarget : ∀ target ∈ serialize state.targets, target.wire.target = target := by
    intro target hmem
    obtain ⟨⟨key, held⟩, hentry, rfl⟩ := List.mem_map.mp hmem
    obtain ⟨-, hsnapshot⟩ := h key held (ExtTreeMap.mem_toList_iff_getElem?_eq_some.mp hentry)
    have hmap : (held.snapshot.map NormalizedSnapshot.wire).map NormalizedSnapshot.Wire.snapshot =
        held.snapshot := by
      rw [Option.map_map]
      cases hheld : held.snapshot with
      | none => rfl
      | some snapshot =>
        have hsound := hsnapshot snapshot hheld
        exact congrArg some (snapshot.snapshot_wire_iff.mpr hsound.filed)
    simp only [TargetRuntimeState.wire, TargetRuntimeState.Wire.target, hmap]
  have htargets : ((serialize state.targets).map TargetRuntimeState.wire).map
      TargetRuntimeState.Wire.target = serialize state.targets := by
    rw [List.map_map]
    exact (List.map_congr_left htarget).trans (List.map_id _)
  have hfiled : KeyedMap.Filed state.targets := fun key target hheld => (h key target hheld).1
  simp only [wire, Wire.state, htargets, (deserialize_serialize_iff _).mpr hfiled]

end FederationState

/-! ### What hosts answer -/

/-- A host's snapshot, as it was sent. -/
structure HostSnapshot where
  snapshot : Value
  herdrBin : String

def snapshotPaneIds (snapshot : Value) : List String :=
  (collection snapshot "panes").filterMap fun pane => optionalString pane "pane_id"

/-- What the supervisor of a target reads off a snapshot. -/
def HostSnapshot.read (key : TargetSession) (self : HostSnapshot) : TransportSnapshot :=
  ⟨.fromValue key self.snapshot, snapshotPaneIds self.snapshot, self.herdrBin⟩

/-- What wakes a supervisor, with a snapshot as the host sent it. -/
inductive HostWake
  | shutdown
  | nudged
  | elapsed
  | opened
  | refused (message : String)
  | taken (answer : HostSnapshot)
  | failed (error : SnapshotError)
  | changed
  | ended (message : String)

def HostWake.read (key : TargetSession) : HostWake → Wake
  | shutdown => .shutdown
  | nudged => .nudged
  | elapsed => .elapsed
  | opened => .opened
  | refused message => .refused message
  | taken answer => .taken (answer.read key)
  | failed error => .failed error
  | changed => .changed
  | ended message => .ended message

namespace Federations

inductive HostMove
  | reconfigure (refreshed : Option Config)
  | wake (supervisor : ℕ) (wake : HostWake) (nowMs : ℕ)
  | watch (store : ℕ)
  | take

/-- A move, as the supervisor it wakes reads it. -/
def HostMove.read (f : Federations) : HostMove → Move
  | reconfigure refreshed => .reconfigure refreshed
  | wake index answer nowMs =>
      match f.supervisors[index]? with
      | some supervised => .wake index (answer.read supervised.supervisor.key) nowMs
      | none => .wake index .nudged nowMs
  | watch index => .watch index
  | take => .take

def hostStep (f : Federations) (move : HostMove) : Federations × List Published :=
  f.step (move.read f)

/-- The federations a move publishes one after the other: a supervisor may publish several times before
it waits again. -/
def publications (f : Federations) : HostMove → List FederationState
  | .wake index answer nowMs =>
      match f.supervisors[index]? with
      | none => []
      | some supervised =>
          match f.stores[supervised.store]? with
          | none => []
          | some store =>
              let key := supervised.supervisor.key
              let records := (supervised.supervisor.wake (answer.read key)).2
              records.inits.map fun records =>
                (exec (Update.publish key index nowMs) store.published records).1.state
  | _ => []

/-- Every copy of the federation is sound. -/
def Sound (f : Federations) : Prop := ∀ update ∈ f.updates, update.state.Sound

end Federations

/-- A record whose snapshot is one of its target. -/
def Record.Sound (key : TargetSession) (record : Record) : Prop :=
  ∀ generation connection selection, record = .success generation connection selection →
    NormalizedSnapshot.Sound key selection.snapshot

theorem FederationState.sound_start (config : Config) :
    (Store.start config).published.state.Sound := by
  have hfold : ∀ (targets : List ConfiguredTarget)
      (held : ExtTreeMap TargetSession TargetRuntimeState),
      FederationState.Sound ⟨0, held⟩ → FederationState.Sound ⟨0, targets.foldl
        (fun held target => held.insert (targetKey target) (.new target)) held⟩ := by
    intro targets
    induction targets with
    | nil => exact fun held h => h
    | cons first targets ih =>
      intro held h
      refine ih _ fun key target htarget => ?_
      simp only [ExtTreeMap.getElem?_insert] at htarget
      split at htarget
      · next heq =>
        obtain rfl := LawfulEqCmp.eq_of_compare heq
        obtain rfl := Option.some.inj htarget
        refine ⟨rfl, fun snapshot hsnapshot => ?_⟩
        cases hsnapshot
      · exact h key target htarget
  exact hfold config.targets ∅ fun key target h => by simp at h

/-- **Publishing a record of a target keeps a federation sound.** -/
theorem FederationState.Sound.record {state : FederationState} (h : state.Sound)
    {key : TargetSession} (nowMs : ℕ) {record : Record} (hrecord : record.Sound key) :
    (state.record key nowMs record).Sound := by
  rw [FederationState.record]
  split
  · exact h
  · next target htarget =>
    obtain ⟨hkey, hsnapshot⟩ := h key target htarget
    intro other held hheld
    simp only [ExtTreeMap.getElem?_insert] at hheld
    split at hheld
    · next heq =>
      obtain rfl := LawfulEqCmp.eq_of_compare heq
      obtain rfl := Option.some.inj hheld
      cases record with
      | success generation connection selection =>
        refine ⟨hkey, fun snapshot hheld => ?_⟩
        obtain rfl := Option.some.inj hheld
        exact hrecord generation connection selection rfl
      | backoff failedAttempts delay error => exact ⟨hkey, hsnapshot⟩
      | incompatible error => exact ⟨hkey, hsnapshot⟩
      | updateMode updateMode eventError =>
        rw [TargetRuntimeState.record]
        split
        · exact ⟨hkey, hsnapshot⟩
        · exact ⟨hkey, hsnapshot⟩
    · exact h other held hheld

theorem Update.sound_publish {update : Update} (h : update.state.Sound) {key : TargetSession}
    (supervisor nowMs : ℕ) {record : Record} (hrecord : record.Sound key) :
    (update.publish key supervisor nowMs record).1.state.Sound := by
  rw [publish]
  split
  · cases record <;> exact h.record nowMs hrecord
  · exact h

theorem Update.sound_exec {update : Update} (h : update.state.Sound) {key : TargetSession}
    (supervisor nowMs : ℕ) {records : List Record} (hrecords : ∀ record ∈ records, record.Sound key) :
    (exec (publish key supervisor nowMs) update records).1.state.Sound := by
  induction records generalizing update with
  | nil => exact h
  | cons record records ih =>
    rw [exec_cons]
    exact ih (sound_publish h supervisor nowMs (hrecords record List.mem_cons_self))
      fun other hother => hrecords other (List.mem_cons_of_mem record hother)

namespace Supervisor

theorem sound_wake (s : Supervisor) (answer : HostWake) :
    ∀ record ∈ (s.wake (answer.read s.key)).2, record.Sound s.key := by
  rintro record hmem generation connection selection rfl
  have htaken := eq_taken_of_success hmem
  cases answer with
  | taken answer =>
    obtain rfl := Wake.taken.inj htaken
    exact NormalizedSnapshot.sound_fromValue s.key answer.snapshot
  | _ => cases htaken

end Supervisor

/-! ### Every federation that is published -/

namespace Federations

variable {f : Federations}

theorem Sound.store (h : f.Sound) {index : ℕ} {store : Store}
    (hstore : f.stores[index]? = some store) : store.published.state.Sound :=
  h store.published (List.mem_append_left _ (List.mem_append_left _
    (List.mem_map_of_mem (List.mem_of_getElem? hstore))))

theorem Sound.startFederation (h : f.Sound) : f.startFederation.Sound := by
  intro update hupdate
  simp only [updates, Federations.startFederation, List.map_append, List.map_map, List.mem_append,
    List.mem_map, List.map_cons, List.map_nil, List.mem_singleton] at hupdate
  rcases hupdate with ((⟨store, hstore, rfl⟩ | rfl) | hinput) | rfl
  · exact h store.published
      (List.mem_append_left _ (List.mem_append_left _ (List.mem_map_of_mem hstore)))
  · exact FederationState.sound_start f.active
  · exact h update (List.mem_append_left _ (List.mem_append_right _ hinput))
  · exact h _ (List.mem_append_right _ (List.mem_singleton_self _))

theorem sound_new (config : Config) : (Federations.new config).Sound := by
  refine Sound.startFederation fun update hupdate => ?_
  obtain rfl := List.mem_singleton.mp hupdate
  intro key target htarget
  simp [FederationState.default] at htarget

theorem Sound.reconfigure (h : f.Sound) (refreshed : Option Config) :
    (f.reconfigure refreshed).Sound := by
  cases refreshed with
  | none => exact h
  | some refreshed =>
    simp only [Federations.reconfigure]
    split
    · exact h
    · exact Sound.startFederation h

/-- What a wake publishes is sound, and leaves all copies so. -/
theorem Sound.wake (h : f.Sound) {index : ℕ} {supervised : Supervised}
    (hsupervised : f.supervisors[index]? = some supervised) (answer : HostWake) (nowMs : ℕ) :
    (f.wake index (answer.read supervised.supervisor.key) nowMs).1.Sound := by
  unfold Federations.wake
  simp only [hsupervised]
  split
  · exact h
  · next store hstore =>
    have hpublished := Update.sound_exec (Sound.store h hstore) index nowMs
      (supervised.supervisor.sound_wake answer)
    have hwoken : ∀ supervisors, Sound { f with
        supervisors
        stores := f.stores.set supervised.store { store with published := (exec (Update.publish
          supervised.supervisor.key index nowMs) store.published (supervised.supervisor.wake
            (answer.read supervised.supervisor.key)).2).1 } } := by
      intro supervisors update hupdate
      simp only [updates, List.mem_append, List.mem_singleton] at hupdate
      rcases hupdate with (hmem | hinput) | rfl
      · obtain ⟨held, hheld, rfl⟩ := List.mem_map.mp hmem
        rcases List.mem_or_eq_of_mem_set hheld with hheld | rfl
        · exact h _ (List.mem_append_left _ (List.mem_append_left _ (List.mem_map_of_mem hheld)))
        · exact hpublished
      · exact h update (List.mem_append_left _ (List.mem_append_right _ hinput))
      · exact h _ (List.mem_append_right _ (List.mem_singleton_self _))
    -- a shutdown is seen only by a supervisor whose store is told to stop
    split <;> split
    · exact h
    · exact hwoken _
    · exact h
    · exact hwoken _

/-- **Every move keeps every copy of the federation sound.** -/
theorem Sound.hostStep (h : f.Sound) (move : HostMove) : (f.hostStep move).1.Sound := by
  cases move with
  | reconfigure refreshed => exact h.reconfigure refreshed
  | wake index answer nowMs =>
    rw [Federations.hostStep, HostMove.read]
    cases hsupervised : f.supervisors[index]? with
    | none =>
      simp only [step, Federations.wake, hsupervised]
      exact h
    | some supervised => exact h.wake hsupervised answer nowMs
  | watch index =>
    rw [Federations.hostStep, HostMove.read, step]
    cases hstore : f.stores[index]? with
    | none => exact h
    | some store =>
      intro update hupdate
      simp only [updates, List.mem_append, List.mem_singleton] at hupdate
      rcases hupdate with (hmem | hinput | rfl) | rfl
      · exact h update (List.mem_append_left _ (List.mem_append_left _ hmem))
      · exact h update (List.mem_append_left _ (List.mem_append_right _ hinput))
      · exact Sound.store h hstore
      · exact h _ (List.mem_append_right _ (List.mem_singleton_self _))
  | take =>
    rw [Federations.hostStep, HostMove.read, step]
    split
    · next update inputs hinputs =>
      intro other hother
      simp only [updates, List.mem_append, List.mem_singleton] at hother
      have hmem : ∀ held ∈ update :: inputs, held.state.Sound := fun held hheld =>
        h held (List.mem_append_left _ (List.mem_append_right _ (hinputs ▸ hheld)))
      rcases hother with (hstored | hinput) | rfl
      · exact h other (List.mem_append_left _ (List.mem_append_left _ hstored))
      · exact hmem other (List.mem_cons_of_mem update hinput)
      · exact hmem other List.mem_cons_self
    · exact h

theorem Sound.publications (h : f.Sound) (move : HostMove) :
    ∀ state ∈ f.publications move, state.Sound := by
  cases move with
  | wake index answer nowMs =>
    rw [Federations.publications]
    cases hsupervised : f.supervisors[index]? with
    | none => simp
    | some supervised =>
      dsimp only
      cases hstore : f.stores[supervised.store]? with
      | none => simp
      | some store =>
        intro state hstate
        obtain ⟨records, hrecords, rfl⟩ := List.mem_map.mp hstate
        refine Update.sound_exec (Sound.store h hstore) index nowMs fun record hrecord => ?_
        exact supervised.supervisor.sound_wake answer record
          ((List.mem_inits _ _).mp hrecords |>.subset hrecord)
  | _ => simp [Federations.publications]

/-- **Snapshots survive the wire**: what is made of any answer of any host is named by its target
throughout, stands under its own key and arrives as it was; and so does every federation that is
published, whatever the supervisors do. -/
theorem snapshots_survive_the_wire (config : Config) (moves : List HostMove) :
    (∀ target value, NormalizedSnapshot.Sound target (.fromValue target value) ∧
        (NormalizedSnapshot.fromValue target value).wire.snapshot = .fromValue target value) ∧
      AllStates hostStep (fun f => ∀ update ∈ f.updates, update.state.Sound ∧
        update.state.wire.state = update.state) (.new config) moves ∧
      AllSteps hostStep (fun f move => ∀ state ∈ f.publications move, state.Sound ∧
        state.wire.state = state) (.new config) moves := by
  have hsteps : AllSteps hostStep (fun f move => ∀ state ∈ f.publications move, state.Sound ∧
      state.wire.state = state) (.new config) moves :=
    allSteps_of_invariant (fun f move h => h.hostStep move)
      (fun f move h state hstate => ⟨h.publications move state hstate,
        (h.publications move state hstate).state_wire⟩) (sound_new config) moves
  have hstates : AllStates hostStep Sound (.new config) moves :=
    allStates_of_allSteps (fun f move h => h.hostStep move) (fun f move h _ _ => h.hostStep move)
      (sound_new config) (sound_new config) hsteps
  refine ⟨fun target value => ?_, hstates.imp fun f h update hupdate => ?_, hsteps⟩
  · have hsound := NormalizedSnapshot.sound_fromValue target value
    exact ⟨hsound, (NormalizedSnapshot.snapshot_wire_iff _).mpr hsound.filed⟩
  · exact ⟨h update hupdate, (h update hupdate).state_wire⟩

end Federations

end SuperHerdr
