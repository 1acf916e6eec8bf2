import Mathlib
import SuperHerdr.Library.Transducer
import SuperHerdr.Protocol.Model

/-!
# Re-reading the configuration

A target of the configuration file is one Herdr session on a host, or a host whose sessions are to be
discovered. The daemon re-reads the file from time to time, asks every such host for its sessions,
adopts what comes of it, and closes the routes whose target is not what it was.

A host that does not answer keeps the target it was configured with. That is also what it has before
it first answers, so `refreshes_cost_no_terminal` says on which answers a refresh spares a terminal:
the hosts that have answered answer again, and no session turns up behind a route that was opened for
want of an answer.
-/

namespace SuperHerdr

namespace Refresh

open Transducer

/-! ### The file -/

structure TransportConfig where
  sshBin : String
  batchMode : Bool
  connectTimeoutSeconds : ℕ
  commandTimeoutSeconds : ℕ
deriving DecidableEq

structure Target where
  name : String
  ssh : Option String
  discoverSessions : Bool
  session : Option String
  socket : Option String
  herdrBins : List String
  tags : List String
  roots : List String
deriving DecidableEq

def Target.sessionName (self : Target) : String := self.session.getD "default"

def targetKey (target : Target) : TargetSession := ⟨target.name, target.sessionName⟩

/-- A configuration. What is in `rest` (notifications, transfers, web, devices, quick replies) is
copied along. -/
structure Config (ρ : Type) where
  transport : TransportConfig
  targets : List Target
  rest : ρ
deriving DecidableEq

/-- What the file says of targets. A file in which two have one name is not loaded. -/
structure ConfigFile where
  transport : TransportConfig
  targets : List Target
  names_nodup : (targets.map Target.name).Nodup

def ConfigFile.load {ρ : Type} (self : ConfigFile) (rest : ρ) : Config ρ :=
  ⟨self.transport, self.targets, rest⟩

/-! ### Discovery -/

structure DiscoveredSession where
  name : String
  running : Bool
  sessionDir : String
  socketPath : String
deriving DecidableEq

def validDiscoveredSession (session : DiscoveredSession) : Bool :=
  session.name ≠ "" && !session.name.toList.contains '/' && !session.name.toList.any isControl &&
    session.socketPath.toList.head? = some '/' && !session.socketPath.toList.contains ':' &&
    !session.socketPath.toList.any isControl

/-- The sessions that one executable lists, in order, each name once. -/
def discoverSessionsOnce (listed : List DiscoveredSession) : List DiscoveredSession :=
  ((listed.filter fun session => session.running && validDiscoveredSession session).mergeSort
    fun left right => left.name ≤ right.name).destutter fun left right => left.name ≠ right.name

/-- How it goes to ask a host. -/
inductive Outcome
  /-- What each executable lists, if it lists anything that can be read. -/
  | answered (listing : String → Option (List DiscoveredSession))
  | timedOut
  /-- The task that asked did not end. -/
  | taskFailed

/-- The first executable that answers does. -/
def discoverSessions (target : Target) (listing : String → Option (List DiscoveredSession)) :
    Option (List DiscoveredSession) :=
  target.herdrBins.findSome? fun executable => (listing executable).map discoverSessionsOnce

def discoverRunningSessions (target : Target) : Outcome → Option (List DiscoveredSession)
  | .answered listing => discoverSessions target listing
  | .timedOut => none
  | .taskFailed => none

def targetForDiscoveredSession (target : Target) (session : DiscoveredSession) : Target :=
  { target with
    discoverSessions := false
    session := some session.name
    socket := some session.socketPath }

def targetsForDiscoveredSessions (target : Target) (sessions : List DiscoveredSession) :
    List Target :=
  sessions.map (targetForDiscoveredSession target)

def expandDiscoveredTarget (target : Target) (outcome : Outcome) : List Target :=
  if !target.discoverSessions then [target]
  else
    match discoverRunningSessions target outcome with
    | some sessions => targetsForDiscoveredSessions target sessions
    | none => [target]

/-- Every host is asked in a task of its own, and a task that fails leaves its target as it is.
Outcomes are given by the names of the hosts. -/
def expandDiscoveredSessions {ρ : Type} (config : Config ρ) (outcomes : String → Outcome) :
    Config ρ :=
  { config with
    targets := config.targets.flatMap fun target =>
      match outcomes target.name with
      | .taskFailed => [target]
      | outcome => expandDiscoveredTarget target outcome }

/-! ### The daemon -/

/-- The targets by key, the last of a key counting. -/
def targetMap {ρ : Type} (config : Config ρ) (key : TargetSession) : Option Target :=
  (config.targets.filter fun target => targetKey target = key).getLast?

/-- Which open routes a configuration change invalidates. -/
def invalidatedRoutes {ρ : Type} (previous next : Config ρ) (routed : List PaneId) : List PaneId :=
  routed.filter fun pane =>
    previous.transport ≠ next.transport ||
      targetMap previous pane.targetSession ≠ targetMap next pane.targetSession

structure Daemon (ρ : Type) where
  active : Config ρ
  targets : TargetSession → Option Target
  /-- The panes that have a route. -/
  routes : List PaneId

inductive Event (ρ : Type)
  /-- A route is wanted for a pane, and whether a terminal can be spawned for it. -/
  | openRoute (pane : PaneId) (spawned : Bool)
  | routeClosed (pane : PaneId)
  /-- The file was re-read, if it could be, and the hosts asked. -/
  | reconfigured (loaded : Option (ρ × (String → Outcome)))

namespace Daemon

variable {ρ : Type}

def start (file : ConfigFile) (rest : ρ) (outcomes : String → Outcome) : Daemon ρ :=
  let active := expandDiscoveredSessions (file.load rest) outcomes
  ⟨active, targetMap active, []⟩

def openRoute (self : Daemon ρ) (pane : PaneId) (spawned : Bool) : Daemon ρ :=
  let closed := self.routes.filter (· ≠ pane)
  match self.targets pane.targetSession with
  | some _ => { self with routes := if spawned then pane :: closed else closed }
  | none => { self with routes := closed }

variable [DecidableEq ρ]

/-- Adopt a configuration, and close the routes it invalidates. -/
def reconfigure (self : Daemon ρ) : Option (Config ρ) → Daemon ρ × List PaneId
  | none => (self, [])
  | some refreshed =>
      if refreshed = self.active then (self, [])
      else
        let invalidated := invalidatedRoutes self.active refreshed self.routes
        (⟨refreshed, targetMap refreshed, self.routes.filter (· ∉ invalidated)⟩, invalidated)

/-- A step of the daemon, with the routes a new configuration closes. -/
def step (file : ConfigFile) (self : Daemon ρ) : Event ρ → Daemon ρ × List PaneId
  | .openRoute pane spawned => (self.openRoute pane spawned, [])
  | .routeClosed pane => ({ self with routes := self.routes.filter (· ≠ pane) }, [])
  | .reconfigured loaded =>
      self.reconfigure (loaded.map fun (rest, outcomes) =>
        expandDiscoveredSessions (file.load rest) outcomes)

end Daemon

/-! ### What a host expands to -/

section Expansion

variable {ρ : Type} {file : ConfigFile} {rest : ρ} {outcomes : String → Outcome} {host : Target}

theorem expandDiscoveredSessions_targets (config : Config ρ) (outcomes : String → Outcome) :
    (expandDiscoveredSessions config outcomes).targets =
      config.targets.flatMap fun target => expandDiscoveredTarget target (outcomes target.name) := by
  rw [expandDiscoveredSessions]
  refine List.flatMap_congr fun target _ => ?_
  split
  · next hfailed =>
    rw [hfailed, expandDiscoveredTarget]
    split <;> rfl
  · rfl

theorem expandDiscoveredTarget_of_not_discover (outcome : Outcome)
    (h : host.discoverSessions = false) : expandDiscoveredTarget host outcome = [host] := by
  simp [expandDiscoveredTarget, h]

variable {outcome : Outcome}

theorem expandDiscoveredTarget_of_none (h : discoverRunningSessions host outcome = none) :
    expandDiscoveredTarget host outcome = [host] := by
  rw [expandDiscoveredTarget, h]
  split <;> rfl

variable {sessions : List DiscoveredSession}

theorem expandDiscoveredTarget_of_some (hdiscover : host.discoverSessions = true)
    (h : discoverRunningSessions host outcome = some sessions) :
    expandDiscoveredTarget host outcome = sessions.map (targetForDiscoveredSession host) := by
  simp [expandDiscoveredTarget, hdiscover, h, targetsForDiscoveredSessions]

/-- A host expands to itself, or to targets of its name for the sessions it has. -/
theorem mem_expandDiscoveredTarget {target : Target}
    (h : target ∈ expandDiscoveredTarget host outcome) :
    target = host ∨ host.discoverSessions = true ∧ target.discoverSessions = false ∧
      target.name = host.name ∧ ∃ session socket, target.session = some session ∧
        target.socket = some socket ∧
        target = { host with
          discoverSessions := false, session := some session, socket := some socket } := by
  rw [expandDiscoveredTarget] at h
  split at h
  · exact .inl (List.mem_singleton.mp h)
  · next hdiscover =>
    split at h
    · obtain ⟨session, -, rfl⟩ := List.mem_map.mp h
      exact .inr ⟨by simpa using hdiscover, rfl, rfl, session.name, session.socketPath, rfl, rfl, rfl⟩
    · exact .inl (List.mem_singleton.mp h)

theorem name_of_mem_expandDiscoveredTarget {target : Target}
    (h : target ∈ expandDiscoveredTarget host outcome) : target.name = host.name := by
  rcases mem_expandDiscoveredTarget h with rfl | ⟨-, -, hname, -⟩
  · rfl
  · exact hname

theorem expandDiscoveredTarget_eq (outcome : Outcome) :
    expandDiscoveredTarget host outcome = [host] ∨
      ∀ other ∈ expandDiscoveredTarget host outcome, other.discoverSessions = false := by
  rw [expandDiscoveredTarget]
  split
  · exact .inl rfl
  · split
    · right
      intro other hother
      obtain ⟨session, -, rfl⟩ := List.mem_map.mp hother
      rfl
    · exact .inl rfl

/-- What one element of a list contributes, if no other contributes anything. -/
theorem filter_flatMap_of_unique {α β : Type} {l : List α} {f : α → List β} {p : β → Bool} {a : α}
    (hnodup : l.Nodup) (ha : a ∈ l) (hother : ∀ b ∈ l, b ≠ a → (f b).filter p = []) :
    (l.flatMap f).filter p = (f a).filter p := by
  induction l with
  | nil => cases ha
  | cons b l ih =>
    obtain ⟨hb, hnodup⟩ := List.nodup_cons.mp hnodup
    rw [List.flatMap_cons, List.filter_append]
    by_cases hab : b = a
    · subst hab
      have hrest : (l.flatMap f).filter p = [] := by
        rw [List.filter_flatMap, List.flatMap_eq_nil_iff]
        intro c hc
        exact hother c (List.mem_cons_of_mem b hc) fun heq => hb (heq ▸ hc)
      rw [hrest, List.append_nil]
    · have hmem : a ∈ l := (List.mem_cons.mp ha).resolve_left (Ne.symm hab)
      rw [hother b List.mem_cons_self hab, List.nil_append]
      exact ih hnodup hmem fun c hc => hother c (List.mem_cons_of_mem b hc)

theorem ConfigFile.eq_of_name {other : Target} (hhost : host ∈ file.targets)
    (hother : other ∈ file.targets) (h : other.name = host.name) : other = host :=
  List.inj_on_of_nodup_map file.names_nodup hother hhost h

/-- **What the targets of a host expand to is a matter of that host alone.** -/
theorem filter_expandDiscoveredSessions {p : Target → Bool} (hhost : host ∈ file.targets)
    (hp : ∀ target, p target = true → target.name = host.name) :
    (expandDiscoveredSessions (file.load rest) outcomes).targets.filter p =
      (expandDiscoveredTarget host (outcomes host.name)).filter p := by
  rw [expandDiscoveredSessions_targets]
  refine filter_flatMap_of_unique file.names_nodup.of_map hhost fun other hother hne => ?_
  rw [List.filter_eq_nil_iff]
  intro target htarget hpt
  have hname : other.name = host.name :=
    (name_of_mem_expandDiscoveredTarget htarget).symm.trans (hp target hpt)
  exact hne (file.eq_of_name hhost hother hname)

variable {key : TargetSession}

theorem targetMap_expand (hhost : host ∈ file.targets) (hkey : host.name = key.target) :
    targetMap (expandDiscoveredSessions (file.load rest) outcomes) key =
      ((expandDiscoveredTarget host (outcomes host.name)).filter
        fun target => targetKey target = key).getLast? := by
  rw [targetMap, filter_expandDiscoveredSessions hhost]
  intro target htarget
  have heq : targetKey target = key := of_decide_eq_true htarget
  rw [hkey, ← heq, targetKey]

theorem mem_of_targetMap {config : Config ρ} {target : Target}
    (h : targetMap config key = some target) : target ∈ config.targets ∧ targetKey target = key := by
  have hmem := List.mem_of_getLast? h
  exact ⟨List.mem_of_mem_filter hmem, of_decide_eq_true (List.mem_filter.mp hmem).2⟩

theorem targetMap_of_none (hhost : host ∈ file.targets) (hkey : host.name = key.target)
    (hnone : expandDiscoveredTarget host (outcomes host.name) = [host]) :
    targetMap (expandDiscoveredSessions (file.load rest) outcomes) key =
      if targetKey host = key then some host else none := by
  rw [targetMap_expand hhost hkey, hnone]
  by_cases heq : targetKey host = key
  · simp [heq]
  · simp [heq]

theorem nodup_of_sorted (hle : sessions.Pairwise fun left right => left.name ≤ right.name)
    (hne : sessions.IsChain fun left right => left.name ≠ right.name) :
    (sessions.map DiscoveredSession.name).Nodup := by
  have hlt : (sessions.map DiscoveredSession.name).IsChain (· < ·) := by
    rw [List.isChain_map, List.isChain_iff_getElem]
    intro i hi
    have hle' := List.isChain_iff_getElem.mp hle.isChain i hi
    have hne' := List.isChain_iff_getElem.mp hne i hi
    exact lt_of_le_of_ne hle' hne'
  exact hlt.pairwise.imp fun h => h.ne

theorem discoverSessionsOnce_nodup (listed : List DiscoveredSession) :
    ((discoverSessionsOnce listed).map DiscoveredSession.name).Nodup := by
  refine nodup_of_sorted (List.Pairwise.sublist (List.destutter_sublist _ _) ?_)
    (List.isChain_destutter _ _)
  refine (List.pairwise_mergeSort ?_ ?_ _).imp fun hle => of_decide_eq_true hle
  · intro a b c hab hbc
    exact decide_eq_true (le_trans (of_decide_eq_true hab) (of_decide_eq_true hbc))
  · intro a b
    simpa using le_total a.name b.name

theorem discoverRunningSessions_nodup (h : discoverRunningSessions host outcome = some sessions) :
    (sessions.map DiscoveredSession.name).Nodup := by
  cases outcome with
  | answered listing =>
    obtain ⟨executable, -, hsome⟩ := List.exists_of_findSome?_eq_some h
    obtain ⟨listed, -, rfl⟩ := Option.map_eq_some_iff.mp hsome
    exact discoverSessionsOnce_nodup listed
  | timedOut => cases h
  | taskFailed => cases h

/-- A session that a host lists is the host's target of that name. -/
theorem targetMap_of_listed {session : DiscoveredSession} (hhost : host ∈ file.targets)
    (hkey : host.name = key.target)
    (hdiscover : host.discoverSessions = true)
    (hsessions : discoverRunningSessions host (outcomes host.name) = some sessions)
    (hsession : session ∈ sessions) (hname : session.name = key.session) :
    targetMap (expandDiscoveredSessions (file.load rest) outcomes) key =
      some (targetForDiscoveredSession host session) := by
  rw [targetMap_expand hhost hkey, expandDiscoveredTarget_of_some hdiscover hsessions]
  have hlisted : targetForDiscoveredSession host session ∈
      (sessions.map (targetForDiscoveredSession host)).filter
        fun target => targetKey target = key := by
    refine List.mem_filter.mpr ⟨List.mem_map_of_mem hsession, decide_eq_true ?_⟩
    rw [targetKey, targetForDiscoveredSession, Target.sessionName, hkey, Option.getD_some, hname]
  cases hlast : ((sessions.map (targetForDiscoveredSession host)).filter
      fun target => targetKey target = key).getLast? with
  | none =>
    rw [List.getLast?_eq_none_iff] at hlast
    rw [hlast] at hlisted
    cases hlisted
  | some last =>
    have hmem := List.mem_filter.mp (List.mem_of_getLast? hlast)
    obtain ⟨other, hother, rfl⟩ := List.mem_map.mp hmem.1
    have hsame : other.name = session.name := by
      have heq : targetKey (targetForDiscoveredSession host other) = key := of_decide_eq_true hmem.2
      rw [hname, ← heq]
      rfl
    rw [List.inj_on_of_nodup_map (discoverRunningSessions_nodup hsessions) hother hsession hsame]

end Expansion

/-! ### What a refresh costs -/

namespace Daemon

variable {ρ : Type} [DecidableEq ρ] {file : ConfigFile} {s : Daemon ρ}

/-- The active configuration is what the file expanded to at some time, and every route is to a
target it has. -/
structure Adopted (file : ConfigFile) (s : Daemon ρ) : Prop where
  expanded : ∃ rest outcomes, s.active = expandDiscoveredSessions (file.load rest) outcomes
  targets : s.targets = targetMap s.active
  routes : ∀ pane ∈ s.routes, ∃ target, s.targets pane.targetSession = some target

/-- A host answered, and no session it has is the one of a target, at the target's socket. A target
without a socket has whichever its session has. -/
def Gone (outcomes : String → Outcome) (host target : Target) : Prop :=
  host.discoverSessions = true ∧
    ∃ sessions, discoverRunningSessions host (outcomes host.name) = some sessions ∧
      ∀ session ∈ sessions, session.name = target.sessionName →
        target.socket ≠ none ∧ target.socket ≠ some session.socketPath

/-- A refresh closes a route only if its session is gone from its host, and takes nothing from a
host that did not answer. -/
def Spares (file : ConfigFile) (s : Daemon ρ) : Event ρ → Prop
  | .reconfigured (some (rest, outcomes)) =>
      let after := s.step file (.reconfigured (some (rest, outcomes)))
      (∀ pane ∈ s.routes, pane ∉ after.1.routes →
        ∃ host ∈ file.targets, host.name = pane.target ∧
          ∃ target, s.targets pane.targetSession = some target ∧ Gone outcomes host target) ∧
      ∀ host ∈ file.targets, host.discoverSessions = true →
        discoverRunningSessions host (outcomes host.name) = none →
        ∀ key target, s.targets key = some target → key.target = host.name →
          after.1.targets key = some target
  | .reconfigured none => (s.step file (.reconfigured none)).1 = s
  | _ => True

/-- A host that has answered with a session answers again, and one that has not does not answer with
the session of a route that was opened meanwhile. -/
def Answers (file : ConfigFile) (s : Daemon ρ) : Event ρ → Prop
  | .reconfigured (some (_, outcomes)) =>
      ∀ host ∈ file.targets, host.discoverSessions = true →
        ((∃ target ∈ s.active.targets, target.name = host.name ∧ target ≠ host) →
          discoverRunningSessions host (outcomes host.name) ≠ none) ∧
        (host ∈ s.active.targets → (∃ pane ∈ s.routes, pane.targetSession = targetKey host) →
          discoverRunningSessions host (outcomes host.name) = none ∨ Gone outcomes host host)
  | _ => True

omit [DecidableEq ρ] in
theorem adopted_start (rest : ρ) (outcomes : String → Outcome) :
    (start file rest outcomes).Adopted file where
  expanded := ⟨rest, outcomes, rfl⟩
  targets := rfl
  routes pane hpane := by cases hpane

theorem reconfigure_spec (s : Daemon ρ) (hs : s.targets = targetMap s.active)
    (refreshed : Config ρ) :
    (s.reconfigure (some refreshed)).1 = ⟨refreshed, targetMap refreshed,
      s.routes.filter (· ∉ invalidatedRoutes s.active refreshed s.routes)⟩ := by
  rw [reconfigure]
  split
  · next hsame =>
    have hnone : invalidatedRoutes s.active refreshed s.routes = [] := by
      simp [invalidatedRoutes, hsame]
    rw [hnone, hsame, ← hs]
    simp
  · rfl

omit [DecidableEq ρ] in
theorem mem_invalidatedRoutes {previous next : Config ρ} {routed : List PaneId} {pane : PaneId}
    (htransport : previous.transport = next.transport) :
    pane ∈ invalidatedRoutes previous next routed ↔ pane ∈ routed ∧
      targetMap previous pane.targetSession ≠ targetMap next pane.targetSession := by
  simp [invalidatedRoutes, htransport]

theorem Adopted.mem_routes (h : s.Adopted file) {rest : ρ} {outcomes : String → Outcome}
    {pane : PaneId} :
    pane ∈ (s.step file (.reconfigured (some (rest, outcomes)))).1.routes ↔
      pane ∈ s.routes ∧ s.targets pane.targetSession =
        (s.step file (.reconfigured (some (rest, outcomes)))).1.targets pane.targetSession := by
  obtain ⟨before, answers, hactive⟩ := h.expanded
  have htransport : s.active.transport =
      (expandDiscoveredSessions (file.load rest) outcomes).transport := by
    rw [hactive]
    rfl
  rw [Daemon.step, Option.map_some, reconfigure_spec s h.targets, h.targets]
  simp only [List.mem_filter, mem_invalidatedRoutes htransport]
  by_cases hmem : pane ∈ s.routes
  · simp [hmem]
  · simp [hmem]

omit [DecidableEq ρ] in
theorem Adopted.openRoute (h : s.Adopted file) (pane : PaneId) (spawned : Bool) :
    (s.openRoute pane spawned).Adopted file := by
  have hclosed : ∀ other ∈ s.routes.filter (· ≠ pane), ∃ target,
      s.targets other.targetSession = some target :=
    fun other hother => h.routes other (List.mem_of_mem_filter hother)
  rw [Daemon.openRoute]
  cases htarget : s.targets pane.targetSession with
  | none => exact ⟨h.expanded, h.targets, hclosed⟩
  | some target =>
    refine ⟨h.expanded, h.targets, fun other hother => ?_⟩
    simp only at hother
    split at hother
    · rcases List.mem_cons.mp hother with rfl | hother
      · exact ⟨target, htarget⟩
      · exact hclosed other hother
    · exact hclosed other hother

theorem Adopted.step (h : s.Adopted file) (event : Event ρ) :
    (s.step file event).1.Adopted file := by
  cases event with
  | openRoute pane spawned => exact h.openRoute pane spawned
  | routeClosed pane =>
    exact ⟨h.expanded, h.targets, fun other hother => h.routes other (List.mem_of_mem_filter hother)⟩
  | reconfigured loaded =>
    cases loaded with
    | none => exact h
    | some loaded =>
      obtain ⟨rest, outcomes⟩ := loaded
      have hroutes : ∀ pane ∈ (s.step file (.reconfigured (some (rest, outcomes)))).1.routes,
          ∃ target, (s.step file (.reconfigured (some (rest, outcomes)))).1.targets
            pane.targetSession = some target := by
        intro pane hpane
        obtain ⟨hmem, hsame⟩ := h.mem_routes.mp hpane
        obtain ⟨target, htarget⟩ := h.routes pane hmem
        exact ⟨target, hsame ▸ htarget⟩
      refine ⟨?_, ?_, hroutes⟩
      · rw [Daemon.step, Option.map_some, reconfigure_spec s h.targets]
        exact ⟨rest, outcomes, rfl⟩
      · rw [Daemon.step, Option.map_some, reconfigure_spec s h.targets]

/-! ### The terminals a refresh spares -/

variable {rest : ρ} {outcomes : String → Outcome} {host : Target}

omit [DecidableEq ρ] in
/-- A target that is adopted is one its host expanded to. -/
theorem Adopted.host_of_target (h : s.Adopted file) {key : TargetSession} {target : Target}
    (htarget : s.targets key = some target) : targetKey target = key ∧
      ∃ host ∈ file.targets, host.name = key.target ∧ target ∈ s.active.targets ∧
        (target = host ∨ host.discoverSessions = true ∧ target.discoverSessions = false ∧
          ∃ socket, target.socket = some socket ∧
            target = { host with
              discoverSessions := false
              session := some key.session
              socket := some socket }) := by
  obtain ⟨before, answers, hactive⟩ := h.expanded
  rw [h.targets] at htarget
  obtain ⟨hmem, hkey⟩ := mem_of_targetMap htarget
  have hexpanded := hmem
  rw [hactive, expandDiscoveredSessions_targets] at hexpanded
  obtain ⟨host, hhost, hexpands⟩ := List.mem_flatMap.mp hexpanded
  have hname : host.name = key.target := by
    rw [← name_of_mem_expandDiscoveredTarget hexpands, ← hkey]
    rfl
  refine ⟨hkey, host, hhost, hname, hmem, ?_⟩
  rcases mem_expandDiscoveredTarget hexpands with
    hsame | ⟨hdiscover, hfixed, -, session, socket, hsession, hsocket, heq⟩
  · exact .inl hsame
  · have hkeyed : session = key.session := by
      rw [← hkey, targetKey, Target.sessionName, hsession]
      rfl
    exact .inr ⟨hdiscover, hfixed, socket, hsocket, hkeyed ▸ heq⟩

omit [DecidableEq ρ] in
theorem Adopted.mem_active (h : s.Adopted file) (hhost : host ∈ file.targets) :
    ∃ answer, ∀ target ∈ s.active.targets, target.name = host.name →
      target ∈ expandDiscoveredTarget host answer := by
  obtain ⟨before, answers, hactive⟩ := h.expanded
  refine ⟨answers host.name, fun target hmem hname => ?_⟩
  rw [hactive, expandDiscoveredSessions_targets] at hmem
  obtain ⟨other, hother, hexpands⟩ := List.mem_flatMap.mp hmem
  have hothername : other.name = host.name := by
    rw [← hname, name_of_mem_expandDiscoveredTarget hexpands]
  rw [file.eq_of_name hhost hother hothername] at hexpands
  exact hexpands

omit [DecidableEq ρ] in
theorem Adopted.exists_of_mem (h : s.Adopted file) {target : Target}
    (hmem : target ∈ s.active.targets) : ∃ last, s.targets (targetKey target) = some last := by
  rw [h.targets, targetMap]
  cases hlast : (s.active.targets.filter fun other => targetKey other = targetKey target).getLast? with
  | none =>
    rw [List.getLast?_eq_none_iff, List.filter_eq_nil_iff] at hlast
    exact absurd (decide_eq_true rfl) (hlast target hmem)
  | some last => exact ⟨last, rfl⟩

theorem Adopted.targets_refreshed (h : s.Adopted file) :
    (s.step file (.reconfigured (some (rest, outcomes)))).1.targets =
      targetMap (expandDiscoveredSessions (file.load rest) outcomes) := by
  rw [Daemon.step, Option.map_some, reconfigure_spec s h.targets]

/-- Hosts that answer as they should cost nobody a terminal. -/
theorem Adopted.spares_of_answers (h : s.Adopted file)
    (hanswers : Answers file s (.reconfigured (some (rest, outcomes)))) :
    Spares file s (.reconfigured (some (rest, outcomes))) := by
  -- Of a host that does not answer nothing is known but what it was configured with.
  have hsilent : ∀ host ∈ file.targets, host.discoverSessions = true →
      discoverRunningSessions host (outcomes host.name) = none →
      ∀ key target, s.targets key = some target → host.name = key.target →
        targetMap (expandDiscoveredSessions (file.load rest) outcomes) key = some target := by
    intro host hhost hdiscover hnone key target htarget hname
    obtain ⟨hkey, other, hother, hothername, hmem, -⟩ := h.host_of_target htarget
    have htargetname : target.name = host.name := by
      rw [hname, ← hkey]
      rfl
    have hself : target = host := by
      by_contra hne
      exact (hanswers host hhost hdiscover).1 ⟨target, hmem, htargetname, hne⟩ hnone
    rw [targetMap_of_none hhost hname (expandDiscoveredTarget_of_none hnone), ← hself, if_pos hkey]
  constructor
  · intro pane hpane hclosed
    obtain ⟨target, htarget⟩ := h.routes pane hpane
    obtain ⟨hkey, host, hhost, hname, hmem, hfrom⟩ := h.host_of_target htarget
    have hchanged : s.targets pane.targetSession ≠
        targetMap (expandDiscoveredSessions (file.load rest) outcomes) pane.targetSession := by
      intro hsame
      exact hclosed (h.mem_routes.mpr ⟨hpane, h.targets_refreshed ▸ hsame⟩)
    rw [htarget] at hchanged
    refine ⟨host, hhost, hname, target, htarget, ?_⟩
    cases hdiscover : host.discoverSessions with
    | false =>
      have hself : target = host := by
        rcases hfrom with hself | ⟨htrue, -⟩
        · exact hself
        · exact absurd (htrue.symm.trans hdiscover) (by decide)
      rw [targetMap_of_none hhost hname (expandDiscoveredTarget_of_not_discover _ hdiscover),
        ← hself, if_pos hkey] at hchanged
      exact absurd rfl hchanged
    | true =>
      cases hsessions : discoverRunningSessions host (outcomes host.name) with
      | none => exact absurd (hsilent host hhost hdiscover hsessions _ target htarget hname).symm hchanged
      | some sessions =>
        refine ⟨hdiscover, sessions, hsessions, fun session hsession hlisted => ?_⟩
        rcases hfrom with rfl | ⟨-, -, socket, hsocket, heq⟩
        · -- The route was opened for want of an answer.
          rcases (hanswers target hhost hdiscover).2 hmem ⟨pane, hpane, hkey.symm⟩ with hnone | hgone
          · cases hnone.symm.trans hsessions
          · obtain ⟨-, others, hothers, hgone⟩ := hgone
            obtain rfl := Option.some.inj (hothers.symm.trans hsessions)
            exact hgone session hsession hlisted
        · rw [hsocket]
          refine ⟨by simp, fun hsame => hchanged ?_⟩
          have hsession_name : session.name = pane.targetSession.session := by
            rw [hlisted, ← hkey]
            rfl
          rw [targetMap_of_listed hhost hname hdiscover hsessions hsession hsession_name, heq,
            targetForDiscoveredSession, hsession_name, Option.some.inj hsame]
  · intro host hhost hdiscover hnone key target htarget hname
    rw [h.targets_refreshed]
    exact hsilent host hhost hdiscover hnone key target htarget hname.symm

theorem Adopted.answers_of_spares (h : s.Adopted file)
    (hspares : Spares file s (.reconfigured (some (rest, outcomes)))) :
    Answers file s (.reconfigured (some (rest, outcomes))) := by
  obtain ⟨hclosed, hkeeps⟩ := hspares
  rw [h.targets_refreshed] at hkeeps
  intro host hhost hdiscover
  obtain ⟨answer, hactive⟩ := h.mem_active hhost
  constructor
  · rintro ⟨target, hmem, hname, hne⟩ hnone
    -- What the host answered with before is lost with its silence.
    have hfixed := (expandDiscoveredTarget_eq answer).resolve_left
      (fun hall => hne (List.mem_singleton.mp (hall ▸ hactive target hmem hname)))
    obtain ⟨last, hlast⟩ := h.exists_of_mem hmem
    obtain ⟨hkey, -⟩ := h.host_of_target hlast
    have hlastname : last.name = host.name := by
      rw [← hname]
      exact congrArg TargetSession.target hkey
    have hlastmem : last ∈ s.active.targets := (mem_of_targetMap (h.targets ▸ hlast)).1
    have hkept := hkeeps host hhost hdiscover hnone _ last hlast hname
    rw [targetMap_of_none hhost hname.symm (expandDiscoveredTarget_of_none hnone)] at hkept
    split at hkept
    · have hself : host = last := Option.some.inj hkept
      have hfalse := hfixed last (hactive last hlastmem hlastname)
      rw [← hself, hdiscover] at hfalse
      cases hfalse
    · cases hkept
  · rintro hmem ⟨pane, hpane, hkey⟩
    cases hsessions : discoverRunningSessions host (outcomes host.name) with
    | none => exact .inl rfl
    | some sessions =>
      right
      have hname : host.name = pane.targetSession.target := by rw [hkey]; rfl
      -- It has not answered before, so the route is to the configured target.
      have hall := (expandDiscoveredTarget_eq answer).resolve_right
        (fun hfixed => by
          have hfalse := hfixed host (hactive host hmem rfl)
          rw [hdiscover] at hfalse
          cases hfalse)
      obtain ⟨target, htarget⟩ := h.routes pane hpane
      have hself : target = host := by
        obtain ⟨htargetkey, -⟩ := h.host_of_target htarget
        have htargetname : target.name = host.name := by
          rw [hname, ← htargetkey]
          rfl
        have htargetmem : target ∈ s.active.targets := (mem_of_targetMap (h.targets ▸ htarget)).1
        exact List.mem_singleton.mp (hall ▸ hactive target htargetmem htargetname)
      rw [hself] at htarget
      have hlost : pane ∉ (s.step file (.reconfigured (some (rest, outcomes)))).1.routes := by
        intro hkept
        have hsame := (h.mem_routes.mp hkept).2
        rw [htarget, h.targets_refreshed, targetMap_expand hhost hname,
          expandDiscoveredTarget_of_some hdiscover hsessions] at hsame
        obtain ⟨session, -, heq⟩ := List.mem_map.mp
          (List.mem_of_mem_filter (List.mem_of_getLast? hsame.symm))
        have hfalse : host.discoverSessions = false := by rw [← heq]; rfl
        rw [hdiscover] at hfalse
        cases hfalse
      obtain ⟨other, hother, hothername, target', htarget', hgone⟩ := hclosed pane hpane hlost
      obtain rfl := file.eq_of_name hhost hother (hothername.trans hname.symm)
      obtain rfl := Option.some.inj (htarget'.symm.trans htarget)
      exact hgone

theorem Adopted.spares_iff_answers (h : s.Adopted file) (event : Event ρ) :
    Spares file s event ↔ Answers file s event := by
  cases event with
  | openRoute pane spawned => exact Iff.rfl
  | routeClosed pane => exact Iff.rfl
  | reconfigured loaded =>
    cases loaded with
    | none => exact iff_of_true rfl trivial
    | some loaded => exact ⟨h.answers_of_spares, h.spares_of_answers⟩

end Daemon

/-- **Refreshes cost nobody a terminal, as long as the hosts answer.** However often the file is
re-read, no refresh closes a route whose session its host still has, and none takes a session from a
host that does not answer, exactly if every host that has answered with a session answers again and
none answers first with a session that has a route already. What a host's targets expand to is a
matter of its own answer in any case. -/
theorem refreshes_cost_no_terminal {ρ : Type} [DecidableEq ρ] (file : ConfigFile) (rest : ρ)
    (outcomes : String → Outcome) (events : List (Event ρ)) :
    (AllSteps (Daemon.step file) (Daemon.Spares file) (Daemon.start file rest outcomes) events ↔
      AllSteps (Daemon.step file) (Daemon.Answers file) (Daemon.start file rest outcomes) events) ∧
    ∀ host ∈ file.targets, ∀ (other : ρ) (answers : String → Outcome),
      answers host.name = outcomes host.name →
      (expandDiscoveredSessions (file.load other) answers).targets.filter (·.name = host.name) =
        (expandDiscoveredSessions (file.load rest) outcomes).targets.filter
          (·.name = host.name) := by
  constructor
  · have hstep : ∀ (s : Daemon ρ) event, s.Adopted file → (s.step file event).1.Adopted file :=
      fun s event h => h.step event
    have hiff : ∀ (s : Daemon ρ) event, s.Adopted file →
        (Daemon.Spares file s event ↔ Daemon.Answers file s event) :=
      fun s event h => h.spares_iff_answers event
    exact allSteps_congr hstep hiff (Daemon.adopted_start rest outcomes) events
  · intro host hhost other answers hsame
    rw [filter_expandDiscoveredSessions hhost fun target h => of_decide_eq_true h,
      filter_expandDiscoveredSessions hhost fun target h => of_decide_eq_true h, hsame]

/-- One host, whose sessions are discovered. -/
def box : Target := ⟨"box", some "box.lan", true, none, none, ["herdr"], [], []⟩

def boxFile : ConfigFile := ⟨⟨"ssh", true, 5, 10⟩, [box], by decide⟩

/-- The host has a session `main`. -/
def boxAnswers (_ : String) : Outcome :=
  .answered fun _ => some [⟨"main", true, "/run/herdr/main", "/run/herdr/main.sock"⟩]

def boxBefore : Daemon Unit :=
  (exec (Daemon.step boxFile) (Daemon.start boxFile () boxAnswers)
    [.openRoute ⟨"box", "main", "1"⟩ true]).1

/-- A host that fails to answer once loses its routes and its targets. -/
theorem a_silent_host_loses_its_routes :
    ⟨"box", "main", "1"⟩ ∈ boxBefore.routes ∧
      boxBefore.targets ⟨"box", "main"⟩ ≠ none ∧
      discoverRunningSessions box .timedOut = none ∧
      (boxBefore.step boxFile (.reconfigured (some ((), fun _ => .timedOut)))).1.routes = [] ∧
      (boxBefore.step boxFile (.reconfigured (some ((), fun _ => .timedOut)))).1.targets
        ⟨"box", "main"⟩ = none := by
  decide +kernel

end Refresh

end SuperHerdr
