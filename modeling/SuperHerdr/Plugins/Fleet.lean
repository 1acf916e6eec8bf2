import Mathlib
import SuperHerdr.Protocol.Model

/-!
# Plugins across a fleet

Every host says which plugins it has, and where each came from. A plugin's source is its identity
across hosts; its id is not. What one host has is written down as a lockfile, and a plan says which
commands would bring other hosts to it.

A lockfile takes every plugin that has a source and a reference, and a plan compares each with the
first plugin a host has of that source. So the plan that brings a host to its own lockfile is empty
exactly if every plugin of the host has the reference of the first with its source
(`plans_settle_iff`). What a plan does about a lockfile whose sources are distinct is as it should
be, and carrying it out settles it.
-/

namespace SuperHerdr

namespace Plugins

open Std

/-- How many plugins one host may report before the answer is refused. -/
def MAX_PLUGINS_PER_TARGET : ℕ := 256

/-- Where a plugin came from, which is the only identity it has across hosts. -/
structure PluginSource where
  kind : String
  owner : String
  repo : String
  subdir : Option String
deriving DecidableEq

instance : Ord PluginSource :=
  ⟨compareLex (compareOn PluginSource.kind) (compareLex (compareOn PluginSource.owner)
    (compareLex (compareOn PluginSource.repo) (compareOn PluginSource.subdir)))⟩

instance : TransOrd PluginSource :=
  inferInstanceAs (TransCmp (compareLex (compareOn PluginSource.kind)
    (compareLex (compareOn PluginSource.owner)
      (compareLex (compareOn PluginSource.repo) (compareOn PluginSource.subdir)))))

instance : LawfulEqOrd PluginSource where
  eq_of_compare {a b} h := by
    obtain ⟨hkind, hrest⟩ := compareLex_eq_eq.mp h
    obtain ⟨howner, hrest⟩ := compareLex_eq_eq.mp hrest
    obtain ⟨hrepo, hsubdir⟩ := compareLex_eq_eq.mp hrest
    cases a
    cases b
    rw [PluginSource.mk.injEq]
    exact ⟨LawfulEqOrd.eq_of_compare hkind, LawfulEqOrd.eq_of_compare howner,
      LawfulEqOrd.eq_of_compare hrepo, LawfulEqOrd.eq_of_compare hsubdir⟩

instance : ToString PluginSource :=
  ⟨fun source =>
    source.owner ++ "/" ++ source.repo ++ source.subdir.elim "" fun subdir => "/" ++ subdir⟩

/-- What `herdr plugin install` would be given. -/
def PluginSource.installArgument (self : PluginSource) : String := toString self

structure InstalledPlugin where
  /-- Server-local, and never compared across hosts. -/
  pluginId : String
  name : String
  version : String
  enabled : Bool
  source : Option PluginSource
  requestedRef : Option String
  resolvedCommit : Option String
  warnings : List String
deriving DecidableEq

/-- What a plugin is pinned to: the commit when there is one, because a tag can be moved. -/
def InstalledPlugin.reference (self : InstalledPlugin) : Option String :=
  self.resolvedCommit.or self.requestedRef

/-- What every reachable host reported, and what the others said instead. -/
structure Inventory where
  installed : ExtTreeMap TargetSession (List InstalledPlugin)
  errors : ExtTreeMap TargetSession String

/-- One plugin somebody wants, pinned to something that will not move. -/
structure LockedPlugin where
  source : PluginSource
  reference : String
  version : String
deriving DecidableEq

structure Lockfile where
  plugins : List LockedPlugin
deriving DecidableEq

inductive PlanAction
  | install
  | update
deriving DecidableEq

/-- One command somebody would run, and why. -/
structure PlanStep where
  target : TargetSession
  source : PluginSource
  action : PlanAction
  «from» : Option String
  «to» : String
  command : String
deriving DecidableEq

/-! ### What a host reports -/

structure ListedSource where
  kind : Option String
  owner : Option String
  repo : Option String
  subdir : Option String
  requestedRef : Option String
  resolvedCommit : Option String

structure ListedPlugin where
  pluginId : String
  name : String
  version : String
  enabled : Bool
  source : Option ListedSource
  warnings : List String

structure PluginList where
  kind : String
  plugins : List ListedPlugin

/-- A text of no more than 256 characters, none of which is a control character. -/
def bounded (value : String) : String :=
  String.ofList ((value.toList.map fun character =>
    if isControl character then ' ' else character).take 256)

/-- A source is an identity only when it is complete. -/
def ListedSource.complete (self : ListedSource) : Option PluginSource := do
  some ⟨bounded (← self.kind), bounded (← self.owner), bounded (← self.repo),
    self.subdir.map bounded⟩

def ListedPlugin.installed (self : ListedPlugin) : InstalledPlugin where
  pluginId := bounded self.pluginId
  name := bounded self.name
  version := bounded self.version
  enabled := self.enabled
  requestedRef := (self.source.bind ListedSource.requestedRef).map bounded
  resolvedCommit := (self.source.bind ListedSource.resolvedCommit).map bounded
  source := self.source.bind ListedSource.complete
  warnings := (self.warnings.take 8).map bounded

/-- What a host's answer says it has. An answer that is no plugin list is `none`. -/
def parseInstalled (answer : Option PluginList) : Except String (List InstalledPlugin) :=
  match answer with
  | none => .error "Herdr returned an invalid plugin list"
  | some listed =>
      if listed.kind ≠ "plugin_list" then
        .error "Herdr returned an unexpected plugin list response"
      else if listed.plugins.length > MAX_PLUGINS_PER_TARGET then
        .error s!"Herdr reported more than {MAX_PLUGINS_PER_TARGET} plugins"
      else .ok (listed.plugins.map ListedPlugin.installed)

/-! ### Lockfiles and plans -/

/-- The plugin a host has of a source, as far as a plan looks. -/
def held (installed : List InstalledPlugin) (source : PluginSource) : Option InstalledPlugin :=
  installed.find? fun plugin => plugin.source = some source

/-- What a host has a source at. -/
def heldAt (installed : List InstalledPlugin) (source : PluginSource) : Option String :=
  (held installed source).bind InstalledPlugin.reference

def InstalledPlugin.locked (self : InstalledPlugin) : Option LockedPlugin := do
  some ⟨← self.source, ← self.reference, self.version⟩

namespace Inventory

variable (self : Inventory)

/-- What one host has, as the set to reproduce elsewhere. -/
def lockfile (host : TargetSession) : Option Lockfile :=
  (self.installed[host]?).map fun plugins => ⟨plugins.filterMap InstalledPlugin.locked⟩

/-- What to do about one plugin on a host that has these. -/
def planStep (target : TargetSession) (installed : List InstalledPlugin) (locked : LockedPlugin) :
    Option PlanStep :=
  if heldAt installed locked.source = some locked.reference then none
  else some {
    target
    source := locked.source
    action := if (held installed locked.source).isSome then .update else .install
    «from» := (held installed locked.source).map InstalledPlugin.version
    «to» := locked.reference
    command :=
      s!"herdr plugin install {locked.source.installArgument} --ref {locked.reference} -y" }

/-- What it would take to bring the named targets to this lockfile. A target that was not reached is
not planned for. -/
def plan (lockfile : Lockfile) (targets : List TargetSession) : List PlanStep :=
  targets.flatMap fun target =>
    match self.installed[target]? with
    | none => []
    | some installed => lockfile.plugins.filterMap (planStep target installed)

/-! ### What a plan says -/

variable {self}

variable {locked : LockedPlugin} {installed : List InstalledPlugin}

theorem planStep_eq_none_iff {target : TargetSession} : planStep target installed locked = none ↔
      heldAt installed locked.source = some locked.reference := by
  rw [planStep]
  split
  · next hsame => simp [hsame]
  · next hother => simp [hother]

theorem of_planStep {target : TargetSession} {step : PlanStep}
    (h : planStep target installed locked = some step) :
    step.target = target ∧ step.source = locked.source ∧ step.to = locked.reference := by
  rw [planStep] at h
  split at h
  · cases h
  · cases h
    exact ⟨rfl, rfl, rfl⟩

variable {lockfile : Lockfile}

theorem mem_plan {targets : List TargetSession} {step : PlanStep} :
    step ∈ self.plan lockfile targets ↔
      ∃ target ∈ targets, ∃ installed, self.installed[target]? = some installed ∧
        ∃ locked ∈ lockfile.plugins, planStep target installed locked = some step := by
  rw [plan, List.mem_flatMap]
  refine exists_congr fun target => and_congr_right fun _ => ?_
  cases self.installed[target]? with
  | none => simp
  | some installed => simp [List.mem_filterMap]

/-- What a target that answered has a source at. -/
def reference (self : Inventory) (target : TargetSession) (source : PluginSource) : Option String :=
  (self.installed[target]?).bind fun installed => heldAt installed source

section Answered

variable {target : TargetSession} {installed : List InstalledPlugin}

theorem answered_of_getElem? (h : self.installed[target]? = some installed) :
    target ∈ self.installed := by
  rw [ExtTreeMap.mem_iff_isSome_getElem?, h]
  rfl

theorem not_answered_of_getElem? (h : self.installed[target]? = none) :
    target ∉ self.installed := by
  rw [ExtTreeMap.mem_iff_isSome_getElem?, h]
  exact Bool.false_ne_true

theorem reference_of_getElem? (h : self.installed[target]? = some installed)
    (source : PluginSource) : self.reference target source = heldAt installed source := by
  rw [Inventory.reference, h, Option.bind_some]

end Answered

theorem plan_eq_nil_iff {targets : List TargetSession} : self.plan lockfile targets = [] ↔
      ∀ target ∈ targets, target ∈ self.installed → ∀ locked ∈ lockfile.plugins,
        self.reference target locked.source = some locked.reference := by
  rw [plan, List.flatMap_eq_nil_iff]
  refine forall₂_congr fun target _ => ?_
  cases hinstalled : self.installed[target]? with
  | none => simp [not_answered_of_getElem? hinstalled]
  | some installed =>
    simp [answered_of_getElem? hinstalled, reference_of_getElem? hinstalled,
      List.filterMap_eq_nil_iff, planStep_eq_none_iff]

/-! ### A host and its own lockfile -/

/-- Every plugin with a source and a reference has the reference of the first with that source. -/
def AtFirst (installed : List InstalledPlugin) : Prop :=
  ∀ plugin ∈ installed, ∀ source reference, plugin.source = some source →
    plugin.reference = some reference →
    ∃ first, installed.find? (fun other => other.source = some source) = some first ∧
      first.reference = some reference

theorem plan_lockfile_eq_nil_iff {host : TargetSession}
    (hanswered : self.installed[host]? = some installed)
    (hlockfile : self.lockfile host = some lockfile) :
    self.plan lockfile [host] = [] ↔ AtFirst installed := by
  have hplugins : lockfile.plugins = installed.filterMap InstalledPlugin.locked := by
    rw [Inventory.lockfile, hanswered, Option.map_some, Option.some.injEq] at hlockfile
    rw [← hlockfile]
  have hmem := answered_of_getElem? hanswered
  have hat (source : PluginSource) (reference : String) :
      self.reference host source = some reference ↔
        ∃ first, installed.find? (fun other => other.source = some source) = some first ∧
          first.reference = some reference := by
    rw [reference_of_getElem? hanswered, heldAt, Option.bind_eq_some_iff]
    rfl
  rw [plan_eq_nil_iff, hplugins]
  simp only [List.mem_singleton, forall_eq, hmem, true_implies, List.mem_filterMap, hat]
  constructor
  · intro h plugin hplugin source reference hsource hreference
    refine h ⟨source, reference, plugin.version⟩ ⟨plugin, hplugin, ?_⟩
    simp [InstalledPlugin.locked, hsource, hreference]
  · rintro h locked ⟨plugin, hplugin, hlocked⟩
    simp only [InstalledPlugin.locked, Option.bind_eq_bind, Option.bind_eq_some_iff,
      Option.some.injEq] at hlocked
    obtain ⟨source, hsource, reference, hreference, rfl⟩ := hlocked
    exact h plugin hplugin source reference hsource hreference

/-! ### A lockfile whose sources are distinct -/

/-- The steps of a plan that are about one source on one target. -/
def about (target : TargetSession) (source : PluginSource) (steps : List PlanStep) :
    List PlanStep :=
  steps.filter fun step => step.target = target ∧ step.source = source

theorem filter_source {plugins : List LockedPlugin}
    (hdistinct : (plugins.map LockedPlugin.source).Nodup)
    (hlocked : locked ∈ plugins) :
    (plugins.filter fun other => other.source = locked.source) = [locked] := by
  induction plugins with
  | nil => cases hlocked
  | cons first plugins ih =>
    rw [List.map_cons, List.nodup_cons] at hdistinct
    rcases List.mem_cons.mp hlocked with rfl | hlocked
    · -- no other plugin of the lockfile has the source
      have hrest : (plugins.filter fun other => other.source = locked.source) = [] := by
        refine List.filter_eq_nil_iff.mpr fun other hother hsame => hdistinct.1 ?_
        rw [← of_decide_eq_true hsame]
        exact List.mem_map_of_mem hother
      rw [List.filter_cons_of_pos (by simp), hrest]
    · have hother : first.source ≠ locked.source := fun hsame =>
        hdistinct.1 (hsame ▸ List.mem_map_of_mem hlocked)
      rw [List.filter_cons_of_neg (by simpa using hother), ih hdistinct.2 hlocked]

/-- What a plan says about one plugin on one target, among what it says about that target. -/
theorem about_filterMap_planStep {plugins : List LockedPlugin}
    (hdistinct : (plugins.map LockedPlugin.source).Nodup)
    (hlocked : locked ∈ plugins) (target : TargetSession) (installed : List InstalledPlugin) :
    about target locked.source (plugins.filterMap (planStep target installed)) =
      (planStep target installed locked).toList := by
  -- the steps about a source are those of the plugins that have it
  have hfilter : about target locked.source (plugins.filterMap (planStep target installed)) =
      (plugins.filter fun other => other.source = locked.source).filterMap
        (planStep target installed) := by
    rw [about, List.filter_filterMap, List.filterMap_filter]
    refine List.filterMap_congr fun other _ => ?_
    cases hstep : planStep target installed other with
    | none => simp
    | some step =>
      obtain ⟨htarget, hsource, -⟩ := of_planStep hstep
      simp [Option.filter, htarget, hsource]
  rw [hfilter, filter_source hdistinct hlocked, List.filterMap_cons]
  cases planStep target installed locked <;> rfl

/-- **One step for each plugin that differs or is missing**, for every time its target is named, and
none for a target that did not answer. -/
theorem length_about_plan (hdistinct : (lockfile.plugins.map LockedPlugin.source).Nodup)
    (hlocked : locked ∈ lockfile.plugins) (target : TargetSession) (targets : List TargetSession) :
    (about target locked.source (self.plan lockfile targets)).length =
      if target ∈ self.installed ∧ self.reference target locked.source ≠ some locked.reference then
        targets.count target
      else 0 := by
  induction targets with
  | nil => simp [plan, about]
  | cons first targets ih =>
    have hcons : self.plan lockfile (first :: targets) =
        self.plan lockfile [first] ++ self.plan lockfile targets := by
      simp [plan]
    rw [hcons, about, List.filter_append, List.length_append, ← about, ← about, ih, List.count_cons]
    -- the target that comes first is the one that is counted, or another
    by_cases hfirst : first = target
    · subst hfirst
      cases hinstalled : self.installed[first]? with
      | none => simp [plan, about, not_answered_of_getElem? hinstalled]
      | some installed =>
        have hone : self.plan lockfile [first] =
            lockfile.plugins.filterMap (planStep first installed) := by
          simp [plan, hinstalled]
        rw [hone, about_filterMap_planStep hdistinct hlocked, reference_of_getElem? hinstalled]
        simp only [answered_of_getElem? hinstalled, true_and, beq_self_eq_true, if_true, planStep]
        split <;> simp_all [Nat.add_comm]
    · have hnone : about target locked.source (self.plan lockfile [first]) = [] := by
        refine List.filter_eq_nil_iff.mpr fun step hstep hsame => hfirst ?_
        obtain ⟨other, hother, installed, -, plugin, -, hplan⟩ := mem_plan.mp hstep
        rw [← List.mem_singleton.mp hother, ← (of_planStep hplan).1]
        exact (of_decide_eq_true hsame).1
      simp [hnone, hfirst]

/-! ### A plan that is carried out -/

/-- What a host has once a step was carried out: every plugin of the source is at the reference, and
if there was none then one is there now. -/
def carriedOut (step : PlanStep) (installed : List InstalledPlugin) : List InstalledPlugin :=
  if (held installed step.source).isSome then
    installed.map fun plugin =>
      if plugin.source = some step.source then
        { plugin with requestedRef := some step.to, resolvedCommit := some step.to }
      else plugin
  else installed ++ [⟨step.source.repo, step.source.repo, "", true, some step.source, some step.to,
    some step.to, []⟩]

def carryOut (self : Inventory) (step : PlanStep) : Inventory :=
  { self with installed := self.installed.modify step.target (carriedOut step) }

theorem heldAt_carriedOut (step : PlanStep) (installed : List InstalledPlugin)
    (source : PluginSource) :
    heldAt (carriedOut step installed) source =
      if source = step.source then some step.to else heldAt installed source := by
  rw [carriedOut]
  cases hheld : held installed step.source with
  | none =>
    simp only [Option.isSome_none, Bool.false_eq_true, if_false]
    split
    · next hsame =>
      subst hsame
      rw [held] at hheld
      simp [heldAt, held, List.find?_append, hheld, InstalledPlugin.reference]
    · next hother => simp [heldAt, held, List.find?_append, Ne.symm hother]
  | some plugin =>
    simp only [Option.isSome_some, if_true, heldAt, held, List.find?_map]
    -- The sources stay as they are, so that the same plugin is found.
    have hsame : ((fun other : InstalledPlugin => decide (other.source = some source)) ∘
        fun other => if other.source = some step.source then
          { other with requestedRef := some step.to, resolvedCommit := some step.to }
        else other) = fun other => decide (other.source = some source) := by
      funext other
      simp only [Function.comp_apply]
      split <;> rfl
    rw [hsame]
    split
    · next hsource =>
      subst hsource
      have hfound := List.find?_some hheld
      rw [held] at hheld
      rw [hheld]
      simp [of_decide_eq_true hfound, InstalledPlugin.reference]
    · next hother =>
      cases hfind : installed.find? fun other => decide (other.source = some source) with
      | none => rfl
      | some other =>
        have hsource : other.source = some source := by simpa using List.find?_some hfind
        simp [hsource, hother]

theorem reference_carryOut (step : PlanStep) (target : TargetSession) (source : PluginSource) :
    (self.carryOut step).reference target source =
      if target = step.target ∧ source = step.source ∧ target ∈ self.installed then some step.to
      else self.reference target source := by
  rw [reference, carryOut, ExtTreeMap.getElem?_modify]
  by_cases htarget : step.target = target
  · subst htarget
    rw [if_pos (by simp)]
    rw [reference]
    cases hinstalled : self.installed[step.target]? with
    | none => simp [not_answered_of_getElem? hinstalled]
    | some installed => simp [heldAt_carriedOut, answered_of_getElem? hinstalled]
  · rw [if_neg (by simpa using htarget), if_neg fun h => htarget h.1.symm]
    rfl

theorem mem_carryOut (step : PlanStep) (target : TargetSession) :
    target ∈ (self.carryOut step).installed ↔ target ∈ self.installed := by
  rw [carryOut, ExtTreeMap.mem_modify]

/-- Steps that agree on what a source is brought to bring it there, if one of them is about it, and
leave it there. -/
theorem reference_foldl_carryOut {steps : List PlanStep} {target : TargetSession}
    {source : PluginSource} {reference : String}
    (hagree : ∀ step ∈ steps, step.target = target → step.source = source → step.to = reference)
    (hmem : target ∈ self.installed)
    (hreach : self.reference target source = some reference ∨
      ∃ step ∈ steps, step.target = target ∧ step.source = source) :
    (steps.foldl carryOut self).reference target source = some reference := by
  induction steps generalizing self with
  | nil => simpa using hreach
  | cons step steps ih =>
    rw [List.foldl_cons]
    refine ih (fun other hother => hagree other (List.mem_cons_of_mem _ hother))
      ((mem_carryOut step target).mpr hmem) ?_
    rw [reference_carryOut]
    -- the first step brings the source there, or leaves it to the others
    by_cases habout : target = step.target ∧ source = step.source ∧ target ∈ self.installed
    · rw [if_pos habout,
        hagree step List.mem_cons_self habout.1.symm habout.2.1.symm]
      exact .inl rfl
    · rw [if_neg habout]
      refine hreach.imp_right ?_
      rintro ⟨other, hother, htarget, hsource⟩
      rcases List.mem_cons.mp hother with rfl | hother
      · exact absurd ⟨htarget.symm, hsource.symm, hmem⟩ habout
      · exact ⟨other, hother, htarget, hsource⟩

theorem mem_foldl_carryOut (steps : List PlanStep) (target : TargetSession) :
    target ∈ (steps.foldl carryOut self).installed ↔ target ∈ self.installed := by
  induction steps generalizing self with
  | nil => rfl
  | cons step steps ih => rw [List.foldl_cons, ih, mem_carryOut]

/-- **A plan that was carried out leaves nothing to plan.** -/
theorem plan_carriedOut
    (hdistinct : (lockfile.plugins.map LockedPlugin.source).Nodup) (targets : List TargetSession) :
    ((self.plan lockfile targets).foldl carryOut self).plan lockfile targets = [] := by
  refine plan_eq_nil_iff.mpr fun target htarget hmem locked hlocked => ?_
  rw [mem_foldl_carryOut] at hmem
  refine reference_foldl_carryOut ?_ hmem ?_
  · intro step hstep _ hsource
    obtain ⟨_, -, _, -, other, hother, hplan⟩ := mem_plan.mp hstep
    obtain ⟨-, hsame, hto⟩ := of_planStep hplan
    rw [hto, List.inj_on_of_nodup_map hdistinct hother hlocked (hsame.symm.trans hsource)]
  · -- what is there already needs no step
    by_cases hthere : self.reference target locked.source = some locked.reference
    · exact .inl hthere
    · right
      obtain ⟨installed, hinstalled⟩ := ExtTreeMap.mem_iff_isSome_getElem?.mp hmem |>
        Option.isSome_iff_exists.mp
      have hdiffers : heldAt installed locked.source ≠ some locked.reference := by
        rwa [reference_of_getElem? hinstalled] at hthere
      have hplanned : planStep target installed locked ≠ none :=
        planStep_eq_none_iff.not.mpr hdiffers
      obtain ⟨step, hstep⟩ := Option.ne_none_iff_exists'.mp hplanned
      obtain ⟨htarget', hsource, -⟩ := of_planStep hstep
      exact ⟨step, mem_plan.mpr ⟨target, htarget, installed, hinstalled, locked, hlocked, hstep⟩,
        htarget', hsource⟩

/-! ### What plans promise -/

/-- The plan that brings a host to its own lockfile is empty. -/
def DescribesItsHost (self : Inventory) (host : TargetSession) : Prop :=
  ∀ lockfile, self.lockfile host = some lockfile → self.plan lockfile [host] = []

/-- What is as it should be about a lockfile whose sources are distinct: a step for each plugin that
differs or is missing, once for every time its target is named and not at all for a target that did
not answer; no other steps; and nothing left to do once they are carried out. -/
structure Settles (inventory : Inventory) (lockfile : Lockfile) (targets : List TargetSession) :
    Prop where
  each : ∀ locked ∈ lockfile.plugins, ∀ target,
    (about target locked.source (inventory.plan lockfile targets)).length =
      if target ∈ inventory.installed ∧
          inventory.reference target locked.source ≠ some locked.reference then
        targets.count target
      else 0
  only : ∀ step ∈ inventory.plan lockfile targets,
    step.target ∈ targets ∧ step.target ∈ inventory.installed ∧
      ∃ locked ∈ lockfile.plugins, step.source = locked.source ∧ step.to = locked.reference
  settled : ((inventory.plan lockfile targets).foldl carryOut inventory).plan lockfile targets = []

/-- **When a lockfile describes its own host**: exactly if every plugin of the host has the
reference of the first with its source. What a plan does about a lockfile whose sources are distinct
is as it should be. -/
theorem plans_settle_iff (self : Inventory) (host : TargetSession) (pinned : Lockfile)
    (targets : List TargetSession) :
    (self.DescribesItsHost host ↔
        ∀ installed, self.installed[host]? = some installed → AtFirst installed) ∧
      ((pinned.plugins.map LockedPlugin.source).Nodup → self.Settles pinned targets) := by
  constructor
  · rw [DescribesItsHost]
    cases hinstalled : self.installed[host]? with
    | none => simp [lockfile, hinstalled]
    | some installed =>
      have hlockfile : self.lockfile host =
          some ⟨installed.filterMap InstalledPlugin.locked⟩ := by
        rw [lockfile, hinstalled, Option.map_some]
      simp only [hlockfile, Option.some.injEq, forall_eq']
      exact plan_lockfile_eq_nil_iff hinstalled hlockfile
  · intro hdistinct
    refine ⟨fun locked hlocked target => length_about_plan hdistinct hlocked target targets, ?_,
      plan_carriedOut hdistinct targets⟩
    intro step hstep
    obtain ⟨target, htarget, installed, hinstalled, locked, hlocked, hplan⟩ := mem_plan.mp hstep
    obtain ⟨rfl, hsource, hto⟩ := of_planStep hplan
    exact ⟨htarget, answered_of_getElem? hinstalled, locked, hlocked, hsource, hto⟩

/-- A host that reports one source twice, at two commits. -/
def reportedTwice : PluginList where
  kind := "plugin_list"
  plugins := ["a1", "b2"].map fun commit =>
    ⟨"review", "review", "1.0", true,
      some ⟨some "github", some "acme", some "review", none, some "v1", some commit⟩, []⟩

/-- A fleet of one host. -/
def ofHost (host : TargetSession) (installed : List InstalledPlugin) : Inventory :=
  ⟨(∅ : ExtTreeMap TargetSession (List InstalledPlugin)).insert host installed, ∅⟩

/-- The plan for a host at its own lockfile would install one of its plugins again. -/
theorem a_source_that_is_reported_twice :
    ∃ installed, parseInstalled (some reportedTwice) = .ok installed ∧
      ¬(ofHost ⟨"box", "default"⟩ installed).DescribesItsHost ⟨"box", "default"⟩ := by
  refine ⟨reportedTwice.plugins.map ListedPlugin.installed, rfl, fun h => ?_⟩
  have hnil := h _ rfl
  revert hnil
  decide +kernel

end Inventory

end Plugins

end SuperHerdr
