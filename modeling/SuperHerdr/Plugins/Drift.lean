import SuperHerdr.Plugins.Fleet

/-!
# What differs across a fleet

The plugins of all hosts that answered are grouped by their source, and each group is looked at for
hosts that lack the plugin, for versions and commits that differ, and for copies that are switched
off. Every host files its copies under their sources, and files a copy over another of the same
source.

So where no host lists one source twice, each item of `drift` is there exactly if what it says is
so, and names exactly the hosts it is so of (`mem_drift_iff`). Hosts that did not answer have no
part in it.
-/

namespace SuperHerdr

namespace Plugins

open Std

/-- A difference worth a person's attention. -/
inductive Drift
  /-- Installed somewhere and not somewhere else. -/
  | missing (source : PluginSource) (presentOn absentFrom : List TargetSession)
  /-- Installed at different versions. -/
  | version (source : PluginSource) (versions : ExtTreeMap String (List TargetSession))
  /-- Same version, different commit. -/
  | commit (source : PluginSource) (commits : ExtTreeMap String (List TargetSession))
  /-- Present but switched off somewhere. -/
  | disabled (source : PluginSource) (disabledOn : List TargetSession)
  /-- A plugin with no source, which exists only where it was linked. -/
  | localOnly (target : TargetSession) (pluginId name : String)

abbrev Holders := ExtTreeMap TargetSession InstalledPlugin

/-- File a plugin of a target under its source. -/
def file (grouped : ExtTreeMap PluginSource Holders) (entry : TargetSession × InstalledPlugin) :
    ExtTreeMap PluginSource Holders :=
  match entry.2.source with
  | none => grouped
  | some source => grouped.insert source ((grouped[source]?.getD ∅).insert entry.1 entry.2)

/-- Targets listed under what each of them is at. -/
def gather (entries : List (String × TargetSession)) : ExtTreeMap String (List TargetSession) :=
  entries.foldl (fun gathered entry =>
    gathered.alter entry.1 fun targets => some (targets.getD [] ++ [entry.2])) ∅

/-! ### The copies of one source -/

namespace Holders

variable (self : Holders)

def versions : ExtTreeMap String (List TargetSession) :=
  gather (self.toList.map fun (target, plugin) => (plugin.version, target))

def commits : ExtTreeMap String (List TargetSession) :=
  gather (self.toList.filterMap fun (target, plugin) =>
    plugin.resolvedCommit.map fun commit => (commit, target))

def disabledOn : List TargetSession :=
  (self.toList.filter fun (_, plugin) => !plugin.enabled).map Prod.fst

/-- What differs about one source. A version difference already explains a commit difference. -/
def drift (answered : List TargetSession) (source : PluginSource) : List Drift :=
  let absentFrom := answered.filter fun target => !self.contains target
  (if absentFrom ≠ [] then [.missing source self.keys absentFrom] else []) ++
    (if self.versions.size > 1 then [.version source self.versions]
      else if self.commits.size > 1 then [.commit source self.commits]
      else []) ++
    if self.disabledOn ≠ [] then [.disabled source self.disabledOn] else []

end Holders

namespace Inventory

variable (self : Inventory)

/-- Everything that is installed, host by host. -/
def copies : List (TargetSession × InstalledPlugin) :=
  self.installed.toList.flatMap fun (target, plugins) => plugins.map fun plugin => (target, plugin)

/-- Everything installed from one source, by the target it is on. -/
def bySource : ExtTreeMap PluginSource Holders := self.copies.foldl file ∅

/-- What differs across the hosts that answered. -/
def drift : List Drift :=
  (self.bySource.toList.flatMap fun (source, holders) =>
      holders.drift self.installed.keys source) ++
    self.copies.filterMap fun (target, plugin) =>
      if plugin.source = none then some (.localOnly target plugin.pluginId plugin.name) else none

end Inventory

/-! ### What is filed where -/

theorem getElem?_file (grouped : ExtTreeMap PluginSource Holders)
    (entry : TargetSession × InstalledPlugin) (source : PluginSource) (target : TargetSession) :
    ((file grouped entry)[source]?.getD ∅)[target]? =
      if entry.1 = target ∧ entry.2.source = some source then some entry.2
      else (grouped[source]?.getD ∅)[target]? := by
  rw [file]
  cases hsource : entry.2.source with
  | none => simp
  | some other =>
    simp only [Option.some.injEq]
    rw [ExtTreeMap.getElem?_insert]
    by_cases hsame : other = source
    · subst hsame
      rw [if_pos (by simp), Option.getD_some, ExtTreeMap.getElem?_insert]
      simp
    · rw [if_neg (by simpa using hsame), if_neg fun h => hsame h.2]

theorem getElem?_foldl_file (entries : List (TargetSession × InstalledPlugin))
    (source : PluginSource) (target : TargetSession) :
    ((entries.foldl file ∅)[source]?.getD ∅)[target]? =
      ((entries.filter fun entry => entry.1 = target ∧ entry.2.source = some source).getLast?).map
        Prod.snd := by
  induction entries using List.reverseRecOn with
  | nil => simp
  | append_singleton entries entry ih =>
    rw [List.foldl_append, List.foldl_cons, List.foldl_nil, getElem?_file, List.filter_append]
    by_cases hfiled : entry.1 = target ∧ entry.2.source = some source
    · simp [hfiled]
    · rw [if_neg hfiled, ih]
      simp [hfiled]

theorem mem_foldl_file (entries : List (TargetSession × InstalledPlugin)) (source : PluginSource) :
    source ∈ entries.foldl file ∅ ↔ ∃ entry ∈ entries, entry.2.source = some source := by
  induction entries using List.reverseRecOn with
  | nil => simp
  | append_singleton entries entry ih =>
    rw [List.foldl_append, List.foldl_cons, List.foldl_nil, file]
    cases hsource : entry.2.source with
    | none => simp [ih, hsource]
    | some other => simp [ExtTreeMap.mem_insert, ih, hsource, or_comm]

/-- A list, unless it is empty. -/
def filled {α : Type} (list : List α) : Option (List α) := if list = [] then none else some list

@[simp] theorem getD_filled {α : Type} (list : List α) : (filled list).getD [] = list := by
  cases list <;> rfl

theorem getElem?_gather (entries : List (String × TargetSession)) (key : String) :
    (gather entries)[key]? = filled ((entries.filter fun entry => entry.1 = key).map Prod.snd) := by
  induction entries using List.reverseRecOn with
  | nil => simp [gather, filled]
  | append_singleton entries entry ih =>
    have hlast : gather (entries ++ [entry]) =
        (gather entries).alter entry.1 fun targets => some (targets.getD [] ++ [entry.2]) := by
      simp only [gather, List.foldl_append, List.foldl_cons, List.foldl_nil]
    rw [hlast, ExtTreeMap.getElem?_alter, List.filter_append, List.map_append]
    by_cases hkey : entry.1 = key
    · subst hkey
      rw [if_pos (by simp), ih, getD_filled]
      simp [filled]
    · rw [if_neg (by simpa using hkey), ih]
      simp [hkey]

theorem one_lt_size_iff {β : Type} (map : ExtTreeMap String β) :
    1 < map.size ↔ ∃ a ∈ map, ∃ b ∈ map, a ≠ b := by
  have hnodup := map.nodup_keys
  rw [← ExtTreeMap.length_keys]
  simp only [← ExtTreeMap.mem_keys (t := map)]
  match map.keys, hnodup with
  | [], _ => simp
  | [a], _ => simp
  | a :: b :: keys, hnodup =>
    have hne : a ≠ b := by
      rintro rfl
      simp at hnodup
    refine iff_of_true (by simp) ⟨a, by simp, b, by simp, hne⟩

/-! ### Tidy inventories -/

theorem eq_of_source {installed : List InstalledPlugin}
    (hnodup : (installed.filterMap InstalledPlugin.source).Nodup) {source : PluginSource}
    {plugin other : InstalledPlugin} (hplugin : plugin ∈ installed) (hother : other ∈ installed)
    (hsource : plugin.source = some source) (hsame : other.source = some source) :
    plugin = other := by
  induction installed with
  | nil => cases hplugin
  | cons first installed ih =>
    have hapart (rest : InstalledPlugin) (hrest : rest ∈ installed)
        (hfirst : first.source = some source) : rest.source ≠ some source := by
      intro hagain
      rw [List.filterMap_cons_some hfirst, List.nodup_cons] at hnodup
      exact hnodup.1 (List.mem_filterMap.mpr ⟨rest, hrest, hagain⟩)
    have hlater : (installed.filterMap InstalledPlugin.source).Nodup := by
      cases hfirst : first.source with
      | none => rwa [List.filterMap_cons_none hfirst] at hnodup
      | some _ =>
        rw [List.filterMap_cons_some hfirst] at hnodup
        exact (List.nodup_cons.mp hnodup).2
    rcases List.mem_cons.mp hplugin with rfl | hplugin' <;>
      rcases List.mem_cons.mp hother with rfl | hother'
    · rfl
    · exact absurd hsame (hapart _ hother' hsource)
    · exact absurd hsource (hapart _ hplugin' hsame)
    · exact ih hlater hplugin' hother'

namespace Inventory

variable {self : Inventory}

/-- No host lists one source twice. -/
def Tidy (self : Inventory) : Prop :=
  ∀ (target : TargetSession) (installed : List InstalledPlugin),
    self.installed[target]? = some installed → (installed.filterMap InstalledPlugin.source).Nodup

/-- The plugin that a host has of a source. -/
def copy (self : Inventory) (target : TargetSession) (source : PluginSource) :
    Option InstalledPlugin :=
  (self.installed[target]?).bind fun installed => held installed source

/-- The hosts whose copy of a source is such. -/
def hosts (self : Inventory) (source : PluginSource) (such : InstalledPlugin → Bool) :
    List TargetSession :=
  self.installed.keys.filter fun target => (self.copy target source).any such

/-- The hosts that answered and have no copy of a source. -/
def lacking (self : Inventory) (source : PluginSource) : List TargetSession :=
  self.installed.keys.filter fun target => (self.copy target source).isNone

variable {plugin : InstalledPlugin}

theorem mem_copies {target : TargetSession} : (target, plugin) ∈ self.copies ↔
      ∃ installed, self.installed[target]? = some installed ∧ plugin ∈ installed := by
  rw [copies, List.mem_flatMap]
  constructor
  · rintro ⟨⟨other, installed⟩, hentry, hplugin⟩
    obtain ⟨_, hmem, hsame⟩ := List.mem_map.mp hplugin
    cases hsame
    exact ⟨installed, ExtTreeMap.mem_toList_iff_getElem?_eq_some.mp hentry, hmem⟩
  · rintro ⟨installed, hinstalled, hplugin⟩
    exact ⟨(target, installed), ExtTreeMap.mem_toList_iff_getElem?_eq_some.mpr hinstalled,
      List.mem_map_of_mem hplugin⟩

theorem answered_of_copy {target : TargetSession} {source : PluginSource}
    (h : self.copy target source = some plugin) : target ∈ self.installed := by
  obtain ⟨installed, hinstalled, -⟩ := Option.bind_eq_some_iff.mp h
  exact answered_of_getElem? hinstalled

theorem copy_eq_some_iff (htidy : self.Tidy) {target : TargetSession} {source : PluginSource} :
    self.copy target source = some plugin ↔
      (target, plugin) ∈ self.copies ∧ plugin.source = some source := by
  rw [copy, Option.bind_eq_some_iff, mem_copies]
  constructor
  · rintro ⟨installed, hinstalled, hheld⟩
    exact ⟨⟨installed, hinstalled, List.mem_of_find?_eq_some hheld⟩,
      by simpa using List.find?_some hheld⟩
  · rintro ⟨⟨installed, hinstalled, hplugin⟩, hsource⟩
    refine ⟨installed, hinstalled, ?_⟩
    cases hheld : held installed source with
    | none =>
      have hnone := List.find?_eq_none.mp hheld plugin hplugin
      exact absurd (decide_eq_true hsource) hnone
    | some other =>
      have hsame : other.source = some source := by simpa using List.find?_some hheld
      rw [eq_of_source (htidy target installed hinstalled) hplugin
        (List.mem_of_find?_eq_some hheld) hsource hsame]

theorem getElem?_bySource (htidy : self.Tidy) (source : PluginSource) (target : TargetSession) :
    (self.bySource[source]?.getD ∅)[target]? = self.copy target source := by
  rw [bySource, getElem?_foldl_file]
  -- in a tidy inventory there is one entry at most that is filed there
  have hmem (entry : TargetSession × InstalledPlugin) :
      entry ∈ self.copies.filter (fun entry => entry.1 = target ∧ entry.2.source = some source) ↔
        entry.1 = target ∧ self.copy target source = some entry.2 := by
    rw [List.mem_filter, decide_eq_true_eq, copy_eq_some_iff htidy]
    constructor
    · rintro ⟨hentry, rfl, hsource⟩
      exact ⟨rfl, hentry, hsource⟩
    · rintro ⟨rfl, hentry, hsource⟩
      exact ⟨hentry, rfl, hsource⟩
  cases hlast : (self.copies.filter fun entry =>
      entry.1 = target ∧ entry.2.source = some source).getLast? with
  | none =>
    rw [List.getLast?_eq_none_iff] at hlast
    cases hcopy : self.copy target source with
    | none => rfl
    | some plugin =>
      have hentry := (hmem (target, plugin)).mpr ⟨rfl, hcopy⟩
      rw [hlast] at hentry
      cases hentry
  | some entry => rw [((hmem entry).mp (List.mem_of_getLast? hlast)).2, Option.map_some]

theorem mem_bySource (htidy : self.Tidy) (source : PluginSource) :
    source ∈ self.bySource ↔ ∃ target plugin, self.copy target source = some plugin := by
  rw [bySource, mem_foldl_file]
  simp only [Prod.exists, copy_eq_some_iff htidy]

/-! ### The copies of one source -/

section Copies

variable {holders : Holders} {source : PluginSource}

theorem targets_ext {left right : List TargetSession}
    (hleft : left.Pairwise fun a b => compare a b = .lt)
    (hright : right.Pairwise fun a b => compare a b = .lt) (h : ∀ t, t ∈ left ↔ t ∈ right) :
    left = right := by
  have hnodup {list : List TargetSession} (hlist : list.Pairwise fun a b => compare a b = .lt) :
      list.Nodup := hlist.imp fun {a b} hlt hsame => by
    subst hsame
    simp at hlt
  refine List.Perm.eq_of_pairwise (fun a b _ _ hlt hgt => ?_) hleft hright
    ((List.perm_ext_iff_of_nodup (hnodup hleft) (hnodup hright)).mpr h)
  rw [OrientedCmp.gt_of_lt hlt] at hgt
  cases hgt

theorem mem_hosts {such : InstalledPlugin → Bool} {target : TargetSession} :
    target ∈ self.hosts source such ↔
      ∃ plugin, self.copy target source = some plugin ∧ such plugin = true := by
  rw [hosts, List.mem_filter, Option.any_eq_true]
  refine and_iff_right_of_imp ?_
  rintro ⟨plugin, hcopy, -⟩
  exact ExtTreeMap.mem_keys.mpr (answered_of_copy hcopy)

theorem exists_copy_of_hosts {such : InstalledPlugin → Bool}
    (h : self.hosts source such ≠ []) :
    ∃ target plugin, self.copy target source = some plugin ∧ such plugin = true := by
  obtain ⟨target, htarget⟩ := List.exists_mem_of_ne_nil _ h
  exact ⟨target, mem_hosts.mp htarget⟩

/-- The targets of the copies that are such, as the map of a source has them. -/
theorem map_filter_toList (hcopies : ∀ target, holders[target]? = self.copy target source)
    (such : InstalledPlugin → Bool) :
    (holders.toList.filter fun entry => such entry.2).map Prod.fst = self.hosts source such := by
  refine targets_ext ?_ (self.installed.ordered_keys.filter _) fun target => ?_
  · refine List.Pairwise.sublist ?_ holders.ordered_keys
    rw [← ExtTreeMap.map_fst_toList_eq_keys]
    exact List.filter_sublist.map Prod.fst
  · rw [mem_hosts, List.mem_map]
    constructor
    · rintro ⟨⟨other, plugin⟩, hentry, rfl⟩
      obtain ⟨hentry, hsuch⟩ := List.mem_filter.mp hentry
      rw [ExtTreeMap.mem_toList_iff_getElem?_eq_some, hcopies] at hentry
      exact ⟨plugin, hentry, hsuch⟩
    · rintro ⟨plugin, hcopy, hsuch⟩
      refine ⟨(target, plugin), List.mem_filter.mpr ⟨?_, hsuch⟩, rfl⟩
      rw [ExtTreeMap.mem_toList_iff_getElem?_eq_some, hcopies, hcopy]

theorem getElem?_versions (hcopies : ∀ target, holders[target]? = self.copy target source)
    (version : String) :
    holders.versions[version]? =
      filled (self.hosts source fun plugin => plugin.version = version) := by
  rw [Holders.versions, getElem?_gather, ← map_filter_toList hcopies, List.filter_map, List.map_map]
  rfl

theorem getElem?_commits (hcopies : ∀ target, holders[target]? = self.copy target source)
    (commit : String) :
    holders.commits[commit]? =
      filled (self.hosts source fun plugin => plugin.resolvedCommit = some commit) := by
  rw [Holders.commits, getElem?_gather, ← map_filter_toList hcopies]
  congr 1
  induction holders.toList with
  | nil => rfl
  | cons entry entries ih =>
    cases hcommit : entry.2.resolvedCommit with
    | none => simpa [hcommit] using ih
    | some other =>
      by_cases hsame : other = commit <;> simpa [hcommit, hsame] using ih

theorem filled_ne_none_iff {α : Type} {list : List α} : filled list ≠ none ↔ list ≠ [] := by
  cases list <;> simp [filled]

/-- More than one of what a source's copies are filed under. -/
theorem one_lt_size_iff_of_filled {map : ExtTreeMap String (List TargetSession)}
    (at? : InstalledPlugin → Option String)
    (hmap : ∀ key, map[key]? = filled (self.hosts source fun plugin => at? plugin = some key)) :
    1 < map.size ↔ ∃ target plugin other another, self.copy target source = some plugin ∧
      self.copy other source = some another ∧ ∃ a ∈ at? plugin, ∃ b ∈ at? another, a ≠ b := by
  have hmem (key : String) : key ∈ map ↔
      ∃ target plugin, self.copy target source = some plugin ∧ at? plugin = some key := by
    rw [ExtTreeMap.mem_iff_isSome_getElem?, hmap, Option.isSome_iff_ne_none, filled_ne_none_iff]
    constructor
    · intro hne
      obtain ⟨target, plugin, hcopy, hkey⟩ := exists_copy_of_hosts hne
      exact ⟨target, plugin, hcopy, of_decide_eq_true hkey⟩
    · rintro ⟨target, plugin, hcopy, hkey⟩
      exact List.ne_nil_of_mem (mem_hosts.mpr ⟨plugin, hcopy, decide_eq_true hkey⟩)
  rw [one_lt_size_iff]
  constructor
  · rintro ⟨a, ha, b, hb, hne⟩
    obtain ⟨target, plugin, hcopy, ha⟩ := (hmem a).mp ha
    obtain ⟨other, another, hcopy', hb⟩ := (hmem b).mp hb
    exact ⟨target, plugin, other, another, hcopy, hcopy', a, ha, b, hb, hne⟩
  · rintro ⟨target, plugin, other, another, hcopy, hcopy', a, ha, b, hb, hne⟩
    exact ⟨a, (hmem a).mpr ⟨target, plugin, hcopy, ha⟩, b,
      (hmem b).mpr ⟨other, another, hcopy', hb⟩, hne⟩

end Copies

/-! ### What is reported -/

/-- Two hosts have a source at different versions. -/
def VersionsDiffer (self : Inventory) (source : PluginSource) : Prop :=
  ∃ target plugin other another, self.copy target source = some plugin ∧
    self.copy other source = some another ∧ plugin.version ≠ another.version

/-- Two hosts have a source at different commits. -/
def CommitsDiffer (self : Inventory) (source : PluginSource) : Prop :=
  ∃ target plugin other another, self.copy target source = some plugin ∧
    self.copy other source = some another ∧
    ∃ a ∈ plugin.resolvedCommit, ∃ b ∈ another.resolvedCommit, a ≠ b

/-- What an item of the report says is so, and of exactly the hosts that it names. -/
def IsSo (self : Inventory) : Drift → Prop
  | .missing source presentOn absentFrom =>
      presentOn = self.hosts source (fun _ => true) ∧ absentFrom = self.lacking source ∧
        presentOn ≠ [] ∧ absentFrom ≠ []
  | .version source versions =>
      (∀ version, versions[version]? =
        filled (self.hosts source fun plugin => plugin.version = version)) ∧
        self.VersionsDiffer source
  | .commit source commits =>
      (∀ commit, commits[commit]? =
        filled (self.hosts source fun plugin => plugin.resolvedCommit = some commit)) ∧
        self.CommitsDiffer source ∧ ¬self.VersionsDiffer source
  | .disabled source disabledOn =>
      disabledOn = self.hosts source (fun plugin => !plugin.enabled) ∧ disabledOn ≠ []
  | .localOnly target pluginId name =>
      ∃ plugin, (target, plugin) ∈ self.copies ∧ plugin.source = none ∧
        pluginId = plugin.pluginId ∧ name = plugin.name

section Source

variable {holders : Holders} {source : PluginSource}

theorem one_lt_size_versions_iff (hcopies : ∀ target, holders[target]? = self.copy target source) :
    1 < holders.versions.size ↔ self.VersionsDiffer source := by
  have hversions := one_lt_size_iff_of_filled (fun plugin => some plugin.version)
    (fun key => by simpa using getElem?_versions hcopies key)
  simpa [VersionsDiffer] using hversions

theorem mem_drift_of_holders (answered : List TargetSession) (item : Drift) :
    item ∈ holders.drift answered source ↔
      ((answered.filter fun target => !holders.contains target) ≠ [] ∧ item = .missing source
          holders.keys (answered.filter fun target => !holders.contains target)) ∨
        (1 < holders.versions.size ∧ item = .version source holders.versions) ∨
        (¬1 < holders.versions.size ∧ 1 < holders.commits.size ∧
          item = .commit source holders.commits) ∨
        (holders.disabledOn ≠ [] ∧ item = .disabled source holders.disabledOn) := by
  rw [Holders.drift]
  by_cases hversions : 1 < holders.versions.size <;>
    by_cases hcommits : 1 < holders.commits.size <;>
    simp [List.mem_ite_nil_right, hversions, hcommits]

/-- The source an item is about. -/
def about? : Drift → Option PluginSource
  | .missing source _ _ | .version source _ | .commit source _ | .disabled source _ => some source
  | .localOnly .. => none

/-- The items about one source. -/
theorem mem_drift_of_source (hcopies : ∀ target, holders[target]? = self.copy target source)
    (hsome : ∃ target plugin, self.copy target source = some plugin) (item : Drift) :
    item ∈ holders.drift self.installed.keys source ↔
      self.IsSo item ∧ about? item = some source := by
  have hpresent : holders.keys = self.hosts source (fun _ => true) := by
    rw [← map_filter_toList hcopies, ← ExtTreeMap.map_fst_toList_eq_keys]
    simp
  -- the hosts that have a copy, and those that have none
  have hthere : self.hosts source (fun _ => true) ≠ [] := by
    obtain ⟨target, plugin, hcopy⟩ := hsome
    exact List.ne_nil_of_mem (mem_hosts.mpr ⟨plugin, hcopy, rfl⟩)
  have habsent : (self.installed.keys.filter fun target => !holders.contains target) =
      self.lacking source := by
    refine List.filter_congr fun target _ => ?_
    rw [← ExtTreeMap.isSome_getElem?_eq_contains, hcopies]
    cases self.copy target source <;> rfl
  have hversions := one_lt_size_versions_iff hcopies
  have hcommits : 1 < holders.commits.size ↔ self.CommitsDiffer source :=
    one_lt_size_iff_of_filled InstalledPlugin.resolvedCommit (getElem?_commits hcopies)
  have hdisabled : holders.disabledOn = self.hosts source (fun plugin => !plugin.enabled) :=
    map_filter_toList hcopies fun plugin => !plugin.enabled
  -- a map is determined by what is looked up in it
  have hgathered {map other : ExtTreeMap String (List TargetSession)}
      {such : String → InstalledPlugin → Bool}
      (hother : ∀ key, other[key]? = filled (self.hosts source (such key))) :
      map = other ↔ ∀ key, map[key]? = filled (self.hosts source (such key)) := by
    refine ⟨fun h key => by rw [h, hother], fun h => ?_⟩
    exact ExtTreeMap.ext_getElem? fun key => by rw [h, hother]
  rw [mem_drift_of_holders, hpresent, habsent, hdisabled, hversions, hcommits]
  cases item with
  | missing other presentOn absentFrom =>
    simp only [IsSo, about?, Drift.missing.injEq, reduceCtorEq, and_false, or_false,
      Option.some.injEq]
    constructor
    · rintro ⟨hlacking, rfl, rfl, rfl⟩
      exact ⟨⟨rfl, rfl, hthere, hlacking⟩, rfl⟩
    · rintro ⟨⟨rfl, rfl, -, hlacking⟩, rfl⟩
      exact ⟨hlacking, rfl, rfl, rfl⟩
  | version other versions =>
    simp only [IsSo, about?, Drift.version.injEq, reduceCtorEq, and_false, or_false, false_or,
      Option.some.injEq]
    constructor
    · rintro ⟨hdiffer, rfl, hmap⟩
      exact ⟨⟨(hgathered (getElem?_versions hcopies)).mp hmap, hdiffer⟩, rfl⟩
    · rintro ⟨⟨hmap, hdiffer⟩, rfl⟩
      exact ⟨hdiffer, rfl, (hgathered (getElem?_versions hcopies)).mpr hmap⟩
  | commit other commits =>
    simp only [IsSo, about?, Drift.commit.injEq, reduceCtorEq, and_false, or_false, false_or,
      Option.some.injEq]
    constructor
    · rintro ⟨hsame, hdiffer, rfl, hmap⟩
      exact ⟨⟨(hgathered (getElem?_commits hcopies)).mp hmap, hdiffer, hsame⟩, rfl⟩
    · rintro ⟨⟨hmap, hdiffer, hsame⟩, rfl⟩
      exact ⟨hsame, hdiffer, rfl, (hgathered (getElem?_commits hcopies)).mpr hmap⟩
  | disabled other disabledOn =>
    simp only [IsSo, about?, Drift.disabled.injEq, reduceCtorEq, and_false, false_or,
      Option.some.injEq]
    constructor
    · rintro ⟨hoff, rfl, rfl⟩
      exact ⟨⟨rfl, hoff⟩, rfl⟩
    · rintro ⟨⟨rfl, hoff⟩, rfl⟩
      exact ⟨hoff, rfl, rfl⟩
  | localOnly target pluginId name => simp [about?]

end Source

/-- What is so of a source is so of copies that there are. -/
theorem IsSo.copy {item : Drift} {source : PluginSource} (h : self.IsSo item)
    (habout : about? item = some source) :
    ∃ target plugin, self.copy target source = some plugin := by
  cases item with
  | missing other presentOn absentFrom =>
    obtain rfl := Option.some.inj habout
    obtain ⟨rfl, -, hne, -⟩ := h
    obtain ⟨target, plugin, hcopy, -⟩ := exists_copy_of_hosts hne
    exact ⟨target, plugin, hcopy⟩
  | version other versions =>
    obtain rfl := Option.some.inj habout
    obtain ⟨-, target, plugin, -, -, hcopy, -⟩ := h
    exact ⟨target, plugin, hcopy⟩
  | commit other commits =>
    obtain rfl := Option.some.inj habout
    obtain ⟨-, ⟨target, plugin, -, -, hcopy, -⟩, -⟩ := h
    exact ⟨target, plugin, hcopy⟩
  | disabled other disabledOn =>
    obtain rfl := Option.some.inj habout
    obtain ⟨rfl, hne⟩ := h
    obtain ⟨target, plugin, hcopy, -⟩ := exists_copy_of_hosts hne
    exact ⟨target, plugin, hcopy⟩
  | localOnly target pluginId name => cases habout

/-- **What the report says**: an item is in it exactly if what it says is so, of the hosts it names.
-/
theorem mem_drift_iff (htidy : self.Tidy) (item : Drift) : item ∈ self.drift ↔ self.IsSo item := by
  have hsource (source : PluginSource) (holders : Holders)
      (hfiled : self.bySource[source]? = some holders) :
      item ∈ holders.drift self.installed.keys source ↔
        self.IsSo item ∧ about? item = some source := by
    refine mem_drift_of_source (fun target => ?_) ?_ item
    · rw [← getElem?_bySource htidy, hfiled, Option.getD_some]
    · rw [← mem_bySource htidy, ExtTreeMap.mem_iff_isSome_getElem?, hfiled]
      rfl
  rw [drift, List.mem_append, List.mem_flatMap, List.mem_filterMap]
  cases habout : about? item with
  | some source =>
    constructor
    · rintro (⟨⟨other, holders⟩, hfiled, hitem⟩ | ⟨entry, -, hlocal⟩)
      · exact ((hsource other holders
          (ExtTreeMap.mem_toList_iff_getElem?_eq_some.mp hfiled)).mp hitem).1
      · obtain ⟨-, hitem⟩ := Option.ite_none_right_eq_some.mp hlocal
        rw [← Option.some.inj hitem] at habout
        cases habout
    · intro hso
      obtain ⟨holders, hfiled⟩ := Option.isSome_iff_exists.mp
        (ExtTreeMap.mem_iff_isSome_getElem?.mp ((mem_bySource htidy source).mpr (hso.copy habout)))
      exact .inl ⟨(source, holders), ExtTreeMap.mem_toList_iff_getElem?_eq_some.mpr hfiled,
        (hsource source holders hfiled).mpr ⟨hso, habout⟩⟩
  | none =>
    -- an item about no source is none of those that the sources give
    have hnone : ¬∃ entry ∈ self.bySource.toList,
        item ∈ Holders.drift entry.2 self.installed.keys entry.1 := by
      rintro ⟨⟨other, holders⟩, hfiled, hitem⟩
      have habout' := ((hsource other holders
        (ExtTreeMap.mem_toList_iff_getElem?_eq_some.mp hfiled)).mp hitem).2
      rw [habout] at habout'
      cases habout'
    rw [or_iff_right hnone]
    cases item with
    | missing | version | commit | disabled => cases habout
    | localOnly target pluginId name =>
      constructor
      · rintro ⟨⟨other, plugin⟩, hentry, hlocal⟩
        simp only [Option.ite_none_right_eq_some, Option.some.injEq, Drift.localOnly.injEq]
          at hlocal
        obtain ⟨hsourceless, rfl, rfl, rfl⟩ := hlocal
        exact ⟨plugin, hentry, hsourceless, rfl, rfl⟩
      · rintro ⟨plugin, hentry, hsourceless, rfl, rfl⟩
        exact ⟨(target, plugin), hentry, if_pos hsourceless⟩

/-! ### A fleet that agrees -/

/-- All hosts that answered have the same sources, each at one version, with no two different
commits known of it and no copy switched off, and no host has a plugin without a source. -/
structure Agreed (inventory : Inventory) : Prop where
  everywhere : ∀ source target other plugin, inventory.copy target source = some plugin →
    other ∈ inventory.installed → (inventory.copy other source).isSome = true
  version : ∀ source target other plugin another, inventory.copy target source = some plugin →
    inventory.copy other source = some another → plugin.version = another.version
  commit : ∀ source target other plugin another, inventory.copy target source = some plugin →
    inventory.copy other source = some another →
    ∀ a ∈ plugin.resolvedCommit, ∀ b ∈ another.resolvedCommit, a = b
  enabled : ∀ source target plugin, inventory.copy target source = some plugin →
    plugin.enabled = true
  sourced : ∀ target plugin, (target, plugin) ∈ inventory.copies → plugin.source ≠ none

theorem Agreed.not_isSo (h : self.Agreed) (item : Drift) : ¬self.IsSo item := by
  have hversion (source : PluginSource) : ¬self.VersionsDiffer source := by
    rintro ⟨target, plugin, other, another, hcopy, hcopy', hne⟩
    exact hne (h.version source target other plugin another hcopy hcopy')
  cases item with
  | missing source presentOn absentFrom =>
    rintro ⟨rfl, rfl, hpresent, habsent⟩
    obtain ⟨target, plugin, hcopy, -⟩ := exists_copy_of_hosts hpresent
    obtain ⟨other, hother⟩ := List.exists_mem_of_ne_nil _ habsent
    obtain ⟨hanswered, hnone⟩ := List.mem_filter.mp hother
    have hsome := h.everywhere source target other plugin hcopy (ExtTreeMap.mem_keys.mp hanswered)
    rw [Option.isNone_iff_eq_none.mp hnone] at hsome
    cases hsome
  | version source versions =>
    rintro ⟨-, hdiffer⟩
    exact hversion source hdiffer
  | commit source commits =>
    rintro ⟨-, ⟨target, plugin, other, another, hcopy, hcopy', a, ha, b, hb, hne⟩, -⟩
    exact hne (h.commit source target other plugin another hcopy hcopy' a ha b hb)
  | disabled source disabledOn =>
    rintro ⟨rfl, hoff⟩
    obtain ⟨target, plugin, hcopy, hdisabled⟩ := exists_copy_of_hosts hoff
    rw [h.enabled source target plugin hcopy] at hdisabled
    cases hdisabled
  | localOnly target pluginId name =>
    rintro ⟨plugin, hentry, hsourceless, -⟩
    exact h.sourced target plugin hentry hsourceless

theorem agreed_of_drift_eq_nil (htidy : self.Tidy) (h : self.drift = []) : self.Agreed := by
  have hso (item : Drift) : ¬self.IsSo item := by
    rw [← mem_drift_iff htidy, h]
    exact List.not_mem_nil
  have hversion (source : PluginSource) : ¬self.VersionsDiffer source := fun hdiffer =>
    hso (.version source _) ⟨getElem?_versions (getElem?_bySource htidy source), hdiffer⟩
  have hcommit (source : PluginSource) : ¬self.CommitsDiffer source := fun hdiffer =>
    hso (.commit source _) ⟨getElem?_commits (getElem?_bySource htidy source), hdiffer,
      hversion source⟩
  refine ⟨?_, ?_, ?_, ?_, ?_⟩
  · intro source target other plugin hcopy hanswered
    by_contra hnone
    rw [Bool.not_eq_true, Option.isSome_eq_false_iff] at hnone
    have hpresent : target ∈ self.hosts source (fun _ => true) :=
      mem_hosts.mpr ⟨plugin, hcopy, rfl⟩
    have habsent : other ∈ self.lacking source :=
      List.mem_filter.mpr ⟨ExtTreeMap.mem_keys.mpr hanswered, hnone⟩
    exact hso (.missing source _ _)
      ⟨rfl, rfl, List.ne_nil_of_mem hpresent, List.ne_nil_of_mem habsent⟩
  · intro source target other plugin another hcopy hcopy'
    by_contra hne
    exact hversion source ⟨target, plugin, other, another, hcopy, hcopy', hne⟩
  · intro source target other plugin another hcopy hcopy' a ha b hb
    by_contra hne
    exact hcommit source ⟨target, plugin, other, another, hcopy, hcopy', a, ha, b, hb, hne⟩
  · intro source target plugin hcopy
    by_contra hoff
    exact hso (.disabled source _) ⟨rfl, List.ne_nil_of_mem (mem_hosts.mpr
      ⟨plugin, hcopy, by simpa using hoff⟩)⟩
  · intro target plugin hentry hsourceless
    exact hso (.localOnly target _ _) ⟨plugin, hentry, hsourceless, rfl, rfl⟩

/-- **Drift is complete and sound.** Where no host lists one source twice, the report is empty
exactly if the hosts that answered agree; an item is in it exactly if what it says is so, of exactly
the hosts it names; and what is known of hosts that did not answer has no part in it. -/
theorem drift_is_complete_and_sound (self other : Inventory) (htidy : self.Tidy) :
    (self.drift = [] ↔ self.Agreed) ∧ (∀ item, item ∈ self.drift ↔ self.IsSo item) ∧
      (other.installed = self.installed → other.drift = self.drift) := by
  refine ⟨⟨agreed_of_drift_eq_nil htidy, fun h => ?_⟩, mem_drift_iff htidy, fun hsame => ?_⟩
  · refine List.eq_nil_iff_forall_not_mem.mpr fun item hitem => ?_
    exact h.not_isSo item ((mem_drift_iff htidy item).mp hitem)
  · rw [drift, drift, bySource, bySource, copies, copies, hsame]

theorem Tidy.insert (htidy : self.Tidy) (host : TargetSession) (plugins : List InstalledPlugin)
    (hnodup : (plugins.filterMap InstalledPlugin.source).Nodup) :
    Tidy ⟨self.installed.insert host plugins, self.errors⟩ := by
  intro target installed hinstalled
  rw [ExtTreeMap.getElem?_insert] at hinstalled
  split at hinstalled
  · cases hinstalled
    exact hnodup
  · exact htidy target installed hinstalled

/-- Two hosts, of which one has a plugin and one has none. -/
def uneven : Inventory :=
  ⟨((∅ : ExtTreeMap TargetSession (List InstalledPlugin)).insert ⟨"laptop", "default"⟩ []).insert
    ⟨"box", "default"⟩ (reportedTwice.plugins.take 1 |>.map ListedPlugin.installed), ∅⟩

theorem uneven_is_reported :
    .missing ⟨"github", "acme", "review", none⟩ [⟨"box", "default"⟩] [⟨"laptop", "default"⟩] ∈
      uneven.drift := by
  have hempty : Tidy ⟨∅, ∅⟩ := fun _ _ hinstalled => by simp at hinstalled
  have hlaptop := hempty.insert ⟨"laptop", "default"⟩ [] List.nodup_nil
  have htidy : uneven.Tidy := hlaptop.insert ⟨"box", "default"⟩ _ (by decide +kernel)
  refine ((drift_is_complete_and_sound uneven uneven htidy).2.1 _).mpr ⟨?_, ?_, by simp, by simp⟩
  · decide +kernel
  · decide +kernel

end Inventory

end Plugins

end SuperHerdr
