import Mathlib.Data.List.Perm.Subperm
import SuperHerdr.Attention.Derivation

/-!
# What a daemon reads back of its history

An index is written as a list of its observations and a list of its events. Whatever the daemon did,
what is read back of them is what was written (`renewed_values`), and the counter needs no repair.

Only the number of observations is bounded where an index is read and nowhere where it is made. An
index is read back as it was if and only if it holds no more than `MAX_AGENT_OBSERVATIONS` of them
(`reads_back_iff`), and a federation with more agents than that makes one that is not
(`teeming_is_not_read_back`): its history is lost, and the next daemon numbers its events from nothing.
-/

namespace SuperHerdr

open Std Transducer AttentionIndex

/-! ### What is read back -/

theorem renewed_values {observations : Observations} (h : Filed observations) :
    Observations.renewed ∅ observations.values = observations := by
  refine ExtTreeMap.ext_getElem? fun pane => ?_
  cases hheld : observations[pane]? with
  | none =>
    have hnew : pane ∉ observations.values.map AgentObservation.pane := by
      rw [panes_values h, ExtTreeMap.mem_keys, ExtTreeMap.mem_iff_isSome_getElem?, hheld]
      exact Bool.false_ne_true
    rw [Observations.getElem?_renewed_of_not_mem hnew, ExtTreeMap.getElem?_empty]
  | some observation =>
    have hpane := h pane observation hheld
    rw [← hpane] at hheld ⊢
    exact Observations.getElem?_renewed_of_mem (nodup_panes_values h) ((mem_values h).mpr hheld)

theorem length_values (observations : Observations) :
    observations.values.length = observations.size := by
  rw [KeyedMap.values_eq_map_toList, List.length_map, ExtTreeMap.length_toList]

theorem repaired_of_regular {index : AttentionIndex} (h : index.Regular) :
    (match (index.events.map AttentionEvent.id).max? with
      | some id => max index.nextEventId (id + 1)
      | none => index.nextEventId) = index.nextEventId := by
  cases hlast : (index.events.map AttentionEvent.id).max? with
  | none => rfl
  | some id =>
    obtain ⟨event, hevent, rfl⟩ := List.mem_map.mp (List.max?_mem hlast)
    exact max_eq_left (h.numbered event hevent)

/-- **What is read back** of an index that was written. -/
theorem toIndex_of {index : AttentionIndex} (hregular : index.Regular)
    (hfiled : Filed index.observations) :
    (PersistedAttention.of index).toIndex =
      if MAX_AGENT_OBSERVATIONS < index.observations.size then
        .error "persisted attention state has too many agent observations"
      else .ok index := by
  have hevents : ¬MAX_ATTENTION_EVENTS < index.events.length := Nat.not_lt.mpr hregular.bounded
  have hvalues : (index.observations.values.foldl
      (fun observations observation => observations.insert observation.pane observation) ∅) =
        index.observations := renewed_values hfiled
  rw [PersistedAttention.toIndex, PersistedAttention.of, if_neg fun h => h rfl, length_values]
  refine if_congr Iff.rfl rfl ?_
  rw [if_neg hevents, if_neg fun h => h (nodup_panes_values hfiled), hvalues]
  exact congrArg (fun next => Except.ok (AttentionIndex.mk next index.observations index.events))
    (repaired_of_regular hregular)

/-- **A history survives a restart** if and only if the index holds no more observations than it may
be read back with. -/
theorem reads_back_iff {index : AttentionIndex} (h : Reached index) :
    (PersistedAttention.of index).toIndex = .ok index ↔
      index.observations.size ≤ MAX_AGENT_OBSERVATIONS := by
  rw [toIndex_of h.regular h.filed]
  split
  · next hmany => simp [Nat.not_le.mpr hmany]
  · next hfew => simp [Nat.not_lt.mp hfew]

/-- A daemon that observed nothing yet. -/
theorem reads_back_default :
    (PersistedAttention.of AttentionIndex.default).toIndex = .ok AttentionIndex.default :=
  (reads_back_iff Reached.default).mpr (by decide)

/-! ### A federation with many agents -/

/-- The agents of so many panes of one target. -/
def teeming (count : ℕ) : List AgentState :=
  (List.range count).map fun position =>
    ⟨⟨"local", "default", String.ofList (Nat.toDigits 10 position)⟩, some "claude", none, some "working", none, none, none⟩

variable {agents : List AgentState}

theorem of_getElem?_foldl_insert {held : ExtTreeMap PaneId AgentState}
    {pane : PaneId} {agent : AgentState}
    (h : (agents.foldl (fun held agent => held.insert agent.pane agent) held)[pane]? = some agent) :
    held[pane]? = some agent ∨ agent ∈ agents ∧ agent.pane = pane := by
  induction agents generalizing held with
  | nil => exact .inl h
  | cons first agents ih =>
    rcases ih h with hheld | ⟨hmem, hpane⟩
    · rw [ExtTreeMap.getElem?_insert] at hheld
      split at hheld
      · next heq =>
        obtain rfl := Option.some.inj hheld
        exact .inr ⟨List.mem_cons_self, LawfulEqCmp.eq_of_compare heq⟩
      · exact .inl hheld
    · exact .inr ⟨List.mem_cons_of_mem first hmem, hpane⟩

theorem mem_foldl_insert {held : ExtTreeMap PaneId AgentState} {pane : PaneId} :
    pane ∈ agents.foldl (fun held agent => held.insert agent.pane agent) held ↔
      pane ∈ held ∨ pane ∈ agents.map AgentState.pane := by
  induction agents generalizing held with
  | nil => simp
  | cons first agents ih =>
    rw [List.foldl_cons, ih, ExtTreeMap.mem_insert, LawfulEqCmp.compare_eq_iff_eq, List.map_cons,
      List.mem_cons, or_comm (a := first.pane = pane), or_assoc, eq_comm]

/-- A target files the agents of its own panes. -/
theorem keyed_hosting
    (h : ∀ agent ∈ agents, agent.pane.targetSession = Broker.pane₁.targetSession) :
    (Attentive.hosting agents).Keyed := by
  rintro ⟨key, target⟩ hentry
  replace hentry := ExtTreeMap.mem_toList_iff_getElem?_eq_some.mp hentry
  simp only [Attentive.hosting] at hentry
  rw [ExtTreeMap.getElem?_insert] at hentry
  split at hentry
  · next heq =>
    obtain rfl := LawfulEqCmp.eq_of_compare heq
    obtain rfl := Option.some.inj hentry
    refine ⟨rfl, fun snapshot hsnapshot held hheld => ?_⟩
    obtain rfl := Option.some.inj (Option.mem_def.mp hsnapshot)
    replace hheld := ExtTreeMap.mem_toList_iff_getElem?_eq_some.mp hheld
    rcases of_getElem?_foldl_insert hheld with hnone | ⟨hmem, hpane⟩
    · rw [ExtTreeMap.getElem?_empty] at hnone
      cases hnone
    · exact ⟨hpane, hpane ▸ h held.2 hmem⟩
  · simp at hentry

/-- All that a target reports is held after one observation of it. -/
theorem length_le_size_observe
    (h : ∀ agent ∈ agents, agent.pane.targetSession = Broker.pane₁.targetSession)
    (hnodup : (agents.map AgentState.pane).Nodup) :
    agents.length ≤
      (default.observe id (Attentive.hosting agents)).1.1.observations.size := by
  have hkeyed := keyed_hosting h
  have hmem : ∀ pane ∈ agents.map AgentState.pane,
      pane ∈ (default.observe id (Attentive.hosting agents)).1.1.observations.keys := by
    intro pane hpane
    obtain ⟨agent, hagent, rfl⟩ := List.mem_map.mp hpane
    have htarget : (Attentive.hosting agents).targets[agent.pane.targetSession]? =
        (Attentive.hosting agents).targets[Broker.pane₁.targetSession]? := by rw [h agent hagent]
    have hcurrent : agent.pane ∈ (Attentive.hosting agents).current := by
      rw [FederationState.mem_current hkeyed, ← Option.isSome_iff_exists,
        FederationState.liveAgent, htarget]
      simp only [Attentive.hosting, ExtTreeMap.getElem?_insert_self, Option.bind_some,
        TargetRuntimeState.liveSnapshot, if_true]
      rw [← ExtTreeMap.mem_iff_isSome_getElem?, mem_foldl_insert]
      exact .inr hpane
    have hlive := FederationState.mem_liveSessions_of_mem_current hkeyed hcurrent
    rw [ExtTreeMap.mem_keys, ExtTreeMap.mem_iff_isSome_getElem?,
      (observe_held id filed_empty hkeyed).1, if_pos hlive, ← ExtTreeMap.mem_iff_isSome_getElem?]
    exact hcurrent
  calc agents.length = (agents.map AgentState.pane).length := (List.length_map _).symm
    _ ≤ (default.observe id (Attentive.hosting agents)).1.1.observations.keys.length :=
        (List.subperm_of_subset hnodup hmem).length_le
    _ = _ := ExtTreeMap.length_keys

theorem teeming_pane {count : ℕ} :
    ∀ agent ∈ teeming count, agent.pane.targetSession = Broker.pane₁.targetSession := by
  intro agent hagent
  obtain ⟨position, -, rfl⟩ := List.mem_map.mp hagent
  rfl

theorem nodup_teeming (count : ℕ) : ((teeming count).map AgentState.pane).Nodup := by
  rw [teeming, List.map_map]
  refine List.nodup_range.map fun position other h => ?_
  have hdigits : Nat.toDigits 10 position = Nat.toDigits 10 other :=
    String.ofList_injective (congrArg QualifiedId.resource h)
  rw [← Nat.ofDigitChars_toDigits (b := 10) (by decide) (by decide) (n := position), hdigits,
    Nat.ofDigitChars_toDigits (by decide) (by decide)]

/-- One more agent than may be read back, observed once, and the history cannot be read any more. -/
theorem teeming_is_not_read_back :
    (Attentive.hosting (teeming (MAX_AGENT_OBSERVATIONS + 1))).Keyed ∧
      Reached (default.observe id
        (Attentive.hosting (teeming (MAX_AGENT_OBSERVATIONS + 1)))).1.1 ∧
      (PersistedAttention.of (default.observe id
          (Attentive.hosting (teeming (MAX_AGENT_OBSERVATIONS + 1)))).1.1).toIndex =
        .error "persisted attention state has too many agent observations" := by
  have hreached := Reached.observe id
    (Attentive.hosting (teeming (MAX_AGENT_OBSERVATIONS + 1))) Reached.default
  refine ⟨keyed_hosting teeming_pane, hreached, ?_⟩
  have hmany : MAX_AGENT_OBSERVATIONS < (teeming (MAX_AGENT_OBSERVATIONS + 1)).length := by
    rw [teeming, List.length_map, List.length_range]
    exact Nat.lt_succ_self _
  have hsize := length_le_size_observe teeming_pane (nodup_teeming (MAX_AGENT_OBSERVATIONS + 1))
  rw [toIndex_of hreached.regular hreached.filed, if_pos (hmany.trans_le hsize)]

end SuperHerdr
