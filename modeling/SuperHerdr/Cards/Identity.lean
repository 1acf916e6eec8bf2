import SuperHerdr.Attention.Marks
import SuperHerdr.Federation.Normalized

/-!
# Identities that do not collide

An agent is named by its session where its host reports one and by its pane otherwise. The name is one
text: a tag, and then the parts with a separator between them. The parts of a session come from the host
and are free of the separator; a pane's identifier may hold anything, but it stands last, and behind
another tag.
-/

namespace SuperHerdr

open Std JsonText

/-! ### What a snapshot holds -/

theorem of_getElem?_collected {kind : ResourceKind} {α : Type} {states : List (QualifiedId kind × α)}
    {id : QualifiedId kind} {state : α} (h : (collected states)[id]? = some state) :
    (id, state) ∈ states := by
  induction states using List.reverseRecOn with
  | nil => simp [collected] at h
  | append_singleton states entry ih =>
    rw [collected, List.foldl_append, List.foldl_cons, List.foldl_nil, ExtTreeMap.getElem?_insert] at h
    split at h
    · next heq =>
      obtain rfl := LawfulEqCmp.eq_of_compare heq
      rw [← Option.some.inj h]
      simp
    · exact List.mem_append_left _ (ih h)

namespace NormalizedSnapshot

variable {target : TargetSession} {snapshot : Value} {pane : PaneId} {agent : AgentState}

theorem exists_item (h : (fromValue target snapshot).agents[pane]? = some agent) :
    agent.pane = pane ∧ pane.targetSession = target ∧
      ∃ item : Value, agent.session = agentSession (item.get "agent_session") := by
  obtain ⟨item, -, hitem⟩ := List.mem_filterMap.mp (of_getElem?_collected h)
  simp only [Option.bind_eq_bind, Option.bind_eq_some_iff, Option.pure_def, Option.some.injEq,
    Prod.mk.injEq] at hitem
  obtain ⟨id, hid, rfl, rfl⟩ := hitem
  obtain ⟨resource, -, rfl⟩ := Option.map_eq_some_iff.mp hid
  exact ⟨rfl, rfl, item, rfl⟩

end NormalizedSnapshot

theorem not_mem_of_boundedIdentity {value part : String} (h : boundedIdentity value = some part) :
    keySeparator ∉ part.toList := by
  rw [boundedIdentity] at h
  split at h
  · next hvalue =>
    obtain rfl := Option.some.inj h
    exact hvalue.2.2.1
  · cases h

/-- The parts of a session's identity have no separator in them. -/
structure AgentSessionRef.Separable (session : AgentSessionRef) : Prop where
  source : keySeparator ∉ session.source.toList
  agent : keySeparator ∉ session.agent.toList
  kind : keySeparator ∉ session.kind.toList
  value : keySeparator ∉ session.value.toList

theorem separable_of_agentSession {value : Option Value} {session : AgentSessionRef}
    (h : agentSession value = some session) : session.Separable := by
  simp only [agentSession, Option.bind_eq_bind, Option.bind_eq_some_iff, Option.pure_def,
    Option.some.injEq] at h
  obtain ⟨_, -, source, ⟨_, -, hsource⟩, agent, ⟨_, -, hagent⟩, kind, ⟨_, -, hkind⟩, part,
    ⟨_, -, hpart⟩, rfl⟩ := h
  exact ⟨not_mem_of_boundedIdentity hsource, not_mem_of_boundedIdentity hagent,
    not_mem_of_boundedIdentity hkind, not_mem_of_boundedIdentity hpart⟩

/-! ### The text of a key -/

theorem toList_agentKeySeparator : AGENT_KEY_SEPARATOR.toList = [keySeparator] := by decide

theorem append_separator_inj {front front' rest rest' : List Char} (hfront : keySeparator ∉ front)
    (hfront' : keySeparator ∉ front')
    (h : front ++ keySeparator :: rest = front' ++ keySeparator :: rest') :
    front = front' ∧ rest = rest' := by
  rcases List.append_eq_append_iff.mp h with ⟨tail, rfl, htail⟩ | ⟨tail, rfl, htail⟩
  · cases tail with
    | nil => exact ⟨(List.append_nil _).symm, (List.cons.inj htail).2⟩
    | cons c tail => exact absurd (by simp [(List.cons.inj htail).1]) hfront'
  · cases tail with
    | nil => exact ⟨List.append_nil _, (List.cons.inj htail).2.symm⟩
    | cons c tail => exact absurd (by simp [(List.cons.inj htail).1]) hfront

/-- The text that names a session. -/
def sessionText (session : AgentSessionRef) : List Char :=
  session.kind.toList ++ keySeparator :: (session.value.toList ++ keySeparator ::
    (session.source.toList ++ keySeparator :: session.agent.toList))

theorem sessionText_injective {session other : AgentSessionRef} (h : session.Separable)
    (hother : other.Separable) (htext : sessionText session = sessionText other) : session = other := by
  obtain ⟨hkind, hrest⟩ := append_separator_inj h.kind hother.kind htext
  obtain ⟨hvalue, hrest⟩ := append_separator_inj h.value hother.value hrest
  obtain ⟨hsource, hagent⟩ := append_separator_inj h.source hother.source hrest
  cases session
  cases other
  simp only [AgentSessionRef.mk.injEq]
  exact ⟨String.toList_inj.mp hsource, String.toList_inj.mp hagent, String.toList_inj.mp hkind,
    String.toList_inj.mp hvalue⟩

theorem resource_agentKey_of_session {agent : AgentState} {session : AgentSessionRef}
    (h : agent.session = some session) :
    (agentKey agent).resource.toList = "session".toList ++ keySeparator :: sessionText session := by
  simp [agentKey, h, sessionText, toList_agentKeySeparator]

theorem resource_agentKey_of_pane {agent : AgentState} (h : agent.session = none) :
    (agentKey agent).resource.toList = "pane".toList ++ keySeparator :: agent.pane.resource.toList := by
  simp [agentKey, h, paneAgentKey, toList_agentKeySeparator]

theorem eq_of_targetSession {kind : ResourceKind} {id id' : QualifiedId kind}
    (h : id.targetSession = id'.targetSession) (hresource : id.resource = id'.resource) : id = id' := by
  cases id
  cases id'
  simp only [QualifiedId.targetSession, TargetSession.mk.injEq] at h
  simp only [QualifiedId.mk.injEq]
  exact ⟨h.1, h.2, hresource⟩

/-- **Two agents have one key** only if they are of one session of one target, and have one agent session
or, if they have none, one pane. -/
theorem agent_keys_do_not_collide {target target' : TargetSession} {snapshot snapshot' : Value}
    {pane pane' : PaneId} {agent agent' : AgentState}
    (h : (NormalizedSnapshot.fromValue target snapshot).agents[pane]? = some agent)
    (h' : (NormalizedSnapshot.fromValue target' snapshot').agents[pane']? = some agent') :
    agentKey agent = agentKey agent' ↔ target = target' ∧
      ((∃ session, agent.session = some session ∧ agent'.session = some session) ∨
        agent.session = none ∧ agent'.session = none ∧ agent.pane = agent'.pane) := by
  obtain ⟨hpane, htarget, item, hitem⟩ := NormalizedSnapshot.exists_item h
  obtain ⟨hpane', htarget', item', hitem'⟩ := NormalizedSnapshot.exists_item h'
  have hkey : (agentKey agent).targetSession = target := by
    rw [targetSession_agentKey, hpane, htarget]
  have hkey' : (agentKey agent').targetSession = target' := by
    rw [targetSession_agentKey, hpane', htarget']
  have htags : ∀ {rest rest' : List Char},
      "session".toList ++ keySeparator :: rest ≠ "pane".toList ++ keySeparator :: rest' := by
    intro rest rest' heq
    exact absurd (append_separator_inj (by decide) (by decide) heq).1 (by decide)
  constructor
  · intro heq
    refine ⟨by rw [← hkey, ← hkey', heq], ?_⟩
    have htext := congrArg (String.toList ∘ QualifiedId.resource) heq
    simp only [Function.comp_apply] at htext
    cases hsession : agent.session with
    | some session =>
      rw [resource_agentKey_of_session hsession] at htext
      cases hsession' : agent'.session with
      | some session' =>
        rw [resource_agentKey_of_session hsession'] at htext
        have hsame := (List.cons.inj (List.append_cancel_left htext)).2
        have hseparable := separable_of_agentSession (hitem.symm.trans hsession)
        have hseparable' := separable_of_agentSession (hitem'.symm.trans hsession')
        exact .inl ⟨session, rfl, by rw [sessionText_injective hseparable hseparable' hsame]⟩
      | none =>
        rw [resource_agentKey_of_pane hsession'] at htext
        exact absurd htext htags
    | none =>
      rw [resource_agentKey_of_pane hsession] at htext
      cases hsession' : agent'.session with
      | some session' =>
        rw [resource_agentKey_of_session hsession'] at htext
        exact absurd htext.symm htags
      | none =>
        rw [resource_agentKey_of_pane hsession'] at htext
        have hresource := String.toList_inj.mp (List.cons.inj (List.append_cancel_left htext)).2
        have hboth := congrArg QualifiedId.targetSession heq
        rw [targetSession_agentKey, targetSession_agentKey] at hboth
        exact .inr ⟨rfl, rfl, eq_of_targetSession hboth hresource⟩
  · rintro ⟨rfl, ⟨session, hsession, hsession'⟩ | ⟨hsession, hsession', hsame⟩⟩
    · have hboth : agent.pane.targetSession = agent'.pane.targetSession := by
        rw [hpane, hpane', htarget, htarget']
      simp only [QualifiedId.targetSession, TargetSession.mk.injEq] at hboth
      simp only [agentKey, hsession, hsession', hboth.1, hboth.2]
    · simp only [agentKey, hsession, hsession', hsame]

/-- A host whose one pane is called by the text of the other's session. -/
def disguised : Value :=
  .object [("agents", .array [
    .object [("pane_id", .string "id\u001f4f1c\u001fherdr\u001fclaude")],
    .object [("pane_id", .string "w1:p1"), ("agent_session", .object [("source", .string "herdr"),
      ("agent", .string "claude"), ("kind", .string "id"), ("value", .string "4f1c")])]])]

theorem agent_keys_do_not_collide_disguised :
    ∃ agent agent', (NormalizedSnapshot.fromValue ⟨"desk", "main"⟩ disguised).agents[
        (⟨"desk", "main", "id\u001f4f1c\u001fherdr\u001fclaude"⟩ : PaneId)]? = some agent ∧
      (NormalizedSnapshot.fromValue ⟨"desk", "main"⟩ disguised).agents[
        (⟨"desk", "main", "w1:p1"⟩ : PaneId)]? = some agent' ∧ agentKey agent ≠ agentKey agent' := by
  have hnone : ((NormalizedSnapshot.fromValue ⟨"desk", "main"⟩ disguised).agents[
      (⟨"desk", "main", "id\u001f4f1c\u001fherdr\u001fclaude"⟩ : PaneId)]?.map
        AgentState.session) = some none := by decide +kernel
  have hsome : ((NormalizedSnapshot.fromValue ⟨"desk", "main"⟩ disguised).agents[
      (⟨"desk", "main", "w1:p1"⟩ : PaneId)]?.map AgentState.session) =
        some (some ⟨"herdr", "claude", "id", "4f1c"⟩) := by decide +kernel
  obtain ⟨agent, hagent, hnone⟩ := Option.map_eq_some_iff.mp hnone
  obtain ⟨agent', hagent', hsome⟩ := Option.map_eq_some_iff.mp hsome
  refine ⟨agent, agent', hagent, hagent', fun heq => ?_⟩
  rcases ((agent_keys_do_not_collide hagent hagent').mp heq).2 with ⟨session, hsession, -⟩ | ⟨-, hno, -⟩
  · cases hsession.symm.trans hnone
  · cases hsome.symm.trans hno

end SuperHerdr
