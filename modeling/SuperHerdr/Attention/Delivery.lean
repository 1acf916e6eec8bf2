import SuperHerdr.Attention.Listeners
import SuperHerdr.Daemon.Incarnations

/-!
# Attention reaches every subscriber

The daemon sends the history when a client subscribes and whenever something was marked or
cleared, and single events as they are observed, from a cursor over a history that forgets. The
cursor is kept at the newest event (`Attuned`), which is why what is fresh is exactly what the
last observation pushed and the bound kept.

Between two inputs nothing is pending, so what every listener's mirror follows is the index
itself (`attention_delivery`). A daemon starts from an empty index or from one that a daemon
before it wrote (`Startable`).
-/

namespace SuperHerdr

open Std Transducer

variable {E : Emulator}

namespace AttentionIndex

/-! ### An observation that changes nothing -/

theorem exec_unchanged {α : Type*} {body : AttentionIndex × Bool → α →
      (AttentionIndex × Bool) × List AttentionEvent}
    (hbody : ∀ (s : AttentionIndex × Bool) (a : α), (body s a).1.2 = false →
      s.2 = false ∧ (body s a).2 = []) (s : AttentionIndex × Bool) (is : List α)
    (h : (exec body s is).1.2 = false) : s.2 = false ∧ (exec body s is).2 = [] := by
  induction is generalizing s with
  | nil => exact ⟨h, rfl⟩
  | cons i is ih =>
    obtain ⟨hfirst, hrest⟩ := ih (body s i).1 h
    obtain ⟨hs, hi⟩ := hbody s i hfirst
    refine ⟨hs, ?_⟩
    rw [exec_cons, hi, hrest]
    rfl

theorem notice_unchanged (clock : ℕ → ℕ) (s : AttentionIndex × Bool)
    (observation : AgentObservation) (h : (notice clock s observation).1.2 = false) :
    s.2 = false ∧ (notice clock s observation).2 = [] := by
  obtain ⟨self, changed⟩ := s
  simp only [notice] at h ⊢
  cases hprevious : self.observations[observation.pane]? with
  | none =>
    rw [hprevious] at h
    cases h
  | some previous =>
    simp only [hprevious] at h ⊢
    cases hkind : transitionKind previous observation with
    | none =>
      simp only [hkind] at h ⊢
      split at h
      · cases h
      · next hsame => exact ⟨h, by rw [if_neg hsame]⟩
    | some kind =>
      simp only [hkind] at h
      split at h <;> cases h

theorem lose_unchanged (clock : ℕ → ℕ) (s : AttentionIndex × Bool) (pane : PaneId)
    (h : (lose clock s pane).1.2 = false) : s.2 = false ∧ (lose clock s pane).2 = [] := by
  obtain ⟨self, changed⟩ := s
  simp only [lose] at h ⊢
  cases hobserved : self.observations[pane]? with
  | none =>
    rw [hobserved] at h
    exact ⟨h, rfl⟩
  | some observation =>
    rw [hobserved] at h
    cases h

theorem observe_unchanged (clock : ℕ → ℕ) (self : AttentionIndex) (state : FederationState)
    (h : (self.observe clock state).1.2 = false) : (self.observe clock state).2 = [] := by
  have hlost : (exec (lose clock) (exec (notice clock) (self, false) state.current.values).1
      ((exec (notice clock) (self, false) state.current.values).1.1.disappeared state)).1.2 =
        false := (Bool.or_eq_false_iff.mp h).1
  obtain ⟨hnoticed, hdepartures⟩ :=
    exec_unchanged (fun s pane => lose_unchanged clock s pane) _ _ hlost
  obtain ⟨-, htransitions⟩ :=
    exec_unchanged (fun s observation => notice_unchanged clock s observation) _ _ hnoticed
  exact List.append_eq_nil_iff.mpr ⟨htransitions, hdepartures⟩

/-! ### Marking that changes nothing -/

/-- What a person may do to an index: fewer events, or the same ones seen; and the same events if
it reports no change. -/
structure Marks (index : AttentionIndex) (result : AttentionIndex × Bool) : Prop where
  regular : index.Regular → result.1.Regular
  next : result.1.nextEventId = index.nextEventId
  ids : ∀ event ∈ result.1.events, ∃ held ∈ index.events, held.id = event.id
  unchanged : result.2 = false → result.1.events = index.events

theorem marks_markSeenForPane (self : AttentionIndex) (pane : PaneId) :
    self.Marks (self.markSeenForPane pane) where
  regular h := h.markSeenForPane pane
  next := rfl
  ids event he := by
    obtain ⟨held, hheld, rfl⟩ := List.mem_map.mp he
    refine ⟨held, hheld, ?_⟩
    split <;> rfl
  unchanged h := by
    have hnone := List.any_eq_false.mp h
    refine (List.map_congr_left fun event he => ?_).trans (List.map_id _)
    have hseen : ¬(event.unread = true ∧ event.pane = pane) := by simpa using hnone event he
    rw [if_neg hseen]
    rfl

theorem marks_markAllSeen (self : AttentionIndex) : self.Marks self.markAllSeen where
  regular h := h.markAllSeen
  next := rfl
  ids event he := by
    obtain ⟨held, hheld, rfl⟩ := List.mem_map.mp he
    exact ⟨held, hheld, rfl⟩
  unchanged h := by
    have hnone := List.any_eq_false.mp h
    refine (List.map_congr_left fun event he => ?_).trans (List.map_id _)
    have hseen : event.unread = false := by simpa using hnone event he
    rw [id, ← hseen]

theorem marks_clearSeen (self : AttentionIndex) : self.Marks self.clearSeen where
  regular h := h.clearSeen
  next := rfl
  ids event he := ⟨event, (List.mem_filter.mp he).1, rfl⟩
  unchanged h := by
    have hlength : self.events.length = self.clearSeen.1.events.length := by
      simpa [clearSeen] using h
    exact List.Sublist.eq_of_length List.filter_sublist hlength.symm

end AttentionIndex

/-! ### What a step broadcasts -/

/-- The events among what a run did that were broadcast, in order. -/
def broadcasts (acts : List Act) : List AttentionEvent :=
  acts.filterMap fun
    | .broadcast event => some event
    | _ => none

theorem broadcasts_append (acts later : List Act) :
    broadcasts (acts ++ later) = broadcasts acts ++ broadcasts later :=
  List.filterMap_append

theorem broadcasts_map (events : List AttentionEvent) :
    broadcasts (events.map Act.broadcast) = events := by
  rw [broadcasts, List.filterMap_map]
  exact List.filterMap_some

theorem broadcasts_offers (state : FederationState) (marks : AgentMarks) (nowMs : ℕ)
    (notifications : NotificationQueue) (events : List AttentionEvent) :
    broadcasts (exec (Attentive.offer state marks nowMs) notifications events).2 = [] := by
  refine List.filterMap_eq_nil_iff.mpr fun act hact => ?_
  obtain ⟨before, event, later, -, hoffer⟩ := mem_exec_snd hact
  simp only [Attentive.offer] at hoffer
  split_ifs at hoffer with hmay hqueued
  · rw [List.mem_singleton.mp hoffer]
  · cases hoffer
  · cases hoffer

namespace Attentive

/-- The events that a step's observation of the federation pushes, if it makes one. -/
def pushed (clock : ℕ → ℕ) (a : Attentive E) (move : Daemon.Move × Reading) :
    List AttentionEvent :=
  match move.1, a.daemon.pending, a.daemon.inputs with
  | .next, [], ⟨.federation state, _⟩ :: _ => (a.attention.observe clock state).2
  | _, _, _ => []

variable {a : Attentive E}

/-- What is newer than the cursor is what the last observation pushed and the bound kept. -/
theorem Attuned.fresh (ha : a.Attuned) {grown : AttentionIndex}
    {pushed : List AttentionEvent} (h : a.attention.Grows grown pushed) :
    fresh grown a.attentionCursor = boundedHistory pushed := by
  rw [← h.filter_new ha.regular, Attentive.fresh]
  refine List.filter_congr fun event he => ?_
  rw [h.events] at he
  rcases List.mem_append.mp ((boundedHistory_sublist _).subset he) with hold | hnew
  · obtain ⟨last, hcursor, hle⟩ := ha.behind event hold
    have hnext := ha.regular.numbered event hold
    rw [hcursor, Option.all_some, decide_eq_false (by omega), decide_eq_false (by omega)]
  · have hnext := (h.le_id hnew).1
    rw [decide_eq_true hnext]
    cases hcursor : a.attentionCursor with
    | none => rfl
    | some last =>
      have hreached := ha.reached last hcursor
      rw [Option.all_some, decide_eq_true (by omega)]

theorem le_id_getLast {events : List AttentionEvent}
    (h : events.Pairwise AttentionEvent.Earlier) {newest event : AttentionEvent}
    (hlast : events.getLast? = some newest) (he : event ∈ events) : event.id ≤ newest.id := by
  obtain ⟨before, rfl⟩ := List.getLast?_eq_some_iff.mp hlast
  rcases List.mem_append.mp he with hbefore | hhere
  · exact Nat.le_of_lt
      ((List.pairwise_append.mp h).2.2 event hbefore newest (List.mem_singleton_self newest))
  · rw [List.mem_singleton.mp hhere]

/-- **The cursor stays at the newest event**: moved to the last of what is fresh, if anything is,
it has reached every event of the grown index and no identifier still to come. -/
theorem Attuned.cursor (ha : a.Attuned) {grown : AttentionIndex}
    {pushed : List AttentionEvent} (h : a.attention.Grows grown pushed) {cursor : Option ℕ}
    (hcursor : cursor =
      ((boundedHistory pushed).getLast?.map AttentionEvent.id <|> a.attentionCursor)) :
    (∀ event ∈ grown.events, ∃ last, cursor = some last ∧ event.id ≤ last) ∧
      ∀ last, cursor = some last → last < grown.nextEventId := by
  have hnext := h.next
  cases hlast : (boundedHistory pushed).getLast? with
  | none =>
    have hempty : pushed.length = 0 := by
      have hlength := length_boundedHistory pushed
      have hzero : boundedHistory pushed = [] := by simpa using hlast
      rw [hzero, List.length_nil] at hlength
      have hbound : MAX_ATTENTION_EVENTS = 256 := rfl
      omega
    have hevents : grown.events = a.attention.events := by
      rw [h.events, List.length_eq_zero_iff.mp hempty, List.append_nil,
        boundedHistory_of_length_le ha.regular.bounded]
    obtain rfl : cursor = a.attentionCursor := by rw [hcursor, hlast]; rfl
    rw [hevents]
    refine ⟨ha.behind, fun last hlast => ?_⟩
    have hreached := ha.reached last hlast
    omega
  | some newest =>
    have hnewest : newest ∈ pushed :=
      (boundedHistory_sublist pushed).subset (List.mem_of_getLast? hlast)
    have hincreasing : (boundedHistory pushed).Pairwise AttentionEvent.Earlier :=
      (List.pairwise_append.mp (h.pairwise ha.regular)).2.1.sublist (boundedHistory_sublist pushed)
    obtain ⟨hle, hlt⟩ := h.le_id hnewest
    replace hcursor : cursor = some newest.id := by rw [hcursor, hlast]; rfl
    refine ⟨fun event he => ⟨newest.id, hcursor, ?_⟩, fun last heq => ?_⟩
    · by_cases hnew : a.attention.nextEventId ≤ event.id
      · have hkept : event ∈ boundedHistory pushed := by
          rw [← h.filter_new ha.regular]
          exact List.mem_filter.mpr ⟨he, decide_eq_true hnew⟩
        exact le_id_getLast hincreasing hlast hkept
      · omega
    · obtain rfl := Option.some.inj (hcursor.symm.trans heq)
      exact hlt

/-! ### One step follows -/

/-- A listener that is sent single events applies them in order. -/
theorem foldl_broadcasts {b : Broker E} {client : ClientId} (h : b.Listens client)
    (held events : List AttentionEvent) (mirror : AttentionIndex) :
    (events.flatMap fun event => b.broadcastState (.attention event)).foldl
        (owedStep held client) mirror =
      events.foldl (fun mirror event => (mirror.apply event).1) mirror := by
  induction events generalizing mirror with
  | nil => rfl
  | cons event events ih =>
    have hother : ∀ (mirror : AttentionIndex) (receiver : ClientId), receiver ≠ client →
        owedStep held client mirror (.send receiver (.attention event)) = mirror := by
      intro mirror receiver hne
      simp [owedStep, hne]
    rw [List.flatMap_cons, List.foldl_append, Broker.foldl_broadcastState b client _ hother,
      if_pos h, ih, List.foldl_cons]
    simp [owedStep, receive]

variable (clock : ℕ → ℕ)

/-- **What the loop broadcasts of an observation follows it.** Nothing pending speaks of
attention, so a listener's mirror holds the index before; the broadcasts bring it to the index
after. -/
theorem observeAttention_follows (nowMs : ℕ) (ha : a.Attuned)
    (hquiet : ∀ effect ∈ a.daemon.pending, effect.attends = false) :
    (a.observeAttention clock nowMs).1.Attuned ∧
      (∀ (client : ClientId) (mirror : AttentionIndex),
        (a.daemon.broker.Listens client → mirror.events = a.attention.events) →
        (a.observeAttention clock nowMs).1.Follows client mirror) ∧
      broadcasts (a.observeAttention clock nowMs).2 =
        boundedHistory (a.attention.observe clock a.state).2 := by
  have hgrows := AttentionIndex.grows_observe clock a.attention a.state ha.regular.bounded
  have hpending : ∀ (events : List AttentionEvent) (client : ClientId) (mirror : AttentionIndex),
      a.daemon.pending.foldl (owedStep events client) mirror = mirror := by
    intro events client mirror
    exact foldl_of_ignored (fun effect he mirror =>
      owedStep_of_not_attends events client (hquiet effect he) mirror) mirror
  cases hchanged : (a.attention.observe clock a.state).1.2 with
  | false =>
    have hpushed := AttentionIndex.observe_unchanged clock a.attention a.state hchanged
    rw [hpushed] at hgrows ⊢
    have hevents : (a.attention.observe clock a.state).1.1.events = a.attention.events := by
      rw [hgrows.events, List.append_nil, boundedHistory_of_length_le ha.regular.bounded]
    simp only [observeAttention, hchanged, Bool.not_false, if_true]
    refine ⟨⟨hgrows.regular ha.regular, ?_, ?_, ha.connected⟩,
      fun client mirror hmirror hlistens => ?_, rfl⟩
    · rw [hevents]
      exact ha.behind
    · rw [hgrows.next]
      exact ha.reached
    · rw [owed, hpending, hevents]
      exact hmirror hlistens
  | true =>
    have hfresh := ha.fresh hgrows
    obtain ⟨hbehind, hreached⟩ := ha.cursor hgrows rfl
    simp only [observeAttention, hchanged, Bool.not_true, Bool.false_eq_true, if_false, hfresh]
    generalize (a.attention.observe clock a.state).2 = pushed at hgrows hbehind hreached ⊢
    have hnewer : (a.attention.events ++ boundedHistory pushed).Pairwise AttentionEvent.Earlier :=
      (hgrows.pairwise ha.regular).sublist
        ((boundedHistory_sublist pushed).append_left a.attention.events)
    refine ⟨⟨hgrows.regular ha.regular, hbehind, hreached, ha.connected⟩,
      fun client mirror hmirror hlistens => ?_, ?_⟩
    · have hmirrors := hmirror hlistens
      have hbounded : mirror.events.length ≤ MAX_ATTENTION_EVENTS := hmirrors ▸ ha.regular.bounded
      rw [owed, List.foldl_append, hpending, foldl_broadcasts hlistens,
        AttentionIndex.foldl_apply mirror hbounded
        (by rw [hmirrors]; exact hnewer), hmirrors, boundedHistory_append_right, hgrows.events]
    · rw [broadcasts_append, broadcasts_offers, List.nil_append, broadcasts_map]

theorem observeAttention_attention (nowMs : ℕ) (a : Attentive E) :
    (a.observeAttention clock nowMs).1.attention = (a.attention.observe clock a.state).1.1 := by
  simp only [observeAttention]
  split <;> rfl

theorem observeAttention_unsent (nowMs : ℕ) (a : Attentive E) (client : ClientId)
    (message : ServerMessage) : .sent client message ∉ (a.observeAttention clock nowMs).2 := by
  intro hact
  simp only [observeAttention] at hact
  split at hact
  · cases hact
  · rcases List.mem_append.mp hact with hoffered | hmapped
    · obtain ⟨before, event, later, -, hoffer⟩ := mem_exec_snd hoffered
      simp only [offer] at hoffer
      split_ifs at hoffer with hmay hqueued
      · cases List.mem_singleton.mp hoffer
      · cases hoffer
      · cases hoffer
    · obtain ⟨event, -, heq⟩ := List.mem_map.mp hmapped
      cases heq

/-- What one effect leaves: whatever the mirrors of the listeners were owed before it, they are
owed after it, and the daemon is attuned. -/
structure Served (a a' : Attentive E) (acts : List Act) (effect : Effect) : Prop where
  attuned : a'.Attuned
  follows : ∀ client mirror, a.Follows client (owedStep a.attention.events client mirror effect) →
    a'.Follows client (acts.foldl (Act.hear client) mirror)
  broadcasts : broadcasts acts = []
  next : a'.attention.nextEventId = a.attention.nextEventId

variable {effect : Effect}

/-- An effect that says nothing of attention, and only advances the daemon. -/
theorem served_of_advances {a a' : Attentive E} (ha : a.Attuned) (h : Advances a a')
    (hquiet : effect.attends = false) {acts : List Act}
    (hsent : ∀ act ∈ acts, ∃ client message, act = .sent client message ∧
      (Effect.send client message).attends = false) : Served a a' acts effect where
  attuned := h.attuned ha
  follows client mirror hfollows := by
    have hheard : acts.foldl (Act.hear client) mirror = mirror := by
      refine foldl_of_ignored (fun act hact mirror => ?_) mirror
      obtain ⟨receiver, message, rfl, hsilent⟩ := hsent act hact
      exact owedStep_of_not_attends [] client hsilent mirror
    rw [hheard]
    rw [owedStep_of_not_attends _ client hquiet] at hfollows
    exact h.follows hfollows
  broadcasts := by
    refine List.filterMap_eq_nil_iff.mpr fun act hact => ?_
    obtain ⟨receiver, message, rfl, -⟩ := hsent act hact
    rfl
  next := by rw [h.attention]

/-- **A history that is broadcast puts every listener right**, whatever it held. -/
theorem follows_attentionChanged (reading : Reading) (a : Attentive E) (client : ClientId)
    (mirror : AttentionIndex) : (a.attentionChanged reading).Follows client mirror := by
  refine (advances_projectAgentCards reading _).follows fun hlistens => ?_
  have hother : ∀ (mirror : AttentionIndex) (receiver : ClientId), receiver ≠ client →
      owedStep a.attention.events client mirror
        (.send receiver (.attentionHistory a.attention.events)) = mirror := by
    intro mirror receiver hne
    simp [owedStep, hne]
  rw [owed, List.foldl_append, Broker.foldl_broadcastState a.daemon.broker client _ hother,
    if_pos hlistens]
  simp [owedStep, receive, AttentionIndex.mirror]

/-- Marking and clearing are followed. -/
theorem served_adopt (reading : Reading) (ha : a.Attuned)
    {result : AttentionIndex × Bool} (h : a.attention.Marks result)
    (hquiet : effect.attends = false) : Served a (a.adopt reading result) [] effect := by
  have hattuned : ({ a with attention := result.1 } : Attentive E).Attuned := by
    refine ⟨h.regular ha.regular, fun event he => ?_, fun last hlast => ?_, ha.connected⟩
    · obtain ⟨held, hheld, hid⟩ := h.ids event he
      rw [← hid]
      exact ha.behind held hheld
    · rw [h.next]
      exact ha.reached last hlast
  simp only [adopt]
  cases hchanged : result.2 with
  | false =>
    simp only [Bool.false_eq_true, if_false]
    refine ⟨hattuned, fun client mirror hfollows hlistens => ?_, rfl, h.next⟩
    rw [owedStep_of_not_attends _ client hquiet] at hfollows
    rw [owed, h.unchanged hchanged]
    exact hfollows hlistens
  | true =>
    simp only [if_true]
    refine ⟨?_, fun client mirror _ => follows_attentionChanged reading _ client mirror, rfl, h.next⟩
    exact (advances_projectAgentCards reading _).attuned ⟨hattuned.regular, hattuned.behind,
      hattuned.reached, hattuned.connected⟩

/-- A message that is delivered to whoever has an outbox is heard by every listener it is for. -/
theorem served_deliver (ha : a.Attuned) (client : ClientId) (message : ServerMessage)
    (howed : ∀ other mirror, owedStep a.attention.events other mirror effect =
      if client = other then receive mirror message else mirror) :
    Served a a (a.deliver client message) effect where
  attuned := ha
  follows other mirror hfollows hlistens := by
    have houtbox := ha.connected other hlistens.mem
    rw [howed] at hfollows
    by_cases hc : client = other
    · subst hc
      rw [if_pos rfl] at hfollows
      simpa [deliver, houtbox, Act.hear] using hfollows hlistens
    · rw [if_neg hc] at hfollows
      have hheard : (a.deliver client message).foldl (Act.hear other) mirror = mirror := by
        rw [deliver]
        split <;> simp [Act.hear, hc]
      rw [hheard]
      exact hfollows hlistens
  broadcasts := by
    rw [deliver]
    split <;> rfl
  next := rfl

/-- **Every effect is followed.** -/
theorem served_perform (spawn : ℕ → Spawning) (reading : Reading)
    (ha : a.Attuned) (effect : Effect) :
    Served a (a.perform spawn reading effect).1 (a.perform spawn reading effect).2 effect := by
  have hdaemon : ∀ effect : Effect,
      a.perform spawn reading effect = ({ a with daemon := (a.daemon.perform spawn effect).1 },
        (a.daemon.perform spawn effect).2.map Act.ofSent) →
      effect.attends = false → (∀ client message, effect ≠ .send client message) →
      Served a (a.perform spawn reading effect).1 (a.perform spawn reading effect).2 effect := by
    intro effect hperform hquiet hne
    obtain ⟨hadvances, hsent⟩ := advances_perform spawn a hne
    rw [hperform, hsent]
    exact served_of_advances ha hadvances hquiet fun act hact => by cases hact
  cases effect with
  | markAttentionSeen pane =>
    exact served_adopt reading ha (a.attention.marks_markSeenForPane pane) rfl
  | markAllAttentionSeen => exact served_adopt reading ha a.attention.marks_markAllSeen rfl
  | clearSeenAttention => exact served_adopt reading ha a.attention.marks_clearSeen rfl
  | sendAttentionHistory client =>
    exact served_deliver ha client _ fun other mirror => rfl
  | send client message =>
    have hsent : (a.perform spawn reading (.send client message)) =
        (a, a.deliver client message) := by
      simp only [perform, Daemon.perform, deliver]
      split <;> rfl
    rw [hsent]
    exact served_deliver ha client message fun other mirror => rfl
  | markAgent client request agent mark =>
    have hadvances : ∀ agentMarks : AgentMarks,
        Advances a { a with agentMarks } ∧
          Advances a ({ a with agentMarks }.projectAgentCards reading) := by
      intro agentMarks
      have hmarked : Advances a { a with agentMarks } :=
        ⟨rfl, rfl, (Advances.refl a).effects, id⟩
      exact ⟨hmarked, hmarked.trans (advances_projectAgentCards reading _)⟩
    have hanswer : ∀ a' : Attentive E,
        ∀ act ∈ a'.deliver client (.operationResult request true "" none), ∃ client message,
          act = .sent client message ∧ (Effect.send client message).attends = false := by
      intro a' act hact
      rw [deliver] at hact
      split at hact
      · exact ⟨client, _, List.mem_singleton.mp hact, rfl⟩
      · cases hact
    simp only [perform]
    split
    · exact served_of_advances ha (hadvances _).2 rfl (hanswer _)
    · exact served_of_advances ha (hadvances _).1 rfl (hanswer _)
  | _ => exact hdaemon _ rfl rfl fun client message heq => by cases heq

/-- What one step leaves: the mirrors of the listeners follow, and what was broadcast is what was
pushed and kept. -/
structure Delivers (clock : ℕ → ℕ) (a a' : Attentive E) (acts : List Act)
    (move : Daemon.Move × Reading) : Prop where
  attuned : a'.Attuned
  follows : ∀ client mirror, a.Follows client mirror →
    a'.Follows client (acts.foldl (Act.hear client) mirror)
  broadcasts : broadcasts acts = boundedHistory (a.pushed clock move)
  kept : ∀ event ∈ a.pushed clock move, event ∈ a'.attention.events →
    event ∈ boundedHistory (a.pushed clock move)
  grows : a.attention.nextEventId + (a.pushed clock move).length = a'.attention.nextEventId ∧
    (a.pushed clock move).map AttentionEvent.id =
      List.range' a.attention.nextEventId (a.pushed clock move).length

theorem delivers_of_advances {clock : ℕ → ℕ} {a a' : Attentive E} (ha : a.Attuned)
    (h : Advances a a') {move : Daemon.Move × Reading} (hpushed : a.pushed clock move = []) :
    Delivers clock a a' [] move where
  attuned := h.attuned ha
  follows client mirror hfollows := h.follows hfollows
  broadcasts := by
    rw [hpushed]
    rfl
  kept event he := by
    rw [hpushed] at he
    cases he
  grows := by
    rw [hpushed, h.attention]
    exact ⟨rfl, rfl⟩

/-- The loop performs an effect. -/
theorem delivers_effect (spawn : ℕ → Spawning) (reading : Reading) (ha : a.Attuned)
    {pending : List Effect}
    (hpending : a.daemon.pending = effect :: pending) :
    Delivers clock a (step clock spawn a (.next, reading)).1
      (step clock spawn a (.next, reading)).2 (.next, reading) := by
  have hpushed : a.pushed clock (.next, reading) = [] := by simp [pushed, hpending]
  have hstep : step clock spawn a (.next, reading) =
      ({ a with daemon := { a.daemon with pending }.reportDowngraded } : Attentive E).perform spawn
        reading effect := by
    simp only [step, hpending]
  have hpopped : ({ a with daemon := { a.daemon with pending } } : Attentive E).Attuned :=
    ⟨ha.regular, ha.behind, ha.reached, ha.connected⟩
  have hreported := advances_reportDowngraded
    ({ a with daemon := { a.daemon with pending } } : Attentive E)
  have hserved := served_perform spawn reading (hreported.attuned hpopped) effect
  rw [hstep]
  refine ⟨hserved.attuned, fun client mirror hfollows => ?_, ?_, fun event he => ?_, ?_⟩
  · refine hserved.follows client mirror (hreported.follows fun hlistens => ?_)
    have howed := hfollows hlistens
    rw [owed, hpending, List.foldl_cons] at howed
    exact howed
  · rw [hserved.broadcasts, hpushed]
    rfl
  · rw [hpushed] at he
    cases he
  · rw [hserved.next, hpushed]
    exact ⟨rfl, rfl⟩

/-- The loop takes an update of the federation. -/
theorem delivers_federation (spawn : ℕ → Spawning) (reading : Reading) (ha : a.Attuned)
    (hpending : a.daemon.pending = [])
    {state : FederationState} {origin : Option ℕ} {inputs : List Queued}
    (hinputs : a.daemon.inputs = ⟨.federation state, origin⟩ :: inputs) :
    Delivers clock a (step clock spawn a (.next, reading)).1
      (step clock spawn a (.next, reading)).2 (.next, reading) := by
  have hpushed : a.pushed clock (.next, reading) = (a.attention.observe clock state).2 := by
    simp [pushed, hpending, hinputs]
  let taken : Attentive E :=
    { a with state, daemon := { a.daemon with inputs }.handle (.federation state) }
  have hstep : step clock spawn a (.next, reading) =
      ((taken.observeAttention clock reading.nowMs).1.projectAgentCards reading,
        (taken.observeAttention clock reading.nowMs).2) := by
    simp only [step, hpending, hinputs, handle]
    rfl
  obtain ⟨haudience, heffects⟩ := a.daemon.broker.unattended_federationUpdated state
  have htaken : taken.Attuned := ⟨ha.regular, ha.behind, ha.reached, fun client hc =>
    ha.connected client (haudience.mem hc)⟩
  have hgrows := AttentionIndex.grows_observe clock a.attention state ha.regular.bounded
  obtain ⟨hattuned, hfollows, hbroadcasts⟩ :=
    observeAttention_follows clock reading.nowMs htaken heffects
  have hprojected :=
    advances_projectAgentCards reading (taken.observeAttention clock reading.nowMs).1
  rw [hstep]
  refine ⟨hprojected.attuned hattuned, fun client mirror hmirror => ?_, ?_,
    fun event he hevent => ?_, ?_⟩
  · -- nothing was pending, so the mirror holds the index before the update
    have hbefore : taken.daemon.broker.Listens client → mirror.events = taken.attention.events := by
      intro hlistens
      have hheld := hmirror (haudience.listens hlistens)
      rw [owed, hpending] at hheld
      exact hheld
    have hunsent : ∀ act ∈ (taken.observeAttention clock reading.nowMs).2,
        ∀ mirror, Act.hear client mirror act = mirror := by
      intro act hact mirror
      cases act with
      | sent receiver message => exact absurd hact (observeAttention_unsent clock _ taken _ _)
      | broadcast event => rfl
      | alerted event => rfl
    rw [foldl_of_ignored hunsent]
    exact hprojected.follows (hfollows client mirror hbefore)
  · rw [hpushed]
    exact hbroadcasts
  · rw [hprojected.attention, observeAttention_attention] at hevent
    rw [hpushed] at he ⊢
    rw [← hgrows.filter_new ha.regular]
    exact List.mem_filter.mpr ⟨hevent, decide_eq_true (hgrows.le_id he).1⟩
  · rw [hpushed, hprojected.attention, observeAttention_attention]
    exact ⟨hgrows.next.symm, hgrows.ids⟩

/-- **The step lemma**: every step is followed. -/
theorem delivers_step (spawn : ℕ → Spawning) (ha : a.Attuned) (move : Daemon.Move × Reading) :
    Delivers clock a (step clock spawn a move).1 (step clock spawn a move).2 move := by
  obtain ⟨move, reading⟩ := move
  by_cases hnext : move = .next
  · subst hnext
    cases hpending : a.daemon.pending with
    | cons effect pending => exact delivers_effect clock spawn reading ha hpending
    | nil =>
      cases hinputs : a.daemon.inputs with
      | nil =>
        have hstep : step clock spawn a (.next, reading) = (a, []) := by
          simp only [step, hpending, hinputs]
        rw [hstep]
        exact delivers_of_advances ha (Advances.refl a) (by simp [pushed, hpending, hinputs])
      | cons queued inputs =>
        obtain ⟨input, origin⟩ := queued
        by_cases hobserves : ∃ state, input = .federation state
        · obtain ⟨state, rfl⟩ := hobserves
          exact delivers_federation clock spawn reading ha hpending hinputs
        · have hhandled : Advances a
              { a with daemon := { a.daemon with inputs }.handle input } := by
            have hdequeued : ({ a with daemon := { a.daemon with inputs } } :
                Attentive E).daemon.pending = [] := hpending
            have hadvances := advances_handle hdequeued input
            exact ⟨hadvances.attention, hadvances.cursor, hadvances.effects, hadvances.connected⟩
          have hstep : step clock spawn a (.next, reading) =
              ({ a with daemon := { a.daemon with inputs }.handle input }, []) := by
            simp only [step, hpending, hinputs, handle]
            split
            · next state => exact absurd ⟨state, rfl⟩ hobserves
            · rfl
          rw [hstep]
          refine delivers_of_advances ha hhandled ?_
          cases input with
          | federation state => exact absurd ⟨state, rfl⟩ hobserves
          | _ => simp only [pushed, hpending, hinputs]
  · obtain ⟨hadvances, hsent⟩ := advances_task spawn a hnext
    have hstep : step clock spawn a (move, reading) =
        ({ a with daemon := (a.daemon.step spawn move).1 }, []) := by
      cases move with
      | next => exact absurd rfl hnext
      | _ => simp only [step, hsent, List.map_nil]
    rw [hstep]
    refine delivers_of_advances ha hadvances ?_
    cases move with
    | next => exact absurd rfl hnext
    | _ => rfl

/-! ### Where a daemon starts -/

/-- The indexes a daemon may start from: an empty one, and whatever it can read back of what a
daemon before it wrote at any moment. -/
inductive Startable (E : Emulator) : AttentionIndex → Prop
  | fresh : Startable E .default
  | restored {attention restored : AttentionIndex} (clock : ℕ → ℕ) (spawn : ℕ → Spawning)
      (serverVersion : String) (features : List String) (quickReplies : List QuickReply)
      (marks : AgentMarks) (notifications : NotificationsConfig)
      (moves : List (Daemon.Move × Reading)) (earlier : Startable E attention)
      (loaded : (PersistedAttention.of (after clock spawn (new E serverVersion features
        quickReplies attention marks notifications) moves).attention).toIndex = .ok restored) :
      Startable E restored

theorem loaded_of_toIndex {persisted : PersistedAttention} {restored : AttentionIndex}
    (hload : persisted.toIndex = .ok restored) :
    restored.events = persisted.events ∧ persisted.nextEventId ≤ restored.nextEventId := by
  rw [PersistedAttention.toIndex] at hload
  split at hload
  · cases hload
  split at hload
  · cases hload
  split at hload
  · cases hload
  split at hload
  · cases hload
  obtain rfl := Except.ok.inj hload
  refine ⟨rfl, ?_⟩
  simp only
  split
  · exact le_max_left _ _
  · exact le_rfl

theorem regular_of_loaded {index restored : AttentionIndex} (h : index.Regular)
    (hload : (PersistedAttention.of index).toIndex = .ok restored) : restored.Regular := by
  obtain ⟨hevents, hnext⟩ := loaded_of_toIndex hload
  refine h.of_sublist ?_ hnext
  rw [hevents]
  exact List.Sublist.refl index.events

variable {attention : AttentionIndex}

theorem attuned_new (serverVersion : String) (features : List String)
    (quickReplies : List QuickReply) (h : attention.Regular)
    (marks : AgentMarks) (notifications : NotificationsConfig) :
    (new E serverVersion features quickReplies attention marks notifications).Attuned := by
  refine ⟨h, fun event he => ?_, fun last hlast => ?_, fun client hc => ?_⟩
  · cases hlast : attention.events.getLast? with
    | none =>
      rw [List.getLast?_eq_none_iff] at hlast
      rw [new, hlast] at he
      cases he
    | some newest =>
      exact ⟨newest.id, by rw [new, hlast]; rfl, le_id_getLast h.increasing hlast he⟩
  · obtain ⟨newest, hnewest, rfl⟩ := Option.map_eq_some_iff.mp hlast
    exact h.numbered newest (List.mem_of_getLast? hnewest)
  · exact absurd hc (by simp [new, Daemon.new, Broker.new])

/-! ### Along a run -/

/-- What holds after a run: the mirrors of the listeners follow, and what was broadcast is
numbered upwards below the counter. -/
structure Delivered (a : Attentive E) (acts : List Act) : Prop where
  attuned : a.Attuned
  follows : ∀ client, a.Follows client (acts.foldl (Act.hear client) .default)
  increasing : (broadcasts acts).Pairwise AttentionEvent.Earlier
  numbered : ∀ event ∈ broadcasts acts, event.id < a.attention.nextEventId

theorem Delivered.step {acts : List Act} (h : a.Delivered acts)
    (clock : ℕ → ℕ) (spawn : ℕ → Spawning) (move : Daemon.Move × Reading) :
    (Attentive.step clock spawn a move).1.Delivered
      (acts ++ (Attentive.step clock spawn a move).2) := by
  have hstep := delivers_step clock spawn h.attuned move
  obtain ⟨hnext, hids⟩ := hstep.grows
  have hnew : ∀ event ∈ boundedHistory (a.pushed clock move),
      a.attention.nextEventId ≤ event.id ∧
        event.id < (Attentive.step clock spawn a move).1.attention.nextEventId := by
    intro event he
    have hid : event.id ∈ List.range' a.attention.nextEventId (a.pushed clock move).length :=
      hids ▸ List.mem_map_of_mem ((boundedHistory_sublist _).subset he)
    rw [← hnext]
    exact List.mem_range'_1.mp hid
  refine ⟨hstep.attuned, fun client => ?_, ?_, fun event he => ?_⟩
  · rw [List.foldl_append]
    exact hstep.follows client _ (h.follows client)
  · rw [broadcasts_append, hstep.broadcasts, List.pairwise_append]
    refine ⟨h.increasing, ?_, fun earlier hearlier later hlater => ?_⟩
    · have hpushed : (a.pushed clock move).Pairwise AttentionEvent.Earlier := by
        have hordered : ((a.pushed clock move).map AttentionEvent.id).Pairwise (· < ·) := by
          rw [hids]
          exact List.pairwise_lt_range'
        rw [List.pairwise_map] at hordered
        exact hordered
      exact hpushed.sublist (boundedHistory_sublist _)
    · exact (h.numbered earlier hearlier).trans_le (hnew later hlater).1
  · rw [broadcasts_append, hstep.broadcasts] at he
    rcases List.mem_append.mp he with he | he
    · exact (h.numbered event he).trans_le (by omega)
    · exact (hnew event he).2

theorem delivered_run (spawn : ℕ → Spawning) (serverVersion : String)
    (features : List String) (quickReplies : List QuickReply) (marks : AgentMarks)
    (notifications : NotificationsConfig) (h : attention.Regular)
    (moves : List (Daemon.Move × Reading)) :
    let run := exec (step clock spawn)
      (new E serverVersion features quickReplies attention marks notifications) moves
    run.1.Delivered run.2 := by
  refine history_rule (P := fun moves (a : Attentive E) => a.Delivered (exec (step clock spawn)
    (new E serverVersion features quickReplies attention marks notifications) moves).2) ?_
    (fun before move hbefore => ?_) moves
  · refine ⟨attuned_new serverVersion features quickReplies h marks notifications, ?_,
      List.Pairwise.nil, fun event he => by cases he⟩
    intro client hlistens
    exact absurd hlistens.mem (by simp [new, Daemon.new, Broker.new])
  · rw [exec_append, exec_singleton]
    exact hbefore.step clock spawn move

theorem Startable.regular (h : Startable E attention) : attention.Regular := by
  induction h with
  | fresh => exact AttentionIndex.regular_default
  | restored clock spawn serverVersion features quickReplies marks notifications moves _ loaded ih =>
    exact regular_of_loaded (delivered_run clock spawn serverVersion features quickReplies marks
      notifications ih moves).attuned.regular loaded

/-- **Attention is delivered**: whenever the daemon has finished with an input, the mirror of
every listener holds the events of the index, with their kinds and whether they were seen, in
order. Every event is broadcast at most once, in the order of their identifiers, and every event
that an observation pushes and the bound keeps is broadcast once. -/
theorem attention_delivery (clock : ℕ → ℕ) (spawn : ℕ → Spawning) (serverVersion : String)
    (features : List String) (quickReplies : List QuickReply) (marks : AgentMarks)
    (notifications : NotificationsConfig) {attention : AttentionIndex}
    (hstart : Startable E attention) (moves : List (Daemon.Move × Reading)) :
    let start := new E serverVersion features quickReplies attention marks notifications
    let run := exec (step clock spawn) start moves
    (run.1.daemon.pending = [] → ∀ client, run.1.daemon.broker.Listens client →
      (run.2.foldl (Act.hear client) .default).events = run.1.attention.events) ∧
    (broadcasts run.2).Pairwise (fun earlier later => earlier.id < later.id) ∧
    ∀ before move rest, moves = before ++ move :: rest →
      let a := after clock spawn start before
      ∀ event ∈ a.pushed clock move, event ∈ (step clock spawn a move).1.attention.events →
        (broadcasts run.2).count event = 1 := by
  intro start run
  have hrun : run.1.Delivered run.2 :=
    delivered_run clock spawn serverVersion features quickReplies marks notifications
      hstart.regular moves
  refine ⟨fun hidle client hlistens => ?_, hrun.increasing, ?_⟩
  · have hfollows := hrun.follows client hlistens
    rw [owed, hidle, List.foldl_nil] at hfollows
    exact hfollows
  · rintro before move rest rfl a event hpushed hkept
    have hbefore : a.Delivered (exec (step clock spawn) start before).2 :=
      delivered_run clock spawn serverVersion features quickReplies marks notifications
        hstart.regular before
    have hstep := delivers_step clock spawn hbefore.attuned move
    have hmem : event ∈ broadcasts run.2 := by
      have hrun2 : run.2 = (exec (step clock spawn) start before).2 ++
          ((step clock spawn a move).2 ++
            (exec (step clock spawn) (step clock spawn a move).1 rest).2) := by
        simp only [run, exec_append, exec_cons]
        rfl
      rw [hrun2, broadcasts_append, broadcasts_append, hstep.broadcasts]
      exact List.mem_append_right _ (List.mem_append_left _ (hstep.kept event hpushed hkept))
    have hnodup : (broadcasts run.2).Nodup :=
      hrun.increasing.imp fun {earlier later} hlt heq => by
        rw [heq] at hlt
        exact lt_irrefl _ hlt
    exact List.count_eq_one_of_mem hnodup hmem

/-! ### A run -/

/-- One agent in a pane, for concrete runs. -/
def agentAs (status : String) (session : Option AgentSessionRef) : AgentState :=
  ⟨Broker.pane₁, some "claude", none, some status, none, none, session⟩

/-- A live target whose snapshot lists these agents. -/
def hosting (agents : List AgentState) : FederationState :=
  let snapshot : NormalizedSnapshot :=
    ⟨none, none, none, ∅, ⟨0, 0, 0, 0⟩, none, none, none, ∅, ∅, ∅, ∅,
      agents.foldl (fun held agent => held.insert agent.pane agent) ∅, ∅⟩
  ⟨1, ExtTreeMap.empty.insert Broker.pane₁.targetSession
    ⟨Broker.pane₁.targetSession, "local", .live, .polling, none, 1, none, [], some snapshot, none,
      none, none⟩⟩

def reading : Reading := ⟨1000, ⟨1, 0, [], [], []⟩⟩

/-- An input arrives, and the loop takes it and performs `effects` effects. -/
def served (input : Input) (effects : ℕ) : List (Daemon.Move × Reading) :=
  (Daemon.served input effects).map fun move => (move, reading)

def alerts : NotificationsConfig := ⟨true, true, true, true, true, true⟩

/-- A client listens while an agent starts to work and is blocked, then marks that seen. -/
def listening : List (Daemon.Move × Reading) :=
  served (.connected false) 0 ++ served (.received 0 (.hello PROTOCOL_VERSION "tui")) 1 ++
    served (.federation (hosting [agentAs "idle" none])) 0 ++
    served (.received 0 .subscribeState) 2 ++
    served (.federation (hosting [agentAs "working" none])) 2 ++
    served (.federation (hosting [agentAs "blocked" none])) 2 ++
    served (.received 0 .markAllAttentionSeen) 2

/-- The two events reach the client's mirror, which ends with both of them seen. -/
theorem attention_delivery_marked :
    let run := exec (step id Daemon.obliging)
      (new teletype "0.9.0" [] [] .default .default alerts) listening
    run.1.daemon.pending = [] ∧ run.1.daemon.broker.Listens 0 ∧
      run.1.attention.events.map (fun event => (event.id, event.kind, event.unread)) =
        [(0, .working, false), (1, .needsAttention, false)] ∧
      (run.2.foldl (Act.hear 0) .default).events = run.1.attention.events := by
  have hidle : (exec (step id Daemon.obliging)
      (new teletype "0.9.0" [] [] .default .default alerts) listening).1.daemon.pending = [] := by
    decide +kernel
  have hlistens : (exec (step id Daemon.obliging)
      (new teletype "0.9.0" [] [] .default .default alerts) listening).1.daemon.broker.Listens 0 := by
    decide +kernel
  have hdelivered := (attention_delivery id Daemon.obliging "0.9.0" [] [] .default alerts
    (Startable.fresh (E := teletype)) listening).1
  exact ⟨hidle, hlistens, by decide +kernel, hdelivered hidle 0 hlistens⟩

end Attentive

end SuperHerdr
