import Mathlib
import SuperHerdr.Library.Rewriting

/-!
# Push subscriptions

The file of push subscriptions is read and replaced whole as well, by web requests and by the sweep that
wakes every device after an attention event. The sweep takes the subscriptions once and asks the push
services one after another; where one says that an endpoint is gone, the sweep removes what the device
has stored by then.

A store over its cap drops its oldest entry; that is part of what `set` does.
-/

namespace SuperHerdr

namespace Files

open Std Transducer

def maxPushSubscriptions : ℕ := 128

structure PushSubscription where
  endpoint : String
  p256dh : String
  auth : String
deriving DecidableEq

structure PersistedSubscription where
  subscription : PushSubscription
  subscribedAtMs : ℕ
deriving DecidableEq

/-- By the digest of the device's token. -/
abbrev Subscriptions := ExtTreeMap String PersistedSubscription

/-! ### The store -/

/-- The subscription that is dropped first. -/
def oldest (subscriptions : Subscriptions) : Option String :=
  (subscriptions.toList.argmin fun entry => toLex (entry.2.subscribedAtMs, entry.1)).map Prod.fst

def evict (subscriptions : Subscriptions) : Subscriptions :=
  (oldest subscriptions).elim subscriptions subscriptions.erase

def enforceCap (subscriptions : Subscriptions) : Subscriptions :=
  evict^[subscriptions.size - maxPushSubscriptions] subscriptions

namespace PushSubscriptionStore

/-- A file that cannot be read is `none`. -/
def load (file : Option Subscriptions) : Option Subscriptions :=
  file.filter fun subscriptions => subscriptions.size ≤ maxPushSubscriptions

/-- What the store holds; a file that cannot be read holds nothing. -/
def current (file : Option Subscriptions) : Subscriptions :=
  (load file).getD ∅

def set (file : Option Subscriptions) (token : String) (persisted : PersistedSubscription) :
    Subscriptions :=
  enforceCap ((current file).insert token persisted)

/-- Nothing is written where there is nothing to remove. -/
def remove (file : Option Subscriptions) (token : String) : Option Subscriptions :=
  (load file).bind fun persisted =>
    persisted[token]?.map fun _ => persisted.erase token

end PushSubscriptionStore

open PushSubscriptionStore (current)

/-- An edit of the store. The sweep's removal is of a subscription it found gone. -/
inductive PushEdit
  | set (token : String) (persisted : PersistedSubscription)
  | remove (token : String)
  | prune (token : String) (gone : PushSubscription)
deriving DecidableEq

/-- What an edit makes of what it reads. Where it cannot read, it goes on from nothing: it is done if it
removes, and stores what it sets alone. -/
def PushEdit.outcome (edit : PushEdit) (file : Option Subscriptions) :
    Option (Option (Option Subscriptions)) :=
  match edit with
  | .set token persisted => some (some (some (PushSubscriptionStore.set file token persisted)))
  | .remove token | .prune token _ =>
      some ((PushSubscriptionStore.remove file token).map some)

/-- What an edit is to change: a removal by the sweep is to leave any other subscription. -/
def PushEdit.effect (edit : PushEdit) (stored : Subscriptions) : Subscriptions :=
  match edit with
  | .set token persisted => enforceCap (stored.insert token persisted)
  | .remove token => stored.erase token
  | .prune token gone =>
      if stored[token]?.map PersistedSubscription.subscription = some gone then
        stored.erase token
      else stored

/-- What cannot be read need not be changed. -/
def PushEdit.Idles (edit : PushEdit) (file : Option Subscriptions) : Prop :=
  match edit with
  | .set _ _ => True
  | .remove token => (current file)[token]? = none
  | .prune token gone => ∀ stored, (current file)[token]? = some stored → stored.subscription ≠ gone

/-- What was read and what is there agree in every entry that the edit is not about, as far as the cap
lets them stay, and the sweep finds nothing but what it asked for. -/
def PushEdit.Lands (edit : PushEdit) (read file : Option Subscriptions) : Prop :=
  match edit with
  | .set token persisted =>
      enforceCap ((current read).insert token persisted) =
        enforceCap ((current file).insert token persisted)
  | .remove token => ∀ other ≠ token, (current read)[other]? = (current file)[other]?
  | .prune token gone =>
      (∀ other ≠ token, (current read)[other]? = (current file)[other]?) ∧
        ∀ stored, (current file)[token]? = some stored → stored.subscription = gone

/-! ### The cap -/

theorem oldest_isSome {subscriptions : Subscriptions} (h : 0 < subscriptions.size) :
    ∃ token, oldest subscriptions = some token ∧ token ∈ subscriptions := by
  have hne : subscriptions.toList ≠ [] := by
    intro hnil
    have hlength := subscriptions.length_toList
    rw [hnil, List.length_nil] at hlength
    omega
  cases hmin : subscriptions.toList.argmin
      fun entry => toLex (entry.2.subscribedAtMs, entry.1) with
  | none => exact absurd (List.argmin_eq_none.mp hmin) hne
  | some entry =>
    have hmem : entry ∈ subscriptions.toList := List.argmin_mem hmin
    refine ⟨entry.1, by rw [oldest, hmin, Option.map_some], ?_⟩
    rw [ExtTreeMap.mem_iff_isSome_getElem?,
      ExtTreeMap.mem_toList_iff_getElem?_eq_some.mp hmem]
    rfl

theorem size_evict (subscriptions : Subscriptions) :
    (evict subscriptions).size = subscriptions.size - 1 := by
  by_cases hpos : 0 < subscriptions.size
  · obtain ⟨token, hold, hmem⟩ := oldest_isSome hpos
    rw [evict, hold, Option.elim_some, ExtTreeMap.size_erase,
      if_pos (ExtTreeMap.mem_iff_contains.mp hmem)]
  · have hempty : subscriptions = ∅ := by
      rw [ExtTreeMap.eq_empty_iff_size_eq_zero]
      omega
    subst hempty
    rfl

theorem size_enforceCap (subscriptions : Subscriptions) :
    (enforceCap subscriptions).size ≤ maxPushSubscriptions := by
  have hiterate : ∀ n (m : Subscriptions), (evict^[n] m).size = m.size - n := by
    intro n
    induction n with
    | zero => intro m; rfl
    | succ n ih =>
      intro m
      rw [Function.iterate_succ_apply, ih, size_evict]
      omega
  rw [enforceCap, hiterate]
  omega

/-! ### What an edit leaves -/

theorem current_some {subscriptions : Subscriptions}
    (h : subscriptions.size ≤ maxPushSubscriptions) : current (some subscriptions) = subscriptions := by
  rw [current, PushSubscriptionStore.load, Option.filter_some, if_pos (by simpa using h),
    Option.getD_some]

theorem size_current (file : Option Subscriptions) :
    (current file).size ≤ maxPushSubscriptions := by
  cases hload : PushSubscriptionStore.load file with
  | none => simp [current, hload]
  | some held =>
    have hcap := (Option.filter_eq_some_iff.mp hload).2
    simpa [current, hload] using hcap

theorem size_erase_current (file : Option Subscriptions) (token : String) :
    ((current file).erase token).size ≤ maxPushSubscriptions :=
  ExtTreeMap.size_erase_le.trans (size_current file)

theorem erase_eq_self {stored : Subscriptions} {token : String} (h : stored[token]? = none) :
    stored.erase token = stored := by
  refine ExtTreeMap.ext_getElem? fun other => ?_
  rw [ExtTreeMap.getElem?_erase]
  split
  · next heq =>
    rw [LawfulEqCmp.eq_of_compare heq] at h
    exact h.symm
  · rfl

theorem erase_eq_self_iff {stored : Subscriptions} {token : String} :
    stored.erase token = stored ↔ stored[token]? = none := by
  refine ⟨fun heq => ?_, erase_eq_self⟩
  rw [← heq]
  simp

theorem erase_eq_erase_iff {a b : Subscriptions} {token : String} :
    a.erase token = b.erase token ↔ ∀ other ≠ token, a[other]? = b[other]? := by
  constructor
  · intro h other hne
    have hother := congrArg (fun m : Subscriptions => m[other]?) h
    simpa [ExtTreeMap.getElem?_erase, hne.symm] using hother
  · intro h
    refine ExtTreeMap.ext_getElem? fun other => ?_
    rw [ExtTreeMap.getElem?_erase, ExtTreeMap.getElem?_erase]
    split
    · rfl
    · next hne => exact h other fun heq => hne (by rw [heq]; exact compare_self)

variable {file : Option Subscriptions}

theorem remove_eq_some {token : String} {written : Subscriptions}
    (h : PushSubscriptionStore.remove file token = some written) :
    written = (current file).erase token := by
  rw [PushSubscriptionStore.remove, Option.bind_eq_some_iff] at h
  obtain ⟨persisted, hload, hremoved⟩ := h
  obtain ⟨-, -, rfl⟩ := Option.map_eq_some_iff.mp hremoved
  rw [current, hload, Option.getD_some]

theorem remove_eq_none {token : String}
    (h : PushSubscriptionStore.remove file token = none) : (current file)[token]? = none := by
  rw [PushSubscriptionStore.remove] at h
  cases hload : PushSubscriptionStore.load file with
  | none => simp [current, hload]
  | some persisted => simpa [current, hload] using h

theorem outcome_eq_none {edit : PushEdit}
    (h : edit.outcome file = some none) : edit.effect (current file) = current file := by
  cases edit with
  | set token persisted => cases h
  | remove token =>
    have hnone := remove_eq_none (by simpa [PushEdit.outcome] using h)
    exact erase_eq_self hnone
  | prune token gone =>
    have hnone := remove_eq_none (by simpa [PushEdit.outcome] using h)
    simp [PushEdit.effect, hnone]

theorem idles_iff (edit : PushEdit) (file : Option Subscriptions) : edit.Idles file ↔
    (edit.outcome none = some none → edit.effect (current file) = current file) := by
  cases edit with
  | set token persisted => simp [PushEdit.Idles, PushEdit.outcome]
  | remove token =>
    simp only [PushEdit.Idles, PushEdit.effect, erase_eq_self_iff]
    exact ⟨fun h _ => h, fun h => h rfl⟩
  | prune token gone =>
    have hone : (PushEdit.prune token gone).outcome none = some none := rfl
    simp only [PushEdit.Idles, PushEdit.effect, hone, forall_const]
    cases hstored : (current file)[token]? with
    | none => simp
    | some stored =>
      by_cases hgone : stored.subscription = gone
      · simp [hgone, erase_eq_self_iff, hstored]
      · simp [hgone]

theorem lands_iff {edit : PushEdit} {read written file : Option Subscriptions}
    (h : edit.outcome read = some (some written)) :
    current written = edit.effect (current file) ↔ edit.Lands read file := by
  cases edit with
  | set token persisted =>
    obtain rfl : some (PushSubscriptionStore.set read token persisted) = written := by
      simpa [PushEdit.outcome] using h
    rw [PushSubscriptionStore.set, current_some (size_enforceCap _)]
    exact Iff.rfl
  | remove token =>
    obtain ⟨removed, hremoved, rfl⟩ : ∃ removed,
        PushSubscriptionStore.remove read token = some removed ∧ some removed = written := by
      simpa [PushEdit.outcome] using h
    obtain rfl := remove_eq_some hremoved
    rw [current_some (size_erase_current read token)]
    exact erase_eq_erase_iff
  | prune token gone =>
    obtain ⟨removed, hremoved, rfl⟩ : ∃ removed,
        PushSubscriptionStore.remove read token = some removed ∧ some removed = written := by
      simpa [PushEdit.outcome] using h
    obtain rfl := remove_eq_some hremoved
    rw [current_some (size_erase_current read token), PushEdit.Lands, ← erase_eq_erase_iff,
      PushEdit.effect]
    cases hstored : (current file)[token]? with
    | none => simp [erase_eq_self hstored]
    | some stored =>
      by_cases hgone : stored.subscription = gone
      · simp [hgone]
      · have hkeeps : (current read).erase token ≠ current file := by
          intro heq
          have hnone : (current file)[token]? = none := by simp [← heq]
          rw [hstored] at hnone
          cases hnone
        simp [hgone, hkeeps]

/-! ### Requests and sweeps -/

/-- A sweep: the subscriptions it has still to wake, and the removal it waits for. -/
structure Sweep where
  left : List (String × PushSubscription)
  removal : Option ℕ

structure Pushes where
  store : Rewriting.State (Option Subscriptions) PushEdit
  sweeps : List Sweep

inductive PushEvent
  | subscribePush (token : String) (persisted : PersistedSubscription)
  | unsubscribePush (token : String)
  | run (task : ℕ) (works : Bool)
  /-- The sweep's own reading may fail. -/
  | spawnPushSweep (works : Bool)
  | woken (sweep : ℕ) (gone : Bool)

/-- The subscription that a sweep is waking. -/
def Pushes.waking (s : Pushes) (i : ℕ) : Option (String × PushSubscription) :=
  s.sweeps[i]?.bind fun sweep =>
    if sweep.removal.all fun task => s.store.tasks[task]?.all Rewriting.Task.isEnded then
      sweep.left.head?
    else none

/-- What an event does to the store. -/
def PushEvent.label (s : Pushes) : PushEvent → Option (Rewriting.Event PushEdit)
  | .subscribePush token persisted => some (.start (.set token persisted))
  | .unsubscribePush token => some (.start (.remove token))
  | .run task works => some (.run task works)
  | .spawnPushSweep _ => none
  | .woken i gone =>
      if gone then (s.waking i).map fun woken => .start (.prune woken.1 woken.2) else none

/-- What an event does to the sweeps. -/
def PushEvent.sweeps (s : Pushes) : PushEvent → List Sweep
  | .spawnPushSweep works =>
      s.sweeps ++ [⟨(current (s.store.read none works)).toList.map fun entry =>
        (entry.1, entry.2.subscription), none⟩]
  | .woken i gone =>
      if (s.waking i).isSome then
        s.sweeps.modify i fun sweep =>
          ⟨sweep.left.tail, if gone then some s.store.tasks.length else none⟩
      else s.sweeps
  | _ => s.sweeps

def Pushes.step (s : Pushes) (event : PushEvent) : Pushes × List PushEdit :=
  let stored := (event.label s).elim (s.store, []) (Rewriting.step none PushEdit.outcome s.store)
  (⟨stored.1, event.sweeps s⟩, stored.2)

/-- **Edits of the push subscriptions**: in every run the store holds what the edits answered with `Ok`
left, exactly if every removal that cannot read finds nothing to remove, no edit replaces the store over
a change of another entry that it has not read, and no sweep removes what it has not asked about. -/
theorem push_reflected_iff (file : Option Subscriptions) (events : List PushEvent) :
    AllStates (observe Pushes.step (Rewriting.record PushEdit.effect))
        (fun s => current s.1.store.file = s.2) (⟨⟨file, []⟩, []⟩, current file) events ↔
      AllSteps Pushes.step (fun s event => ∀ stored ∈ event.label s,
          Rewriting.Current PushEdit.Idles PushEdit.Lands s.store stored)
        ⟨⟨file, []⟩, []⟩ events :=
  Rewriting.reflected_iff_current Pushes.step Pushes.store (fun s event => event.label s)
    (fun _ _ => rfl) (fun _ _ h => outcome_eq_none h) idles_iff (fun _ _ _ _ h => lands_iff h) rfl events

/-- A sweep finds a device's old endpoint gone and removes the one it has stored since. -/
example :
    let before : PushSubscription := ⟨"https://push/old", "p", "a"⟩
    let after : PushSubscription := ⟨"https://push/new", "p", "a"⟩
    let sweep := Transducer.exec Pushes.step ⟨⟨some {("a1", ⟨before, 1⟩)}, []⟩, []⟩
      [.spawnPushSweep true, .subscribePush "a1" ⟨after, 2⟩, .run 0 true, .run 0 true,
        .woken 0 true, .run 1 true, .run 1 true]
    sweep.2 = [.set "a1" ⟨after, 2⟩, .prune "a1" before] ∧ current sweep.1.store.file = ∅ := by
  decide +kernel

end Files

end SuperHerdr
