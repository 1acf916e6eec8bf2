import SuperHerdr.Library.CommandLine
import SuperHerdr.Tui.Verified

/-!
# Batches of uploads

A `Record` is what an onlooker writes down of a batch: which requests it started with, how each of
them ended, first of all, and what was reported of the batch. `batches_settle` compares it with what
the frontend does: a batch is held until all of its requests have ended, and is settled then, with
one path or one failure for each; unless the daemon says of an upload that it was interrupted, which
the frontend takes no notice of.
-/

namespace SuperHerdr

namespace Tui

open Std Transducer

/-! ### What an onlooker writes down -/

/-- How an upload is said to have ended. -/
inductive Fate
  | ended (ending : App.Ending)
  | interrupted
deriving DecidableEq

/-- The path of an upload that arrived. -/
def arrivedPath : Option Fate → Option String
  | some (.ended (.complete path)) => some path
  | _ => none

structure Record where
  requests : List (ℕ × String)
  /-- How the requests ended, in the order in which they did. -/
  fates : List (ℕ × Fate)
  settled : List UploadBatch

namespace Record

variable (record : Record)

/-- Whether all of the requests have ended. -/
def Ended : Prop := ∀ entry ∈ record.requests, (record.fates.lookup entry.1).isSome

instance : Decidable record.Ended := inferInstanceAs (Decidable (∀ entry ∈ record.requests, _))

/-- The path that arrived for a position. -/
def path (position : ℕ) : Option String :=
  record.requests[position]?.bind fun entry => arrivedPath (record.fates.lookup entry.1)

/-- The paths that arrived, in the order in which they were selected. -/
def paths : List String :=
  record.requests.filterMap fun entry => arrivedPath (record.fates.lookup entry.1)

/-- What a request that failed is reported as. -/
def failure (entry : ℕ × Fate) : Option String :=
  match entry.2 with
  | .ended (.failed message) =>
      (record.requests.lookup entry.1).map fun name => s!"{name}: {message}"
  | _ => none

/-- The requests that failed, each named, in the order in which they did. -/
def failures : List String := record.fates.filterMap record.failure

/-- A request ends, if it is one of the batch's and has not. -/
def hear (request : ℕ) (fate : Fate) : Record :=
  if (record.requests.lookup request).isSome ∧ record.fates.lookup request = none then
    { record with fates := record.fates ++ [(request, fate)] }
  else record

/-- A batch is what its requests amount to: one path or one failure for each that has ended. -/
structure Amounts (state : UploadBatch) : Prop where
  expected : state.expected = record.requests.length
  paths : ∀ position : ℕ, state.paths[position]? = record.path position
  order : App.settledBatch state = record.paths
  failures : state.failures = record.failures
  each : state.paths.size + state.failures.length = record.fates.length

/-- Requests are told apart, and end at most once. -/
structure Wf : Prop where
  distinct : (record.requests.map (·.1)).Nodup
  once : (record.fates.map (·.1)).Nodup
  known : ∀ entry ∈ record.fates, entry.1 ∈ record.requests.map (·.1)

/-! ### Records -/

variable {record}

variable {request : ℕ}

theorem isSome_lookup {α : Type} {entries : List (ℕ × α)} :
    (entries.lookup request).isSome ↔ request ∈ entries.map (·.1) := by
  rw [List.lookup_isSome_iff, List.mem_map]
  constructor
  · rintro ⟨entry, hentry, hsame⟩
    exact ⟨entry, hentry, (by simpa using hsame : request = entry.1).symm⟩
  · rintro ⟨entry, hentry, rfl⟩
    exact ⟨entry, hentry, by simp⟩

theorem lookup_eq_none {α : Type} {entries : List (ℕ × α)} :
    entries.lookup request = none ↔ request ∉ entries.map (·.1) := by
  rw [← isSome_lookup, Option.not_isSome_iff_eq_none]

/-- A request is at one position. -/
theorem Wf.lookup_of_get (h : record.Wf) {position request : ℕ} {name : String}
    (hget : record.requests[position]? = some (request, name)) :
    record.requests.lookup request = some name := by
  have hdistinct := h.distinct
  generalize record.requests = requests at hget hdistinct ⊢
  induction requests generalizing position with
  | nil => simp at hget
  | cons entry requests ih =>
    rw [List.map_cons, List.nodup_cons] at hdistinct
    cases position with
    | zero =>
      have hentry : entry = (request, name) := by simpa using hget
      simp [hentry]
    | succ position =>
      have hrest : requests[position]? = some (request, name) := by simpa using hget
      have hmem : request ∈ requests.map (·.1) :=
        List.mem_map.mpr ⟨_, List.mem_of_getElem? hrest, rfl⟩
      have hne : request ≠ entry.1 := fun hsame => hdistinct.1 (hsame ▸ hmem)
      have hbeq : (request == entry.1) = false := by simpa using hne
      rw [List.lookup_cons, hbeq]
      exact ih hrest hdistinct.2

theorem Wf.position_unique (h : record.Wf) {position other request : ℕ} {name found : String}
    (hget : record.requests[position]? = some (request, name))
    (hother : record.requests[other]? = some (request, found)) : position = other := by
  have hfirst : (record.requests.map (·.1))[position]? = some request := by simp [hget]
  have hsecond : (record.requests.map (·.1))[other]? = some request := by simp [hother]
  obtain ⟨hlt, hfirst⟩ := List.getElem?_eq_some_iff.mp hfirst
  obtain ⟨hlt', hsecond⟩ := List.getElem?_eq_some_iff.mp hsecond
  exact (h.distinct.getElem_inj_iff).mp (hfirst.trans hsecond.symm)

/-- All requests have ended when as many have as there are. -/
theorem Wf.ended_iff (h : record.Wf) : record.Ended ↔ record.requests.length ≤ record.fates.length := by
  have hsubset : record.fates.map (·.1) ⊆ record.requests.map (·.1) := by
    intro request hmem
    obtain ⟨entry, hentry, rfl⟩ := List.mem_map.mp hmem
    exact h.known entry hentry
  constructor
  · intro hended
    have hcovered : record.requests.map (·.1) ⊆ record.fates.map (·.1) := by
      intro request hmem
      obtain ⟨entry, hentry, rfl⟩ := List.mem_map.mp hmem
      exact isSome_lookup.mp (hended entry hentry)
    simpa using (h.distinct.subperm hcovered).length_le
  · intro hlength entry hentry
    have hperm := (h.once.subperm hsubset).perm_of_length_le (by simpa using hlength)
    exact isSome_lookup.mpr (hperm.mem_iff.mpr (List.mem_map.mpr ⟨entry, hentry, rfl⟩))

theorem hear_of_ended (h : record.fates.lookup request ≠ none) (fate : Fate) :
    record.hear request fate = record := by
  rw [hear, if_neg fun hnew => h hnew.2]

theorem hear_of_unknown (h : request ∉ record.requests.map (·.1)) (fate : Fate) :
    record.hear request fate = record := by
  rw [hear, if_neg fun hnew => h (isSome_lookup.mp hnew.1)]

theorem hear_of_open (hmem : request ∈ record.requests.map (·.1))
    (hopen : record.fates.lookup request = none) (fate : Fate) :
    record.hear request fate = { record with fates := record.fates ++ [(request, fate)] } := by
  rw [hear, if_pos ⟨isSome_lookup.mpr hmem, hopen⟩]

theorem lookup_hear (hmem : request ∈ record.requests.map (·.1))
    (hopen : record.fates.lookup request = none) (fate : Fate) (other : ℕ) :
    (record.hear request fate).fates.lookup other =
      if other = request then some fate else record.fates.lookup other := by
  rw [hear_of_open hmem hopen, List.lookup_append]
  by_cases hsame : other = request
  · simp [hsame, hopen]
  · have hbeq : (other == request) = false := by simpa using hsame
    simp [List.lookup_cons, hbeq, hsame]

@[simp] theorem hear_requests (request : ℕ) (fate : Fate) :
    (record.hear request fate).requests = record.requests := by
  rw [hear]
  split <;> rfl

@[simp] theorem hear_settled (request : ℕ) (fate : Fate) :
    (record.hear request fate).settled = record.settled := by
  rw [hear]
  split <;> rfl

theorem Wf.hear (h : record.Wf) (request : ℕ) (fate : Fate) : (record.hear request fate).Wf := by
  rw [Record.hear]
  split
  · next hnew =>
    refine ⟨h.distinct, ?_, ?_⟩
    · have hfresh := lookup_eq_none.mp hnew.2
      rw [List.map_append, List.nodup_append]
      refine ⟨h.once, by simp, ?_⟩
      intro held hheld new hmem hsame
      have hrequest : new = request := by simpa using hmem
      exact hfresh (hrequest ▸ hsame ▸ hheld)
    · intro entry hentry
      rcases List.mem_append.mp hentry with hold | hlast
      · exact h.known entry hold
      · rw [List.mem_singleton.mp hlast]
        exact isSome_lookup.mp hnew.1
  · exact h

/-! ### What a record amounts to -/

theorem filterMap_range {α β : Type} (f : α → Option β) (entries : List α) :
    ((List.range entries.length).filterMap fun position => entries[position]?.bind f) =
      entries.filterMap f := by
  induction entries with
  | nil => rfl
  | cons entry entries ih =>
    rw [List.length_cons, List.range_succ_eq_map, List.filterMap_cons, List.filterMap_map,
      List.filterMap_cons, ← ih]
    rfl

/-- Paths by position, in the order of their positions. -/
theorem settledBatch_of_paths {state : UploadBatch}
    (h : ∀ position : ℕ, state.paths[position]? = record.path position) :
    App.settledBatch state = record.paths := by
  have hordered : state.paths.toList.Pairwise fun a b => a.1 < b.1 :=
    ExtTreeMap.ordered_keys_toList.imp fun hlt => Nat.compare_eq_lt.mp hlt
  have hranged : ((List.range record.requests.length).filterMap fun position =>
      (record.path position).map fun path => (position, path)).Pairwise fun a b => a.1 < b.1 := by
    refine List.Pairwise.filterMap _ (fun position other hlt entry hentry found hfound => ?_)
      List.pairwise_lt_range
    obtain ⟨path, -, rfl⟩ := Option.map_eq_some_iff.mp hentry
    obtain ⟨path', -, rfl⟩ := Option.map_eq_some_iff.mp hfound
    exact hlt
  have hnodup : ∀ {entries : List (ℕ × String)}, (entries.Pairwise fun a b => a.1 < b.1) →
      entries.Nodup := by
    intro entries hpairwise
    refine hpairwise.imp fun {a b} hlt hsame => ?_
    exact absurd hlt (hsame ▸ lt_irrefl _)
  have hperm : state.paths.toList.Perm ((List.range record.requests.length).filterMap
      fun position => (record.path position).map fun path => (position, path)) := by
    refine (List.perm_ext_iff_of_nodup (hnodup hordered) (hnodup hranged)).mpr ?_
    rintro ⟨position, path⟩
    rw [ExtTreeMap.mem_toList_iff_getElem?_eq_some, h, List.mem_filterMap]
    constructor
    · intro hpath
      have hlt : position < record.requests.length := by
        by_contra hge
        rw [Record.path, List.getElem?_eq_none (by omega)] at hpath
        cases hpath
      exact ⟨position, List.mem_range.mpr hlt, by rw [hpath]; rfl⟩
    · rintro ⟨other, -, hother⟩
      obtain ⟨found, hfound, heq⟩ := Option.map_eq_some_iff.mp hother
      cases heq
      exact hfound
  have hlist : state.paths.toList = (List.range record.requests.length).filterMap
      fun position => (record.path position).map fun path => (position, path) := by
    refine List.Perm.eq_of_pairwise (fun a b _ _ hlt hgt => ?_) hordered hranged hperm
    exact absurd (hlt.trans hgt) (lt_irrefl _)
  rw [App.settledBatch, hlist, List.map_filterMap]
  simp only [Option.map_map, Function.comp_def, Option.map_id']
  exact filterMap_range _ record.requests

theorem amounts_start (requests : List (ℕ × String)) (pane : PaneId) :
    Amounts ⟨requests, [], []⟩ ⟨requests.length, ∅, [], pane⟩ := by
  have hpaths : ∀ position : ℕ, (∅ : ExtTreeMap ℕ String)[position]? =
      Record.path ⟨requests, [], []⟩ position := by
    intro position
    rw [Record.path]
    cases requests[position]? <;> simp [arrivedPath]
  exact ⟨rfl, hpaths, settledBatch_of_paths hpaths, rfl, rfl⟩

/-- One more of its requests has ended. -/
theorem Amounts.note {state : UploadBatch} (h : record.Amounts state) (hwf : record.Wf)
    {position request : ℕ} {described : String}
    (hget : record.requests[position]? = some (request, described))
    (hopen : record.fates.lookup request = none) (ending : App.Ending) :
    (record.hear request (.ended ending)).Amounts (state.note position described ending) := by
  have hname := hwf.lookup_of_get hget
  have hmem : request ∈ record.requests.map (·.1) :=
    isSome_lookup.mp (by rw [hname]; rfl)
  have hheard := hear_of_open hmem hopen (.ended ending)
  have hpath : ∀ other, (record.hear request (.ended ending)).path other =
      if other = position then arrivedPath (some (.ended ending)) else record.path other := by
    intro other
    simp only [Record.path, hear_requests, lookup_hear hmem hopen]
    by_cases hsame : other = position
    · subst hsame
      simp [hget]
    · rw [if_neg hsame]
      cases hother : record.requests[other]? with
      | none => rfl
      | some entry =>
        obtain ⟨found, name⟩ := entry
        have hne : found ≠ request := by
          rintro rfl
          exact hsame (hwf.position_unique hother hget)
        simp [hne]
  have hfresh : state.paths[position]? = none := by
    rw [h.paths, Record.path, hget]
    simp [hopen, arrivedPath]
  have hpaths : ∀ other : ℕ, (state.note position described ending).paths[other]? =
      (record.hear request (.ended ending)).path other := by
    intro other
    rw [hpath]
    by_cases hsame : other = position
    · rw [if_pos hsame, hsame]
      cases ending with
      | complete path => simp [UploadBatch.note, arrivedPath]
      | failed message => exact hfresh
    · rw [if_neg hsame, ← h.paths]
      cases ending with
      | complete path => simp [UploadBatch.note, ExtTreeMap.getElem?_insert, Ne.symm hsame]
      | failed message => rfl
  refine ⟨?_, hpaths, settledBatch_of_paths hpaths, ?_, ?_⟩
  · rw [UploadBatch.note_expected, hear_requests]
    exact h.expected
  · have hfailures : (record.hear request (.ended ending)).failures =
        record.failures ++ (record.failure (request, .ended ending)).toList := by
      rw [hheard]
      have hone : [(request, Fate.ended ending)].filterMap record.failure =
          (record.failure (request, .ended ending)).toList := by
        cases hfailure : record.failure (request, .ended ending) <;> simp [hfailure]
      exact List.filterMap_append.trans (congrArg (record.failures ++ ·) hone)
    rw [hfailures]
    cases ending with
    | complete path => simp [UploadBatch.note, failure, h.failures]
    | failed message => simp [UploadBatch.note, failure, h.failures, hname]
  · have heach := h.each
    rw [hheard]
    cases ending with
    | complete path =>
      have hcontains : state.paths.contains position = false := by
        rw [ExtTreeMap.contains_eq_isSome_getElem?, hfresh]
        rfl
      simp [UploadBatch.note, ExtTreeMap.size_insert, hcontains]
      omega
    | failed message =>
      simp [UploadBatch.note]
      omega

end Record

/-! ### The ledger -/

namespace App

/-- The upload a move says has ended, and how. -/
def Move.fate : Move → Option (ℕ × Fate)
  | .daemon (.uploadComplete request path _) => some (request, .ended (.complete path))
  | .daemon (.uploadInterrupted request _ _) => some (request, .interrupted)
  | .daemon (.error (some request) message) => some (request, .ended (.failed message))
  | .uploadFailed request message => some (request, .ended (.failed message))
  | _ => none

variable {request : ℕ}

theorem Move.fate_of_ending {move : Move} {ending : Ending}
    (h : move.ending = some (request, ending)) : move.fate = some (request, .ended ending) := by
  rw [Move.ending.eq_def] at h
  split at h
  · cases h
    rfl
  · cases h
    rfl
  · cases h
    rfl
  · cases h

theorem Move.fate_cases {move : Move} {fate : Fate} (h : move.fate = some (request, fate)) :
    (∃ ending, move.ending = some (request, ending)) ∨
      ∃ transfer staged, move = .daemon (.uploadInterrupted request transfer staged) := by
  rw [Move.fate.eq_def] at h
  split at h
  · cases h
    exact .inl ⟨_, rfl⟩
  · cases h
    exact .inr ⟨_, _, rfl⟩
  · cases h
    exact .inl ⟨_, rfl⟩
  · cases h
    exact .inl ⟨_, rfl⟩
  · cases h

/-- The batches that were started. -/
abbrev Ledger := ℕ → Option Record

namespace Ledger

variable (ledger : Ledger)

/-- What is told is written down. -/
def hear : News → Ledger
  | .started batch requests => Function.update ledger batch (some ⟨requests, [], []⟩)
  | .settled batch state => Function.update ledger batch
      ((ledger batch).map fun record => { record with settled := record.settled ++ [state] })
  | _ => ledger

/-- An ending is written down, wherever its request is. -/
def note (move : Move) : Ledger :=
  match move.fate with
  | none => ledger
  | some (request, fate) => fun batch => (ledger batch).map (·.hear request fate)

end Ledger

/-- What an onlooker writes down of a turn of the loop. -/
def writeDown (ledger : Ledger) (self : App) (event : World × Move) (result : App × List Effect) :
    Ledger :=
  if self.quitting then ledger
  else (result.2.filterMap Effect.news).foldl Ledger.hear (ledger.note event.2)

/-- The batches that were started are numbered apart, as are their requests, and what is remembered
of uploads is of them. -/
structure Booked (memory : Memory) (ledger : Ledger) : Prop where
  records : ∀ batch record, ledger batch = some record → batch < memory.nextBatch ∧ record.Wf ∧
    ∀ request ∈ record.requests.map (·.1), request < memory.nextRequest
  apart : ∀ batch other record found request, ledger batch = some record →
    ledger other = some found → request ∈ record.requests.map (·.1) →
      request ∈ found.requests.map (·.1) → batch = other
  uploads : ∀ (request : ℕ) (pending : PendingUpload) (entry : UploadBatchEntry),
    memory.uploads[request]? = some pending → pending.batch = some entry →
      ∃ record, ledger entry.batch = some record ∧
        record.requests[entry.position]? = some (request, pending.described)
  singles : ∀ (request : ℕ) (pending : PendingUpload), memory.uploads[request]? = some pending →
    pending.batch = none → ∀ batch record, ledger batch = some record →
      request ∉ record.requests.map (·.1)
  batches : ∀ batch ∈ memory.batches, (ledger batch).isSome

/-- **A batch is held until all of its requests have ended, and is settled then**, each of them with
one path or one failure. -/
structure SettledUp (memory : Memory) (ledger : Ledger) : Prop where
  pending : ∀ batch record, ledger batch = some record → ∀ request ∈ record.requests.map (·.1),
    request ∈ memory.uploads ↔ record.fates.lookup request = none
  held : ∀ batch record, ledger batch = some record → ¬record.Ended → record.settled = [] ∧
    ∃ state : UploadBatch, memory.batches[batch]? = some state ∧ record.Amounts state
  settled : ∀ batch record, ledger batch = some record → record.Ended → batch ∉ memory.batches ∧
    ∃ state, record.settled = [state] ∧ record.Amounts state
  known : ∀ batch ∈ memory.batches, (ledger batch).isSome

variable {scope : Scope} {memory before after : Memory} {ledger : Ledger} {news : List News}

/-! ### What is told -/

theorem foldl_hear_of_other (h : ∀ told ∈ news, (∀ batch requests, told ≠ .started batch requests) ∧
    ∀ batch state, told ≠ .settled batch state) (ledger : Ledger) :
    news.foldl Ledger.hear ledger = ledger := by
  refine foldl_of_ignored (fun told hmem ledger => ?_) ledger
  obtain ⟨hstarted, hsettled⟩ := h told hmem
  cases told with
  | started batch requests => exact absurd rfl (hstarted batch requests)
  | settled batch state => exact absurd rfl (hsettled batch state)
  | _ => rfl

theorem Booked.change (h : Booked before ledger) (hrequest : before.nextRequest ≤ after.nextRequest)
    (huploads : after.uploads = before.uploads) (hbatches : after.batches = before.batches)
    (hnext : after.nextBatch = before.nextBatch) : Booked after ledger where
  records batch record hrecord := by
    obtain ⟨hlt, hwf, hrequests⟩ := h.records batch record hrecord
    exact ⟨hnext ▸ hlt, hwf, fun request hmem => (hrequests request hmem).trans_le hrequest⟩
  apart := h.apart
  uploads := huploads ▸ h.uploads
  singles := huploads ▸ h.singles
  batches := hbatches ▸ h.batches

theorem SettledUp.change (h : SettledUp before ledger) (huploads : after.uploads = before.uploads)
    (hbatches : after.batches = before.batches) : SettledUp after ledger :=
  ⟨huploads ▸ h.pending, hbatches ▸ h.held, hbatches ▸ h.settled, hbatches ▸ h.known⟩

theorem requests_eq_range' (offer : BatchOffer) :
    offer.requests.map (·.1) = List.range' offer.first offer.names.length := by
  refine List.ext_getElem (by simp [BatchOffer.requests]) fun position _ _ => ?_
  simp [BatchOffer.requests]

theorem mem_requests {offer : BatchOffer} : request ∈ offer.requests.map (·.1) ↔
      offer.first ≤ request ∧ request < offer.first + offer.names.length := by
  rw [requests_eq_range', List.mem_range'_1]

theorem foldl_hear_batch (ledger : Ledger) (batch : ℕ) (offer : BatchOffer) :
    (offer.requests.map (fun request => News.begun request.1 offer.pane) ++
        [News.started batch offer.requests]).foldl Ledger.hear ledger =
      Function.update ledger batch (some ⟨offer.requests, [], []⟩) := by
  have hbegun : (offer.requests.map fun request => News.begun request.1 offer.pane).foldl
      Ledger.hear ledger = ledger := by
    refine foldl_hear_of_other (fun told hmem => ?_) ledger
    obtain ⟨request, -, rfl⟩ := List.mem_map.mp hmem
    simp
  rw [List.foldl_append, hbegun]
  rfl

theorem Booked.acts (h : Booked before ledger) (hacts : Acts scope before news after) :
    Booked after (news.foldl Ledger.hear ledger) := by
  induction hacts generalizing ledger with
  | @single before pane described =>
    refine ⟨fun batch record hrecord => ?_, h.apart, fun request pending entry hpending => ?_,
      fun request pending hpending => ?_, h.batches⟩
    · obtain ⟨hlt, hwf, hrequests⟩ := h.records batch record hrecord
      exact ⟨hlt, hwf, fun request hmem => Nat.lt_succ_of_lt (hrequests request hmem)⟩
    · rw [ExtTreeMap.getElem?_insert] at hpending
      split at hpending
      · cases hpending
        exact fun hnone => by cases hnone
      · exact h.uploads request pending entry hpending
    · rw [ExtTreeMap.getElem?_insert] at hpending
      split at hpending
      · next hnew =>
        have hrequest : before.nextRequest = request := by simpa using hnew
        intro _ batch record hrecord hmem
        have hlt := (h.records batch record hrecord).2.2 request hmem
        omega
      · exact h.singles request pending hpending
  | @batch before offer uploads hfirst htaken =>
    have hold : ∀ {batch record}, ledger batch = some record → batch ≠ before.nextBatch := by
      rintro batch record hrecord rfl
      exact absurd (h.records _ record hrecord).1 (lt_irrefl _)
    have hfresh : ∀ {batch record request}, ledger batch = some record →
        request ∈ record.requests.map (·.1) → request ∉ offer.requests.map (·.1) := by
      intro batch record request hrecord hmem hoffer
      have hlt := (h.records batch record hrecord).2.2 request hmem
      have hle := (mem_requests.mp hoffer).1
      omega
    rw [foldl_hear_batch]
    refine ⟨fun batch record hrecord => ?_, fun batch other record found request hrecord hfound
      hmem hother => ?_, fun request pending entry hpending hentry => ?_,
      fun request pending hpending hnone batch record hrecord => ?_, fun batch hmem => ?_⟩
    · by_cases hnew : batch = before.nextBatch
      · rw [hnew, Function.update_self] at hrecord
        cases hrecord
        refine ⟨hnew ▸ Nat.lt_succ_self _, ⟨?_, List.nodup_nil, by simp⟩, fun request hmem => ?_⟩
        · rw [requests_eq_range']
          exact List.nodup_range'
        · have hlt := (mem_requests.mp hmem).2
          dsimp only
          omega
      · rw [Function.update_of_ne hnew] at hrecord
        obtain ⟨hlt, hwf, hrequests⟩ := h.records batch record hrecord
        exact ⟨Nat.lt_succ_of_lt hlt, hwf,
          fun request hmem => (hrequests request hmem).trans_le (Nat.le_add_right _ _)⟩
    · by_cases hnew : batch = before.nextBatch
      · by_cases hnew' : other = before.nextBatch
        · rw [hnew, hnew']
        · rw [hnew, Function.update_self] at hrecord
          rw [Function.update_of_ne hnew'] at hfound
          cases hrecord
          exact absurd hmem (hfresh hfound hother)
      · rw [Function.update_of_ne hnew] at hrecord
        by_cases hnew' : other = before.nextBatch
        · rw [hnew', Function.update_self] at hfound
          cases hfound
          exact absurd hother (hfresh hrecord hmem)
        · rw [Function.update_of_ne hnew'] at hfound
          exact h.apart batch other record found request hrecord hfound hmem hother
    · rw [htaken.uploads] at hpending
      split at hpending
      · obtain ⟨name, hname, rfl⟩ := Option.map_eq_some_iff.mp hpending
        cases hentry
        refine ⟨_, Function.update_self _ _ _, ?_⟩
        rw [BatchOffer.requests, List.getElem?_mapIdx, hname]
        simp
        omega
      · obtain ⟨record, hrecord, hget⟩ := h.uploads request pending entry hpending hentry
        exact ⟨record, by rw [Function.update_of_ne (hold hrecord), hrecord], hget⟩
    · rw [htaken.uploads] at hpending
      split at hpending
      · obtain ⟨name, -, rfl⟩ := Option.map_eq_some_iff.mp hpending
        cases hnone
      · next hout =>
        by_cases hnew : batch = before.nextBatch
        · rw [hnew, Function.update_self] at hrecord
          cases hrecord
          exact fun hmem => hout (mem_requests.mp hmem)
        · rw [Function.update_of_ne hnew] at hrecord
          exact h.singles request pending hpending hnone batch record hrecord
    · by_cases hnew : batch = before.nextBatch
      · simp [hnew]
      · rw [Function.update_of_ne hnew]
        have hmem : batch ∈ before.batches := by
          simpa [Ne.symm hnew] using ExtTreeMap.mem_insert.mp hmem
        exact h.batches batch hmem
  | trans _ _ ih ihmore =>
    rw [List.foldl_append]
    exact ihmore (ih h)
  | _ =>
    rw [foldl_hear_of_other (by simp)]
    exact h.change (by dsimp only; omega) rfl rfl rfl

theorem SettledUp.acts (h : SettledUp before ledger) (hbooked : Booked before ledger)
    (hacts : Acts scope before news after) : SettledUp after (news.foldl Ledger.hear ledger) := by
  induction hacts generalizing ledger with
  | @single before pane described =>
    refine ⟨fun batch record hrecord request hmem => ?_, h.held, h.settled, h.known⟩
    have hlt := (hbooked.records batch record hrecord).2.2 request hmem
    rw [← h.pending batch record hrecord request hmem]
    dsimp only
    rw [ExtTreeMap.mem_insert]
    refine or_iff_right fun hsame => ?_
    have hsame : before.nextRequest = request := by simpa using hsame
    omega
  | @batch before offer uploads hfirst htaken =>
    have hknown := (hbooked.acts (Acts.batch offer uploads hfirst htaken :
      Acts scope before _ _)).batches
    rw [foldl_hear_batch] at hknown ⊢
    have hempty : ¬(Record.mk offer.requests [] []).Ended := by
      intro hended
      have hlength : offer.requests.length = offer.names.length := List.length_mapIdx
      obtain ⟨entry, hentry⟩ := List.exists_mem_of_ne_nil offer.requests fun hnil =>
        htaken.names (List.length_eq_zero_iff.mp (hlength ▸ List.length_eq_zero_iff.mpr hnil))
      have hsome := hended entry hentry
      simp at hsome
    have hother : ∀ {batch}, batch ≠ before.nextBatch → ∀ state : UploadBatch,
        (before.batches.insert before.nextBatch state)[batch]? = before.batches[batch]? := by
      intro batch hnew state
      rw [ExtTreeMap.getElem?_insert, if_neg (by simpa using Ne.symm hnew)]
    refine ⟨fun batch record hrecord request hmem => ?_, fun batch record hrecord hopen => ?_,
      fun batch record hrecord hended => ?_, hknown⟩
    · dsimp only
      rw [ExtTreeMap.mem_iff_isSome_getElem?, htaken.uploads]
      by_cases hnew : batch = before.nextBatch
      · rw [hnew, Function.update_self] at hrecord
        cases hrecord
        have hin := mem_requests.mp hmem
        obtain ⟨name, hname⟩ : ∃ name, offer.names[request - offer.first]? = some name :=
          ⟨_, List.getElem?_eq_getElem (by omega)⟩
        rw [if_pos hin, hname]
        simp
      · rw [Function.update_of_ne hnew] at hrecord
        have hlt := (hbooked.records batch record hrecord).2.2 request hmem
        rw [if_neg (by omega), ← ExtTreeMap.mem_iff_isSome_getElem?]
        exact h.pending batch record hrecord request hmem
    · by_cases hnew : batch = before.nextBatch
      · rw [hnew, Function.update_self] at hrecord
        cases hrecord
        have hlength : offer.requests.length = offer.names.length := List.length_mapIdx
        refine ⟨rfl, ⟨offer.names.length, ∅, [], offer.pane⟩, by simp [hnew], ?_⟩
        rw [← hlength]
        exact Record.amounts_start offer.requests offer.pane
      · rw [Function.update_of_ne hnew] at hrecord
        obtain ⟨hsettled, state, hstate, hamounts⟩ := h.held batch record hrecord hopen
        exact ⟨hsettled, state, (hother hnew _).trans hstate, hamounts⟩
    · by_cases hnew : batch = before.nextBatch
      · rw [hnew, Function.update_self] at hrecord
        cases hrecord
        exact absurd hended hempty
      · rw [Function.update_of_ne hnew] at hrecord
        obtain ⟨hgone, hsettled⟩ := h.settled batch record hrecord hended
        refine ⟨fun hmem => hgone ?_, hsettled⟩
        rw [ExtTreeMap.mem_iff_isSome_getElem?, hother hnew] at hmem
        exact ExtTreeMap.mem_iff_isSome_getElem?.mpr hmem
  | trans hfirst _ ih ihmore =>
    rw [List.foldl_append]
    exact ihmore (ih h hbooked) (hbooked.acts hfirst)
  | _ =>
    rw [foldl_hear_of_other (by simp)]
    exact h.change rfl rfl

/-! ### What has ended -/

namespace Ledger

theorem note_of_ended {ledger : Ledger} {move : Move} (h : ∀ request fate,
    move.fate = some (request, fate) → ∀ batch record, ledger batch = some record →
      request ∈ record.requests.map (·.1) → record.fates.lookup request ≠ none) :
    ledger.note move = ledger := by
  rw [note]
  split
  · rfl
  · next request fate hfate =>
    funext batch
    cases hrecord : ledger batch with
    | none => rfl
    | some record =>
      by_cases hmem : request ∈ record.requests.map (·.1)
      · rw [Option.map_some, Record.hear_of_ended (h request fate hfate batch record hrecord hmem)]
      · rw [Option.map_some, Record.hear_of_unknown hmem]

/-- Two ledgers of the same batches and requests. -/
structure Kin (ledger other : Ledger) : Prop where
  back : ∀ batch record, other batch = some record → ∃ old, ledger batch = some old ∧
    record.requests = old.requests ∧ (old.Wf → record.Wf)
  forth : ∀ batch record, ledger batch = some record → ∃ next, other batch = some next ∧
    next.requests = record.requests

theorem Kin.refl (ledger : Ledger) : ledger.Kin ledger :=
  ⟨fun _ record hrecord => ⟨record, hrecord, rfl, id⟩, fun _ record hrecord => ⟨record, hrecord, rfl⟩⟩

theorem Kin.trans {ledger between other : Ledger} (h : ledger.Kin between)
    (hnext : between.Kin other) : ledger.Kin other where
  back batch record hrecord := by
    obtain ⟨middle, hmiddle, hrequests, hwf⟩ := hnext.back batch record hrecord
    obtain ⟨old, hold, hrequests', hwf'⟩ := h.back batch middle hmiddle
    exact ⟨old, hold, hrequests.trans hrequests', hwf ∘ hwf'⟩
  forth batch record hrecord := by
    obtain ⟨middle, hmiddle, hrequests⟩ := h.forth batch record hrecord
    obtain ⟨next, hnext, hrequests'⟩ := hnext.forth batch middle hmiddle
    exact ⟨next, hnext, hrequests'.trans hrequests⟩

theorem kin_note (ledger : Ledger) (move : Move) : ledger.Kin (ledger.note move) := by
  rw [note]
  split
  · exact .refl ledger
  · next request fate _ =>
    constructor
    · intro batch record hrecord
      obtain ⟨old, hold, rfl⟩ := Option.map_eq_some_iff.mp hrecord
      exact ⟨old, hold, Record.hear_requests request fate, fun hwf => hwf.hear request fate⟩
    · intro batch record hrecord
      exact ⟨record.hear request fate, by rw [hrecord]; rfl, Record.hear_requests request fate⟩

theorem kin_settled (ledger : Ledger) (batch : ℕ) (state : UploadBatch) :
    ledger.Kin (ledger.hear (.settled batch state)) := by
  rw [hear]
  constructor
  · intro other record hrecord
    by_cases hsame : other = batch
    · rw [hsame, Function.update_self] at hrecord
      obtain ⟨old, hold, rfl⟩ := Option.map_eq_some_iff.mp hrecord
      exact ⟨old, hsame ▸ hold, rfl, fun hwf => ⟨hwf.distinct, hwf.once, hwf.known⟩⟩
    · rw [Function.update_of_ne hsame] at hrecord
      exact ⟨record, hrecord, rfl, id⟩
  · intro other record hrecord
    by_cases hsame : other = batch
    · subst hsame
      refine ⟨{ record with settled := record.settled ++ [state] }, ?_, rfl⟩
      rw [Function.update_self, hrecord, Option.map_some]
    · exact ⟨record, by rw [Function.update_of_ne hsame, hrecord], rfl⟩

end Ledger

/-- What is remembered is of the same batches and requests, whatever was written down of them, and
uploads and batches are only forgotten. -/
theorem Booked.forget {other : Ledger} (h : Booked memory ledger) (hkin : ledger.Kin other)
    (uploads : ExtTreeMap ℕ PendingUpload) (batches : ExtTreeMap ℕ UploadBatch)
    (huploads : ∀ (request : ℕ) (pending : PendingUpload), uploads[request]? = some pending →
      memory.uploads[request]? = some pending)
    (hbatches : ∀ batch ∈ batches, batch ∈ memory.batches) :
    Booked { memory with uploads, batches } other where
  records batch record hrecord := by
    obtain ⟨old, hold, hrequests, hwf⟩ := hkin.back batch record hrecord
    obtain ⟨hlt, hwf', hnumbered⟩ := h.records batch old hold
    exact ⟨hlt, hwf hwf', hrequests ▸ hnumbered⟩
  apart batch batch' record found request hrecord hfound hmem hmem' := by
    obtain ⟨old, hold, hrequests, -⟩ := hkin.back batch record hrecord
    obtain ⟨old', hold', hrequests', -⟩ := hkin.back batch' found hfound
    exact h.apart batch batch' old old' request hold hold' (hrequests ▸ hmem) (hrequests' ▸ hmem')
  uploads request pending entry hpending hentry := by
    obtain ⟨record, hrecord, hget⟩ :=
      h.uploads request pending entry (huploads request pending hpending) hentry
    obtain ⟨next, hnext, hrequests⟩ := hkin.forth entry.batch record hrecord
    exact ⟨next, hnext, hrequests ▸ hget⟩
  singles request pending hpending hnone batch record hrecord := by
    obtain ⟨old, hold, hrequests, -⟩ := hkin.back batch record hrecord
    exact hrequests ▸ h.singles request pending (huploads request pending hpending) hnone batch old hold
  batches batch hmem := by
    obtain ⟨record, hrecord⟩ := Option.isSome_iff_exists.mp (h.batches batch (hbatches batch hmem))
    obtain ⟨next, hnext, -⟩ := hkin.forth batch record hrecord
    rw [hnext]
    rfl

/-- One request of a batch ends, and the batch is held on or settled. -/
theorem SettledUp.ended (h : SettledUp memory ledger) (hbooked : Booked memory ledger)
    {batch request : ℕ} {record : Record} (next : Record) (hrecord : ledger batch = some record)
    (hmem : request ∈ record.requests.map (·.1)) (hrequests : next.requests = record.requests)
    {fate : Fate} (hlookup : ∀ other, next.fates.lookup other =
      if other = request then some fate else record.fates.lookup other)
    (batches : ExtTreeMap ℕ UploadBatch)
    (hothers : ∀ other, other ≠ batch → batches[other]? = memory.batches[other]?)
    (hheld : ¬next.Ended → next.settled = [] ∧
      ∃ state : UploadBatch, batches[batch]? = some state ∧ next.Amounts state)
    (hsettled : next.Ended → batch ∉ batches ∧
      ∃ state, next.settled = [state] ∧ next.Amounts state) :
    SettledUp { memory with uploads := memory.uploads.erase request, batches }
      (Function.update ledger batch (some next)) := by
  have hmemOthers : ∀ {other}, other ≠ batch → (other ∈ batches ↔ other ∈ memory.batches) := by
    intro other hne
    rw [ExtTreeMap.mem_iff_isSome_getElem?, ExtTreeMap.mem_iff_isSome_getElem?, hothers other hne]
  refine ⟨fun other found hfound held hheld => ?_, fun other found hfound hopen => ?_,
    fun other found hfound hended => ?_, fun other hbatch => ?_⟩
  · dsimp only
    rw [ExtTreeMap.mem_erase]
    by_cases hsame : other = batch
    · rw [hsame, Function.update_self] at hfound
      cases hfound
      rw [hlookup, h.pending batch record hrecord held (hrequests ▸ hheld)]
      by_cases hheld : held = request
      · simp [hheld]
      · simp [hheld, Ne.symm hheld]
    · rw [Function.update_of_ne hsame] at hfound
      have hne : request ≠ held := by
        rintro rfl
        exact hsame (hbooked.apart other batch found record request hfound hrecord hheld hmem)
      rw [← h.pending other found hfound held hheld]
      simp [hne]
  · by_cases hsame : other = batch
    · rw [hsame, Function.update_self] at hfound
      cases hfound
      exact hsame ▸ hheld hopen
    · rw [Function.update_of_ne hsame] at hfound
      obtain ⟨hnone, state, hstate, hamounts⟩ := h.held other found hfound hopen
      exact ⟨hnone, state, (hothers other hsame).trans hstate, hamounts⟩
  · by_cases hsame : other = batch
    · rw [hsame, Function.update_self] at hfound
      cases hfound
      exact hsame ▸ hsettled hended
    · rw [Function.update_of_ne hsame] at hfound
      obtain ⟨hgone, hone⟩ := h.settled other found hfound hended
      exact ⟨fun hbatch => hgone ((hmemOthers hsame).mp hbatch), hone⟩
  · by_cases hsame : other = batch
    · simp [hsame]
    · rw [Function.update_of_ne hsame]
      exact h.known other ((hmemOthers hsame).mp hbatch)

theorem kin_foldl (h : ∀ told ∈ news, ∃ batch state, told = .settled batch state) (ledger : Ledger) :
    ledger.Kin (news.foldl Ledger.hear ledger) := by
  induction news generalizing ledger with
  | nil => exact .refl ledger
  | cons told news ih =>
    obtain ⟨batch, state, rfl⟩ := h told (by simp)
    exact (Ledger.kin_settled ledger batch state).trans (ih (fun told hmem => h told (by simp [hmem])) _)

/-- An ending is written down of the batch its upload belongs to. -/
theorem note_of_entry {move : Move} {request batch : ℕ} {fate : Fate} {record : Record}
    (hbooked : Booked memory ledger) (hfate : move.fate = some (request, fate))
    (hrecord : ledger batch = some record) (hmem : request ∈ record.requests.map (·.1)) :
    ledger.note move = Function.update ledger batch (some (record.hear request fate)) := by
  rw [Ledger.note, hfate]
  funext other
  dsimp only
  by_cases hsame : other = batch
  · rw [hsame, Function.update_self, hrecord, Option.map_some]
  · rw [Function.update_of_ne hsame]
    cases hfound : ledger other with
    | none => rfl
    | some found =>
      rw [Option.map_some, Record.hear_of_unknown]
      exact fun hother => hsame (hbooked.apart other batch found record request hfound hrecord hother hmem)

theorem settledUp_endUpload (world : World) (self : App) (houtbox : self.outbox = [])
    (h : SettledUp self.memory ledger) (hbooked : Booked self.memory ledger) {move : Move}
    {ending : Ending} (hfate : move.fate = some (request, .ended ending))
    (hpending : request ∈ self.pendingUploads) :
    SettledUp (endUpload world self request ending).memory
      (((endUpload world self request ending).outbox.filterMap Effect.news).foldl Ledger.hear
        (ledger.note move)) := by
  obtain ⟨pending, hsome⟩ := Option.isSome_iff_exists.mp
    (ExtTreeMap.mem_iff_isSome_getElem?.mp hpending)
  cases hbatch : pending.batch with
  | none =>
    have hsingle := hbooked.singles request pending hsome hbatch
    have hnote : ledger.note move = ledger := by
      refine Ledger.note_of_ended fun found fate hfound batch record hrecord hmem => ?_
      rw [hfate] at hfound
      cases hfound
      exact absurd hmem (hsingle batch record hrecord)
    have hnews : ∀ told ∈ (endUpload world self request ending).outbox.filterMap Effect.news,
        False := by
      rw [endUpload_single world self hsome hbatch]
      cases ending <;> simp [houtbox, news_verifiedEffects]
    rw [hnote, List.eq_nil_iff_forall_not_mem.mpr hnews, List.foldl_nil,
      endUpload_single world self hsome hbatch]
    refine ⟨fun batch record hrecord held hheld => ?_, h.held, h.settled, h.known⟩
    have hne : request ≠ held := by
      rintro rfl
      exact hsingle batch record hrecord hheld
    rw [← h.pending batch record hrecord held hheld]
    simp [memory, hne]
  | some entry =>
    obtain ⟨record, hrecord, hget⟩ := hbooked.uploads request pending entry hsome hbatch
    have hwf := (hbooked.records entry.batch record hrecord).2.1
    have hmem : request ∈ record.requests.map (·.1) :=
      List.mem_map.mpr ⟨_, List.mem_of_getElem? hget, rfl⟩
    have hopen := (h.pending entry.batch record hrecord request hmem).mp hpending
    have hnotEnded : ¬record.Ended := by
      intro hended
      have hlast := hended _ (List.mem_of_getElem? hget)
      simp [hopen] at hlast
    obtain ⟨hnone, state, hstate, hamounts⟩ := h.held entry.batch record hrecord hnotEnded
    have hstate : self.uploadBatches[entry.batch]? = some state := hstate
    have hnoted := hamounts.note hwf hget hopen ending
    have hlookup := Record.lookup_hear hmem hopen (.ended ending)
    have hfull : (state.note entry.position pending.described ending).full ↔
        (record.hear request (.ended ending)).Ended := by
      rw [(hwf.hear request (.ended ending)).ended_iff, ← hnoted.expected, ← hnoted.each]
      exact Iff.rfl
    rw [note_of_entry hbooked hfate hrecord hmem,
      endUpload_batch_eq world self hsome hbatch hstate]
    dsimp only
    by_cases hsettles : (state.note entry.position pending.described ending).full
    · have hnews : (self.outbox ++ Effect.settled entry.batch
          (state.note entry.position pending.described ending) ::
            if settledBatch (state.note entry.position pending.described ending) = [] then []
            else verifiedEffects world self
              (state.note entry.position pending.described ending).destination
              (settledBatch (state.note entry.position pending.described ending))).filterMap
          Effect.news =
            [.settled entry.batch (state.note entry.position pending.described ending)] := by
        rw [houtbox, List.nil_append, List.filterMap_cons]
        simp only [Effect.news]
        split
        · rfl
        · rw [news_verifiedEffects]
      rw [if_pos hsettles, hnews, List.foldl_cons, List.foldl_nil, Ledger.hear, Function.update_self,
        Option.map_some, Function.update_idem]
      refine h.ended hbooked { record.hear request (.ended ending) with
          settled := (record.hear request (.ended ending)).settled ++
            [state.note entry.position pending.described ending] }
        hrecord hmem (Record.hear_requests _ _) hlookup _ ?_ ?_ ?_
      · intro other hne
        rw [ExtTreeMap.getElem?_erase, if_neg (by simpa using Ne.symm hne),
          ExtTreeMap.getElem?_insert, if_neg (by simpa using Ne.symm hne)]
        rfl
      · exact fun hopen => absurd (hfull.mp hsettles) hopen
      · refine fun _ => ⟨by simp, state.note entry.position pending.described ending, ?_, ?_⟩
        · rw [Record.hear_settled, hnone, List.nil_append]
        · exact ⟨hnoted.expected, hnoted.paths, hnoted.order, hnoted.failures, hnoted.each⟩
    · rw [if_neg hsettles]
      simp only [houtbox, List.filterMap_nil, List.foldl_nil]
      refine h.ended hbooked _ hrecord hmem (Record.hear_requests _ _) hlookup _ ?_ ?_ ?_
      · intro other hne
        rw [ExtTreeMap.getElem?_insert, if_neg (by simpa using Ne.symm hne)]
        rfl
      · exact fun _ => ⟨(Record.hear_settled _ _).trans hnone, _, by simp, hnoted⟩
      · exact fun hended => absurd (hfull.mpr hended) hsettles

/-! ### What is pasted of a batch -/

theorem commandWords_verifiedLine (paths : List String) :
    CommandLine.commandWords (verifiedLine paths).toList = some (paths.map String.toList) := by
  have hquoted : ∀ path, (shellQuotedPath path).toList = CommandLine.quoteWord path.toList := by
    intro path
    rw [shellQuotedPath, String.toList_ofList]
    rfl
  have hline : (verifiedLine paths).toList =
      [' '].intercalate ((paths.map String.toList).map CommandLine.quoteWord) := by
    rw [verifiedLine, String.toList_intercalate, List.map_map, List.map_map]
    exact congrArg _ (List.map_congr_left fun path _ => hquoted path)
  rw [hline, CommandLine.commandWords_quoted CommandLine.quotes_quoteWord]

/-- What a batch that is settled has pasted, the shell reads as its paths, in the order in which
they were selected. -/
def PastesWords (self : App) (event : World × Move) : Prop :=
  ∀ batch state, Effect.settled batch state ∈ (step self event).2 →
    ∀ destination pane payload,
      Effect.send (.verified destination) (.paneInput pane payload) ∈ (step self event).2 →
        ∃ line : String, ∃ bracketed,
          terminalPastePayload line.toUTF8.toList bracketed = some payload ∧
          CommandLine.commandWords line.toList = some ((settledBatch state).map String.toList)

theorem not_settled_of_acts (h : Acts scope before news after) (batch : ℕ) (state : UploadBatch) :
    News.settled batch state ∉ news := by
  induction h with
  | trans _ _ ih ihmore =>
    rw [List.mem_append, not_or]
    exact ⟨ih, ihmore⟩
  | _ => simp

/-- What an ending sends once it settles a batch. -/
theorem outbox_of_settled (world : World) (self : App) (houtbox : self.outbox = [])
    (hpending : request ∈ self.pendingUploads) {ending : Ending} {batch : ℕ} {state : UploadBatch}
    (h : Effect.settled batch state ∈ (endUpload world self request ending).outbox) :
    (endUpload world self request ending).outbox = .settled batch state ::
      if settledBatch state = [] then []
      else verifiedEffects world self state.destination (settledBatch state) := by
  have hverified : ∀ destination paths,
      Effect.settled batch state ∉ verifiedEffects world self destination paths := by
    intro destination paths hmem
    obtain ⟨pane, payload, -, heq⟩ := (mem_verifiedEffects world self).mp hmem
    cases heq
  obtain ⟨pending, hsome⟩ := Option.isSome_iff_exists.mp
    (ExtTreeMap.mem_iff_isSome_getElem?.mp hpending)
  cases hbatch : pending.batch with
  | none =>
    rw [endUpload_single world self hsome hbatch, houtbox] at h
    cases ending <;> simp [hverified] at h
  | some entry =>
    cases hstate : self.uploadBatches[entry.batch]? with
    | none =>
      rw [endUpload_stray world self hsome hbatch hstate, houtbox] at h
      cases h
    | some held =>
      rw [endUpload_batch_eq world self hsome hbatch hstate] at h ⊢
      dsimp only at h ⊢
      split at h
      · next hfull =>
        rw [houtbox, List.nil_append, List.mem_cons] at h
        have hsame : Effect.settled batch state =
            .settled entry.batch (held.note entry.position pending.described ending) := by
          refine h.resolve_right fun hmem => ?_
          split at hmem
          · cases hmem
          · exact hverified _ _ hmem
        injection hsame with hbatch hstate
        rw [if_pos hfull, houtbox, hbatch, hstate]
        rfl
      · simp [houtbox] at h

theorem pastesWords (self : App) (htidy : Tidy self.memory) (event : World × Move) :
    self.PastesWords event := by
  intro batch state hsettled destination pane payload hsent
  cases hquitting : self.quitting with
  | true => simp [step_of_quitting hquitting] at hsettled
  | false =>
    rw [step_of_running hquitting] at hsettled hsent
    rcases handle_cases event.1 { self with outbox := [] } htidy event.2 with
      ⟨request, ending, -, hpending, heq⟩ | ⟨-, effects, houtbox, -, hacts⟩
    · rw [heq] at hsettled hsent
      rw [outbox_of_settled event.1 _ rfl hpending hsettled, List.mem_cons] at hsent
      have hpasted := hsent.resolve_left (by simp)
      split at hpasted
      · cases hpasted
      · obtain ⟨found, sent, hpaste, hsame⟩ := (mem_verifiedEffects _ _).mp hpasted
        injection hsame with _ hmessage
        injection hmessage with hpane hpayload
        obtain ⟨bracketed, hbracketed⟩ := payload_of_verifiedPaste event.1 _ hpaste
        exact ⟨verifiedLine (settledBatch state), bracketed, hpayload ▸ hbracketed,
          commandWords_verifiedLine _⟩
    · rw [houtbox] at hsettled
      have hnews : News.settled batch state ∈ effects.filterMap Effect.news :=
        List.mem_filterMap.mpr ⟨_, by simpa using hsettled, rfl⟩
      exact absurd hnews (not_settled_of_acts hacts batch state)

/-! ### Every run -/

/-- The daemon does not say of an upload that is waited for in a batch that it was interrupted. -/
def Uninterrupted (self : App) (event : World × Move) : Prop :=
  self.quitting = false → ∀ (request : ℕ) transfer staged (pending : PendingUpload),
    event.2 = .daemon (.uploadInterrupted request transfer staged) →
      self.pendingUploads[request]? = some pending → pending.batch = none

theorem writeDown_of_running {self : App} (h : self.quitting = false) (event : World × Move)
    (ledger : Ledger) : writeDown ledger self event (step self event) =
      ((handle event.1 { self with outbox := [] } event.2).outbox.filterMap Effect.news).foldl
        Ledger.hear (ledger.note event.2) := by
  rw [writeDown, if_neg (by simp [h]), step_of_running h]

theorem booked_step (self : App) (htidy : Tidy self.memory) (h : Booked self.memory ledger)
    (event : World × Move) :
    Booked (step self event).1.memory (writeDown ledger self event (step self event)) := by
  cases hquitting : self.quitting with
  | true => simpa [writeDown, hquitting, step_of_quitting hquitting] using h
  | false =>
    rw [writeDown_of_running hquitting, step_of_running hquitting]
    have hkin := Ledger.kin_note ledger event.2
    have hnoted : Booked self.memory (ledger.note event.2) :=
      h.forget hkin _ _ (fun _ _ => id) fun _ => id
    rcases handle_cases event.1 { self with outbox := [] } htidy event.2 with
      ⟨request, ending, -, hpending, heq⟩ | ⟨-, effects, houtbox, -, hacts⟩
    · rw [heq]
      obtain ⟨batches, hbatches, hmemory⟩ :=
        memory_endUpload event.1 { self with outbox := [] } hpending ending
      have hsettled := kin_foldl (news_endUpload event.1 _ rfl hpending ending)
        (ledger.note event.2)
      have hforgotten := hnoted.forget hsettled (self.pendingUploads.erase request) batches
        (fun held pending hfound => by
          rw [ExtTreeMap.getElem?_erase] at hfound
          split at hfound
          · cases hfound
          · exact hfound) hbatches
      exact hmemory ▸ hforgotten
    · rw [houtbox]
      exact hnoted.acts hacts

/-- An ending that is of no upload which is waited for was written down before. -/
theorem note_of_nothing {self : App} (h : SettledUp self.memory ledger)
    (hbooked : Booked self.memory ledger) {event : World × Move} (hquitting : self.quitting = false)
    (huninterrupted : self.Uninterrupted event)
    (hnone : ∀ request ending, event.2.ending = some (request, ending) →
      self.pendingUploads[request]? = none) : ledger.note event.2 = ledger := by
  refine Ledger.note_of_ended fun request fate hfate batch record hrecord hmem hopen => ?_
  have hpending := (h.pending batch record hrecord request hmem).mpr hopen
  obtain ⟨pending, hsome⟩ := Option.isSome_iff_exists.mp
    (ExtTreeMap.mem_iff_isSome_getElem?.mp hpending)
  have hsome : self.pendingUploads[request]? = some pending := hsome
  rcases Move.fate_cases hfate with ⟨ending, hending⟩ | ⟨transfer, staged, hmove⟩
  · simp [hnone request ending hending] at hsome
  · have hbatch := huninterrupted hquitting request transfer staged pending hmove hsome
    exact hbooked.singles request pending hsome hbatch batch record hrecord hmem

theorem settledUp_step (self : App) (htidy : Tidy self.memory) (hbooked : Booked self.memory ledger)
    (h : SettledUp self.memory ledger) {event : World × Move}
    (huninterrupted : self.Uninterrupted event) :
    SettledUp (step self event).1.memory (writeDown ledger self event (step self event)) := by
  cases hquitting : self.quitting with
  | true => simpa [writeDown, hquitting, step_of_quitting hquitting] using h
  | false =>
    rw [writeDown_of_running hquitting, step_of_running hquitting]
    rcases handle_cases event.1 { self with outbox := [] } htidy event.2 with
      ⟨request, ending, hending, hpending, heq⟩ | ⟨hnone, effects, houtbox, -, hacts⟩
    · rw [heq]
      exact settledUp_endUpload event.1 { self with outbox := [] } rfl h hbooked
        (Move.fate_of_ending hending) hpending
    · rw [note_of_nothing h hbooked hquitting huninterrupted hnone, houtbox]
      exact h.acts hbooked hacts

/-- An upload of a batch that is interrupted is still waited for. -/
theorem uninterrupted_of_settledUp (self : App) (hbooked : Booked self.memory ledger)
    {event : World × Move}
    (h : SettledUp (step self event).1.memory (writeDown ledger self event (step self event))) :
    self.Uninterrupted event := by
  intro hquitting request transfer staged pending hmove hsome
  by_contra hbatch
  obtain ⟨entry, hentry⟩ := Option.ne_none_iff_exists'.mp hbatch
  obtain ⟨record, hrecord, hget⟩ := hbooked.uploads request pending entry hsome hentry
  have hmem : request ∈ record.requests.map (·.1) :=
    List.mem_map.mpr ⟨_, List.mem_of_getElem? hget, rfl⟩
  have hfate : event.2.fate = some (request, .interrupted) := by
    rw [hmove]
    rfl
  rw [writeDown_of_running hquitting, step_of_running hquitting, hmove,
    note_of_entry hbooked (hmove ▸ hfate) hrecord hmem] at h
  have hpending := h.pending entry.batch (record.hear request .interrupted)
    (Function.update_self _ _ _) request (by rw [Record.hear_requests]; exact hmem)
  have hstays : request ∈ self.pendingUploads :=
    ExtTreeMap.mem_iff_isSome_getElem?.mpr (by rw [hsome]; rfl)
  have hopen := hpending.mp hstays
  by_cases hold : record.fates.lookup request = none
  · rw [Record.lookup_hear hmem hold] at hopen
    simp at hopen
  · rw [Record.hear_of_ended hold] at hopen
    exact hold hopen

/-- **Batches of uploads settle exactly once**, in every state of a run, exactly when no step of it
says that an upload which is waited for in a batch was interrupted; and what is pasted of them, the
shell reads as their paths. -/
theorem batches_settle (restorePending : Option PaneId) (configuredTargets : List String)
    (resolvedTargets : ExtTreeMap TargetSession (Option String)) (maxTransferBytes : ℕ)
    (events : List (World × Move)) :
    let before := start restorePending configuredTargets resolvedTargets maxTransferBytes
    (AllStates (observe step writeDown) (fun s => SettledUp s.1.memory s.2)
        (before, fun _ => none) events ↔ AllSteps step Uninterrupted before events) ∧
      AllSteps step PastesWords before events := by
  intro before
  have htidy : Tidy before.memory :=
    tidy_start restorePending configuredTargets resolvedTargets maxTransferBytes
  have hbooked : Booked before.memory fun _ => none := by
    constructor <;> simp [before, start, memory]
  have hsettled : SettledUp before.memory fun _ => none := by
    constructor <;> simp [before, start, memory]
  refine ⟨?_, allSteps_of_invariant (I := fun self : App => Tidy self.memory) tidy_step
    (fun self event h => pastesWords self h event) htidy events⟩
  rw [← allSteps_observe step writeDown (before, fun _ => none)]
  exact allStates_iff_allSteps (I := fun s : App × Ledger => Tidy s.1.memory ∧ Booked s.1.memory s.2)
    (fun s event h => ⟨tidy_step s.1 event h.1, booked_step s.1 h.1 h.2 event⟩)
    (fun s event h hsettled hstep => settledUp_step s.1 h.1 h.2 hsettled hstep)
    (fun s event h _ hnext => uninterrupted_of_settledUp s.1 h.2 hnext)
    ⟨htidy, hbooked⟩ hsettled events

/-- Two files are sent, one is interrupted and one arrives: both have ended, and the batch is waited
for all the same, with the path that did arrive. -/
theorem an_interrupted_file_is_waited_for :
    let pane : PaneId := ⟨"box", "main", "1"⟩
    let world := { hosting [liveTarget ⟨"box", "main"⟩ 1 none [pane]] with
      clipboardFiles := ["/a", "/b"]
      localFile := fun path => some ⟨some path, true, 1⟩ }
    let after := exec (observe step writeDown) (start (some pane) [] ∅ 100, fun _ => none)
      [(world, .draw), (world, .daemon (.paneLease pane .control)),
        (world, .input (.bytes [PREFIX_KEY])), (world, .input (.bytes [0x69])),
        (world, .daemon (.uploadInterrupted 0 "token" 1)),
        (world, .daemon (.uploadComplete 1 "/tmp/b" 1))]
    ((after.1.2 0).any fun record => decide record.Ended) = true ∧
      (after.1.1.uploadBatches[0]?.map settledBatch) = some ["/tmp/b"] ∧
      after.1.1.pendingUploads.contains 0 = true := by
  decide +kernel

end App

end Tui

end SuperHerdr
