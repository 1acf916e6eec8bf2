import SuperHerdr.Cards.Index
import SuperHerdr.Library.Texts

/-!
# Local names, favourites and slots

What a person calls resources on this installation, which of them are favourites, and which answer to
a digit. All three hold references to resources, bounded, and are edited by one request at a time.

The three stay well formed whatever is asked (`names_stay_well_formed`): they are within their bounds,
no favourite is there twice, and no resource answers to two digits. What is refused changes nothing, and
to forget a target takes away what belongs to it and nothing else.
-/

namespace SuperHerdr

open Std Transducer

/-! ### The order of references -/

namespace ResourceRef

/-- The place of a kind among the kinds. -/
def rank : ResourceRef → ℕ
  | target _ => 0
  | workspace _ => 1
  | tab _ => 2
  | pane _ => 3
  | agent _ => 4

/-- The target a resource belongs to. -/
def targetOf : ResourceRef → TargetSession
  | target id => id
  | workspace id => id.targetSession
  | tab id => id.targetSession
  | pane id => id.targetSession
  | agent id => id.targetSession

/-- What names a resource on its target. A target is named by nothing more. -/
def resource : ResourceRef → String
  | target _ => ""
  | workspace id => id.resource
  | tab id => id.resource
  | pane id => id.resource
  | agent id => id.resource

instance : Ord ResourceRef :=
  ⟨compareLex (compareOn rank) (compareLex (compareOn targetOf) (compareOn resource))⟩

instance : TransOrd ResourceRef :=
  inferInstanceAs (TransCmp (compareLex (compareOn rank)
    (compareLex (compareOn targetOf) (compareOn resource))))

theorem ext {ref other : ResourceRef} (hrank : ref.rank = other.rank)
    (htarget : ref.targetOf = other.targetOf) (hresource : ref.resource = other.resource) :
    ref = other := by
  cases ref <;> cases other <;> cases hrank
  case target id other => exact congrArg target htarget
  all_goals
    next id other =>
    obtain ⟨target, session, resource⟩ := id
    obtain ⟨target', session', resource'⟩ := other
    obtain ⟨rfl, rfl⟩ := TargetSession.mk.inj htarget
    obtain rfl : resource = resource' := hresource
    rfl

instance : LawfulEqOrd ResourceRef where
  eq_of_compare {ref other} h := by
    obtain ⟨hrank, hrest⟩ := compareLex_eq_eq.mp h
    obtain ⟨htarget, hresource⟩ := compareLex_eq_eq.mp hrest
    exact ext (LawfulEqOrd.eq_of_compare hrank) (LawfulEqOrd.eq_of_compare htarget)
      (LawfulEqOrd.eq_of_compare hresource)

def belongs (resource : ResourceRef) (target : TargetSession) : Bool := resource.targetOf = target

end ResourceRef

namespace Naming

def MAX_ALIASES : ℕ := 512
def MAX_FAVOURITES : ℕ := 64
def MAX_ALIAS_CHARACTERS : ℕ := 48

/-- The digits somebody can press. -/
def isJumpSlot (slot : UInt8) : Bool := 1 ≤ slot && slot ≤ 9

structure Aliases where
  names : ExtTreeMap ResourceRef LocalAlias
  favourites : List ResourceRef
  slots : ExtTreeMap UInt8 ResourceRef
deriving DecidableEq

namespace Aliases

def default : Aliases := ⟨∅, [], ∅⟩

/-- Name something, recording what it is called now. -/
def set (self : Aliases) (resource : ResourceRef) (label observed : String) :
    Aliases × Except String Unit :=
  let label := Texts.trim label.toList
  if label = [] ∨ MAX_ALIAS_CHARACTERS < label.length then
    (self, .error "a name must be 1 to 48 characters")
  else if label.any isControl then
    (self, .error "a name must not contain control characters")
  else if MAX_ALIASES ≤ self.names.size ∧ resource ∉ self.names then
    (self, .error "at most 512 names can be kept")
  else ({ self with names := self.names.insert resource ⟨String.ofList label, observed⟩ }, .ok ())

/-- The flag says whether it had a name. -/
def clear (self : Aliases) (resource : ResourceRef) : Aliases × Bool :=
  ({ self with names := self.names.erase resource }, self.names.contains resource)

/-- The name to show, and whether it can be trusted. -/
def resolve (self : Aliases) (resource : ResourceRef) (observed : String) :
    Option (String × AliasState) :=
  self.names[resource]?.map fun held =>
    (held.label, if held.observed = observed then .current else .suspended)

/-- Accept that a suspended name still belongs to this resource. -/
def confirm (self : Aliases) (resource : ResourceRef) (observed : String) : Aliases × Bool :=
  match self.names[resource]? with
  | none => (self, false)
  | some held => ({ self with names := self.names.insert resource { held with observed } }, true)

def favourite (self : Aliases) (resource : ResourceRef) : Aliases × Except String Bool :=
  match self.favourites.findIdx? fun held => held = resource with
  | some index => ({ self with favourites := self.favourites.eraseIdx index }, .ok false)
  | none =>
      if MAX_FAVOURITES ≤ self.favourites.length then
        (self, .error "at most 64 favourites can be kept")
      else ({ self with favourites := self.favourites ++ [resource] }, .ok true)

/-- Put something in a numbered slot, or clear one. A resource leaves the slot it was in. -/
def setSlot (self : Aliases) (slot : UInt8) (resource : Option ResourceRef) :
    Aliases × Except String Unit :=
  if !isJumpSlot slot then (self, .error "a jump slot must be between 1 and 9")
  else
    match resource with
    | some resource =>
        ({ self with
            slots := (self.slots.filter fun _ held => held ≠ resource).insert slot resource }, .ok ())
    | none => ({ self with slots := self.slots.erase slot }, .ok ())

/-- Forget everything about a target. The flag says whether there was anything. -/
def forgetTarget (self : Aliases) (target : TargetSession) : Aliases × Bool :=
  let kept : Aliases :=
    { names := self.names.filter fun resource _ => !resource.belongs target
      favourites := self.favourites.filter fun resource => !resource.belongs target
      slots := self.slots.filter fun _ resource => !resource.belongs target }
  (kept, self.names.size + self.favourites.length + self.slots.size ≠
    kept.names.size + kept.favourites.length + kept.slots.size)

def isFavourite (self : Aliases) (resource : ResourceRef) : Bool :=
  self.favourites.contains resource

/-- The names and favourites as the cards are labelled with them. -/
def view (self : Aliases) : AliasView := ⟨self.names.toList, self.favourites⟩

/-- **What the cards show is what is held.** -/
theorem resolve_view (self : Aliases) (resource : ResourceRef) (observed : String) :
    self.view.resolve resource observed = self.resolve resource observed := by
  have hlookup : self.names.toList.lookup resource = self.names[resource]? := by
    cases hheld : self.names[resource]? with
    | none =>
      refine List.lookup_eq_none_iff.mpr fun entry hentry => ?_
      have hother := ExtTreeMap.mem_toList_iff_getElem?_eq_some.mp hentry
      rw [bne_iff_ne]
      rintro rfl
      rw [hheld] at hother
      cases hother
    | some held =>
      obtain ⟨before, after, hsplit⟩ := List.append_of_mem
        (ExtTreeMap.mem_toList_iff_getElem?_eq_some.mpr hheld)
      refine List.lookup_eq_some_iff.mpr ⟨before, after, hsplit, fun entry hentry => ?_⟩
      have hdistinct := ExtTreeMap.distinct_keys_toList (t := self.names)
      rw [hsplit, List.pairwise_append] at hdistinct
      rw [bne_iff_ne]
      rintro rfl
      exact hdistinct.2.2 entry hentry _ List.mem_cons_self compare_self
  rw [AliasView.resolve, view, hlookup, resolve]

theorem isFavourite_view (self : Aliases) (resource : ResourceRef) :
    self.view.isFavourite resource = self.isFavourite resource := rfl

end Aliases

inductive Edit
  | set (resource : ResourceRef) (label observed : String)
  | clear (resource : ResourceRef)
  | confirm (resource : ResourceRef) (observed : String)
  | favourite (resource : ResourceRef)
  | setSlot (slot : UInt8) (resource : Option ResourceRef)
  | forgetTarget (target : TargetSession)

/-- One edit, and whether it took. -/
def Edit.apply (aliases : Aliases) : Edit → Aliases × Except String Bool
  | set resource label observed =>
      let (aliases, result) := aliases.set resource label observed
      (aliases, result.map fun _ => true)
  | clear resource =>
      let (aliases, cleared) := aliases.clear resource
      (aliases, .ok cleared)
  | confirm resource observed =>
      let (aliases, confirmed) := aliases.confirm resource observed
      (aliases, .ok confirmed)
  | favourite resource => aliases.favourite resource
  | setSlot slot resource =>
      let (aliases, result) := aliases.setSlot slot resource
      (aliases, result.map fun _ => true)
  | forgetTarget target =>
      let (aliases, forgot) := aliases.forgetTarget target
      (aliases, .ok forgot)

def step (aliases : Aliases) (edit : Edit) : Aliases × List (Except String Bool) :=
  ((edit.apply aliases).1, [(edit.apply aliases).2])

/-- The change a client asks for, as an edit. -/
def Edit.ofChange : LocalChange → Edit
  | .name resource (some label) observed => set resource label observed
  | .name resource none _ => clear resource
  | .confirmName resource observed => confirm resource observed
  | .favourite resource => favourite resource
  | .slot slot resource => setSlot slot resource

/-! ### Well-formed names, favourites and slots -/

structure WellFormed (aliases : Aliases) : Prop where
  names : aliases.names.size ≤ MAX_ALIASES
  favourites : aliases.favourites.length ≤ MAX_FAVOURITES
  nodup : aliases.favourites.Nodup
  digits : ∀ (slot : UInt8) resource, aliases.slots[slot]? = some resource → isJumpSlot slot = true
  single : ∀ (slot other : UInt8) resource, aliases.slots[slot]? = some resource →
    aliases.slots[other]? = some resource → slot = other

/-- To forget a target takes away what belongs to it, and says whether that was anything. -/
structure Forgets (aliases : Aliases) (target : TargetSession) : Prop where
  names : ∀ (resource : ResourceRef) held,
    (aliases.forgetTarget target).1.names[resource]? = some held ↔
      aliases.names[resource]? = some held ∧ resource.targetOf ≠ target
  favourites : (aliases.forgetTarget target).1.favourites =
    aliases.favourites.filter fun resource => resource.targetOf ≠ target
  slots : ∀ (slot : UInt8) resource,
    (aliases.forgetTarget target).1.slots[slot]? = some resource ↔
      aliases.slots[slot]? = some resource ∧ resource.targetOf ≠ target
  anything : (aliases.forgetTarget target).2 = true ↔
    (∃ resource ∈ aliases.names, resource.targetOf = target) ∨
      (∃ resource ∈ aliases.favourites, resource.targetOf = target) ∨
      ∃ (slot : UInt8) (resource : ResourceRef),
        aliases.slots[slot]? = some resource ∧ resource.targetOf = target

theorem wellFormed_default : WellFormed Aliases.default where
  names := by simp [Aliases.default]
  favourites := by simp [Aliases.default]
  nodup := List.nodup_nil
  digits slot resource h := by simp [Aliases.default] at h
  single slot other resource h := by simp [Aliases.default] at h

variable (aliases : Aliases)

/-- **What `set` does**: it refuses and changes nothing, or the resource has the name. -/
theorem set_cases (resource : ResourceRef) (label observed : String) :
    (∃ error, aliases.set resource label observed = (aliases, .error error)) ∨
      (aliases.names.size < MAX_ALIASES ∨ resource ∈ aliases.names) ∧
        aliases.set resource label observed =
          ({ aliases with
              names := aliases.names.insert resource ⟨String.ofList (Texts.trim label.toList), observed⟩ },
            .ok ()) := by
  rw [Aliases.set]
  split
  · exact .inl ⟨_, rfl⟩
  split
  · exact .inl ⟨_, rfl⟩
  split
  · exact .inl ⟨_, rfl⟩
  next hfull =>
  refine .inr ⟨?_, rfl⟩
  rcases not_and_or.mp hfull with hroom | hheld
  · exact .inl (Nat.lt_of_not_le hroom)
  · exact .inr (not_not.mp hheld)

theorem size_insert_le_of {names : ExtTreeMap ResourceRef LocalAlias} {resource : ResourceRef}
    (h : names.size ≤ MAX_ALIASES) (hroom : names.size < MAX_ALIASES ∨ resource ∈ names)
    (held : LocalAlias) : (names.insert resource held).size ≤ MAX_ALIASES := by
  rw [ExtTreeMap.size_insert]
  split
  · exact h
  · next hnew =>
    exact (hroom.resolve_right hnew)

/-- **What `favourite` does**: a favourite is one no more, and what is none becomes one or is refused. -/
theorem favourite_cases (resource : ResourceRef) :
    (∃ index < aliases.favourites.length, aliases.favourite resource =
        ({ aliases with favourites := aliases.favourites.eraseIdx index }, .ok false)) ∨
      resource ∉ aliases.favourites ∧
        ((∃ error, aliases.favourite resource = (aliases, .error error)) ∨
          aliases.favourites.length < MAX_FAVOURITES ∧ aliases.favourite resource =
            ({ aliases with favourites := aliases.favourites ++ [resource] }, .ok true)) := by
  rw [Aliases.favourite]
  cases hfound : aliases.favourites.findIdx? fun held => held = resource with
  | some index =>
    obtain ⟨hlt, -⟩ := List.findIdx?_eq_some_iff_getElem.mp hfound
    exact .inl ⟨index, hlt, rfl⟩
  | none =>
    have hnew : resource ∉ aliases.favourites := fun hmem => by
      simpa using List.findIdx?_eq_none_iff.mp hfound resource hmem
    refine .inr ⟨hnew, ?_⟩
    simp only
    split
    · exact .inl ⟨_, rfl⟩
    · next hroom => exact .inr ⟨Nat.lt_of_not_le hroom, rfl⟩

/-- **What `setSlot` does.** -/
theorem setSlot_cases (slot : UInt8) (resource : Option ResourceRef) :
    (∃ error, aliases.setSlot slot resource = (aliases, .error error)) ∨
      isJumpSlot slot = true ∧
        ((∃ chosen, resource = some chosen ∧ aliases.setSlot slot resource =
            ({ aliases with slots :=
                (aliases.slots.filter fun _ held => held ≠ chosen).insert slot chosen }, .ok ())) ∨
          resource = none ∧ aliases.setSlot slot resource =
            ({ aliases with slots := aliases.slots.erase slot }, .ok ())) := by
  cases hslot : isJumpSlot slot with
  | false =>
    refine .inl ⟨"a jump slot must be between 1 and 9", ?_⟩
    cases resource <;> simp [Aliases.setSlot, hslot]
  | true =>
    refine .inr ⟨rfl, ?_⟩
    cases resource with
    | some chosen => exact .inl ⟨chosen, rfl, by simp [Aliases.setSlot, hslot]⟩
    | none => exact .inr ⟨rfl, by simp [Aliases.setSlot, hslot]⟩

theorem of_getElem?_erase {slots : ExtTreeMap UInt8 ResourceRef} {slot other : UInt8}
    {held : ResourceRef} (h : (slots.erase slot)[other]? = some held) : slots[other]? = some held := by
  rw [ExtTreeMap.getElem?_erase] at h
  split at h
  · cases h
  · exact h

theorem getElem?_filter_belongs {slots : ExtTreeMap UInt8 ResourceRef} {target : TargetSession}
    {slot : UInt8} {held : ResourceRef} :
    (slots.filter fun _ resource => !resource.belongs target)[slot]? = some held ↔
      slots[slot]? = some held ∧ held.targetOf ≠ target := by
  rw [ExtTreeMap.getElem?_filter', Option.filter_eq_some_iff]
  simp [ResourceRef.belongs]

section Preserved

variable {aliases : Aliases} (h : WellFormed aliases)
include h

variable (resource : ResourceRef)

theorem WellFormed.set (label observed : String) :
    WellFormed (aliases.set resource label observed).1 := by
  rcases set_cases aliases resource label observed with ⟨error, hset⟩ | ⟨hroom, hset⟩
  · rw [hset]
    exact h
  · rw [hset]
    exact ⟨size_insert_le_of h.names hroom _, h.favourites, h.nodup, h.digits, h.single⟩

theorem WellFormed.clear : WellFormed (aliases.clear resource).1 :=
  ⟨ExtTreeMap.size_erase_le.trans h.names, h.favourites, h.nodup, h.digits, h.single⟩

theorem WellFormed.confirm (observed : String) :
    WellFormed (aliases.confirm resource observed).1 := by
  rw [Aliases.confirm]
  split
  · exact h
  · next held hheld =>
    have hmem : resource ∈ aliases.names := by
      rw [ExtTreeMap.mem_iff_isSome_getElem?, hheld]
      rfl
    exact ⟨size_insert_le_of h.names (.inr hmem) _, h.favourites, h.nodup, h.digits, h.single⟩

theorem WellFormed.favourite : WellFormed (aliases.favourite resource).1 := by
  rcases favourite_cases aliases resource with
    ⟨index, -, hcall⟩ | ⟨hnew, ⟨error, hcall⟩ | ⟨hroom, hcall⟩⟩
  · rw [hcall]
    exact ⟨h.names, (List.length_eraseIdx_le _ _).trans h.favourites,
      h.nodup.sublist (List.eraseIdx_sublist _ _), h.digits, h.single⟩
  · rw [hcall]
    exact h
  · rw [hcall]
    refine ⟨h.names, ?_, ?_, h.digits, h.single⟩
    · rw [List.length_append, List.length_singleton]
      exact hroom
    · rw [List.nodup_append]
      refine ⟨h.nodup, List.nodup_singleton resource, fun held hheld other hother => ?_⟩
      rintro rfl
      exact hnew (List.mem_singleton.mp hother ▸ hheld)

/-- A resource that was given a slot is in no other. -/
theorem WellFormed.setSlot (slot : UInt8) (resource : Option ResourceRef) :
    WellFormed (aliases.setSlot slot resource).1 := by
  rcases setSlot_cases aliases slot resource with
    ⟨error, hcall⟩ | ⟨hslot, ⟨chosen, -, hcall⟩ | ⟨-, hcall⟩⟩
  · rw [hcall]
    exact h
  · have hheld : ∀ (other : UInt8) (held : ResourceRef),
        ((aliases.slots.filter fun _ held => held ≠ chosen).insert slot chosen)[other]? = some held ↔
          slot = other ∧ chosen = held ∨
            slot ≠ other ∧ aliases.slots[other]? = some held ∧ held ≠ chosen := by
      intro other held
      rw [ExtTreeMap.getElem?_insert, ExtTreeMap.getElem?_filter']
      by_cases hsame : slot = other
      · subst hsame
        simp
      · simp [hsame, LawfulEqCmp.compare_eq_iff_eq, Option.filter_eq_some_iff]
    rw [hcall]
    refine ⟨h.names, h.favourites, h.nodup, fun other held hother => ?_,
      fun other another held hother hanother => ?_⟩
    · rcases (hheld other held).mp hother with ⟨rfl, -⟩ | ⟨-, hother, -⟩
      · exact hslot
      · exact h.digits other held hother
    · -- what is chosen left the slot it was in, so it is in this one only
      rcases (hheld other held).mp hother with ⟨rfl, rfl⟩ | ⟨-, hother, hne⟩
      · rcases (hheld another chosen).mp hanother with ⟨rfl, -⟩ | ⟨-, -, hne⟩
        · rfl
        · exact absurd rfl hne
      · rcases (hheld another held).mp hanother with ⟨-, rfl⟩ | ⟨-, hanother, -⟩
        · exact absurd rfl hne
        · exact h.single other another held hother hanother
  · -- an emptied slot takes nothing from the others
    rw [hcall]
    refine ⟨h.names, h.favourites, h.nodup, fun other held hother => ?_,
      fun other another held hother hanother => ?_⟩
    · exact h.digits other held (of_getElem?_erase hother)
    · exact h.single other another held (of_getElem?_erase hother) (of_getElem?_erase hanother)

theorem WellFormed.forgetTarget (target : TargetSession) :
    WellFormed (aliases.forgetTarget target).1 where
  names := ExtTreeMap.size_filter_le_size.trans h.names
  favourites := (List.length_filter_le _ _).trans h.favourites
  nodup := h.nodup.filter _
  digits slot resource hslot := h.digits slot resource (getElem?_filter_belongs.mp hslot).1
  single slot other resource hslot hother := h.single slot other resource
    (getElem?_filter_belongs.mp hslot).1 (getElem?_filter_belongs.mp hother).1

/-- **Every edit keeps names, favourites and slots well formed.** -/
theorem WellFormed.apply (edit : Edit) : WellFormed (edit.apply aliases).1 := by
  cases edit with
  | set resource label observed => exact h.set resource label observed
  | clear resource => exact h.clear resource
  | confirm resource observed => exact h.confirm resource observed
  | favourite resource => exact h.favourite resource
  | setSlot slot resource => exact h.setSlot slot resource
  | forgetTarget target => exact h.forgetTarget target

end Preserved

/-- **What is refused changes nothing.** -/
theorem apply_of_error {aliases : Aliases} {edit : Edit} {error : String}
    (h : (edit.apply aliases).2 = .error error) : (edit.apply aliases).1 = aliases := by
  cases edit with
  | set resource label observed =>
    rcases set_cases aliases resource label observed with ⟨refusal, hcall⟩ | ⟨-, hcall⟩
    · simp only [Edit.apply, hcall]
    · simp [Edit.apply, hcall, Except.map] at h
  | clear resource => cases h
  | confirm resource observed => cases h
  | favourite resource =>
    rcases favourite_cases aliases resource with
      ⟨index, -, hcall⟩ | ⟨-, ⟨refusal, hcall⟩ | ⟨-, hcall⟩⟩
    · simp [Edit.apply, hcall] at h
    · simp only [Edit.apply, hcall]
    · simp [Edit.apply, hcall] at h
  | setSlot slot resource =>
    rcases setSlot_cases aliases slot resource with
      ⟨refusal, hcall⟩ | ⟨-, ⟨chosen, -, hcall⟩ | ⟨-, hcall⟩⟩
    · simp only [Edit.apply, hcall]
    · simp [Edit.apply, hcall, Except.map] at h
    · simp [Edit.apply, hcall, Except.map] at h
  | forgetTarget target => cases h

/-! ### To forget a target -/

theorem sum_ne_iff {names kept favourites kept' slots kept'' : ℕ} (hnames : kept ≤ names)
    (hfavourites : kept' ≤ favourites) (hslots : kept'' ≤ slots) :
    names + favourites + slots ≠ kept + kept' + kept'' ↔
      kept ≠ names ∨ kept' ≠ favourites ∨ kept'' ≠ slots := by
  omega

/-- **To forget a target** takes away exactly what belongs to it. -/
theorem forgets (target : TargetSession) : Forgets aliases target where
  names resource held := by
    simp only [Aliases.forgetTarget]
    rw [ExtTreeMap.getElem?_filter', Option.filter_eq_some_iff]
    simp [ResourceRef.belongs]
  favourites := List.filter_congr fun resource _ => by simp [ResourceRef.belongs]
  slots slot resource := getElem?_filter_belongs
  anything := by
    have hnames : (aliases.names.filter fun resource _ => !resource.belongs target).size ≠
        aliases.names.size ↔ ∃ resource ∈ aliases.names, resource.targetOf = target := by
      rw [Ne, ExtTreeMap.size_filter_eq_size_iff]
      simp [ResourceRef.belongs]
    have hfavourites : (aliases.favourites.filter fun resource => !resource.belongs target).length ≠
        aliases.favourites.length ↔ ∃ resource ∈ aliases.favourites, resource.targetOf = target := by
      rw [Ne, List.length_filter_eq_length_iff]
      simp [ResourceRef.belongs]
    have hslots : (aliases.slots.filter fun _ resource => !resource.belongs target).size ≠
        aliases.slots.size ↔ ∃ (slot : UInt8) (resource : ResourceRef),
          aliases.slots[slot]? = some resource ∧ resource.targetOf = target := by
      rw [Ne, ExtTreeMap.size_filter_eq_size_iff, not_forall₂]
      constructor
      · rintro ⟨slot, hslot, hbelongs⟩
        refine ⟨slot, aliases.slots[slot], ExtTreeMap.getElem?_eq_some_getElem hslot, ?_⟩
        simpa [ResourceRef.belongs] using hbelongs
      · rintro ⟨slot, resource, hheld, htarget⟩
        obtain ⟨hslot, rfl⟩ := ExtTreeMap.getElem?_eq_some_iff.mp hheld
        exact ⟨slot, hslot, by simpa [ResourceRef.belongs] using htarget⟩
    simp only [Aliases.forgetTarget, decide_eq_true_eq]
    rw [sum_ne_iff ExtTreeMap.size_filter_le_size (List.length_filter_le _ _)
      ExtTreeMap.size_filter_le_size, hnames, hfavourites, hslots]

/-! ### Every sequence of edits -/

/-- What an edit may do. -/
structure Lawful (aliases : Aliases) (edit : Edit) : Prop where
  refused : ∀ error, (edit.apply aliases).2 = .error error → (edit.apply aliases).1 = aliases
  forgets : ∀ target, edit = .forgetTarget target → Forgets aliases target

theorem lawful (edit : Edit) : Lawful aliases edit :=
  ⟨fun _ => apply_of_error, fun target _ => forgets aliases target⟩

/-- **Every sequence of edits** leads through well-formed states only. -/
theorem allStates_wellFormed (edits : List Edit) :
    AllStates step WellFormed Aliases.default edits :=
  allStates_of_allSteps (fun _ edit h => h.apply edit) (fun _ edit h _ _ => h.apply edit)
    wellFormed_default wellFormed_default
    (allSteps_of_invariant (fun _ edit h => h.apply edit) (fun aliases edit _ => lawful aliases edit)
      wellFormed_default edits)

/-- **Names, favourites and slots stay well formed** over every sequence of edits, what is refused
changes nothing, and to forget a target takes away what belongs to it. -/
theorem names_stay_well_formed (edits : List Edit) :
    AllStates step WellFormed Aliases.default edits ∧ AllSteps step Lawful Aliases.default edits :=
  ⟨allStates_wellFormed edits,
    allSteps_of_invariant (fun _ edit h => h.apply edit) (fun aliases edit _ => lawful aliases edit)
      wellFormed_default edits⟩

end Naming

end SuperHerdr
