import SuperHerdr.Tui.Moves

/-!
# What is meant for the frontend

While an overlay is open or a prefix is pending, what a person types, points at and pastes is meant
for the frontend. Whether it stays there is decided three times: for each byte of an event apart,
for the mouse and for a paste, from three lists of overlays that differ. `input_kept` is exact about
what reaches a pane all the same.
-/

namespace SuperHerdr

namespace Tui

open Std Transducer

namespace App

variable (world : World) (self : App)

/-- Whether an event is the frontend's: an overlay is open, or a prefix is pending. -/
def Meant : Prop := self.hasModalOverlay = true ∨ self.mode ≠ .terminal

/-- Nothing of an event that is the frontend's goes to a pane, and what is sent is what it says. -/
def Kept (self : App) (event : World × Move) : Prop :=
  ∀ input, event.2 = .input input → ∀ effect ∈ (step self event).2,
    effect.Honest ∧ (self.Meant → effect.carries = false)

/-! ### When it stays -/

/-- A key that the frontend takes, or that cannot be typed. -/
def KeyWithheld (key : UInt8) : Prop := keyTaken self key ∨ ¬Typeable world self

/-- An event of which nothing goes to a pane. -/
def InputWithheld : DecodedInput → Prop
  | .bytes bytes =>
      self.navigationKey bytes = none → EachKey world (KeyWithheld world) bytes self
  | .mouse mouse => ∀ target, aimed world self mouse = some target → ¬Delivered world self target
  | .paste bytes =>
      (∀ text, pasted world self bytes = some (.text text) →
        ¬(pasteable text ∧ TextTaken world self text)) ∧
      ∀ files, pasted world self bytes = some (.files files) →
        ¬(Controlled world self ∧ Readable world self files)
  | .pasteTooLarge => True

/-- The same for a turn of the loop, unless the person has quit. -/
def Withheld (self : App) (event : World × Move) : Prop :=
  ∀ input, event.2 = .input input → self.quitting = false → self.Meant →
    InputWithheld event.1 { self with outbox := [] } input

/-- A scope of what the frontend sends of its own. -/
def owned : Scope := ⟨Origin.Own, True, True, True, True⟩

theorem handles_owned : owned.Handles := ⟨fun _ hown _ => hown, trivial⟩

theorem meant_of_navigationKey {bytes : List UInt8} {key : UInt8}
    (h : self.navigationKey bytes = some key) : keyTaken self key := by
  refine .inl ?_
  rw [navigationKey] at h
  split at h
  · next hopen =>
    simp only [Bool.or_eq_true] at hopen
    simp only [hasModalOverlay, Bool.or_eq_true]
    tauto
  · cases h

theorem keyAllowed_of_withheld {key : UInt8} (h : KeyWithheld world self key) :
    KeyAllowed owned world self key where
  taken _ := handles_owned
  typed hkey htypeable := (h.elim hkey (· htypeable)).elim
  drops _ := trivial
  displaces _ := trivial
  doubles _ := ⟨rfl, by simp⟩

/-- What is withheld is within what the frontend sends of its own. -/
theorem inputAllowed_of_withheld {input : DecodedInput} (hmeant : self.Meant)
    (h : InputWithheld world self input) : InputAllowed world self owned input := by
  cases input with
  | bytes bytes =>
    refine ⟨fun key hkey => ?_, fun _ hpass => ?_, fun hnone _ => ?_⟩
    · exact keyAllowed_of_withheld world self (.inl (meant_of_navigationKey self hkey))
    · obtain ⟨-, hmode, hmodal⟩ := hpass
      rcases hmeant with hmeant | hmeant
      · simp [hmeant] at hmodal
      · exact absurd hmode hmeant
    · exact (h hnone).mono world fun self key => keyAllowed_of_withheld world self
  | mouse mouse =>
    refine ⟨handles_owned, fun target haim => ⟨fun hdelivered => ?_, fun _ => trivial⟩⟩
    exact absurd hdelivered (h target haim)
  | paste bytes =>
    refine ⟨fun text htext => ⟨fun hpasteable htaken => ?_, fun _ _ => trivial⟩,
      fun files hfiles => ⟨fun hcontrolled hreadable => ?_, fun _ => trivial⟩⟩
    · exact absurd ⟨hpasteable, htaken⟩ (h.1 text htext)
    · exact absurd ⟨hcontrolled, hreadable⟩ (h.2 files hfiles)
  | pasteTooLarge => trivial

/-! ### When it does not -/

theorem Sends.mem_outbox {scope : Scope} {self after : App} (h : self.Sends scope after)
    {effect : Effect} (hmem : effect ∈ self.outbox) : effect ∈ after.outbox := by
  obtain ⟨effects, hsent, -, -⟩ := h
  rw [hsent]
  exact List.mem_append_left effects hmem

theorem sent_of_keys {keys : List UInt8} (h : ¬EachKey world (KeyWithheld world) keys self) :
    ∃ effect ∈ (handleBytes world keys self).outbox, effect.carries = true := by
  induction keys generalizing self with
  | nil => exact absurd trivial h
  | cons key keys ih =>
    rw [handleBytes]
    by_cases hkey : KeyWithheld world self key
    · simp only [EachKey, hkey, true_and, not_or] at h
      rw [if_neg h.1]
      exact ih _ h.2
    · simp only [KeyWithheld, not_or, not_not] at hkey
      obtain ⟨pane, -, hsent⟩ := forwardPaneBytes_of_typeable world self hkey.2 [key]
      have hinput := (handleInput_of_not_taken world self hkey.1).trans hsent
      have hmem : Effect.send .typed (.paneInput pane [key]) ∈
          (handleInput world self key).outbox := by
        rw [hinput]
        simp [perform]
      refine ⟨.send .typed (.paneInput pane [key]), ?_, rfl⟩
      split
      · exact hmem
      · exact (sends_handleBytes world (handleInput world self key)
          (.of_forall world (keyAllowed_everything world) keys _)).mem_outbox hmem

theorem sent_of_clicks {pane : PaneId} {events : List MouseInput}
    (h : Delivered world self (.clicks pane events)) :
    ∃ effect ∈ (sendMouseInputs world self pane events).outbox, effect.carries = true := by
  obtain ⟨route, ⟨hroute, hcontrol, runtime, hruntime, haccepts⟩, hbytes⟩ := h
  refine ⟨.send .mouse (.paneInput pane (mouseBytes world route.parser events)), ?_, rfl⟩
  simp [sendMouseInputs, hroute, hruntime, haccepts, hcontrol, hbytes, perform]

theorem sent_of_terminalAim {mouse : MouseInput} {target : Aim}
    (haim : terminalAim world self mouse = some target) (h : Delivered world self target) :
    ∃ effect ∈ (terminalMouse world self mouse).outbox, effect.carries = true := by
  rw [terminalAim] at haim
  rw [terminalMouse]
  cases hfound : world.mousePanePosition self mouse with
  | none => simp [hfound] at haim
  | some found =>
    obtain ⟨pane, position, localMouse⟩ := found
    simp only [hfound] at haim ⊢
    split_ifs at haim with hright hwheel hpress
    · rw [not_or, not_not] at hright
      cases haim
      obtain ⟨hdirection, route, hroute, hcontrol, runtime, hruntime, haccepts⟩ := h
      obtain ⟨direction, hdirection⟩ := Option.isSome_iff_exists.mp hdirection
      refine ⟨.send .mouse (.paneScroll pane direction MOUSE_SCROLL_LINES
        (zeroBased localMouse.column) (zeroBased localMouse.row) localMouse.keyModifiers), ?_, rfl⟩
      simp [hright, hwheel, sendTerminalScroll, clearSelection, hdirection, hroute, hruntime,
        haccepts, hcontrol, perform]
    · rw [not_or, not_not] at hright
      cases haim
      simpa [hright, hwheel, hpress] using sent_of_clicks world self h

theorem sent_of_selectionAim {selection : TerminalSelection} {mouse : MouseInput} {target : Aim}
    (haim : selectionAim world self selection mouse = some target)
    (h : Delivered world self target) :
    ∃ effect ∈ (selectionMouse world self selection mouse).outbox, effect.carries = true := by
  rw [selectionAim] at haim
  rw [selectionMouse]
  split at haim
  · cases haim
  · next viewport hviewport =>
    dsimp only at haim
    split_ifs at haim with hmoved
    obtain ⟨press, hpress, rfl⟩ := Option.map_eq_some_iff.mp haim
    simp only [Bool.or_eq_true, not_or, Bool.not_eq_true, decide_eq_true_eq, not_not] at hmoved
    have hclicked := sent_of_clicks world
      { self with selectionAutoscroll := none, selection := none } h
    simpa [hviewport, hmoved, finishSelection, hpress] using hclicked

theorem sent_of_aimed {mouse : MouseInput} {target : Aim}
    (haim : aimed world self mouse = some target) (h : Delivered world self target) :
    ∃ effect ∈ (handleMouse world self mouse).outbox, effect.carries = true := by
  have hpointed : pointed world self mouse = some target →
      world.region self mouse = .elsewhere ∧ terminalAim world self mouse = some target := by
    intro hpointed
    rw [pointed] at hpointed
    split at hpointed
    · next hregion => exact ⟨hregion, hpointed⟩
    · cases hpointed
  rw [aimed] at haim
  split at haim
  · cases haim
  · next hfree =>
    rw [handleMouse_surface world self mouse (by simpa using hfree), surfaceMouse]
    rw [surfaceAim] at haim
    split_ifs at haim with hframe hleft
    · rw [not_or] at hframe
      rw [if_neg hframe.1, if_neg hframe.2, if_pos hleft]
      cases hselection : self.selection with
      | some selection =>
        simp only [hselection] at haim
        exact sent_of_selectionAim world self haim h
      | none =>
        simp only [hselection] at haim
        obtain ⟨hregion, haim⟩ := hpointed haim
        simp only [hregion]
        exact sent_of_terminalAim world self haim h
    · rw [not_or] at hframe
      obtain ⟨hregion, haim⟩ := hpointed haim
      rw [if_neg hframe.1, if_neg hframe.2, if_neg hleft]
      simp only [hregion]
      exact sent_of_terminalAim world self haim h

theorem sent_of_text {text : String} (hpasteable : pasteable text)
    (htaken : TextTaken world self text) :
    ∃ effect ∈ (pasteTextIntoSelected world self .pasted text).outbox, effect.carries = true := by
  obtain ⟨pane, route, target, hselected, hroute, hcontrol, htarget, haccepts, hway⟩ := htaken
  have hterminator : hasTerminator text.toUTF8.toList = false := by
    simp only [pasteable, not_or, Bool.not_eq_true] at hpasteable
    exact hpasteable.2.2
  have hpayload : ∃ payload, terminalPastePayload text.toUTF8.toList
      (world.emulator.bracketedPaste route.parser) = some payload := by
    rw [terminalPastePayload, hterminator]
    cases world.emulator.bracketedPaste route.parser <;> exact ⟨_, rfl⟩
  obtain ⟨payload, hpayload⟩ := hpayload
  rw [pasteTextIntoSelected]
  dsimp only
  rw [if_neg hpasteable]
  by_cases hatomic : atomicPasteAvailable self.resolvedTargets pane.targetSession = true
  · refine ⟨.send .pasted (.pastePaneText self.nextRequest pane text), ?_, rfl⟩
    simp [hselected, hroute, hcontrol, htarget, haccepts, hatomic, perform]
  · refine ⟨.send .pasted (.paneInput pane payload), ?_, rfl⟩
    have hlines : (!world.emulator.bracketedPaste route.parser &&
        text.toUTF8.toList.any fun byte => byte = 0x0d ∨ byte = 0x0a) = false := by
      rcases hway.resolve_left hatomic with hbracketed | hlines
      · rw [hbracketed, Bool.not_true, Bool.false_and]
      · rw [hlines, Bool.and_false]
    simp only [hselected, hroute, hcontrol, htarget, haccepts, hatomic, hlines, hpayload, perform,
      ne_eq, not_true_eq_false, if_false, Bool.not_true, Bool.false_eq_true]
    simp

theorem uploadDestination_of_controlled (h : Controlled world self) :
    ∃ pane, uploadDestination world self = (self, .ok pane) := by
  obtain ⟨pane, route, target, hselected, hroute, hcontrol, htarget, haccepts⟩ := h
  exact ⟨pane, by simp [uploadDestination, hselected, hroute, hcontrol, htarget, haccepts]⟩

theorem sent_of_files {pane : PaneId} {files : List String} (hfiles : files ≠ [])
    (hreadable : Readable world self files) :
    ∃ effect ∈ (sendLocalFiles world self .dropped pane files).outbox, effect.carries = true := by
  obtain ⟨entries, hentries⟩ := Option.isSome_iff_exists.mp hreadable
  rw [sendLocalFiles, hentries]
  dsimp only
  rw [offerFiles_eq]
  cases entries with
  | nil => exact absurd rfl (mapM_ne_nil hentries hfiles)
  | cons entry entries =>
    obtain ⟨path, name, length⟩ := entry
    refine ⟨.send .dropped (.beginUpload self.nextRequest pane "application/octet-stream"
      (some name) length), ?_, rfl⟩
    simp [offers, perform]

/-- What is not withheld reaches a pane. -/
theorem sent_of_not_withheld {input : DecodedInput} (hmeant : self.Meant)
    (h : ¬InputWithheld world self input) :
    ∃ effect ∈ (handleDecodedInput world self input).outbox, effect.carries = true := by
  cases input with
  | bytes bytes =>
    rw [InputWithheld] at h
    push Not at h
    obtain ⟨hnone, hkeys⟩ := h
    have hpass : ¬(1 < bytes.length ∧ self.mode = .terminal ∧ !self.hasModalOverlay) := by
      rintro ⟨-, hmode, hmodal⟩
      rcases hmeant with hmeant | hmeant
      · simp [hmeant] at hmodal
      · exact hmeant hmode
    rw [handleDecodedInput, hnone]
    dsimp only
    rw [if_neg hpass]
    exact sent_of_keys world self hkeys
  | mouse mouse =>
    rw [InputWithheld] at h
    push Not at h
    obtain ⟨target, haim, hdelivered⟩ := h
    exact sent_of_aimed world self haim hdelivered
  | paste bytes =>
    have hsome : ∃ text, utf8? bytes = some text ∧ self.pasteBlocked = false ∧
        ((world.droppedFiles text = [] ∧ pasteable text ∧ TextTaken world self text) ∨
          (world.droppedFiles text ≠ [] ∧ Controlled world self ∧
            Readable world self (world.droppedFiles text))) := by
      rw [InputWithheld] at h
      simp only [pasted] at h
      by_contra hnone
      push Not at hnone
      refine h ⟨fun text hpasted => ?_, fun files hpasted => ?_⟩
      all_goals
        split at hpasted
        · cases hpasted
        · next hblocked =>
          obtain ⟨found, hfound, hkind⟩ := Option.map_eq_some_iff.mp hpasted
          have hnone := hnone found hfound (by simpa using hblocked)
          split at hkind
          · cases hkind <;> exact fun hboth => hnone.1 ‹_› hboth.1 hboth.2
          · cases hkind <;> exact fun hboth => hnone.2 ‹_› hboth.1 hboth.2
    obtain ⟨text, htext, hblocked, ⟨hfiles, hpasteable, htaken⟩ | ⟨hfiles, hcontrolled, hreadable⟩⟩ :=
      hsome
    · have hsent := sent_of_text world self hpasteable htaken
      simpa [handleDecodedInput, handlePaste, hblocked, htext, hfiles] using hsent
    · obtain ⟨pane, hpane⟩ := uploadDestination_of_controlled world self hcontrolled
      have hsent : ∃ effect ∈ (sendLocalFiles world self .dropped pane
          (world.droppedFiles text)).outbox, effect.carries = true :=
        sent_of_files world self hfiles hreadable
      simpa [handleDecodedInput, handlePaste, hblocked, htext, hfiles, hpane] using hsent
  | pasteTooLarge => exact absurd trivial h

/-! ### Every run -/

/-- A turn of the loop keeps what is the frontend's exactly if it is withheld. -/
theorem kept_iff_withheld (self : App) (event : World × Move) :
    self.Kept event ↔ self.Withheld event := by
  cases hquitting : self.quitting with
  | true =>
    simp [Kept, Withheld, step_of_quitting hquitting, hquitting]
  | false =>
    rw [Kept, step_of_running hquitting]
    constructor
    · intro hkept input hinput _ hmeant
      by_contra hreaches
      obtain ⟨effect, hmem, hcarries⟩ := sent_of_not_withheld event.1 { self with outbox := [] }
        hmeant hreaches
      have hnone := (hkept input hinput effect (by rw [hinput]; exact hmem)).2 hmeant
      exact absurd hcarries (by simp [hnone])
    · intro hwithheld input hinput effect hmem
      rw [hinput] at hmem
      constructor
      · obtain ⟨effects, hsent, hwithin, -⟩ := sends_handleDecodedInput event.1
          { self with outbox := [] } input (inputAllowed_everything _ _ input)
        exact (hwithin effect (by simpa [handle, hsent] using hmem)).1
      · intro hmeant
        obtain ⟨effects, hsent, hwithin, -⟩ := sends_handleDecodedInput event.1
          { self with outbox := [] } input
          (inputAllowed_of_withheld _ _ hmeant (hwithheld input hinput hquitting hmeant))
        have hown := (hwithin effect (by simpa [handle, hsent] using hmem)).2
        cases effect with
        | send origin message => exact (hown origin message rfl).1
        | _ => rfl

/-- **What is meant for the frontend stays there**, in every step of a run, exactly when each step
withholds it: no byte of an event finds the overlays closed and no prefix pending, unless it is a
prefix key or cannot be typed; and the mouse and a paste have nothing to deliver to a pane. -/
theorem input_kept (restorePending : Option PaneId) (configuredTargets : List String)
    (resolvedTargets : ExtTreeMap TargetSession (Option String)) (maxTransferBytes : ℕ)
    (events : List (World × Move)) :
    AllSteps step Kept (start restorePending configuredTargets resolvedTargets maxTransferBytes)
        events ↔
      AllSteps step Withheld (start restorePending configuredTargets resolvedTargets
        maxTransferBytes) events :=
  allSteps_congr (I := fun _ : App => True) (fun _ _ => id)
    (fun self event _ => kept_iff_withheld self event) trivial events

/-- A prompt is open when an arrow key is pressed: its first byte closes the prompt, and the rest is
typed into the shell. -/
theorem an_arrow_reaches_the_shell :
    let pane : PaneId := ⟨"box", "main", "1"⟩
    let world := hosting [liveTarget ⟨"box", "main"⟩ 1 none [pane]]
    let before := (exec step (start none [] ∅ 0)
      [(world, .draw), (world, .daemon (.paneLease pane .control)),
        (world, .input (.bytes [PREFIX_KEY])), (world, .input (.bytes [0x66]))]).1
    before.textPrompt.isSome = true ∧
      (step before (world, .input (.bytes [0x1b, 0x5b, 0x41]))).2 =
        [.send .typed (.paneInput pane [0x5b]), .send .typed (.paneInput pane [0x41])] := by
  decide +kernel

end App

end Tui

end SuperHerdr
