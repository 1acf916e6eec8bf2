import SuperHerdr.Library.Characters
import SuperHerdr.Files.Listing
import SuperHerdr.Tui.Moves

/-!
# Typing into a prompt

The bytes of a name arrive at a text prompt one at a time. The prompt holds those of a character that is
not whole and appends it when it is; a byte that does not go on with them is dropped together with them.
So what is dropped may be the first byte of a character, and the rest of it then is dropped too: in the
bytes `c3 c3 a9` the character `é` is missed. A prompt takes every character exactly if the bytes are
legible to such a reader (`typed_characters_are_kept_iff`).
-/

namespace SuperHerdr

namespace Tui

namespace App

open Utf8
open String (utf8EncodeChar)

/-! ### Starts of characters -/

theorem continues_iff {lead second : UInt8} :
    unfinished.continues lead second = true ↔
      (0x80 ≤ second.toNat ∧ second.toNat ≤ 0xbf) ∧
        (lead.toNat = 0xe0 → 0xa0 ≤ second.toNat) ∧ (lead.toNat = 0xf0 → 0x90 ≤ second.toNat) ∧
        (lead.toNat = 0xed → second.toNat ≤ 0x9f) ∧ (lead.toNat = 0xf4 → second.toNat ≤ 0x8f) := by
  have hlead : ∀ b : UInt8, lead = b ↔ lead.toNat = b.toNat := fun b => UInt8.toNat_inj.symm
  simp only [unfinished.continues, Bool.and_eq_true, decide_eq_true_eq, UInt8.le_iff_toNat_le, hlead]
  repeat' split
  all_goals simp_all <;> omega

variable {bytes : List UInt8}

theorem unfinished_iff : unfinished bytes = true ↔
      (∃ lead, bytes = [lead] ∧ 0xc2 ≤ lead.toNat ∧ lead.toNat ≤ 0xf4) ∨
      (∃ lead second, bytes = [lead, second] ∧ (0xe0 ≤ lead.toNat ∧ lead.toNat ≤ 0xf4) ∧
        unfinished.continues lead second = true) ∨
      ∃ lead second third, bytes = [lead, second, third] ∧
        (0xf0 ≤ lead.toNat ∧ lead.toNat ≤ 0xf4) ∧ unfinished.continues lead second = true ∧
        0x80 ≤ third.toNat ∧ third.toNat ≤ 0xbf := by
  rcases bytes with _ | ⟨lead, _ | ⟨second, _ | ⟨third, _ | ⟨fourth, rest⟩⟩⟩⟩ <;>
    simp [unfinished, UInt8.le_iff_toNat_le, and_assoc]

theorem toNat_ofNat_of_lt {n : ℕ} (h : n < 256) : (UInt8.ofNat n).toNat = n := by
  rw [UInt8.toNat_ofNat', Nat.mod_eq_of_lt h]

/-- The start of a start is one. -/
theorem unfinished_of_prefix {front bytes : List UInt8} (hfront : front <+: bytes) (hne : front ≠ [])
    (h : unfinished bytes = true) : unfinished front = true := by
  have hconcat : ∀ more last, unfinished (more ++ [last]) = true → more ≠ [] →
      unfinished more = true := by
    intro more last h hmore
    rw [unfinished_iff] at h ⊢
    rcases more with _ | ⟨lead, _ | ⟨second, more⟩⟩
    · exact absurd rfl hmore
    · rcases h with ⟨_, hbytes, -⟩ | ⟨_, _, hbytes, hlead, -⟩ | ⟨_, _, _, hbytes, -⟩
      · simp at hbytes
      · obtain ⟨rfl, -⟩ := List.cons.inj hbytes
        exact .inl ⟨lead, rfl, by omega⟩
      · simp at hbytes
    · rcases h with ⟨_, hbytes, -⟩ | ⟨_, _, hbytes, -⟩ | ⟨_, _, _, hbytes, hlead, hsecond, -⟩
      · simp at hbytes
      · simp at hbytes
      · simp only [List.cons_append, List.cons.injEq] at hbytes
        obtain ⟨rfl, rfl, hlast⟩ := hbytes
        obtain rfl : more = [] := by
          have hlength := congrArg List.length hlast
          simpa using hlength
        exact .inr (.inl ⟨lead, second, rfl, by omega, hsecond⟩)
  obtain ⟨rest, rfl⟩ := hfront
  induction rest using List.reverseRecOn with
  | nil => rwa [List.append_nil] at h
  | append_singleton rest last ih =>
    rw [← List.append_assoc] at h
    exact ih (hconcat _ last h (by simp [hne]))

/-- A character lacks its last byte. -/
theorem unfinished_dropLast {c : Char} (h : 0x80 ≤ c.toNat) :
    unfinished (utf8EncodeChar c).dropLast = true := by
  have hvalid : c.toNat < 0xd800 ∨ 0xdfff < c.toNat ∧ c.toNat < 0x110000 := c.valid
  rw [unfinished_iff]
  rcases utf8EncodeChar_shapes c with ⟨hbound, henc⟩ | ⟨hbound, henc⟩ | ⟨hbound, henc⟩ |
    ⟨hbound, henc⟩ <;> rw [henc]
  · omega
  · refine .inl ⟨_, rfl, ?_⟩
    rw [toNat_ofNat_of_lt (by omega)]
    omega
  · refine .inr (.inl ⟨_, _, rfl, ?_, continues_iff.mpr ?_⟩)
    · rw [toNat_ofNat_of_lt (by omega)]
      omega
    · rw [toNat_ofNat_of_lt (by omega), toNat_ofNat_of_lt (by omega)]
      omega
  · refine .inr (.inr ⟨_, _, _, rfl, ?_, continues_iff.mpr ?_, ?_⟩)
    · rw [toNat_ofNat_of_lt (by omega)]
      omega
    · rw [toNat_ofNat_of_lt (by omega), toNat_ofNat_of_lt (by omega)]
      omega
    · rw [toNat_ofNat_of_lt (by omega)]
      omega

theorem starts_dropLast {c : Char} (h : 0x80 ≤ c.toNat) : Starts (utf8EncodeChar c).dropLast := by
  obtain ⟨lead, second, more, hbytes⟩ : ∃ lead second more, utf8EncodeChar c = lead :: second :: more := by
    rcases utf8EncodeChar_shapes c with ⟨hbound, henc⟩ | ⟨hbound, henc⟩ | ⟨hbound, henc⟩ |
      ⟨hbound, henc⟩
    · omega
    · exact ⟨_, _, _, henc⟩
    · exact ⟨_, _, _, henc⟩
    · exact ⟨_, _, _, henc⟩
  refine ⟨by rw [hbytes]; simp, c, List.dropLast_prefix _, fun heq => ?_⟩
  have hlength := congrArg List.length heq
  rw [List.length_dropLast, hbytes, List.length_cons] at hlength
  omega

theorem exists_char {n : ℕ} (h : n < 0xd800 ∨ 0xdfff < n ∧ n < 0x110000) : ∃ c : Char, c.toNat = n :=
  ⟨Char.ofNatAux n h, rfl⟩

theorem eq_ofNat {b : UInt8} {n : ℕ} (h : n = b.toNat) : UInt8.ofNat n = b := by
  rw [h, UInt8.ofNat_toNat]

section Completions

variable {lead second third : UInt8}

theorem exists_of_lead (hlead : 0xc2 ≤ lead.toNat ∧ lead.toNat ≤ 0xdf) :
    ∃ c : Char, 0x80 ≤ c.toNat ∧ [lead] = (utf8EncodeChar c).dropLast := by
  obtain ⟨c, hc⟩ := exists_char (n := (lead.toNat - 0xc0) * 64) (by omega)
  refine ⟨c, by omega, ?_⟩
  rcases utf8EncodeChar_shapes c with ⟨hbound, -⟩ | ⟨-, henc⟩ | ⟨hbound, -⟩ | ⟨hbound, -⟩
  · omega
  · rw [henc, eq_ofNat (b := lead) (by omega)]
    rfl
  · omega
  · omega

theorem exists_of_second (hlead : 0xe0 ≤ lead.toNat ∧ lead.toNat ≤ 0xef)
    (hsecond : unfinished.continues lead second = true) :
    ∃ c : Char, 0x80 ≤ c.toNat ∧ [lead, second] = (utf8EncodeChar c).dropLast := by
  rw [continues_iff] at hsecond
  obtain ⟨c, hc⟩ := exists_char (n := (lead.toNat - 0xe0) * 4096 + (second.toNat - 0x80) * 64) (by omega)
  refine ⟨c, by omega, ?_⟩
  rcases utf8EncodeChar_shapes c with ⟨hbound, -⟩ | ⟨hbound, -⟩ | ⟨-, henc⟩ | ⟨hbound, -⟩
  · omega
  · omega
  · rw [henc, eq_ofNat (b := lead) (by omega), eq_ofNat (b := second) (by omega)]
    rfl
  · omega

theorem exists_of_third (hlead : 0xf0 ≤ lead.toNat ∧ lead.toNat ≤ 0xf4)
    (hsecond : unfinished.continues lead second = true)
    (hthird : 0x80 ≤ third.toNat ∧ third.toNat ≤ 0xbf) :
    ∃ c : Char, 0x80 ≤ c.toNat ∧ [lead, second, third] = (utf8EncodeChar c).dropLast := by
  rw [continues_iff] at hsecond
  obtain ⟨c, hc⟩ := exists_char (n := (lead.toNat - 0xf0) * 262144 + (second.toNat - 0x80) * 4096 +
    (third.toNat - 0x80) * 64) (by omega)
  refine ⟨c, by omega, ?_⟩
  rcases utf8EncodeChar_shapes c with ⟨hbound, -⟩ | ⟨hbound, -⟩ | ⟨hbound, -⟩ | ⟨-, henc⟩
  · omega
  · omega
  · omega
  · rw [henc, eq_ofNat (b := lead) (by omega), eq_ofNat (b := second) (by omega),
      eq_ofNat (b := third) (by omega)]
    rfl

theorem exists_continues (lead : UInt8) : ∃ second, unfinished.continues lead second = true := by
  by_cases hthree : lead.toNat = 0xe0
  · exact ⟨0xa0, continues_iff.mpr (by rw [hthree]; decide)⟩
  by_cases hfour : lead.toNat = 0xf0
  · exact ⟨0x90, continues_iff.mpr (by rw [hfour]; decide)⟩
  · exact ⟨0x80, continues_iff.mpr (by simp [hthree, hfour])⟩

end Completions

/-- Bytes that are not whole lack bytes of some character. -/
theorem exists_of_unfinished (h : unfinished bytes = true) :
    ∃ c : Char, 0x80 ≤ c.toNat ∧ bytes <+: (utf8EncodeChar c).dropLast := by
  have hof_second : ∀ lead second : UInt8, 0xe0 ≤ lead.toNat ∧ lead.toNat ≤ 0xf4 →
      unfinished.continues lead second = true →
      ∃ c : Char, 0x80 ≤ c.toNat ∧ [lead, second] <+: (utf8EncodeChar c).dropLast := by
    intro lead second hlead hsecond
    by_cases hthree : lead.toNat ≤ 0xef
    · obtain ⟨c, hc, henc⟩ := exists_of_second ⟨hlead.1, hthree⟩ hsecond
      exact ⟨c, hc, by rw [henc]⟩
    · have hthird : 0x80 ≤ (0x80 : UInt8).toNat ∧ (0x80 : UInt8).toNat ≤ 0xbf := by decide
      obtain ⟨c, hc, henc⟩ := @exists_of_third lead second 0x80 (by omega) hsecond hthird
      exact ⟨c, hc, by rw [← henc]; exact ⟨[0x80], rfl⟩⟩
  rcases unfinished_iff.mp h with ⟨lead, rfl, hlead⟩ | ⟨lead, second, rfl, hlead, hsecond⟩ |
    ⟨lead, second, third, rfl, hlead, hsecond, hthird⟩
  · by_cases htwo : lead.toNat ≤ 0xdf
    · obtain ⟨c, hc, henc⟩ := exists_of_lead ⟨hlead.1, htwo⟩
      exact ⟨c, hc, by rw [henc]⟩
    · obtain ⟨second, hsecond⟩ := exists_continues lead
      obtain ⟨c, hc, henc⟩ := hof_second lead second (by omega) hsecond
      exact ⟨c, hc, .trans ⟨[second], rfl⟩ henc⟩
  · exact hof_second lead second hlead hsecond
  · obtain ⟨c, hc, henc⟩ := exists_of_third hlead hsecond hthird
    exact ⟨c, hc, by rw [henc]⟩

/-- **Bytes are unfinished if they are the start of a character.** -/
theorem unfinished_iff_starts : unfinished bytes = true ↔ Starts bytes := by
  constructor
  · intro h
    have hne : bytes ≠ [] := by
      rintro rfl
      cases h
    obtain ⟨c, hc, rest, hrest⟩ := exists_of_unfinished h
    exact Starts.of_append (by rw [hrest]; exact starts_dropLast hc) hne
  · rintro ⟨hne, c, hc, hwhole⟩
    have hlead : bytes <+: (utf8EncodeChar c).dropLast := by
      obtain ⟨rest, hrest⟩ := hc
      have hmore : rest ≠ [] := by
        rintro rfl
        exact hwhole (by rw [← hrest, List.append_nil])
      rw [← hrest, List.dropLast_append_of_ne_nil hmore]
      exact List.prefix_append _ _
    have hwide : 0x80 ≤ c.toNat := by
      rcases utf8EncodeChar_cases c with ⟨-, henc⟩ | ⟨hwide, -⟩
      · rw [henc] at hlead
        exact absurd (List.prefix_nil.mp hlead) hne
      · exact hwide
    exact unfinished_of_prefix hlead hne (unfinished_dropLast hwide)

/-! ### One byte -/

theorem utf8?_encode (text : List Char) : utf8? (encode text) = some (String.ofList text) := by
  refine fromUtf8_eq_some_iff.mpr ?_
  rw [utf8, ← encode_toList, String.toList_ofList]

theorem utf8?_eq_none (hne : bytes ≠ [])
    (h : ∀ c, ¬utf8EncodeChar c <+: bytes) : utf8? bytes = none := by
  rw [Option.eq_none_iff_forall_ne_some]
  intro text htext
  have hbytes := fromUtf8_eq_some_iff.mp htext
  rw [utf8, ← encode_toList] at hbytes
  rcases htoList : text.toList with _ | ⟨c, rest⟩
  · rw [htoList] at hbytes
    exact hne hbytes.symm
  · rw [htoList, encode_cons] at hbytes
    exact h c ⟨encode rest, hbytes⟩

theorem length_lt_of_starts (h : Starts bytes) : bytes.length < 4 := by
  obtain ⟨-, c, hc, hwhole⟩ := h
  have hle := c.utf8Size_le_four
  rw [← String.length_utf8EncodeChar] at hle
  by_contra hlong
  exact hwhole (hc.eq_of_length_le (by omega))

/-- **A byte of a character**, in a prompt that holds the start of one. -/
theorem pushPartial_eq {prompt : TextPrompt} (hheld : Pending prompt.partialBytes) {key : UInt8}
    (hkey : 0x80 ≤ key) :
    pushPartial prompt key =
      { prompt with
        value := prompt.value ++ String.ofList (push prompt.partialBytes key).1
        partialBytes := (push prompt.partialBytes key).2
        error := none } := by
  have hne : prompt.partialBytes ++ [key] ≠ [] := by simp
  rw [pushPartial]
  by_cases hwhole : ∃ c, utf8EncodeChar c = prompt.partialBytes ++ [key]
  · obtain ⟨c, hc⟩ := hwhole
    have htext := utf8?_encode [c]
    rw [encode_cons, encode_nil, List.append_nil, hc] at htext
    simp only [htext, push_whole hc]
  by_cases hstarts : Starts (prompt.partialBytes ++ [key])
  · have hnone := utf8?_eq_none hne (Pending.not_whole (.inr hstarts))
    have hkept := And.intro (unfinished_iff_starts.mpr hstarts) (length_lt_of_starts hstarts)
    simp only [hnone, push_starts hstarts, if_pos hkept, String.ofList_nil, String.append_empty]
  · have hrefused : Refused prompt.partialBytes key := ⟨not_exists.mp hwhole, hstarts⟩
    have hnone := utf8?_eq_none hne (hrefused.not_whole hheld [])
    have hdropped : unfinished (prompt.partialBytes ++ [key]) = false := by
      rw [← Bool.not_eq_true, unfinished_iff_starts]
      exact hstarts
    simp [hnone, push_refused hheld hkey hrefused, hdropped]

/-! ### A run of bytes -/

/-- `handle_text_prompt_input`, which takes the prompt off the frontend. -/
def typeByte (world : World) (self : App) (key : UInt8) : App :=
  match self.textPrompt with
  | some prompt => handleTextPromptInput world self prompt key
  | none => self

def typeBytes (world : World) (self : App) (bytes : List UInt8) : App :=
  bytes.foldl (typeByte world) self

/-- Neither a control character nor a deletion. -/
def Typed (key : UInt8) : Prop := 0x20 ≤ key ∧ key ≠ 0x7f

instance (key : UInt8) : Decidable (Typed key) := inferInstanceAs (Decidable (_ ∧ _))

/-- A prompt that has taken a byte. -/
noncomputable def withByte (prompt : TextPrompt) (key : UInt8) : TextPrompt :=
  { prompt with
    value := prompt.value ++ String.ofList (push prompt.partialBytes key).1
    partialBytes := (push prompt.partialBytes key).2
    error := none }

theorem handleTextPromptInput_of_typed (world : World) (self : App) {prompt : TextPrompt}
    (hheld : Pending prompt.partialBytes) {key : UInt8} (hkey : Typed key) :
    handleTextPromptInput world self prompt key =
      { self with textPrompt := some (withByte prompt key) } := by
  obtain ⟨hlow, hdelete⟩ := hkey
  rw [UInt8.le_iff_toNat_le] at hlow
  have hother : ∀ b : UInt8, b.toNat < 0x20 → key ≠ b := by
    rintro b hb rfl
    exact Nat.not_lt.mpr hlow hb
  have h1b := hother 0x1b (by decide)
  have h0d := hother 0x0d (by decide)
  have h0a := hother 0x0a (by decide)
  have h08 := hother 0x08 (by decide)
  have h15 := hother 0x15 (by decide)
  simp only [handleTextPromptInput, h1b, h0d, h0a, h08, h15, hdelete, or_self, if_false]
  by_cases hascii : key < 0x80
  · have hprintable : 0x20 ≤ key ∧ key ≤ 0x7e := by
      rw [UInt8.lt_iff_toNat_lt] at hascii
      rw [ne_eq, ← UInt8.toNat_inj] at hdelete
      rw [UInt8.le_iff_toNat_le, UInt8.le_iff_toNat_le]
      exact ⟨hlow, Nat.le_of_lt_succ (lt_of_le_of_ne (Nat.le_of_lt_succ hascii) hdelete)⟩
    rw [if_pos hprintable, withByte, push_ascii hascii, String.push_eq_append]
    rfl
  · have hwide : 0x80 ≤ key := UInt8.not_lt.mp hascii
    have hprintable : ¬(0x20 ≤ key ∧ key ≤ 0x7e) := by
      rintro ⟨-, h⟩
      exact hascii (UInt8.lt_of_le_of_lt h (by decide))
    rw [if_neg hprintable, if_pos hwide, pushPartial_eq hheld hwide, withByte]

/-- **What a prompt takes of some bytes** is what a reader reads of them. -/
theorem value_typeBytes (world : World) (hbytes : ∀ key ∈ bytes, Typed key)
    {self : App} {prompt : TextPrompt} (hopen : self.textPrompt = some prompt)
    (hheld : Pending prompt.partialBytes) :
    (typeBytes world self bytes).textPrompt.map TextPrompt.value =
      some (prompt.value ++ String.ofList (Utf8.read prompt.partialBytes bytes)) := by
  induction bytes generalizing self prompt with
  | nil => simp [typeBytes, hopen, Utf8.read]
  | cons key bytes ih =>
    have hkey := handleTextPromptInput_of_typed world self hheld (hbytes key List.mem_cons_self)
    have hrest : (typeBytes world { self with textPrompt := some (withByte prompt key) } bytes).textPrompt.map
        TextPrompt.value = _ :=
      ih (fun other hmem => hbytes other (List.mem_cons_of_mem _ hmem)) rfl (pending_push _ _)
    rw [typeBytes, List.foldl_cons, typeByte, hopen]
    simp only [hkey]
    rw [← typeBytes, hrest, withByte, Utf8.read, String.ofList_append, String.append_assoc]

/-- **A prompt takes exactly the characters of what is typed** if and only if no bytes that it drops end
with the first byte of one. -/
theorem typed_characters_are_kept_iff (world : World) (self : App) (prompt : TextPrompt)
    (hopen : self.textPrompt = some prompt) (hheld : Pending prompt.partialBytes)
    (bytes : List UInt8) (hbytes : ∀ key ∈ bytes, Typed key) :
    (typeBytes world self bytes).textPrompt.map TextPrompt.value =
        some (prompt.value ++ String.ofList (characters (prompt.partialBytes ++ bytes))) ↔
      Legible (prompt.partialBytes ++ bytes) := by
  rw [value_typeBytes world hbytes hopen hheld, ← read_append hheld, ← read_eq_characters_iff,
    Option.some_inj]
  constructor
  · intro h
    simpa using congrArg String.toList h
  · intro h
    rw [h]

/-- **A text in any script is entered as it was sent.** -/
theorem typed_text (world : World) (self : App) (prompt : TextPrompt)
    (hopen : self.textPrompt = some prompt) (hempty : prompt.partialBytes = []) (text : List Char)
    (htext : ∀ key ∈ encode text, Typed key) :
    (typeBytes world self (encode text)).textPrompt.map TextPrompt.value =
      some (prompt.value ++ String.ofList text) := by
  have hread : Utf8.read [] (encode text) = characters (encode text) :=
    (read_eq_characters_iff _).mpr (legible_encode text)
  rw [value_typeBytes world htext hopen (.inl hempty), hempty, hread, characters_encode]

/-- A prompt that has just been opened. -/
def naming : TextPrompt := .new (.createWorkspace ⟨"local", "default"⟩)

/-- The frontend that shows it. -/
def prompting : App := { start none [] ∅ 0 with textPrompt := some naming }

theorem typed_character_is_kept :
    (typeBytes blank prompting [0xc3, 0xa9]).textPrompt.map TextPrompt.value =
      some (naming.value ++ String.ofList (characters (naming.partialBytes ++ [0xc3, 0xa9]))) :=
  (typed_characters_are_kept_iff blank prompting naming rfl (.inl rfl) [0xc3, 0xa9]
    (by simp [Typed])).mpr (legible_encode ['é'])

/-- A byte that begins a character takes the first byte of the next one with it. -/
theorem typed_character_is_swallowed :
    (typeBytes blank prompting [0xc3, 0xc3, 0xa9]).textPrompt.map TextPrompt.value = some "" ∧
      characters [0xc3, 0xc3, 0xa9] = ['é'] ∧
      ¬∀ (world : World) (self : App) (prompt : TextPrompt) (bytes : List UInt8),
        self.textPrompt = some prompt → prompt.partialBytes = [] → (∀ key ∈ bytes, Typed key) →
        (typeBytes world self bytes).textPrompt.map TextPrompt.value =
          some (prompt.value ++ String.ofList (characters bytes)) := by
  have hlead : Starts [0xc3] := unfinished_iff_starts.mp (by decide)
  have hread : Utf8.read [] [0xc3, 0xc3, 0xa9] = [] := by
    have hfirst := read_refused (.inr hlead) (by decide) (hlead.refused (b := 0xc3) (by decide)) [0xa9]
    have hlast := read_refused (.inl rfl) (by decide)
      (refused_of_continuation (b := 0xa9) (by decide)) []
    exact hfirst.trans hlast
  have hcharacters : characters [0xc3, 0xc3, 0xa9] = ['é'] := by decide
  have hbytes : ∀ key ∈ ([0xc3, 0xc3, 0xa9] : List UInt8), Typed key := by simp [Typed]
  have hvalue := @value_typeBytes _ blank hbytes prompting naming rfl (.inl rfl)
  have hempty : (typeBytes blank prompting [0xc3, 0xc3, 0xa9]).textPrompt.map TextPrompt.value =
      some "" := by
    rw [hvalue, show naming.partialBytes = [] from rfl, hread]
    rfl
  refine ⟨hempty, hcharacters, fun h => ?_⟩
  have hkept := h blank prompting naming [0xc3, 0xc3, 0xa9] rfl rfl hbytes
  rw [hempty, hcharacters] at hkept
  exact absurd hkept (by decide)

end App

end Tui

end SuperHerdr
