import Mathlib
import SuperHerdr.Library.Utf8

/-!
# Characters among bytes

Bytes arrive one at a time, and some of them are the characters of a text. The characters of any bytes
are those that begin at one of them (`characters`); no two of them overlap. A reader that holds the start
of a character until it is whole, and drops it together with a byte that does not go on with it, reads
the bytes in pieces (`piecesInduction`). It misses a character exactly if a piece that it drops ends with
the first byte of it (`read_eq_characters_iff`).
-/

namespace Utf8

open String (utf8EncodeChar)

/-! ### Leads and continuations -/

/-- How a character is written, by its number. -/
theorem utf8EncodeChar_shapes (c : Char) :
    c.toNat < 0x80 ∧ utf8EncodeChar c = [UInt8.ofNat c.toNat] ∨
    (0x80 ≤ c.toNat ∧ c.toNat < 0x800) ∧
      utf8EncodeChar c = [UInt8.ofNat (c.toNat / 64 + 0xc0), UInt8.ofNat (c.toNat % 64 + 0x80)] ∨
    (0x800 ≤ c.toNat ∧ c.toNat < 0x10000) ∧
      utf8EncodeChar c = [UInt8.ofNat (c.toNat / 4096 + 0xe0),
        UInt8.ofNat (c.toNat / 64 % 64 + 0x80), UInt8.ofNat (c.toNat % 64 + 0x80)] ∨
    (0x10000 ≤ c.toNat ∧ c.toNat < 0x110000) ∧
      utf8EncodeChar c = [UInt8.ofNat (c.toNat / 262144 + 0xf0),
        UInt8.ofNat (c.toNat / 4096 % 64 + 0x80), UInt8.ofNat (c.toNat / 64 % 64 + 0x80),
        UInt8.ofNat (c.toNat % 64 + 0x80)] := by
  have hval : c.val.toNat = c.toNat := rfl
  have hvalid : c.toNat < 0xd800 ∨ 0xdfff < c.toNat ∧ c.toNat < 0x110000 := c.valid
  rw [utf8EncodeChar]
  simp only [hval]
  split
  · next hone => exact .inl ⟨by omega, rfl⟩
  · split
    · next hone htwo =>
      rw [Nat.mod_eq_of_lt (show c.toNat / 64 < 32 by omega)]
      exact .inr (.inl ⟨by omega, rfl⟩)
    · split
      · next hone htwo hthree =>
        rw [Nat.mod_eq_of_lt (show c.toNat / 4096 < 16 by omega)]
        exact .inr (.inr (.inl ⟨by omega, rfl⟩))
      · next hone htwo hthree =>
        rw [Nat.mod_eq_of_lt (show c.toNat / 262144 < 8 by omega)]
        exact .inr (.inr (.inr ⟨by omega, rfl⟩))

variable {b : UInt8}

theorem utf8EncodeChar_ascii (hb : b < 0x80) : utf8EncodeChar (Char.ofNat b.toNat) = [b] := by
  rw [UInt8.lt_iff_toNat_lt] at hb
  have hchar := toNat_ofNat b.toNat_lt
  have hone := encode_singleton (c := Char.ofNat b.toNat) (by rw [hchar]; exact hb)
  rwa [hchar, UInt8.ofNat_toNat, encode_cons, encode_nil, List.append_nil] at hone

def isContinuation (b : UInt8) : Bool := 0x80 ≤ b && b < 0xc0

theorem isContinuation_iff : isContinuation b = true ↔ 0x80 ≤ b.toNat ∧ b.toNat < 0xc0 := by
  simp [isContinuation, UInt8.le_iff_toNat_le, UInt8.lt_iff_toNat_lt]

/-- The first byte of a character is no continuation, and all others are. -/
theorem utf8EncodeChar_eq_cons (c : Char) :
    ∃ lead tail, utf8EncodeChar c = lead :: tail ∧ ¬isContinuation lead ∧
      ∀ b ∈ tail, isContinuation b := by
  have hcontinuation : ∀ n, isContinuation (UInt8.ofNat (n % 64 + 0x80)) = true := by
    intro n
    rw [isContinuation_iff, UInt8.toNat_ofNat']
    omega
  have hlead : ∀ n, n < 0x80 ∨ 0xc0 ≤ n ∧ n < 0x100 → ¬isContinuation (UInt8.ofNat n) := by
    intro n hn
    rw [isContinuation_iff, UInt8.toNat_ofNat']
    omega
  rcases utf8EncodeChar_shapes c with ⟨hc, h⟩ | ⟨hc, h⟩ | ⟨hc, h⟩ | ⟨hc, h⟩
  · exact ⟨_, _, h, hlead _ (by omega), by simp⟩
  · exact ⟨_, _, h, hlead _ (by omega), List.forall_mem_singleton.mpr (hcontinuation _)⟩
  · exact ⟨_, _, h, hlead _ (by omega), List.forall_mem_cons.mpr
      ⟨hcontinuation _, List.forall_mem_singleton.mpr (hcontinuation _)⟩⟩
  · exact ⟨_, _, h, hlead _ (by omega), List.forall_mem_cons.mpr ⟨hcontinuation _,
      List.forall_mem_cons.mpr ⟨hcontinuation _, List.forall_mem_singleton.mpr (hcontinuation _)⟩⟩⟩

/-! ### The characters of any bytes -/

/-- The character that bytes begin with. -/
def charAt (bytes : List UInt8) : Option Char := ByteArray.utf8DecodeChar? bytes.toByteArray 0

theorem charAt_eq_some_iff {bytes : List UInt8} {c : Char} :
    charAt bytes = some c ↔ utf8EncodeChar c <+: bytes := by
  constructor
  · intro h
    obtain ⟨rest, hrest⟩ := ByteArray.exists_of_utf8DecodeChar?_eq_some h
    refine ⟨rest.data.toList, ?_⟩
    have hdata := congrArg (fun bytes : ByteArray => bytes.data.toList) hrest
    simpa using hdata.symm
  · rintro ⟨rest, rfl⟩
    rw [charAt, List.toByteArray_append]
    exact ByteArray.utf8DecodeChar?_utf8EncodeChar_append

/-- No character begins with another. -/
theorem eq_of_prefix {c d : Char} (h : utf8EncodeChar c <+: utf8EncodeChar d) : c = d := by
  have hself := charAt_eq_some_iff.mpr (List.prefix_refl (utf8EncodeChar d))
  rw [charAt_eq_some_iff.mpr h] at hself
  exact Option.some.inj hself

/-- The characters of some bytes: those that begin at one of them. -/
def characters : List UInt8 → List Char
  | [] => []
  | b :: rest => (charAt (b :: rest)).toList ++ characters rest

theorem charAt_of_continuation (h : isContinuation b) (rest : List UInt8) :
    charAt (b :: rest) = none := by
  rw [Option.eq_none_iff_forall_ne_some]
  intro c hc
  obtain ⟨lead, tail, hlead, hnot, -⟩ := utf8EncodeChar_eq_cons c
  rw [charAt_eq_some_iff, hlead, List.cons_prefix_cons] at hc
  rw [hc.1] at hnot
  exact hnot h

theorem characters_of_continuations {bytes : List UInt8} (h : ∀ b ∈ bytes, isContinuation b)
    (rest : List UInt8) : characters (bytes ++ rest) = characters rest := by
  induction bytes with
  | nil => rfl
  | cons b bytes ih =>
    rw [List.cons_append, characters, charAt_of_continuation (h b List.mem_cons_self),
      ih fun c hc => h c (List.mem_cons_of_mem _ hc)]
    rfl

theorem characters_append (c : Char) (rest : List UInt8) :
    characters (utf8EncodeChar c ++ rest) = c :: characters rest := by
  obtain ⟨lead, tail, hlead, -, htail⟩ := utf8EncodeChar_eq_cons c
  have hfirst : charAt (lead :: (tail ++ rest)) = some c := by
    rw [charAt_eq_some_iff, hlead]
    exact List.prefix_append (lead :: tail) rest
  rw [hlead, List.cons_append, characters, hfirst, characters_of_continuations htail]
  rfl

/-- **The characters of a text's bytes are the text.** -/
theorem characters_encode (text : List Char) : characters (encode text) = text := by
  induction text with
  | nil => rfl
  | cons c text ih => rw [encode_cons, characters_append, ih]

/-! ### Starts -/

/-- The start of a character, which lacks some of its bytes. -/
def Starts (bytes : List UInt8) : Prop :=
  bytes ≠ [] ∧ ∃ c, bytes <+: utf8EncodeChar c ∧ bytes ≠ utf8EncodeChar c

/-- What a reader may hold. -/
def Pending (bytes : List UInt8) : Prop := bytes = [] ∨ Starts bytes

/-- A byte goes on with what is held neither to a character nor to the start of one. -/
def Refused (held : List UInt8) (b : UInt8) : Prop :=
  (∀ c, utf8EncodeChar c ≠ held ++ [b]) ∧ ¬Starts (held ++ [b])

theorem Starts.of_append {front rest : List UInt8} (h : Starts (front ++ rest)) (hne : front ≠ []) :
    Starts front := by
  obtain ⟨-, c, hc, hneq⟩ := h
  refine ⟨hne, c, (List.prefix_append front rest).trans hc, ?_⟩
  rintro rfl
  exact hneq (hc.eq_of_length_le (List.prefix_append _ _).length_le)

variable {held : List UInt8}

/-- There is no character at a start. -/
theorem Pending.not_whole (h : Pending held) (c : Char) : ¬utf8EncodeChar c <+: held := by
  intro hc
  rcases h with rfl | ⟨-, d, hd, hne⟩
  · obtain ⟨lead, tail, hlead, -⟩ := utf8EncodeChar_eq_cons c
    rw [hlead] at hc
    simp at hc
  · obtain rfl := eq_of_prefix (hc.trans hd)
    exact hne (hd.eq_of_length_le hc.length_le)

/-- The first byte of a start is no continuation, and all others are. -/
theorem Starts.eq_cons (h : Starts held) :
    ∃ lead tail, held = lead :: tail ∧ 0x80 ≤ lead ∧ ∀ b ∈ tail, isContinuation b := by
  obtain ⟨hne, c, ⟨rest, hrest⟩, hwhole⟩ := h
  obtain ⟨first, tail, rfl⟩ := List.exists_cons_of_ne_nil hne
  obtain ⟨lead, more, hlead, -, hmore⟩ := utf8EncodeChar_eq_cons c
  have hparts := hrest.trans hlead
  rw [List.cons_append] at hparts
  obtain ⟨rfl, rfl⟩ := List.cons.inj hparts
  refine ⟨first, tail, rfl, ?_, fun b hb => hmore b (List.mem_append_left _ hb)⟩
  have habove : 0x80 ≤ first.toNat := by
    rcases utf8EncodeChar_cases c with ⟨-, hone⟩ | ⟨-, habove⟩
    · rw [hlead] at hone
      obtain ⟨-, hnil⟩ := List.cons.inj hone
      obtain ⟨rfl, rfl⟩ := List.append_eq_nil_iff.mp hnil
      exact absurd hlead.symm hwhole
    · exact habove first (by rw [hlead]; exact List.mem_cons_self)
  exact UInt8.le_iff_toNat_le.mpr habove

theorem le_of_isContinuation (h : isContinuation b) : 0x80 ≤ b :=
  UInt8.le_iff_toNat_le.mpr (isContinuation_iff.mp h).1

theorem Starts.le_of_mem (h : Starts held) (hb : b ∈ held) : 0x80 ≤ b := by
  obtain ⟨lead, tail, rfl, hlead, htail⟩ := h.eq_cons
  rcases List.mem_cons.mp hb with rfl | hb
  · exact hlead
  · exact le_of_isContinuation (htail b hb)

/-- Where a byte is refused no character begins with what is held. -/
theorem Refused.not_whole (h : Refused held b)
    (hheld : Pending held) (rest : List UInt8) (c : Char) :
    ¬utf8EncodeChar c <+: held ++ b :: rest := by
  intro hc
  have hfront : held ++ [b] <+: held ++ b :: rest := ⟨rest, by simp⟩
  rcases List.prefix_or_prefix_of_prefix hc hfront with hshort | hlong
  · rcases List.prefix_concat_iff.mp hshort with heq | hshort
    · exact h.1 c heq
    · exact hheld.not_whole c hshort
  · refine h.2 ⟨by simp, c, hlong, fun heq => h.1 c heq.symm⟩

/-- A start goes on with a continuation only. -/
theorem Starts.refused (h : Starts held) (hb : ¬isContinuation b) : Refused held b := by
  obtain ⟨first, tail, rfl, -, -⟩ := h.eq_cons
  constructor
  · intro c hc
    obtain ⟨lead, more, hlead, -, hmore⟩ := utf8EncodeChar_eq_cons c
    rw [hlead, List.cons_append] at hc
    obtain ⟨-, rfl⟩ := List.cons.inj hc
    exact hb (hmore b (by simp))
  · intro hstarts
    obtain ⟨lead, more, hlead, -, hmore⟩ := hstarts.eq_cons
    rw [List.cons_append] at hlead
    obtain ⟨-, rfl⟩ := List.cons.inj hlead
    exact hb (hmore b (by simp))

/-- A continuation with nothing before it is refused. -/
theorem refused_of_continuation (hb : isContinuation b) : Refused [] b := by
  constructor
  · intro c hc
    obtain ⟨lead, more, hlead, hnot, -⟩ := utf8EncodeChar_eq_cons c
    rw [hlead] at hc
    obtain ⟨rfl, -⟩ := List.cons.inj hc
    exact hnot hb
  · rintro ⟨-, c, hc, -⟩
    obtain ⟨lead, more, hlead, hnot, -⟩ := utf8EncodeChar_eq_cons c
    rw [hlead, List.nil_append, List.cons_prefix_cons] at hc
    rw [← hc.1] at hnot
    exact hnot hb

/-! ### Pieces -/

/-- The characters behind what is held and dropped. -/
theorem characters_dropped (hheld : Pending held) {rest : List UInt8}
    (h : ∀ c, ¬utf8EncodeChar c <+: held ++ rest) : characters (held ++ rest) = characters rest := by
  rcases hheld with rfl | hstarts
  · rfl
  · obtain ⟨lead, tail, rfl, -, htail⟩ := hstarts.eq_cons
    have hnone : charAt (lead :: (tail ++ rest)) = none := by
      rw [Option.eq_none_iff_forall_ne_some]
      exact fun c hc => h c (charAt_eq_some_iff.mp hc)
    rw [List.cons_append, characters, hnone, characters_of_continuations htail]
    rfl

theorem characters_of_pending (h : Pending held) : characters held = [] := by
  have hdropped := @characters_dropped held h [] (by rw [List.append_nil]; exact h.not_whole)
  rwa [List.append_nil] at hdropped

/-- **Bytes come in pieces**: characters, starts that an ASCII character cuts short, starts together with
a byte that is refused, and a start at the end. -/
theorem piecesInduction {motive : List UInt8 → Prop}
    (pending : ∀ held, Pending held → motive held)
    (character : ∀ c rest, motive rest → motive (utf8EncodeChar c ++ rest))
    (cut : ∀ held b rest, Starts held → b < 0x80 → motive (b :: rest) → motive (held ++ b :: rest))
    (refused : ∀ held b rest, Pending held → 0x80 ≤ b → Refused held b → motive rest →
      motive (held ++ b :: rest)) (bytes : List UInt8) : motive bytes := by
  induction hlength : bytes.length using Nat.strong_induction_on generalizing bytes with
  | h n ih =>
    subst hlength
    -- As much as may be held is taken off the front.
    suffices hsplit : ∀ rest held, Pending held → held ++ rest = bytes → motive (held ++ rest) from
      hsplit bytes [] (.inl rfl) rfl
    intro rest
    induction rest with
    | nil =>
      intro held hheld _
      rw [List.append_nil]
      exact pending held hheld
    | cons b rest ihrest =>
      intro held hheld hbytes
      have hsize := congrArg List.length hbytes
      rw [List.length_append, List.length_cons] at hsize
      have hrest : motive rest := ih rest.length (by omega) rest rfl
      by_cases hwhole : ∃ c, utf8EncodeChar c = held ++ [b]
      · obtain ⟨c, hc⟩ := hwhole
        rw [List.append_cons, ← hc]
        exact character c rest hrest
      by_cases hstarts : Starts (held ++ [b])
      · rw [List.append_cons]
        exact ihrest (held ++ [b]) (.inr hstarts) (by rw [← List.append_cons, hbytes])
      have hrefused : Refused held b := ⟨not_exists.mp hwhole, hstarts⟩
      by_cases hb : b < 0x80
      · rcases hheld with rfl | hheld
        · exact absurd (utf8EncodeChar_ascii hb) (hrefused.1 _)
        · obtain ⟨lead, tail, rfl, -, -⟩ := hheld.eq_cons
          rw [List.length_cons] at hsize
          exact cut _ b rest hheld hb (ih (b :: rest).length (by rw [List.length_cons]; omega) _ rfl)
      · exact refused held b rest hheld (UInt8.not_lt.mp hb) hrefused hrest

/-! ### The reader -/

section Reader

open Classical

/-- What a byte makes whole, and what is held then. -/
noncomputable def push (held : List UInt8) (b : UInt8) : List Char × List UInt8 :=
  if b < 0x80 then ([Char.ofNat b.toNat], [])
  else
    match charAt (held ++ [b]) with
    | some c => ([c], [])
    | none => ([], if Starts (held ++ [b]) then held ++ [b] else [])

/-- What is read of some bytes. -/
noncomputable def read : List UInt8 → List UInt8 → List Char
  | _, [] => []
  | held, b :: rest => (push held b).1 ++ read (push held b).2 rest

end Reader

theorem push_ascii (hb : b < 0x80) (held : List UInt8) :
    push held b = ([Char.ofNat b.toNat], []) := by
  rw [push, if_pos hb]

theorem push_whole {c : Char} (hc : utf8EncodeChar c = held ++ [b]) : push held b = ([c], []) := by
  have hat : charAt (held ++ [b]) = some c := charAt_eq_some_iff.mpr (by rw [hc])
  by_cases hb : b < 0x80
  · obtain ⟨lead, more, hlead, -, hmore⟩ := utf8EncodeChar_eq_cons c
    rcases held with _ | ⟨first, held⟩
    · rw [push_ascii hb, eq_of_prefix (c := c) (d := Char.ofNat b.toNat)]
      rw [hc, utf8EncodeChar_ascii hb]
      exact List.prefix_refl [b]
    · rw [hlead, List.cons_append] at hc
      obtain ⟨-, rfl⟩ := List.cons.inj hc
      exact absurd (le_of_isContinuation (hmore b (by simp))) (UInt8.not_le.mpr hb)
  · rw [push, if_neg hb, hat]

theorem push_starts (h : Starts (held ++ [b])) : push held b = ([], held ++ [b]) := by
  have hnone : charAt (held ++ [b]) = none := by
    rw [Option.eq_none_iff_forall_ne_some]
    exact fun c hc => Pending.not_whole (.inr h) c (charAt_eq_some_iff.mp hc)
  have hb : ¬b < 0x80 := UInt8.not_lt.mpr (h.le_of_mem (by simp))
  rw [push, if_neg hb, hnone]
  simp only [if_pos h]

theorem push_refused (hheld : Pending held) (hb : 0x80 ≤ b)
    (h : Refused held b) : push held b = ([], []) := by
  have hnone : charAt (held ++ [b]) = none := by
    rw [Option.eq_none_iff_forall_ne_some]
    exact fun c hc => h.not_whole hheld [] c (charAt_eq_some_iff.mp hc)
  rw [push, if_neg (UInt8.not_lt.mpr hb), hnone]
  simp only [if_neg h.2]

theorem pending_push (held : List UInt8) (b : UInt8) : Pending (push held b).2 := by
  rw [push]
  split
  · exact .inl rfl
  · split
    · exact .inl rfl
    · split
      · next hstarts => exact .inr hstarts
      · exact .inl rfl

/-- What is held is read as if it came first. -/
theorem read_append (h : Pending held) (rest : List UInt8) :
    read [] (held ++ rest) = read held rest := by
  suffices hfrom : ∀ more front : List UInt8, Pending (front ++ more) →
      read front (more ++ rest) = read (front ++ more) rest from hfrom held [] h
  intro more
  induction more with
  | nil =>
    intro front _
    rw [List.nil_append, List.append_nil]
  | cons b more ih =>
    intro front hfront
    have hstarts : Starts (front ++ [b] ++ more) := by
      rw [← List.append_cons]
      exact hfront.resolve_left (by simp)
    have hone : Starts (front ++ [b]) := hstarts.of_append (by simp)
    rw [List.cons_append, read, push_starts hone, List.nil_append, ih _ (.inr hstarts),
      ← List.append_cons]

theorem read_of_pending (h : Pending held) : read [] held = [] := by
  have happend := read_append h []
  rwa [List.append_nil] at happend

theorem read_character (c : Char) (rest : List UInt8) :
    read [] (utf8EncodeChar c ++ rest) = c :: read [] rest := by
  obtain ⟨lead, tail, hlead, -⟩ := utf8EncodeChar_eq_cons c
  obtain ⟨held, b, hheld⟩ : ∃ held b, utf8EncodeChar c = held ++ [b] :=
    (List.eq_nil_or_concat' _).resolve_left (by rw [hlead]; simp)
  have hpending : Pending held := by
    rcases held with _ | ⟨first, held⟩
    · exact .inl rfl
    · refine .inr ⟨by simp, c, ⟨[b], hheld.symm⟩, ?_⟩
      rw [hheld]
      simp
  rw [hheld, ← List.append_cons, read_append hpending, read, push_whole hheld]
  rfl

theorem read_refused (hheld : Pending held) (hb : 0x80 ≤ b)
    (h : Refused held b) (rest : List UInt8) : read [] (held ++ b :: rest) = read [] rest := by
  rw [read_append hheld, read, push_refused hheld hb h]
  rfl

theorem read_cut (hheld : Pending held) (hb : b < 0x80)
    (rest : List UInt8) : read [] (held ++ b :: rest) = read [] (b :: rest) := by
  rw [read_append hheld, read, read, push_ascii hb, push_ascii hb]

/-! ### What is read -/

/-- Bytes in pieces of which none that is dropped ends with the first byte of a character. -/
inductive Legible : List UInt8 → Prop
  | pending {held : List UInt8} : Pending held → Legible held
  | character (c : Char) {rest} : Legible rest → Legible (utf8EncodeChar c ++ rest)
  | cut {held : List UInt8} {b rest} : Starts held → b < 0x80 → Legible (b :: rest) → Legible (held ++ b :: rest)
  | refused {held b rest} : Pending held → 0x80 ≤ b → Refused held b →
      (∀ c, ¬utf8EncodeChar c <+: b :: rest) → Legible rest → Legible (held ++ b :: rest)

theorem characters_cut (hheld : Starts held) (hb : b < 0x80)
    (rest : List UInt8) : characters (held ++ b :: rest) = characters (b :: rest) := by
  have hnot : ¬isContinuation b := fun h => UInt8.not_le.mpr hb (le_of_isContinuation h)
  exact characters_dropped (.inr hheld) ((hheld.refused hnot).not_whole (.inr hheld) rest)

/-- A character that begins with a refused byte is one of the bytes. -/
theorem characters_refused (hheld : Pending held) (h : Refused held b) (rest : List UInt8) :
    characters (held ++ b :: rest) = (charAt (b :: rest)).toList ++ characters rest := by
  rw [characters_dropped hheld (h.not_whole hheld rest), characters]

/-- **What is read are characters of the bytes**, in their order. -/
theorem read_sublist (bytes : List UInt8) : (read [] bytes).Sublist (characters bytes) := by
  induction bytes using piecesInduction with
  | pending held hheld =>
    rw [read_of_pending hheld]
    exact List.nil_sublist _
  | character c rest ih =>
    rw [read_character, characters_append]
    exact ih.cons_cons c
  | cut held b rest hheld hb ih =>
    rwa [read_cut (.inr hheld) hb, characters_cut hheld hb]
  | refused held b rest hheld hb hrefused ih =>
    rw [read_refused hheld hb hrefused, characters_refused hheld hrefused]
    exact ih.trans (List.sublist_append_right _ _)

/-- **All characters are read** if and only if no piece that is dropped ends with the first byte of one. -/
theorem read_eq_characters_iff (bytes : List UInt8) :
    read [] bytes = characters bytes ↔ Legible bytes := by
  constructor
  · intro h
    induction bytes using piecesInduction with
    | pending held hheld => exact .pending hheld
    | character c rest ih =>
      rw [read_character, characters_append] at h
      exact .character c (ih (List.cons.inj h).2)
    | cut held b rest hheld hb ih =>
      rw [read_cut (.inr hheld) hb, characters_cut hheld hb] at h
      exact .cut hheld hb (ih h)
    | refused held b rest hheld hb hrefused ih =>
      rw [read_refused hheld hb hrefused, characters_refused hheld hrefused] at h
      -- What is read of the rest is among its characters, so none may stand before them.
      cases hat : charAt (b :: rest) with
      | some c =>
        have hle := (read_sublist rest).length_le
        rw [h, hat] at hle
        simp at hle
      | none =>
        rw [hat] at h
        refine .refused hheld hb hrefused (fun c hc => ?_) (ih h)
        rw [charAt_eq_some_iff.mpr hc] at hat
        cases hat
  · intro h
    induction h with
    | pending hheld => rw [read_of_pending hheld, characters_of_pending hheld]
    | character c _ ih => rw [read_character, characters_append, ih]
    | cut hheld hb _ ih => rw [read_cut (.inr hheld) hb, characters_cut hheld hb, ih]
    | @refused held b rest hheld hb hrefused hnone _ ih =>
      have hat : charAt (b :: rest) = none := by
        rw [Option.eq_none_iff_forall_ne_some]
        exact fun c hc => hnone c (charAt_eq_some_iff.mp hc)
      rw [read_refused hheld hb hrefused, characters_refused hheld hrefused, hat, ih]
      rfl

/-- A text is legible. -/
theorem legible_encode (text : List Char) : Legible (encode text) := by
  induction text with
  | nil => exact .pending (.inl rfl)
  | cons c text ih => exact .character c ih

end Utf8
