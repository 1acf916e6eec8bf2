import SuperHerdr.Files.Listing
import SuperHerdr.Library.PercentEncoding
import SuperHerdr.Library.Utf8
import SuperHerdr.Tui.Drops

/-!
# Files the clipboard names

A clipboard names files as bare paths or as `file://` URIs, one on a line. A URI is percent-encoded.
What was encoded is decoded as it was; but what stands behind a `%` is read as a number, which may have
a sign, so `%+5` becomes the byte 5 where it should be kept (`percent_decoding_iff`).
-/

namespace SuperHerdr

namespace Tui

open Numerals Percent Texts Utf8
open Drops (trim_of_ends)

/-! ### The decoder -/

/-- The number that two bytes are in base 16, if they are a text. -/
def hexValue (high low : UInt8) : Option UInt8 :=
  (fromUtf8 [high, low]).bind fun hex => byteOfHex hex.toList

def decodeBytes : List UInt8 → List UInt8
  | [] => []
  | [byte] => [byte]
  | [byte, next] => [byte, next]
  | byte :: high :: low :: rest =>
      match if byte = 0x25 then hexValue high low else none with
      | some value => value :: decodeBytes rest
      | none => byte :: decodeBytes (high :: low :: rest)

def percentDecoded (path : List Char) : List Char :=
  ((fromUtf8 (decodeBytes (encode path))).map String.toList).getD path

/-- What one line of the clipboard names. -/
def localFileReference (line : List Char) : Option (List Char) :=
  match stripPrefixText "file://" line with
  | some rest => (stripPrefixText "/" rest).map fun path => percentDecoded ('/' :: path)
  | none => if line.head? = some '/' then some line else none

def localFileReferences (text : List Char) : List (List Char) :=
  (((lines text).map trim).filter fun line => line ≠ [] ∧ line.head? ≠ some '#').filterMap
    localFileReference

/-! ### What is kept -/

/-- The text with the escapes decoded and the other `%` kept, or as it is if that is no text. -/
def strictlyDecoded (path : List Char) : List Char :=
  ((fromUtf8 (values (strictly (encode path)))).map String.toList).getD path

def PLUS : UInt8 := 0x2b

/-- A sign and a digit stand here. -/
def Signs : List UInt8 → Prop
  | sign :: digit :: _ => sign = PLUS ∧ (toDigit 16 (Char.ofNat digit.toNat)).isSome
  | _ => False

/-- Somewhere a `%` stands before a sign and a digit. -/
def Signed (bytes : List UInt8) : Prop :=
  ∃ front rest, bytes = front ++ PERCENT :: rest ∧ Signs rest

theorem encode_pair {high low : UInt8} (hhigh : high.toNat < 128) (hlow : low.toNat < 128) :
    encode [Char.ofNat high.toNat, Char.ofNat low.toNat] = [high, low] := by
  have hone : ∀ b : UInt8, b.toNat < 128 → encode [Char.ofNat b.toNat] = [b] := by
    intro b hb
    have hchar := toNat_ofNat (Nat.lt_trans hb (by decide : 128 < 256))
    rw [encode_singleton (by omega), hchar, UInt8.ofNat_toNat]
  rw [show [Char.ofNat high.toNat, Char.ofNat low.toNat] =
    [Char.ofNat high.toNat] ++ [Char.ofNat low.toNat] from rfl, encode_append, hone high hhigh,
    hone low hlow]
  rfl

/-- A text of two bytes that are not both below 128 is no number. -/
theorem hexValue_of_le {high low : UInt8} (h : 128 ≤ high.toNat ∨ 128 ≤ low.toNat) :
    hexValue high low = none := by
  rw [hexValue, Option.bind_eq_none_iff]
  intro text htext
  rw [fromUtf8_eq_some_iff, utf8, ← encode_toList] at htext
  rcases hchars : text.toList with _ | ⟨c, _ | ⟨d, rest⟩⟩
  · rw [hchars] at htext
    cases htext
  · refine byteOfHex_wide fun hone => ?_
    have hlength := congrArg List.length htext
    rw [hchars, encode_cons, encode_nil, List.append_nil, String.length_utf8EncodeChar, hone] at hlength
    simp at hlength
  · rw [hchars, encode_cons, encode_cons] at htext
    have hlength := congrArg List.length htext
    simp only [List.length_append, String.length_utf8EncodeChar, List.length_cons,
      List.length_nil] at hlength
    have hc := Char.utf8Size_pos c
    have hd := Char.utf8Size_pos d
    obtain ⟨hc, hcbytes⟩ := utf8EncodeChar_of_size (c := c) (by omega)
    obtain ⟨hd, hdbytes⟩ := utf8EncodeChar_of_size (c := d) (by omega)
    rw [hcbytes, hdbytes] at htext
    obtain ⟨rfl, hrest⟩ := List.cons.inj htext
    obtain ⟨rfl, -⟩ := List.cons.inj hrest
    rw [UInt8.toNat_ofNat', UInt8.toNat_ofNat'] at h
    omega

/-- **The number of two bytes**: a sign may stand for the first of two digits. -/
theorem hexValue_eq (high low : UInt8) :
    hexValue high low =
      if high = PLUS then (toDigit 16 (Char.ofNat low.toNat)).map UInt8.ofNat
      else spelledBy high low := by
  have hnone : ∀ b : UInt8, 128 ≤ b.toNat → toDigit 16 (Char.ofNat b.toNat) = none := by
    intro b hb
    refine (toDigit_of_le ?_).1
    rwa [toNat_ofNat b.toNat_lt]
  by_cases hlow : low.toNat < 128
  · by_cases hhigh : high.toNat < 128
    · have htext : fromUtf8 [high, low] =
          some (String.ofList [Char.ofNat high.toNat, Char.ofNat low.toNat]) := by
        rw [fromUtf8_eq_some_iff, utf8, ← encode_toList, String.toList_ofList, encode_pair hhigh hlow]
      have hplus : Char.ofNat high.toNat = '+' ↔ high = PLUS := by
        constructor
        · intro h
          have hvalue := congrArg Char.toNat h
          rw [toNat_ofNat high.toNat_lt] at hvalue
          exact UInt8.toNat_inj.mp hvalue
        · rintro rfl
          rfl
      rw [hexValue, htext, Option.bind_some, String.toList_ofList, byteOfHex_pair, spelledBy]
      simp only [hplus]
    · have hplus : high ≠ PLUS := by
        rintro rfl
        exact hhigh (by decide)
      rw [hexValue_of_le (.inl (by omega)), if_neg hplus, spelledBy, pairValue,
        hnone high (by omega), Option.bind_none]
  · rw [hexValue_of_le (.inr (by omega)), spelledBy, pairValue, hnone low (by omega)]
    simp

theorem hexValue_of_spelledBy {high low byte : UInt8} (h : spelledBy high low = some byte) :
    hexValue high low = some byte := by
  rw [hexValue_eq, if_neg, h]
  rintro rfl
  cases h

/-! ### What is decoded -/

/-- What the pieces of a path are decoded into. A sign and a digit behind a `%` are a byte below 16, and
every other piece is what it means. -/
inductive Decoded : List Piece → List UInt8 → Prop
  | nil : Decoded [] []
  | piece {piece pieces out} : ¬(piece = .plain PERCENT ∧ Signs (spelled pieces)) →
      Decoded pieces out → Decoded (piece :: pieces) (piece.value :: out)
  | signed {digit value pieces out} : Signs (PLUS :: digit :: spelled pieces) → digit.toNat < 128 → value.toNat < 128 →
      Decoded pieces out →
      Decoded (.plain PERCENT :: .plain PLUS :: .plain digit :: pieces) (value :: out)

theorem decodeBytes_cons {byte : UInt8} {rest : List UInt8}
    (h : byte = PERCENT → ¬Escapes rest ∧ ¬Signs rest) :
    decodeBytes (byte :: rest) = byte :: decodeBytes rest := by
  rcases rest with _ | ⟨high, _ | ⟨low, rest⟩⟩
  · rfl
  · rfl
  · rw [decodeBytes]
    have hnone : (if byte = 0x25 then hexValue high low else none) = none := by
      split
      · next hbyte =>
        obtain ⟨hescapes, hsigns⟩ := h hbyte
        rw [hexValue_eq]
        split
        · next hplus =>
          rw [Option.map_eq_none_iff, ← Option.not_isSome_iff_eq_none]
          exact fun hdigit => hsigns ⟨hplus, hdigit⟩
        · exact Option.not_isSome_iff_eq_none.mp hescapes
      · rfl
    rw [hnone]

theorem decodeBytes_percent {high low value : UInt8} {rest : List UInt8}
    (h : hexValue high low = some value) :
    decodeBytes (PERCENT :: high :: low :: rest) = value :: decodeBytes rest := by
  rw [decodeBytes, PERCENT, if_pos rfl, h]

variable {pieces : List Piece}

theorem exists_of_spelled_eq_cons {byte : UInt8} {tail : List UInt8}
    (h : spelled pieces = byte :: tail) (hbyte : byte ≠ PERCENT) :
    ∃ rest, pieces = .plain byte :: rest ∧ spelled rest = tail := by
  rcases pieces with _ | ⟨piece, rest⟩
  · cases h
  · cases piece with
    | plain other =>
      obtain ⟨rfl, hrest⟩ := List.cons.inj h
      exact ⟨rest, rfl, hrest⟩
    | escape high low value hvalue =>
      obtain ⟨rfl, -⟩ := List.cons.inj h
      exact absurd rfl hbyte

theorem digit_cases {digit : UInt8} (h : (toDigit 16 (Char.ofNat digit.toNat)).isSome) :
    digit ≠ PERCENT ∧ digit.toNat < 128 ∧
      ∃ value : UInt8, value.toNat < 128 ∧
        (toDigit 16 (Char.ofNat digit.toNat)).map UInt8.ofNat = some value := by
  obtain ⟨n, hn⟩ := Option.isSome_iff_exists.mp h
  have hlt := lt_of_toDigit hn
  refine ⟨?_, ?_, UInt8.ofNat n, ?_, by rw [hn, Option.map_some]⟩
  · rintro rfl
    cases hn
  · by_contra hlarge
    have hwide : 128 ≤ (Char.ofNat digit.toNat).toNat := by
      rw [toNat_ofNat digit.toNat_lt]
      omega
    rw [(toDigit_of_le hwide).1] at hn
    cases hn
  · rw [UInt8.toNat_ofNat']
    omega

/-- **The decoder reads pieces**, one after another. -/
theorem decoded_of_strict (h : Strict pieces) : Decoded pieces (decodeBytes (spelled pieces)) := by
  induction hlength : pieces.length using Nat.strong_induction_on generalizing pieces with
  | h n ih =>
    subst hlength
    rcases pieces with _ | ⟨piece, rest⟩
    · exact .nil
    · have hrest : Strict rest → Decoded rest (decodeBytes (spelled rest)) := fun hstrict =>
        ih rest.length (by simp) hstrict rfl
      cases piece with
      | escape high low byte hbyte =>
        show Decoded _ (decodeBytes (PERCENT :: high :: low :: spelled rest))
        rw [decodeBytes_percent (hexValue_of_spelledBy hbyte)]
        exact .piece (fun hplain => nomatch hplain.1) (hrest h)
      | plain byte =>
        show Decoded _ (decodeBytes (byte :: spelled rest))
        by_cases hsigned : byte = PERCENT ∧ Signs (spelled rest)
        · obtain ⟨rfl, hsigns⟩ := hsigned
          rcases hbytes : spelled rest with _ | ⟨sign, _ | ⟨digit, tail⟩⟩ <;> rw [hbytes] at hsigns
          · exact hsigns.elim
          · exact hsigns.elim
          · obtain ⟨rfl, hdigit⟩ := hsigns
            obtain ⟨hpercent, hdigitlt, value, hvalue, hread⟩ := digit_cases hdigit
            obtain ⟨more, rfl, hmore⟩ := exists_of_spelled_eq_cons hbytes (by decide)
            obtain ⟨last, rfl, rfl⟩ := exists_of_spelled_eq_cons hmore hpercent
            rw [decodeBytes_percent ((hexValue_eq ..).trans (by rw [if_pos rfl, hread]))]
            exact .signed ⟨rfl, hdigit⟩ hdigitlt hvalue
              (ih last.length (by simp only [List.length_cons]; omega) h.2.2.2 rfl)
        · rw [decodeBytes_cons fun hbyte => ⟨h.1 hbyte, fun hsigns => hsigned ⟨hbyte, hsigns⟩⟩]
          refine .piece (fun hplain => hsigned ?_) (hrest h.2)
          exact ⟨Piece.plain.inj hplain.1, hplain.2⟩

/-! ### What the signs change -/

variable {bytes : List UInt8}

theorem signed_cons_iff {byte : UInt8} :
    Signed (byte :: bytes) ↔ byte = PERCENT ∧ Signs bytes ∨ Signed bytes := by
  constructor
  · rintro ⟨_ | ⟨first, front⟩, rest, hbytes, hsigns⟩
    · obtain ⟨rfl, rfl⟩ := List.cons.inj hbytes
      exact .inl ⟨rfl, hsigns⟩
    · obtain ⟨rfl, rfl⟩ := List.cons.inj hbytes
      exact .inr ⟨front, rest, rfl, hsigns⟩
  · rintro (⟨rfl, hsigns⟩ | ⟨front, rest, rfl, hsigns⟩)
    · exact ⟨[], bytes, rfl, hsigns⟩
    · exact ⟨byte :: front, rest, rfl, hsigns⟩

theorem signed_escape_iff {high low byte : UInt8} (h : spelledBy high low = some byte) :
    Signed (PERCENT :: high :: low :: bytes) ↔ Signed bytes := by
  have hhigh : ¬Signs (high :: low :: bytes) := by
    rintro ⟨rfl, -⟩
    cases h
  have hhighpercent : high ≠ PERCENT := by
    rintro rfl
    cases h
  have hlowpercent : low ≠ PERCENT := by
    rintro rfl
    rw [spelledBy, pairValue, Option.bind_eq_some_iff] at h
    obtain ⟨x, -, hlow⟩ := h
    cases hlow
  simp [signed_cons_iff, hhigh, hhighpercent, hlowpercent]

namespace Decoded

variable {pieces : List Piece} {out : List UInt8}

theorem eq_values (h : Decoded pieces out) (hsigned : ¬Signed (spelled pieces)) :
    out = values pieces := by
  induction h with
  | nil => rfl
  | @piece piece pieces out _ _ ih =>
    rw [values_cons, ih fun hrest => hsigned ?_]
    cases piece with
    | plain byte => exact signed_cons_iff.mpr (.inr hrest)
    | escape high low byte hbyte => exact (signed_escape_iff hbyte).mpr hrest
  | signed hsigns => exact absurd (signed_cons_iff.mpr (.inl ⟨rfl, hsigns⟩)) hsigned

theorem length_le (h : Decoded pieces out) : out.length ≤ (values pieces).length := by
  induction h with
  | nil => rfl
  | piece _ _ ih =>
    rw [values_cons, List.length_cons, List.length_cons]
    omega
  | signed _ _ _ _ ih =>
    simp only [values_cons, List.length_cons]
    omega

theorem length_lt (h : Decoded pieces out) (hsigned : Signed (spelled pieces)) :
    out.length < (values pieces).length := by
  induction h with
  | nil =>
    obtain ⟨front, rest, hbytes, -⟩ := hsigned
    simp at hbytes
  | @piece piece pieces out hpiece _ ih =>
    rw [values_cons, List.length_cons, List.length_cons]
    refine Nat.succ_lt_succ (ih ?_)
    cases piece with
    | plain byte =>
      refine (signed_cons_iff.mp hsigned).resolve_left fun hfirst => hpiece ?_
      rw [hfirst.1]
      exact ⟨rfl, hfirst.2⟩
    | escape high low byte hbyte => exact (signed_escape_iff hbyte).mp hsigned
  | signed _ _ _ h _ =>
    have hle := length_le h
    simp only [values_cons, List.length_cons]
    omega

/-- They are a text if what they mean is one. -/
theorem isText_iff (h : Decoded pieces out) (front : List UInt8) :
    IsText (front ++ out) ↔ IsText (front ++ values pieces) := by
  induction h generalizing front with
  | nil => rfl
  | @piece piece pieces out _ _ ih =>
    have hrest := ih (front ++ [piece.value])
    rwa [List.append_assoc, List.append_assoc] at hrest
  | @signed digit value pieces out _ hdigit hvalue _ ih =>
    have hrest : IsText out ↔ IsText (values pieces) := ih []
    have hplus : IsText ([] ++ PLUS :: digit :: values pieces) ↔ _ :=
      isText_append_cons_iff (by decide)
    have hlast : IsText ([] ++ digit :: values pieces) ↔ _ := isText_append_cons_iff hdigit
    simp only [List.nil_append, IsText.nil, true_and] at hplus hlast
    simp only [values_cons, Piece.value]
    rw [isText_append_cons_iff hvalue, isText_append_cons_iff (by decide), hplus, hlast, hrest]

end Decoded

/-! ### Paths -/

theorem fromUtf8_encode (text : List Char) : fromUtf8 (encode text) = some (String.ofList text) := by
  rw [fromUtf8_eq_some_iff, utf8, ← encode_toList, String.toList_ofList]

theorem fromUtf8_eq_none_iff : fromUtf8 bytes = none ↔ ¬IsText bytes := by
  constructor
  · rintro hnone ⟨text, rfl⟩
    rw [fromUtf8_encode] at hnone
    cases hnone
  · intro h
    rw [Option.eq_none_iff_forall_ne_some]
    rintro text htext
    rw [fromUtf8_eq_some_iff, utf8, ← encode_toList] at htext
    exact h ⟨text.toList, htext⟩

theorem not_signed_of_encodes (h : Encodes pieces bytes) : ¬Signed (spelled pieces) := by
  obtain ⟨-, hplain⟩ := h
  induction pieces with
  | nil =>
    rintro ⟨front, rest, hbytes, -⟩
    simp at hbytes
  | cons piece pieces ih =>
    have hrest := ih fun byte hmem => hplain byte (List.mem_cons_of_mem _ hmem)
    cases piece with
    | escape high low byte hbyte => exact fun hsigned => hrest ((signed_escape_iff hbyte).mp hsigned)
    | plain byte =>
      intro hsigned
      rcases signed_cons_iff.mp hsigned with ⟨rfl, -⟩ | hsigned
      · exact hplain PERCENT List.mem_cons_self rfl
      · exact hrest hsigned

/-- **An encoded path is decoded.** -/
theorem percentDecoded_of_encodes {path text : List Char}
    (hpieces : Encodes pieces (encode path)) (htext : encode text = spelled pieces) :
    percentDecoded text = path := by
  have hdecoded := decoded_of_strict hpieces.strict
  have hvalues := hdecoded.eq_values (not_signed_of_encodes hpieces)
  rw [percentDecoded, htext, hvalues, hpieces.1, fromUtf8_encode]
  simp

/-- **A path is decoded strictly** if it has no sign behind a `%`, or is no text when it is decoded. -/
theorem percentDecoded_eq_iff (text : List Char) :
    percentDecoded text = strictlyDecoded text ↔
      ¬Signed (encode text) ∨ ¬IsText (values (strictly (encode text))) := by
  have hspelled := spelled_strictly (encode text)
  have hdecoded := decoded_of_strict (strict_strictly (encode text))
  have htext := hdecoded.isText_iff []
  rw [hspelled] at hdecoded htext
  by_cases hsigned : Signed (encode text)
  · have hlength := hdecoded.length_lt (by rwa [hspelled])
    by_cases hvalues : IsText (values (strictly (encode text)))
    · obtain ⟨decoded, hbytes⟩ := htext.mpr hvalues
      obtain ⟨meant, hmeant⟩ := hvalues
      refine iff_of_false (fun heq => ?_) (by simp [hsigned, ← hmeant, IsText])
      rw [percentDecoded, strictlyDecoded, ← List.nil_append (decodeBytes _), ← hbytes, ← hmeant,
        fromUtf8_encode, fromUtf8_encode] at heq
      obtain rfl : decoded = meant := by simpa using heq
      rw [List.nil_append] at hbytes
      rw [← hmeant, hbytes] at hlength
      exact Nat.lt_irrefl _ hlength
    · have hout : ¬IsText (decodeBytes (encode text)) := fun h => hvalues (htext.mp h)
      refine iff_of_true ?_ (.inr hvalues)
      rw [percentDecoded, strictlyDecoded, fromUtf8_eq_none_iff.mpr hvalues,
        fromUtf8_eq_none_iff.mpr hout]
  · refine iff_of_true ?_ (.inl hsigned)
    rw [percentDecoded, strictlyDecoded, hdecoded.eq_values (by rwa [hspelled])]

/-- **An encoded path is decoded, whichever bytes of it are escaped; and in any text each `%` without two
digits behind it is kept**, unless a sign and a digit stand behind one and the decoded bytes are a text. -/
theorem percent_decoding_iff (text : List Char) :
    (∀ (path : List Char) (pieces : List Piece), Encodes pieces (encode path) →
      encode text = spelled pieces → percentDecoded text = path) ∧
      (percentDecoded text = strictlyDecoded text ↔
        ¬Signed (encode text) ∨ ¬IsText (values (strictly (encode text)))) :=
  ⟨fun _ _ => percentDecoded_of_encodes, percentDecoded_eq_iff text⟩

/-- A sign and a digit behind a `%` are a byte. -/
theorem signed_escape_is_decoded :
    percentDecoded ['%', '+', '5'] = ['\x05'] ∧ strictlyDecoded ['%', '+', '5'] = ['%', '+', '5'] ∧
      ¬∀ text, percentDecoded text = strictlyDecoded text := by
  have hencoded : encode ['%', '+', '5'] = [PERCENT, PLUS, 0x35] := by decide
  have hpercent : percentDecoded ['%', '+', '5'] = ['\x05'] := by
    have hout : decodeBytes [PERCENT, PLUS, 0x35] = encode ['\x05'] := by
      rw [decodeBytes_percent ((hexValue_eq ..).trans (if_pos rfl))]
      decide
    rw [percentDecoded, hencoded, hout, fromUtf8_encode]
    rfl
  have hstrictly : strictlyDecoded ['%', '+', '5'] = ['%', '+', '5'] := by
    have hvalues : values (strictly [PERCENT, PLUS, 0x35]) = encode ['%', '+', '5'] := by decide
    rw [strictlyDecoded, hencoded, hvalues, fromUtf8_encode]
    rfl
  refine ⟨hpercent, hstrictly, fun h => ?_⟩
  have heq := h ['%', '+', '5']
  rw [hpercent, hstrictly] at heq
  exact absurd heq (by decide)

/-! ### Lists of files -/

/-- A path as a line of the clipboard names it. -/
structure Uri where
  path : List Char
  pieces : List Piece
  text : List Char
  encodes : Encodes pieces (encode path)
  spells : encode text = spelled pieces
  absolute : text.head? = some '/'
  oneLine : '\n' ∉ text
  ends : ∀ c ∈ text.getLast?, isWhiteSpace c = false

namespace Uri

def line (self : Uri) : List Char := ['f', 'i', 'l', 'e', ':', '/', '/'] ++ self.text

theorem getLast?_line (self : Uri) :
    ∃ c, self.line.getLast? = some c ∧ isWhiteSpace c = false := by
  have hne : self.text ≠ [] := by
    intro hnil
    have habsolute := self.absolute
    rw [hnil] at habsolute
    cases habsolute
  refine ⟨self.text.getLast hne, ?_, self.ends _ (List.getLast?_eq_some_getLast hne)⟩
  rw [line, List.getLast?_append_of_ne_nil _ hne, List.getLast?_eq_some_getLast hne]

theorem trim_line (self : Uri) : trim (stripReturn self.line) = self.line := by
  obtain ⟨c, hlast, hc⟩ := self.getLast?_line
  have hreturn : self.line.getLast? ≠ some '\r' := by
    rw [hlast]
    rintro ⟨⟩
    cases hc
  rw [stripReturn, if_neg hreturn]
  exact @trim_of_ends _ 'f' c rfl hlast rfl hc

theorem localFileReference_line (self : Uri) : localFileReference self.line = some self.path := by
  obtain ⟨rest, hrest⟩ := List.head?_eq_some_iff.mp self.absolute
  have hpath := percentDecoded_of_encodes self.encodes self.spells
  rw [hrest] at hpath
  have hscheme : "file://".toList = ['f', 'i', 'l', 'e', ':', '/', '/'] := rfl
  have hfile : stripPrefixText "file://" self.line = some self.text := by
    rw [stripPrefixText, hscheme, line, if_pos (List.prefix_append ..), List.drop_left]
  have hslash : stripPrefixText "/" self.text = some rest := by
    rw [hrest]
    exact if_pos (List.prefix_append ['/'] rest)
  rw [localFileReference, hfile]
  simp only [hslash, Option.map_some, hpath]

end Uri

/-- **The files of a list of URIs are those that were encoded**, in their order. -/
theorem localFileReferences_uris (uris : List Uri) :
    localFileReferences (Records.framed '\n' (uris.map Uri.line)) = uris.map Uri.path := by
  have hfree : ∀ line ∈ uris.map Uri.line, '\n' ∉ line := by
    rintro line hmem
    obtain ⟨uri, -, rfl⟩ := List.mem_map.mp hmem
    simp [Uri.line, uri.oneLine]
  have htrim : (uris.map Uri.line).map (trim ∘ stripReturn) = uris.map Uri.line := by
    rw [List.map_map]
    exact List.map_congr_left fun uri _ => uri.trim_line
  have hkept : ∀ line ∈ uris.map Uri.line,
      decide (line ≠ [] ∧ line.head? ≠ some '#') = true := by
    rintro line hmem
    obtain ⟨uri, -, rfl⟩ := List.mem_map.mp hmem
    simp [Uri.line]
  rw [localFileReferences, lines_framed hfree, List.map_map, htrim, List.filter_eq_self.mpr hkept,
    List.filterMap_map, ← List.filterMap_eq_map]
  exact List.filterMap_congr fun uri _ => uri.localFileReference_line

end Tui

end SuperHerdr
