import SuperHerdr.Library.Patterns
import SuperHerdr.Library.Utf8
import SuperHerdr.Files.Listing

/-!
# Searching for literal text

A query that is no pattern is put between two asterisks, with a backslash ahead of every character
that `find` would read as more than itself. So a name is found exactly if it contains the query
(`literal_search_is_literal`), whether names are matched by characters or, as they are stored, by
bytes, and whatever bracket expressions mean on the host.
-/

namespace SuperHerdr

open Patterns

/-- The signs of a pattern, as characters. -/
def charSigns : Signs Char := ⟨'*', '?', '[', '\\', by decide⟩

/-- The signs of a pattern, as bytes. -/
def byteSigns : Signs UInt8 := ⟨0x2a, 0x3f, 0x5b, 0x5c, by decide⟩

/-- The pattern of a query that is no pattern. -/
def literalPattern (query : String) : String := "*" ++ escapeGlob query ++ "*"

/-- The characters that `escapeGlob` escapes. -/
def GLOB_CHARACTERS : List Char := ['*', '?', '[', ']', '\\']

/-- Their bytes. -/
def GLOB_BYTES : List UInt8 := [0x2a, 0x3f, 0x5b, 0x5d, 0x5c]

theorem toList_escapeGlob (query : String) :
    (escapeGlob query).toList = escaped charSigns (· ∈ GLOB_CHARACTERS) query.toList := by
  simp [escapeGlob, escaped, charSigns, GLOB_CHARACTERS]

/-- A character is escaped if and only if one of its bytes is, and then it has one byte. -/
theorem encode_escaped (character : Char) :
    Utf8.encode (if character ∈ GLOB_CHARACTERS then ['\\', character] else [character]) =
      escaped byteSigns (· ∈ GLOB_BYTES) (String.utf8EncodeChar character) := by
  by_cases hglob : character ∈ GLOB_CHARACTERS
  · rw [if_pos hglob]
    simp only [GLOB_CHARACTERS, List.mem_cons, List.not_mem_nil, or_false] at hglob
    rcases hglob with rfl | rfl | rfl | rfl | rfl <;> decide
  · have hbytes : ∀ b ∈ String.utf8EncodeChar character, b ∉ GLOB_BYTES := by
      intro b hb hmem
      have hchar {c : Char} (hc : c ∈ GLOB_CHARACTERS) (hsmall : c.toNat < 128)
          (hbyte : b = UInt8.ofNat c.toNat) : False := by
        rw [hbyte, Utf8.mem_utf8EncodeChar_iff hsmall] at hb
        exact hglob (hb ▸ hc)
      simp only [GLOB_BYTES, List.mem_cons, List.not_mem_nil, or_false] at hmem
      rcases hmem with rfl | rfl | rfl | rfl | rfl
      · exact @hchar '*' (by simp [GLOB_CHARACTERS]) (by decide) rfl
      · exact @hchar '?' (by simp [GLOB_CHARACTERS]) (by decide) rfl
      · exact @hchar '[' (by simp [GLOB_CHARACTERS]) (by decide) rfl
      · exact @hchar ']' (by simp [GLOB_CHARACTERS]) (by decide) rfl
      · exact @hchar '\\' (by simp [GLOB_CHARACTERS]) (by decide) rfl
    have hplain (bytes : List UInt8) (h : ∀ b ∈ bytes, b ∉ GLOB_BYTES) :
        escaped byteSigns (· ∈ GLOB_BYTES) bytes = bytes := by
      induction bytes with
      | nil => rfl
      | cons b bytes ih =>
        have hrest := ih fun other hother => h other (List.mem_cons_of_mem b hother)
        rw [escaped] at hrest ⊢
        rw [List.flatMap_cons, hrest]
        simp [h b List.mem_cons_self]
    rw [if_neg hglob, hplain _ hbytes]
    simp

theorem utf8_literalPattern (query : String) :
    utf8 (literalPattern query) =
      [0x2a] ++ escaped byteSigns (· ∈ GLOB_BYTES) (utf8 query) ++ [0x2a] := by
  have hstar : Utf8.encode ['*'] = [0x2a] := by decide
  have hchars : (literalPattern query).toList = ['*'] ++ (escapeGlob query).toList ++ ['*'] := by
    simp [literalPattern]
  rw [utf8, ← Utf8.encode_toList, hchars, Utf8.encode_append, Utf8.encode_append, hstar,
    toList_escapeGlob, utf8, ← Utf8.encode_toList, escaped, Utf8.encode_flatMap]
  congr 2
  rw [Utf8.encode, escaped, List.flatMap_assoc]
  refine List.flatMap_congr fun character _ => ?_
  have hone := encode_escaped character
  rw [escaped] at hone
  simpa [charSigns] using hone

/-- A host whose `find` matches the bytes of names. -/
def FileHost.matching (host : FileHost) (brackets : Brackets UInt8) : FileHost :=
  { host with accepts := fun pattern => fnmatch byteSigns brackets (utf8 pattern) }

/-- **Literal search is literal.** The pattern of a query matches a name if and only if the name
contains the query, by characters and by bytes, whatever the host's bracket expressions are. So a
search that is no pattern finds the files whose names contain its query. -/
theorem literal_search_is_literal (query : String) (brackets : Brackets Char)
    (byteBrackets : Brackets UInt8) (host : FileHost) (roots : List String) (root : String) :
    (∀ name, fnmatch charSigns brackets (literalPattern query).toList name = true ↔
        query.toList <:+: name) ∧
      (∀ name, fnmatch byteSigns byteBrackets (utf8 (literalPattern query)) name = true ↔
        utf8 query <:+: name) ∧
      search (host.matching byteBrackets) roots root query false =
        search { host with accepts := fun _ name => utf8 query <:+: name } roots root query
          false := by
  have hbytes (name : List UInt8) :
      fnmatch byteSigns byteBrackets (utf8 (literalPattern query)) name = true ↔
        utf8 query <:+: name := by
    rw [utf8_literalPattern]
    exact fnmatch_contains_iff (by simp [byteSigns, GLOB_BYTES])
  refine ⟨fun name => ?_, hbytes, ?_⟩
  · have hchars : (literalPattern query).toList = [charSigns.many] ++
        escaped charSigns (· ∈ GLOB_CHARACTERS) query.toList ++ [charSigns.many] := by
      simp [literalPattern, toList_escapeGlob, charSigns]
    rw [hchars]
    exact fnmatch_contains_iff (by simp [charSigns, GLOB_CHARACTERS])
  · have haccepts : fnmatch byteSigns byteBrackets (utf8 (literalPattern query)) =
        fun name => decide (utf8 query <:+: name) := by
      funext name
      rw [Bool.eq_iff_iff, hbytes, decide_eq_true_eq]
    rw [literalPattern] at haccepts
    simp [search, FileHost.matching, haccepts]

end SuperHerdr
