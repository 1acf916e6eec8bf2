import Mathlib.Data.List.Basic
import Mathlib.Data.List.Infix

/-!
# Texts and their bytes

`encode` is UTF-8 of a text that is a list of characters. A byte below 128 stands in it for one
character only, its own, so what ends with such a byte is a text that ends with its character
(`exists_of_encode_eq_append`), and a text can be searched for it on either side
(`mem_encode_iff`).
-/

namespace Utf8

/-- The bytes of a text. -/
def encode (text : List Char) : List UInt8 := text.flatMap String.utf8EncodeChar

@[simp] theorem encode_nil : encode [] = [] := rfl

@[simp] theorem encode_cons (c : Char) (text : List Char) :
    encode (c :: text) = String.utf8EncodeChar c ++ encode text := rfl

@[simp] theorem encode_append (text rest : List Char) :
    encode (text ++ rest) = encode text ++ encode rest :=
  List.flatMap_append

theorem encode_flatMap {α : Type*} (f : α → List Char) (as : List α) :
    encode (as.flatMap f) = as.flatMap fun a => encode (f a) :=
  List.flatMap_assoc

theorem encode_eq_utf8Encode (text : List Char) : encode text = text.utf8Encode.data.toList := by
  simp [encode, List.utf8Encode]

/-- The bytes of a string are those of its characters. -/
theorem encode_toList (text : String) : encode text.toList = text.toUTF8.data.toList := by
  rw [encode_eq_utf8Encode, String.utf8Encode_toList, String.toUTF8_eq_toByteArray]

theorem encode_injective : Function.Injective encode := by
  intro text rest h
  rw [encode_eq_utf8Encode, encode_eq_utf8Encode] at h
  have hbytes := ByteArray.ext (Array.toList_inj.mp h)
  rw [← String.toByteArray_ofList, ← String.toByteArray_ofList] at hbytes
  exact String.ofList_inj.mp (String.toByteArray_inj.mp hbytes)

/-- A character is one byte below 128, or its bytes are all above. -/
theorem utf8EncodeChar_cases (c : Char) :
    c.toNat < 128 ∧ String.utf8EncodeChar c = [UInt8.ofNat c.toNat] ∨
      128 ≤ c.toNat ∧ ∀ b ∈ String.utf8EncodeChar c, 128 ≤ b.toNat := by
  have hval : c.val.toNat = c.toNat := rfl
  rw [String.utf8EncodeChar]
  simp only [hval]
  split
  · next hone => exact .inl ⟨by omega, rfl⟩
  · next hmore =>
    refine .inr ⟨by omega, ?_⟩
    split
    · simp only [List.mem_cons, List.not_mem_nil, or_false, forall_eq_or_imp, forall_eq,
        UInt8.toNat_ofNat']
      omega
    · split
      · simp only [List.mem_cons, List.not_mem_nil, or_false, forall_eq_or_imp, forall_eq,
          UInt8.toNat_ofNat']
        omega
      · simp only [List.mem_cons, List.not_mem_nil, or_false, forall_eq_or_imp, forall_eq,
          UInt8.toNat_ofNat']
        omega

theorem utf8EncodeChar_of_size {c : Char} (h : c.utf8Size = 1) :
    c.toNat < 128 ∧ String.utf8EncodeChar c = [UInt8.ofNat c.toNat] := by
  rw [Char.utf8Size_eq_one_iff, UInt32.le_iff_toNat_le] at h
  have hc : c.toNat ≤ 127 := h
  exact (utf8EncodeChar_cases c).resolve_right fun hmore => by omega

/-! ### Bytes below 128 -/

section Ascii

variable {c : Char} (hc : c.toNat < 128)
include hc

theorem encode_singleton : encode [c] = [UInt8.ofNat c.toNat] := by
  rw [encode_cons, encode_nil, List.append_nil]
  rcases utf8EncodeChar_cases c with ⟨-, hone⟩ | ⟨hmore, -⟩
  · exact hone
  · omega

theorem mem_utf8EncodeChar_iff {d : Char} :
    UInt8.ofNat c.toNat ∈ String.utf8EncodeChar d ↔ d = c := by
  have hbyte : (UInt8.ofNat c.toNat).toNat = c.toNat := by
    rw [UInt8.toNat_ofNat']
    omega
  rcases utf8EncodeChar_cases d with ⟨hd, hone⟩ | ⟨hd, hmore⟩
  · have hd' : (UInt8.ofNat d.toNat).toNat = d.toNat := by
      rw [UInt8.toNat_ofNat']
      omega
    rw [hone, List.mem_singleton, ← UInt8.toNat_inj, hbyte, hd', eq_comm, Char.toNat_inj]
  · constructor
    · intro hmem
      have habove := hmore _ hmem
      omega
    · rintro rfl
      omega

theorem mem_encode_iff {text : List Char} : UInt8.ofNat c.toNat ∈ encode text ↔ c ∈ text := by
  simp only [encode, List.mem_flatMap, mem_utf8EncodeChar_iff hc, exists_eq_right]

/-- What ends with such a byte is a text that ends with its character. -/
theorem exists_of_encode_eq_concat {text : List Char} {bytes : List UInt8}
    (h : encode text = bytes ++ [UInt8.ofNat c.toNat]) :
    ∃ front, text = front ++ [c] ∧ encode front = bytes := by
  rcases List.eq_nil_or_concat' text with rfl | ⟨front, d, rfl⟩
  · simp at h
  have hlast : UInt8.ofNat c.toNat ∈ String.utf8EncodeChar d := by
    have hne : String.utf8EncodeChar d ≠ [] := by
      rw [← List.length_pos_iff, String.length_utf8EncodeChar]
      exact Char.utf8Size_pos d
    obtain ⟨init, b, hb⟩ := (List.eq_nil_or_concat' (String.utf8EncodeChar d)).resolve_left hne
    rw [encode_append, encode_cons, encode_nil, List.append_nil, hb, ← List.append_assoc] at h
    rw [hb, ← List.singleton_inj.mp (List.append_inj' h rfl).2]
    exact List.mem_append_right _ (List.mem_singleton_self b)
  obtain rfl := (mem_utf8EncodeChar_iff hc).mp hlast
  rw [encode_append, encode_singleton hc] at h
  exact ⟨front, rfl, List.append_cancel_right h⟩

/-- Bytes around such a byte are those of the text around its character. -/
theorem exists_of_encode_eq_append_cons {text : List Char} {front rest : List UInt8}
    (h : encode text = front ++ UInt8.ofNat c.toNat :: rest) :
    ∃ start tail, text = start ++ c :: tail ∧ encode start = front ∧ encode tail = rest := by
  induction text generalizing front with
  | nil => simp at h
  | cons d text ih =>
    rw [encode_cons] at h
    rcases List.append_eq_append_iff.mp h with ⟨more, rfl, htext⟩ | ⟨more, hd, htext⟩
    · obtain ⟨start, tail, rfl, rfl, htail⟩ := ih htext
      exact ⟨d :: start, tail, rfl, rfl, htail⟩
    · cases more with
      | nil =>
        obtain ⟨start, tail, rfl, hstart, htail⟩ := @ih [] htext.symm
        refine ⟨d :: start, tail, rfl, ?_, htail⟩
        rw [encode_cons, hstart, hd, List.append_nil, List.append_nil]
      | cons b more =>
        obtain ⟨rfl, hrest⟩ := List.cons.inj htext
        obtain rfl : d = c := by
          rw [← mem_utf8EncodeChar_iff hc, hd]
          exact List.mem_append_right _ List.mem_cons_self
        have hone : String.utf8EncodeChar d = [UInt8.ofNat d.toNat] := by
          rw [← encode_singleton hc, encode_cons, encode_nil, List.append_nil]
        rw [hone, List.singleton_eq_append_iff] at hd
        obtain ⟨rfl, hmore⟩ : front = [] ∧ more = [] := by simpa using hd
        exact ⟨[], text, rfl, rfl, by rw [hrest, hmore]; rfl⟩

end Ascii

theorem toNat_ofNat {n : ℕ} (h : n < 256) : (Char.ofNat n).toNat = n := by
  have hall : ∀ n < 256, (Char.ofNat n).toNat = n := by decide +kernel
  exact hall n h

/-- Bytes that are those of a text. -/
def IsText (bytes : List UInt8) : Prop := ∃ text, encode text = bytes

theorem IsText.nil : IsText [] := ⟨[], rfl⟩

/-- A byte below 128 stands between any two texts, and between nothing else. -/
theorem isText_append_cons_iff {front rest : List UInt8} {b : UInt8} (hb : b.toNat < 128) :
    IsText (front ++ b :: rest) ↔ IsText front ∧ IsText rest := by
  obtain ⟨c, hc, rfl⟩ : ∃ c : Char, c.toNat < 128 ∧ UInt8.ofNat c.toNat = b := by
    have hchar := toNat_ofNat (Nat.lt_trans hb (by decide))
    exact ⟨Char.ofNat b.toNat, by omega, by rw [hchar, UInt8.ofNat_toNat]⟩
  constructor
  · rintro ⟨text, htext⟩
    obtain ⟨start, tail, -, hstart, htail⟩ := exists_of_encode_eq_append_cons hc htext
    exact ⟨⟨start, hstart⟩, tail, htail⟩
  · rintro ⟨⟨start, rfl⟩, tail, rfl⟩
    refine ⟨start ++ c :: tail, ?_⟩
    have hone := encode_singleton hc
    rw [encode_cons, encode_nil, List.append_nil] at hone
    rw [encode_append, encode_cons, hone]
    rfl

/-- What ends with the bytes of characters that have one each is a text that ends with them. -/
theorem exists_of_encode_eq_append {text rest : List Char} {bytes : List UInt8}
    (hrest : ∀ c ∈ rest, c.toNat < 128) (h : encode text = bytes ++ encode rest) :
    ∃ front, text = front ++ rest ∧ encode front = bytes := by
  induction rest using List.reverseRecOn generalizing text with
  | nil => exact ⟨text, by simp, by simpa using h⟩
  | append_singleton rest c ih =>
    have hc : c.toNat < 128 := hrest c (by simp)
    rw [encode_append, encode_singleton hc, ← List.append_assoc] at h
    obtain ⟨front, rfl, hfront⟩ := exists_of_encode_eq_concat hc h
    obtain ⟨start, rfl, hstart⟩ := ih (fun d hd => hrest d (by simp [hd])) hfront
    exact ⟨start, List.append_assoc .., hstart⟩

end Utf8
