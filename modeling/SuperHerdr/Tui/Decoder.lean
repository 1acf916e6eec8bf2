import SuperHerdr.Files.Listing
import SuperHerdr.Library.Texts
import SuperHerdr.Library.Transducer
import SuperHerdr.Library.Utf8
import SuperHerdr.Tui.Input

/-!
# From bytes to events

The frontend reads its terminal one byte at a time. `InputDecoder` is what it keeps between two of
them: the start of an escape sequence, or a bracketed paste of which everything is kept, or, once
that is longer than a paste may be, only as much as shows where it ends.

A sequence is **unfinished** (`Unfinished`) while its next byte may decide what it is, and a step
outside a paste is said in these terms once (`push_waiting`); so is one within a paste
(`PasteBuffer.push_of_payload`). What every event stands for are bytes that came in
(`Stands`), and these with what is still held are all of them, in order (`decoding_is_lossless`).
-/

namespace SuperHerdr

namespace Tui

open Texts Transducer

/-- How long an unfinished sequence is waited for, in nanoseconds. -/
def INPUT_ESCAPE_TIMEOUT : ℕ := 30 * 1000 * 1000

/-! ### The decoder -/

structure PasteBuffer where
  bytes : List UInt8 := []
  overflowTail : List UInt8 := []
  overflowed : Bool := false
deriving DecidableEq

/-- The instants are those of one clock. -/
structure InputDecoder where
  pending : List UInt8 := []
  pendingSince : Option ℕ := none
  paste : Option PasteBuffer := none
deriving DecidableEq

/-- `ESC [ <` -/
def SGR_START : List UInt8 := [0x1b, 0x5b, 0x3c]

def parseSgrMouse (bytes : List UInt8) : Option MouseInput :=
  if SGR_START <+: bytes then do
    let body := bytes.drop SGR_START.length
    let terminator ← body.getLast?
    if terminator ≠ 0x4d ∧ terminator ≠ 0x6d then none
    else
      let text ← fromUtf8 body.dropLast
      match text.toList.splitOn ';' with
      | [code, column, row] => do
          let code ← parseU16 code
          let column ← parseU16 column
          let row ← parseU16 row
          if column = 0 ∨ row = 0 then none
          else some ⟨code, column, row, terminator = 0x6d⟩
      | _ => none
  else none

namespace PasteBuffer

/-- One byte of a paste. The buffer is given up with the last of them. -/
def push (self : PasteBuffer) (byte : UInt8) : Option PasteBuffer × Option DecodedInput :=
  if self.overflowed then
    let tail := self.overflowTail ++ [byte]
    let tail := if BRACKETED_PASTE_END.length < tail.length then tail.tail else tail
    if tail = BRACKETED_PASTE_END then (none, some .pasteTooLarge)
    else (some { self with overflowTail := tail }, none)
  else
    let bytes := self.bytes ++ [byte]
    if BRACKETED_PASTE_END <:+ bytes then
      let bytes := bytes.take (bytes.length - BRACKETED_PASTE_END.length)
      (none, some (if bytes.length ≤ MAX_CLIPBOARD_BYTES then .paste bytes else .pasteTooLarge))
    else if MAX_CLIPBOARD_BYTES + BRACKETED_PASTE_END.length < bytes.length then
      (some ⟨[], bytes.drop (bytes.length - BRACKETED_PASTE_END.length), true⟩, none)
    else (some { self with bytes := bytes }, none)

end PasteBuffer

/-- Whether a pending sequence may become a mouse report. -/
def isMousePrefix (pending : List UInt8) : Bool :=
  pending = [0x1b] || pending = [0x1b, 0x5b] || SGR_START.isPrefixOf pending

/-- The bytes a mouse report is waited through. -/
def isAccepted (byte : UInt8) : Bool :=
  (0x30 ≤ byte && byte ≤ 0x39) || byte = 0x3b || byte = 0x3c || byte = 0x5b || byte = 0x1b

namespace InputDecoder

def flushBytes (self : InputDecoder) : InputDecoder × DecodedInput :=
  ({ self with pending := [], pendingSince := none }, .bytes self.pending)

/-- One byte, at an instant. -/
def push (now : ℕ) (self : InputDecoder) (byte : UInt8) : InputDecoder × Option DecodedInput :=
  match self.paste with
  | some paste => ({ self with paste := (paste.push byte).1 }, (paste.push byte).2)
  | none =>
      if self.pending = [] then
        if byte = 0x1b then ({ self with pending := [byte], pendingSince := some now }, none)
        else (self, some (.bytes [byte]))
      else
        let self := { self with pending := self.pending ++ [byte] }
        let flushed := (self.flushBytes.1, some self.flushBytes.2)
        if self.pending <+: BRACKETED_PASTE_START then
          if self.pending = BRACKETED_PASTE_START then
            ({ self with pending := [], pendingSince := none, paste := some {} }, none)
          else (self, none)
        else if !isMousePrefix self.pending || 64 < self.pending.length then flushed
        else if byte = 0x4d ∨ byte = 0x6d then
          ({ self with pending := [], pendingSince := none },
            some ((parseSgrMouse self.pending).elim (.bytes self.pending) .mouse))
        else if !isAccepted byte then flushed
        else (self, none)

/-- A look at the clock. -/
def flushExpired (now : ℕ) (self : InputDecoder) : InputDecoder × Option DecodedInput :=
  if self.pendingSince.any fun started => INPUT_ESCAPE_TIMEOUT ≤ now - started then
    (self.flushBytes.1, some self.flushBytes.2)
  else (self, none)

/-- What a decoder is given: a byte, or a look at the clock. -/
inductive Stimulus
  | byte (byte : UInt8) (now : ℕ)
  | tick (now : ℕ)

def step (self : InputDecoder) : Stimulus → InputDecoder × List DecodedInput
  | .byte b now => ((self.push now b).1, (self.push now b).2.toList)
  | .tick now => ((self.flushExpired now).1, (self.flushExpired now).2.toList)

def Stimulus.bytes : Stimulus → List UInt8
  | .byte b _ => [b]
  | .tick _ => []

/-- The bytes that came in. -/
def consumed (stimuli : List Stimulus) : List UInt8 := stimuli.flatMap Stimulus.bytes

/-- Bytes pushed one after the other, each at its instant. -/
def typed (keys : List (UInt8 × ℕ)) : List Stimulus := keys.map fun key => .byte key.1 key.2

@[simp] theorem consumed_nil : consumed [] = [] := rfl

@[simp] theorem consumed_cons (stimulus : Stimulus) (stimuli : List Stimulus) :
    consumed (stimulus :: stimuli) = stimulus.bytes ++ consumed stimuli := rfl

end InputDecoder

/-! ### Mouse reports -/

theorem isDigit_of_parseU16 {text : List Char} {value : UInt16} (h : parseU16 text = some value) :
    ∀ c ∈ text, c.isDigit ∨ c = '+' := by
  intro c hc
  simp only [parseU16, parseUsize, Option.bind_eq_some_iff, Option.ite_none_right_eq_some] at h
  obtain ⟨_, ⟨⟨-, hdigits⟩, -⟩, -⟩ := h
  have hall := List.all_eq_true.mp hdigits
  by_cases hsign : text.head? = some '+'
  · rw [if_pos hsign] at hall
    obtain ⟨rest, rfl⟩ := List.head?_eq_some_iff.mp hsign
    rcases List.mem_cons.mp hc with rfl | hc
    · exact .inr rfl
    · exact .inl (hall c hc)
  · rw [if_neg hsign] at hall
    exact .inl (hall c hc)

/-- The bytes between the start of a mouse report and its last. -/
def isReportByte (byte : UInt8) : Bool :=
  (0x30 ≤ byte && byte ≤ 0x39) || byte = 0x3b || byte = 0x2b

theorem toNat_of_report {c : Char} (h : c.isDigit ∨ c = '+' ∨ c = ';') :
    48 ≤ c.toNat ∧ c.toNat ≤ 57 ∨ c.toNat = 43 ∨ c.toNat = 59 := by
  rcases h with hdigit | rfl | rfl
  · simp only [Char.isDigit, Bool.and_eq_true, decide_eq_true_eq, UInt32.le_iff_toNat_le] at hdigit
    exact .inl hdigit
  · exact .inr (.inl rfl)
  · exact .inr (.inr rfl)

theorem isReportByte_encode {text : List Char}
    (h : ∀ c ∈ text, c.isDigit ∨ c = '+' ∨ c = ';') :
    ∀ byte ∈ Utf8.encode text, isReportByte byte := by
  intro byte hbyte
  obtain ⟨c, hc, hmem⟩ := List.mem_flatMap.mp hbyte
  have hcode := toNat_of_report (h c hc)
  rcases Utf8.utf8EncodeChar_cases c with ⟨hascii, hone⟩ | ⟨hmore, -⟩
  · rw [hone, List.mem_singleton] at hmem
    have hbyte : byte.toNat = c.toNat := by
      rw [hmem, UInt8.toNat_ofNat']
      omega
    simp only [isReportByte, Bool.or_eq_true, Bool.and_eq_true, decide_eq_true_eq,
      UInt8.le_iff_toNat_le, ← UInt8.toNat_inj, hbyte]
    change (48 ≤ c.toNat ∧ c.toNat ≤ 57 ∨ c.toNat = 59) ∨ c.toNat = 43
    omega
  · omega

variable {mouse : MouseInput}

theorem shape_of_parseSgrMouse {bytes : List UInt8} (h : parseSgrMouse bytes = some mouse) :
    ∃ body terminator, bytes = SGR_START ++ body ++ [terminator] ∧
      (terminator = 0x4d ∨ terminator = 0x6d) ∧ ∀ byte ∈ body, isReportByte byte := by
  unfold parseSgrMouse at h
  split at h
  · next hstart =>
    obtain ⟨rest, rfl⟩ := hstart
    rw [List.drop_left] at h
    simp only [Option.bind_eq_bind, Option.bind_eq_some_iff] at h
    obtain ⟨terminator, hlast, h⟩ := h
    obtain ⟨body, rfl⟩ := List.getLast?_eq_some_iff.mp hlast
    rw [List.dropLast_concat] at h
    split at h
    · cases h
    · next hterminator =>
      obtain ⟨text, htext, h⟩ := Option.bind_eq_some_iff.mp h
      refine ⟨body, terminator, (List.append_assoc ..).symm, by tauto, ?_⟩
      rw [← fromUtf8_eq_some_iff.mp htext, utf8, ← Utf8.encode_toList]
      refine isReportByte_encode fun c hc => ?_
      split at h
      · next fields code column row hfields =>
        simp only [Option.bind_eq_some_iff] at h
        obtain ⟨_, hcode, _, hcolumn, _, hrow, -⟩ := h
        have hof : ∀ {field : List Char} {value : UInt16}, parseU16 field = some value →
            c ∈ field → c.isDigit ∨ c = '+' ∨ c = ';' := fun hfield hc =>
          (isDigit_of_parseU16 hfield c hc).imp_right .inl
        have hjoined : [';'].intercalate (text.toList.splitOn ';') = text.toList :=
          List.intercalate_splitOn ';'
        rw [← hjoined, hfields] at hc
        simp only [List.intercalate, List.intersperse, List.flatten_cons, List.flatten_nil,
          List.mem_append, List.mem_singleton, List.not_mem_nil, or_false] at hc
        rcases hc with hc | rfl | hc | rfl | hc
        · exact hof hcode hc
        · exact .inr (.inr rfl)
        · exact hof hcolumn hc
        · exact .inr (.inr rfl)
        · exact hof hrow hc
      · cases h
  · cases h

/-! A report of a mouse event, as a pane's program is sent it, reads back. -/

theorem toList_loop (bytes : ByteArray) (i : ℕ) (rest : List UInt8) :
    ByteArray.toList.loop bytes i rest = rest.reverse ++ bytes.data.toList.drop i := by
  fun_induction ByteArray.toList.loop bytes i rest with
  | case1 i rest h ih =>
    have hi : i < bytes.data.toList.length := by simpa using h
    have hbyte : bytes.get! i = bytes.data.toList[i] := by
      rw [ByteArray.get!]
      simp only [Array.getElem_toList]
      exact getElem!_pos _ _ _
    rw [ih, List.drop_eq_getElem_cons hi, hbyte, List.reverse_cons, List.append_assoc,
      List.singleton_append]
  | case2 i rest h =>
    have hi : bytes.data.toList.length ≤ i := by simpa using h
    rw [List.drop_of_length_le hi, List.append_nil]

theorem toUTF8_toList (text : String) : text.toUTF8.toList = Utf8.encode text.toList := by
  rw [ByteArray.toList, toList_loop, List.reverse_nil, List.nil_append, List.drop_zero,
    Utf8.encode_toList]

/-- The numbers of a mouse report. -/
def reportFields (mouse : MouseInput) : List (List Char) :=
  [mouse.code, mouse.column, mouse.row].map fun value => Nat.toDigits 10 value.toNat

/-- What stands between the start of a mouse report and its last byte. -/
def reportBody (mouse : MouseInput) : List Char := [';'].intercalate (reportFields mouse)

theorem encodeMouseEvent_sgr (mouse : MouseInput) :
    encodeMouseEvent mouse .sgr = some (SGR_START ++ Utf8.encode (reportBody mouse) ++
      [if mouse.release then 0x6d else 0x4d]) := by
  have hnumber : ∀ value : UInt16, (toString value).toList = Nat.toDigits 10 value.toNat := by
    intro value
    change (toString value.toNat).toList = _
    simp
  have htext : ∀ text : String, toString text = text := fun _ => rfl
  have hwhole : ∀ final : String,
      s!"\x1b[<{mouse.code};{mouse.column};{mouse.row}{final}".toUTF8.toList =
        SGR_START ++ Utf8.encode (reportBody mouse) ++ Utf8.encode final.toList := by
    intro final
    have hstart : SGR_START = Utf8.encode ['\x1b', '[', '<'] := by decide
    rw [toUTF8_toList, hstart, ← Utf8.encode_append, ← Utf8.encode_append]
    simp [hnumber, htext, reportBody, reportFields, List.intercalate]
  rw [encodeMouseEvent, hwhole]
  cases mouse.release <;> rfl

theorem parseU16_toDigits (value : UInt16) :
    parseU16 (Nat.toDigits 10 value.toNat) = some value := by
  have hdigits : ∀ c ∈ Nat.toDigits 10 value.toNat, c.isDigit = true := fun c hc =>
    Nat.isDigit_of_mem_toDigits (by decide) (by decide) hc
  have hsign : (Nat.toDigits 10 value.toNat).head? ≠ some '+' := fun hplus =>
    absurd (hdigits '+' (List.mem_of_mem_head? hplus)) (by decide)
  have hvalue : (Nat.toDigits 10 value.toNat).foldl
      (fun value digit => value * 10 + (digit.toNat - '0'.toNat)) 0 = value.toNat := by
    simpa only [Nat.ofDigitChars_eq_foldl, Nat.mul_comm 10] using
      Nat.ofDigitChars_ten_toDigits (n := value.toNat)
  have hlt : value.toNat < 2 ^ 16 := value.toNat_lt
  rw [parseU16, parseUsize, if_neg hsign]
  simp only [ne_eq, Nat.toDigits_ne_nil, not_false_eq_true, List.all_eq_true.mpr hdigits, and_self,
    if_true, hvalue]
  rw [if_pos (by omega), Option.bind_some, if_pos hlt, UInt16.ofNat_toNat]

theorem isDigit_of_mem_reportFields {field : List Char}
    (hfield : field ∈ reportFields mouse) : ∀ c ∈ field, c.isDigit = true := by
  obtain ⟨value, -, rfl⟩ := List.mem_map.mp hfield
  exact fun c hc => Nat.isDigit_of_mem_toDigits (by decide) (by decide) hc

theorem isReport_of_mem_reportBody {c : Char} (hc : c ∈ reportBody mouse) :
    c.isDigit = true ∨ c = ';' := by
  simp only [reportBody, reportFields, List.map_cons, List.map_nil, List.intercalate,
    List.intersperse, List.flatten_cons, List.flatten_nil, List.mem_append, List.mem_singleton,
    List.not_mem_nil, or_false] at hc
  have hdigits : ∀ {value : UInt16}, c ∈ Nat.toDigits 10 value.toNat → c.isDigit = true :=
    fun hc => Nat.isDigit_of_mem_toDigits (by decide) (by decide) hc
  rcases hc with hc | rfl | hc | rfl | hc
  · exact .inl (hdigits hc)
  · exact .inr rfl
  · exact .inl (hdigits hc)
  · exact .inr rfl
  · exact .inl (hdigits hc)

theorem length_reportBody_le (mouse : MouseInput) : (reportBody mouse).length ≤ 17 := by
  have hfield : ∀ value : UInt16, (Nat.toDigits 10 value.toNat).length ≤ 5 := by
    intro value
    have hlt : value.toNat < 2 ^ 16 := value.toNat_lt
    exact (Nat.length_toDigits_le_iff (by decide) (by decide)).mpr (by omega)
  have hcode := hfield mouse.code
  have hcolumn := hfield mouse.column
  have hrow := hfield mouse.row
  simp only [reportBody, reportFields, List.map_cons, List.map_nil, List.intercalate,
    List.intersperse, List.flatten_cons, List.flatten_nil, List.length_append,
    List.length_singleton, List.length_nil]
  omega

theorem length_encode_of_report {text : List Char} (h : ∀ c ∈ text, c.isDigit = true ∨ c = ';') :
    (Utf8.encode text).length = text.length := by
  induction text with
  | nil => rfl
  | cons c text ih =>
    obtain ⟨hc, htext⟩ := List.forall_mem_cons.mp h
    have hone : String.utf8EncodeChar c = [UInt8.ofNat c.toNat] := by
      have hcode := toNat_of_report (hc.imp_right .inr)
      rcases Utf8.utf8EncodeChar_cases c with ⟨-, hone⟩ | ⟨hmore, -⟩
      · exact hone
      · omega
    rw [Utf8.encode_cons, hone, List.length_append, ih htext, List.length_singleton,
      List.length_cons, Nat.add_comm]

theorem parseSgrMouse_sgr (hcolumn : mouse.column ≠ 0) (hrow : mouse.row ≠ 0) :
    parseSgrMouse (SGR_START ++ Utf8.encode (reportBody mouse) ++
      [if mouse.release then 0x6d else 0x4d]) = some mouse := by
  have htext : fromUtf8 (Utf8.encode (reportBody mouse)) = some (String.ofList (reportBody mouse)) := by
    rw [fromUtf8_eq_some_iff, utf8, ← Utf8.encode_toList, String.toList_ofList]
  have hfields : (reportBody mouse).splitOn ';' = reportFields mouse := by
    refine List.splitOn_intercalate _ (fun field hfield hc => ?_) (List.cons_ne_nil _ _)
    exact absurd (isDigit_of_mem_reportFields hfield _ hc) (by decide)
  have hfinal : (if mouse.release then (0x6d : UInt8) else 0x4d) = 0x4d ∨
      (if mouse.release then (0x6d : UInt8) else 0x4d) = 0x6d := by
    cases mouse.release
    · exact .inl rfl
    · exact .inr rfl
  have hrelease : decide ((if mouse.release then (0x6d : UInt8) else 0x4d) = 0x6d) =
      mouse.release := by
    cases mouse.release <;> rfl
  rw [parseSgrMouse, if_pos (by simp), List.append_assoc, List.drop_left]
  simp only [List.getLast?_concat, Option.bind_eq_bind, Option.bind_some, List.dropLast_concat,
    htext, String.toList_ofList, hfields, reportFields, List.map_cons, List.map_nil,
    parseU16_toDigits, hrelease]
  rw [if_neg (by tauto), if_neg (by tauto)]

/-! ### Outside a paste -/

/-- The next byte may decide what this is. -/
def Unfinished (sequence : List UInt8) : Prop :=
  sequence ≠ [] ∧ ((sequence <+: BRACKETED_PASTE_START ∧ sequence ≠ BRACKETED_PASTE_START) ∨
    (SGR_START <+: sequence ∧ (∀ byte ∈ sequence.drop SGR_START.length, isAccepted byte) ∧
      sequence.length ≤ 64))

instance : DecidablePred Unfinished := fun _ => inferInstanceAs (Decidable (_ ∧ _))

/-- What a sequence that is no longer unfinished turns out to be. -/
def emitted (sequence : List UInt8) : DecodedInput :=
  if sequence.length ≤ 64 then (parseSgrMouse sequence).elim (.bytes sequence) .mouse
  else .bytes sequence

/-- What is held of a sequence, and since when. -/
def Waiting (pending : List UInt8) (since : Option ℕ) : Prop :=
  (pending = [] ∧ since = none) ∨ (Unfinished pending ∧ since.isSome)

theorem waiting_nil : Waiting [] none := .inl ⟨rfl, rfl⟩

variable {pending : List UInt8}

theorem Unfinished.waiting (h : Unfinished pending) (since : ℕ) :
    Waiting pending (some since) := .inr ⟨h, rfl⟩

variable {sequence : List UInt8}

theorem Unfinished.length_le (h : Unfinished sequence) : sequence.length ≤ 64 := by
  rcases h.2 with ⟨hlead, -⟩ | ⟨-, -, hlength⟩
  · exact hlead.length_le.trans (by decide)
  · exact hlength

theorem Waiting.length_le {since : Option ℕ} (h : Waiting pending since) : pending.length ≤ 64 := by
  rcases h with ⟨rfl, -⟩ | ⟨h, -⟩
  · exact Nat.zero_le _
  · exact h.length_le

theorem not_prefix_of_sgr (h : SGR_START <+: sequence) :
    ¬sequence <+: BRACKETED_PASTE_START := fun hlead =>
  absurd (h.trans hlead) (by decide)

theorem emitted_of_not_sgr (h : ¬SGR_START <+: sequence) : emitted sequence = .bytes sequence := by
  rw [emitted, parseSgrMouse, if_neg h, Option.elim_none, ite_self]

variable {byte : UInt8}

theorem parseSgrMouse_concat
    (h : ¬(byte = 0x4d ∨ byte = 0x6d)) : parseSgrMouse (sequence ++ [byte]) = none := by
  refine Option.eq_none_iff_forall_ne_some.mpr fun mouse hmouse => h ?_
  obtain ⟨body, terminator, heq, hterminator, -⟩ := shape_of_parseSgrMouse hmouse
  obtain rfl := List.singleton_inj.mp (List.append_inj' heq rfl).2
  exact hterminator

theorem Unfinished.start (h : Unfinished sequence) :
    sequence = [0x1b] ∨ [0x1b, 0x5b] <+: sequence := by
  rcases h.2 with ⟨hlead, -⟩ | ⟨hsgr, -⟩
  · obtain ⟨rest, hrest⟩ := hlead
    match sequence, h.1 with
    | [b], _ =>
      simp only [BRACKETED_PASTE_START, List.cons_append, List.cons.injEq] at hrest
      exact .inl (by rw [hrest.1])
    | b :: c :: tail, _ =>
      simp only [BRACKETED_PASTE_START, List.cons_append, List.cons.injEq] at hrest
      exact .inr ⟨tail, by rw [hrest.1, hrest.2.1]; rfl⟩
  · exact .inr (List.IsPrefix.trans (by decide) hsgr)

/-- A report is waited for as long as its bytes are accepted. -/
theorem Unfinished.accepted_iff (h : Unfinished sequence)
    (hsgr : SGR_START <+: sequence ++ [byte]) :
    (∀ b ∈ (sequence ++ [byte]).drop SGR_START.length, isAccepted b) ↔ isAccepted byte := by
  rcases List.prefix_concat_iff.mp hsgr with heq | hstarted
  · have hsplit : [0x1b, 0x5b] ++ [0x3c] = sequence ++ [byte] := heq
    have hbyte : byte = 0x3c := (List.singleton_inj.mp (List.append_inj' hsplit rfl).2).symm
    rw [← heq, hbyte]
    exact iff_of_true (by simp [SGR_START]) (by decide)
  · have hbefore : ∀ b ∈ sequence.drop SGR_START.length, isAccepted b := by
      rcases h.2 with ⟨hlead, -⟩ | ⟨-, haccepted, -⟩
      · exact absurd hlead (not_prefix_of_sgr hstarted)
      · exact haccepted
    rw [List.drop_append_of_le_length hstarted.length_le]
    simp only [List.mem_append, List.mem_singleton]
    constructor
    · exact fun hall => hall byte (.inr rfl)
    · rintro hbyte b (hb | rfl)
      · exact hbefore b hb
      · exact hbyte

theorem unfinished_singleton_iff : Unfinished [byte] ↔ byte = 0x1b := by
  constructor
  · intro h
    rcases h.start with heq | hlead
    · exact List.singleton_inj.mp heq
    · exact absurd hlead.length_le (by simp)
  · rintro rfl
    decide

/-- A step within a report: its bytes are held while they are accepted and few. -/
theorem push_report (h : Unfinished pending) (started now : ℕ)
    (hsgr : SGR_START <+: pending ++ [byte]) :
    InputDecoder.push now ⟨pending, some started, none⟩ byte =
      if Unfinished (pending ++ [byte]) then (⟨pending ++ [byte], some started, none⟩, none)
      else ({}, some (emitted (pending ++ [byte]))) := by
  have hlead : ¬pending ++ [byte] <+: BRACKETED_PASTE_START := not_prefix_of_sgr hsgr
  have hstart : pending ++ [byte] ≠ BRACKETED_PASTE_START := fun heq =>
    hlead (heq ▸ List.prefix_rfl)
  have hmouse : isMousePrefix (pending ++ [byte]) = true := by
    simp [isMousePrefix, List.isPrefixOf_iff_prefix.mpr hsgr]
  have hiff : Unfinished (pending ++ [byte]) ↔
      isAccepted byte = true ∧ (pending ++ [byte]).length ≤ 64 := by
    have hne : pending ++ [byte] ≠ [] := by simp
    simp only [Unfinished, h.accepted_iff hsgr]
    tauto
  simp only [InputDecoder.push, if_neg h.1, InputDecoder.flushBytes, if_neg hlead, if_neg hstart]
  by_cases hlength : (pending ++ [byte]).length ≤ 64
  · simp only [hmouse, hiff, hlength, Bool.not_true, Bool.false_or, decide_eq_true_eq,
      Nat.not_lt.mpr hlength, if_false, and_true, emitted, if_true]
    by_cases hfinal : byte = 0x4d ∨ byte = 0x6d
    · have hreject : isAccepted byte = false := by
        rcases hfinal with rfl | rfl <;> rfl
      simp [hfinal, hreject]
    · cases haccepted : isAccepted byte <;> simp [hfinal, parseSgrMouse_concat hfinal]
  · have hmore : ¬Unfinished (pending ++ [byte]) := fun h => hlength h.length_le
    have hlong : (!isMousePrefix (pending ++ [byte]) ||
        decide (64 < (pending ++ [byte]).length)) = true := by
      rw [decide_eq_true (Nat.not_le.mp hlength), Bool.or_true]
    rw [if_neg hmore, emitted, if_neg hlength, if_pos hlong]

/-- **A step outside a paste**: a sequence is held while it is unfinished, and is otherwise the
start of a paste or an event. -/
theorem push_waiting {since : Option ℕ} (h : Waiting pending since) (now : ℕ) (byte : UInt8) :
    InputDecoder.push now ⟨pending, since, none⟩ byte =
      if Unfinished (pending ++ [byte]) then
        (⟨pending ++ [byte], some (since.getD now), none⟩, none)
      else if pending ++ [byte] = BRACKETED_PASTE_START then (⟨[], none, some {}⟩, none)
      else ({}, some (emitted (pending ++ [byte]))) := by
  rcases h with ⟨rfl, rfl⟩ | ⟨hpending, hsince⟩
  · simp only [List.nil_append, unfinished_singleton_iff]
    by_cases hbyte : byte = 0x1b
    · simp [InputDecoder.push, hbyte]
    · have hsgr : ¬SGR_START <+: [byte] := fun hsgr =>
        absurd hsgr.length_le (by simp [SGR_START])
      have hstart : [byte] ≠ BRACKETED_PASTE_START := by simp [BRACKETED_PASTE_START]
      simp [InputDecoder.push, hbyte, hstart, emitted_of_not_sgr hsgr]
  · obtain ⟨started, rfl⟩ := Option.isSome_iff_exists.mp hsince
    by_cases hsgr : SGR_START <+: pending ++ [byte]
    · have hstart : pending ++ [byte] ≠ BRACKETED_PASTE_START := fun heq =>
        not_prefix_of_sgr hsgr (heq ▸ List.prefix_rfl)
      rw [push_report hpending started now hsgr, if_neg hstart, Option.getD_some]
    simp only [InputDecoder.push, if_neg hpending.1, InputDecoder.flushBytes, Option.getD_some]
    by_cases hlead : pending ++ [byte] <+: BRACKETED_PASTE_START
    · by_cases hstart : pending ++ [byte] = BRACKETED_PASTE_START
      · have hover : ¬Unfinished (pending ++ [byte]) := by
          rw [hstart]
          decide
        rw [if_pos hlead, if_pos hstart, if_neg hover, if_pos hstart]
      · have hmore : Unfinished (pending ++ [byte]) := ⟨by simp, .inl ⟨hlead, hstart⟩⟩
        rw [if_pos hlead, if_neg hstart, if_pos hmore]
    have hstart : pending ++ [byte] ≠ BRACKETED_PASTE_START := fun heq =>
      hlead (heq ▸ List.prefix_rfl)
    have hmouse : isMousePrefix (pending ++ [byte]) = false := by
      refine Bool.eq_false_iff.mpr fun hmouse => ?_
      simp only [isMousePrefix, Bool.or_eq_true, decide_eq_true_eq,
        List.isPrefixOf_iff_prefix] at hmouse
      rcases hmouse with (heq | heq) | h
      · exact hlead (heq ▸ by decide)
      · exact hlead (heq ▸ by decide)
      · exact hsgr h
    have hmore : ¬Unfinished (pending ++ [byte]) := by
      rintro ⟨-, ⟨h, -⟩ | ⟨h, -⟩⟩
      · exact hlead h
      · exact hsgr h
    rw [if_neg hlead, if_neg hstart, if_neg hmore]
    simp [hmouse, emitted_of_not_sgr hsgr]

/-! ### Within a paste -/

/-- What a whole paste is. -/
def pasted (payload : List UInt8) : DecodedInput :=
  if payload.length ≤ MAX_CLIPBOARD_BYTES then .paste payload else .pasteTooLarge

/-- A buffer that was given these bytes: all of them, or so many that the last are enough. -/
structure PasteBuffer.Holds (state : PasteBuffer) (payload : List UInt8) : Prop where
  free : ¬BRACKETED_PASTE_END <:+: payload
  kept : state.overflowed = false → state.bytes = payload ∧
    payload.length ≤ MAX_CLIPBOARD_BYTES + BRACKETED_PASTE_END.length
  dropped : state.overflowed = true →
    MAX_CLIPBOARD_BYTES + BRACKETED_PASTE_END.length < payload.length ∧
      state.overflowTail = payload.drop (payload.length - BRACKETED_PASTE_END.length)

theorem holds_nil : PasteBuffer.Holds {} [] where
  free := by decide
  kept _ := ⟨rfl, Nat.zero_le _⟩
  dropped h := by cases h

theorem free_of_concat_eq {payload whole : List UInt8} (hfree : ¬BRACKETED_PASTE_END <:+: payload)
    (h : payload ++ [byte] = whole ++ BRACKETED_PASTE_END) : ¬BRACKETED_PASTE_END <:+: whole := by
  refine fun hwhole => hfree (hwhole.trans ?_)
  have hend : BRACKETED_PASTE_END = BRACKETED_PASTE_END.dropLast ++ [0x7e] := rfl
  rw [hend, ← List.append_assoc] at h
  rw [(List.append_inj' h rfl).1]
  exact (List.prefix_append _ _).isInfix

theorem push_pasting (now : ℕ) (paste : PasteBuffer) (byte : UInt8) :
    InputDecoder.push now ⟨[], none, some paste⟩ byte =
      (⟨[], none, (paste.push byte).1⟩, (paste.push byte).2) := rfl

/-- **A step within a paste**: it ends with the first terminator. -/
theorem PasteBuffer.Holds.push_cases {paste : PasteBuffer} {payload : List UInt8}
    (h : paste.Holds payload) (byte : UInt8) :
    (∃ whole, payload ++ [byte] = whole ++ BRACKETED_PASTE_END ∧
      ¬BRACKETED_PASTE_END <:+: whole ∧ paste.push byte = (none, some (pasted whole))) ∨
    ∃ next : PasteBuffer, paste.push byte = (some next, none) ∧
      next.Holds (payload ++ [byte]) := by
  have hsix : BRACKETED_PASTE_END.length = 6 := rfl
  have hlength : (payload ++ [byte]).length = payload.length + 1 := List.length_append
  have hfree : ¬BRACKETED_PASTE_END <:+ payload ++ [byte] →
      ¬BRACKETED_PASTE_END <:+: payload ++ [byte] := fun hsuffix =>
    List.infix_concat_iff.not.mpr (not_or.mpr ⟨hsuffix, h.free⟩)
  cases hover : paste.overflowed with
  | true =>
    obtain ⟨hlong, htail⟩ := h.dropped hover
    -- the oldest of seven bytes is given up
    have hnext : (paste.overflowTail ++ [byte]).tail =
        (payload ++ [byte]).drop ((payload ++ [byte]).length - BRACKETED_PASTE_END.length) := by
      rw [htail, ← List.drop_append_of_le_length (by omega), List.tail_drop]
      congr 1
      omega
    have hseven : BRACKETED_PASTE_END.length < (paste.overflowTail ++ [byte]).length := by
      rw [htail, List.length_append, List.length_drop, List.length_singleton]
      omega
    simp only [PasteBuffer.push, hover, if_true, if_pos hseven, hnext]
    by_cases hend : BRACKETED_PASTE_END <:+ payload ++ [byte]
    · obtain ⟨whole, hwhole⟩ := hend
      have hlarge : ¬whole.length ≤ MAX_CLIPBOARD_BYTES := by
        have := congrArg List.length hwhole
        rw [List.length_append] at this
        omega
      refine .inl ⟨whole, hwhole.symm, free_of_concat_eq h.free hwhole.symm, ?_⟩
      rw [if_pos (List.suffix_iff_eq_drop.mp ⟨whole, hwhole⟩).symm, pasted, if_neg hlarge]
    · rw [if_neg fun heq => hend (List.suffix_iff_eq_drop.mpr heq.symm)]
      exact .inr ⟨_, rfl, hfree hend, fun hkept => (Bool.noConfusion hkept),
        fun _ => ⟨by omega, rfl⟩⟩
  | false =>
    obtain ⟨hbytes, hshort⟩ := h.kept hover
    simp only [PasteBuffer.push, hover, Bool.false_eq_true, if_false, hbytes]
    by_cases hend : BRACKETED_PASTE_END <:+ payload ++ [byte]
    · obtain ⟨whole, hwhole⟩ := hend
      refine .inl ⟨whole, hwhole.symm, free_of_concat_eq h.free hwhole.symm, ?_⟩
      rw [if_pos ⟨whole, hwhole⟩, ← hwhole, List.length_append, Nat.add_sub_cancel,
        List.take_left, pasted]
    · rw [if_neg hend]
      by_cases hlong :
          MAX_CLIPBOARD_BYTES + BRACKETED_PASTE_END.length < (payload ++ [byte]).length
      · -- too long even if the terminator ended it: from here on only its last bytes are kept
        rw [if_pos hlong]
        exact .inr ⟨_, rfl, hfree hend, fun hkept => (Bool.noConfusion hkept),
          fun _ => ⟨hlong, rfl⟩⟩
      · rw [if_neg hlong]
        exact .inr ⟨_, rfl, hfree hend, fun _ => ⟨rfl, Nat.not_lt.mp hlong⟩,
          fun hdropped => (Bool.noConfusion hdropped)⟩

/-! ### Nothing is lost -/

/-- The bytes an event stands for. -/
def Stands : DecodedInput → List UInt8 → Prop
  | .bytes bytes, segment => segment = bytes
  | .mouse mouse, segment => parseSgrMouse segment = some mouse
  | .paste bytes, segment =>
      segment = BRACKETED_PASTE_START ++ bytes ++ BRACKETED_PASTE_END ∧
        ¬BRACKETED_PASTE_END <:+: bytes ∧ bytes.length ≤ MAX_CLIPBOARD_BYTES
  | .pasteTooLarge, segment =>
      ∃ bytes, segment = BRACKETED_PASTE_START ++ bytes ++ BRACKETED_PASTE_END ∧
        ¬BRACKETED_PASTE_END <:+: bytes ∧ MAX_CLIPBOARD_BYTES < bytes.length

/-- The bytes a decoder has been given and has made no event of. -/
inductive Held : InputDecoder → List UInt8 → Prop
  | waiting {pending since} : Waiting pending since → Held ⟨pending, since, none⟩ pending
  | pasting {paste payload} : PasteBuffer.Holds paste payload →
      Held ⟨[], none, some paste⟩ (BRACKETED_PASTE_START ++ payload)

theorem Held.length_pending_le {self : InputDecoder} {held : List UInt8} (h : Held self held) :
    self.pending.length ≤ 64 := by
  cases h with
  | waiting hwaiting => exact hwaiting.length_le
  | pasting => exact Nat.zero_le _

theorem stands_emitted (sequence : List UInt8) : Stands (emitted sequence) sequence := by
  rw [emitted]
  split
  · cases hmouse : parseSgrMouse sequence with
    | none => exact rfl
    | some mouse => exact hmouse
  · exact rfl

theorem stands_pasted {payload : List UInt8} (hfree : ¬BRACKETED_PASTE_END <:+: payload) :
    Stands (pasted payload) (BRACKETED_PASTE_START ++ payload ++ BRACKETED_PASTE_END) := by
  rw [pasted]
  split
  · next hfits => exact ⟨rfl, hfree, hfits⟩
  · next hlarge => exact ⟨payload, rfl, hfree, Nat.not_le.mp hlarge⟩

/-- What one stimulus turns into events, and what it leaves. -/
theorem step_held {self : InputDecoder} {held : List UInt8} (h : Held self held)
    (stimulus : InputDecoder.Stimulus) :
    ∃ segments next, List.Forall₂ Stands (self.step stimulus).2 segments ∧
      held ++ stimulus.bytes = segments.flatten ++ next ∧ Held (self.step stimulus).1 next := by
  cases h with
  | @waiting _ since hwaiting =>
    cases stimulus with
    | byte byte now =>
      simp only [InputDecoder.step, push_waiting hwaiting, InputDecoder.Stimulus.bytes]
      by_cases hmore : Unfinished (held ++ [byte])
      · rw [if_pos hmore]
        exact ⟨[], _, .nil, rfl, .waiting (hmore.waiting _)⟩
      · rw [if_neg hmore]
        by_cases hstart : held ++ [byte] = BRACKETED_PASTE_START
        · rw [if_pos hstart]
          exact ⟨[], _, .nil, by simp [hstart], .pasting holds_nil⟩
        · rw [if_neg hstart]
          exact ⟨[held ++ [byte]], [], .cons (stands_emitted _) .nil, by simp,
            .waiting waiting_nil⟩
    -- what has waited for too long is an event by itself
    | tick now =>
      simp only [InputDecoder.step, InputDecoder.flushExpired, InputDecoder.Stimulus.bytes,
        List.append_nil]
      split
      · exact ⟨[held], [], .cons rfl .nil, by simp, .waiting waiting_nil⟩
      · exact ⟨[], held, .nil, rfl, .waiting hwaiting⟩
  | @pasting paste payload hholds =>
    cases stimulus with
    | byte byte now =>
      simp only [InputDecoder.step, push_pasting, InputDecoder.Stimulus.bytes]
      rcases hholds.push_cases byte with ⟨whole, hwhole, hfree, hpush⟩ | ⟨next, hpush, hnext⟩
      · rw [hpush, List.append_assoc, hwhole, ← List.append_assoc]
        exact ⟨[_], [], .cons (stands_pasted hfree) .nil, by simp, .waiting waiting_nil⟩
      · rw [hpush]
        exact ⟨[], _, .nil, by simp, .pasting hnext⟩
    | tick now => exact ⟨[], _, .nil, by simp [InputDecoder.Stimulus.bytes], .pasting hholds⟩

/-- What a whole run turns into events, and what it leaves. -/
theorem exec_held {self : InputDecoder} {held : List UInt8} (h : Held self held)
    (stimuli : List InputDecoder.Stimulus) :
    ∃ segments next, List.Forall₂ Stands (exec InputDecoder.step self stimuli).2 segments ∧
      held ++ InputDecoder.consumed stimuli = segments.flatten ++ next ∧
      Held (exec InputDecoder.step self stimuli).1 next := by
  induction stimuli generalizing self held with
  | nil => exact ⟨[], held, .nil, by simp, h⟩
  | cons stimulus stimuli ih =>
    obtain ⟨segments, middle, hstands, heq, hmiddle⟩ := step_held h stimulus
    obtain ⟨rest, next, hrest, hheq, hnext⟩ := ih hmiddle
    refine ⟨segments ++ rest, next, List.rel_append hstands hrest, ?_, hnext⟩
    rw [InputDecoder.consumed_cons, ← List.append_assoc, heq, List.append_assoc, hheq,
      List.flatten_append, List.append_assoc]

/-! ### What is typed without a pause -/

theorem exec_typed_cons (self : InputDecoder) (key : UInt8 × ℕ) (keys : List (UInt8 × ℕ)) :
    exec InputDecoder.step self (InputDecoder.typed (key :: keys)) =
      ((exec InputDecoder.step (self.push key.2 key.1).1 (InputDecoder.typed keys)).1,
        (self.push key.2 key.1).2.toList ++
          (exec InputDecoder.step (self.push key.2 key.1).1 (InputDecoder.typed keys)).2) := rfl

theorem exec_typed_append (self : InputDecoder) (keys rest : List (UInt8 × ℕ)) :
    exec InputDecoder.step self (InputDecoder.typed (keys ++ rest)) =
      ((exec InputDecoder.step (exec InputDecoder.step self (InputDecoder.typed keys)).1
          (InputDecoder.typed rest)).1,
        (exec InputDecoder.step self (InputDecoder.typed keys)).2 ++
          (exec InputDecoder.step (exec InputDecoder.step self (InputDecoder.typed keys)).1
            (InputDecoder.typed rest)).2) := by
  rw [InputDecoder.typed, List.map_append, exec_append]
  rfl

theorem exec_typed_singleton (self : InputDecoder) (key : UInt8 × ℕ) :
    exec InputDecoder.step self (InputDecoder.typed [key]) =
      ((self.push key.2 key.1).1, (self.push key.2 key.1).2.toList) :=
  exec_singleton ..

/-- A sequence is unfinished from its first byte on. -/
theorem Unfinished.of_prefix {start sequence : List UInt8} (h : Unfinished sequence)
    (hlead : start <+: sequence) (hne : start ≠ []) : Unfinished start := by
  refine ⟨hne, ?_⟩
  rcases h.2 with ⟨hpaste, hmore⟩ | ⟨hsgr, haccepted, hlength⟩
  · refine .inl ⟨hlead.trans hpaste, ?_⟩
    rintro rfl
    exact hmore (hpaste.eq_of_length_le hlead.length_le)
  · rcases List.prefix_or_prefix_of_prefix hlead hsgr with hearly | hlate
    · rcases List.prefix_concat_iff.mp (show start <+: [0x1b, 0x5b] ++ [0x3c] from hearly) with
        rfl | hshort
      · exact .inr ⟨List.prefix_rfl, by simp [SGR_START], by decide⟩
      · refine .inl ⟨hshort.trans (by decide), ?_⟩
        rintro rfl
        exact absurd hshort.length_le (by decide)
    · refine .inr ⟨hlate, fun byte hbyte => haccepted byte ?_, hlead.length_le.trans hlength⟩
      exact (hlead.drop _).subset hbyte

section Typing

variable {pending : List UInt8} {since : Option ℕ}

variable {keys : List (UInt8 × ℕ)}

theorem exec_typed_unfinished (h : Waiting pending since)
    (hmore : keys ≠ [] → Unfinished (pending ++ keys.map Prod.fst)) :
    ∃ later, exec InputDecoder.step ⟨pending, since, none⟩ (InputDecoder.typed keys) =
      (⟨pending ++ keys.map Prod.fst, later, none⟩, []) ∧
      Waiting (pending ++ keys.map Prod.fst) later := by
  induction keys generalizing pending since with
  | nil => exact ⟨since, by simp [InputDecoder.typed], by simpa using h⟩
  | cons key keys ih =>
    have hwhole := hmore (List.cons_ne_nil _ _)
    rw [List.map_cons, List.append_cons] at hwhole ⊢
    have hfirst : Unfinished (pending ++ [key.1]) :=
      hwhole.of_prefix (List.prefix_append _ _) (by simp)
    obtain ⟨later, hexec, hlater⟩ := ih (hfirst.waiting (since.getD key.2)) fun _ => hwhole
    refine ⟨later, ?_, hlater⟩
    rw [exec_typed_cons, push_waiting h, if_pos hfirst]
    exact hexec

/-- The byte with which a sequence is no longer unfinished. -/
theorem exec_typed_finished (h : Waiting pending since)
    (hne : keys ≠ []) (hmore : (keys.map Prod.fst).dropLast ≠ [] →
      Unfinished (pending ++ (keys.map Prod.fst).dropLast))
    (hlast : ¬Unfinished (pending ++ keys.map Prod.fst)) :
    exec InputDecoder.step ⟨pending, since, none⟩ (InputDecoder.typed keys) =
      if pending ++ keys.map Prod.fst = BRACKETED_PASTE_START then (⟨[], none, some {}⟩, [])
      else ({}, [emitted (pending ++ keys.map Prod.fst)]) := by
  obtain ⟨keys, key, rfl⟩ := (List.eq_nil_or_concat' keys).resolve_left hne
  rw [List.map_append, List.map_singleton, List.dropLast_concat] at hmore
  obtain ⟨later, hexec, hwaiting⟩ := exec_typed_unfinished h fun hkeys =>
    hmore (List.map_eq_nil_iff.not.mpr hkeys)
  rw [List.map_append, List.map_singleton, ← List.append_assoc] at hlast ⊢
  rw [exec_typed_append, hexec, exec_typed_singleton, push_waiting hwaiting, if_neg hlast]
  split <;> rfl

theorem exec_typed_start (hkeys : keys.map Prod.fst = BRACKETED_PASTE_START) :
    exec InputDecoder.step {} (InputDecoder.typed keys) = (⟨[], none, some {}⟩, []) := by
  have hne : keys ≠ [] := by
    rintro rfl
    cases hkeys
  rw [exec_typed_finished waiting_nil hne, List.nil_append, if_pos hkeys]
  · rw [List.nil_append, hkeys]
    decide
  · rw [List.nil_append, hkeys]
    decide

/-- A report of which all bytes are accepted is one event. -/
theorem exec_typed_report {mouse : MouseInput}
    (hmouse : parseSgrMouse (keys.map Prod.fst) = some mouse) (hlength : keys.length ≤ 64)
    (hplus : 0x2b ∉ keys.map Prod.fst) :
    exec InputDecoder.step {} (InputDecoder.typed keys) = ({}, [.mouse mouse]) := by
  obtain ⟨body, terminator, hkeys, hterminator, hbody⟩ := shape_of_parseSgrMouse hmouse
  have hne : keys ≠ [] := by
    rintro rfl
    exact absurd hkeys (by simp)
  have hsgr : SGR_START <+: keys.map Prod.fst := ⟨body ++ [terminator], by rw [hkeys, List.append_assoc]⟩
  have hsize : (keys.map Prod.fst).length ≤ 64 := by rwa [List.length_map]
  -- a plus sign is the one byte of a report that is not waited behind
  have hmore : Unfinished (keys.map Prod.fst).dropLast := by
    rw [hkeys] at hplus hsize ⊢
    rw [List.dropLast_concat]
    refine ⟨by simp [SGR_START], .inr ⟨List.prefix_append _ _, fun byte hbyte => ?_, ?_⟩⟩
    · rw [List.drop_left] at hbyte
      have hreport := hbody byte hbyte
      have hother : byte ≠ 0x2b := by
        rintro rfl
        exact hplus (by simp [hbyte])
      simp only [isReportByte, Bool.or_eq_true, decide_eq_true_eq, hother, or_false] at hreport
      simp only [isAccepted, Bool.or_eq_true, decide_eq_true_eq]
      tauto
    · rw [List.length_append] at hsize
      omega
  have hlast : ¬Unfinished (keys.map Prod.fst) := by
    rintro ⟨-, ⟨hpaste, -⟩ | ⟨-, haccepted, -⟩⟩
    · exact not_prefix_of_sgr hsgr hpaste
    · -- and the terminator is not accepted
      have hreject : isAccepted terminator = false := by
        rcases hterminator with rfl | rfl <;> rfl
      rw [hkeys, List.append_assoc, List.drop_left] at haccepted
      exact absurd (haccepted terminator (by simp)) (by rw [hreject]; decide)
  have hstart : keys.map Prod.fst ≠ BRACKETED_PASTE_START := fun heq =>
    not_prefix_of_sgr hsgr (heq ▸ List.prefix_rfl)
  rw [exec_typed_finished waiting_nil hne (fun _ => hmore) hlast, List.nil_append, if_neg hstart, emitted,
    if_pos hsize, hmouse, Option.elim_some]

/-! A paste ends where its terminator does, and nowhere before. -/

theorem free_append {payload rest : List UInt8} (h : ¬BRACKETED_PASTE_END <:+: payload)
    (hrest : 0x7e ∉ rest) : ¬BRACKETED_PASTE_END <:+: payload ++ rest := by
  induction rest using List.reverseRecOn with
  | nil => rwa [List.append_nil]
  | append_singleton rest byte ih =>
    have hparts := not_or.mp (List.mem_append.not.mp hrest)
    rw [← List.append_assoc, List.infix_concat_iff]
    rintro (⟨whole, hwhole⟩ | hbefore)
    · have hend : BRACKETED_PASTE_END = BRACKETED_PASTE_END.dropLast ++ [0x7e] := rfl
      rw [hend, ← List.append_assoc] at hwhole
      exact hparts.2 (by rw [← (List.append_inj' hwhole rfl).2]; exact List.mem_singleton_self _)
    · exact ih hparts.1 hbefore

theorem exec_typed_within {paste : PasteBuffer} {payload : List UInt8} (h : paste.Holds payload)
    (hfree : ¬BRACKETED_PASTE_END <:+: payload ++ keys.map Prod.fst) :
    ∃ next, exec InputDecoder.step ⟨[], none, some paste⟩ (InputDecoder.typed keys) =
      (⟨[], none, some next⟩, []) ∧ next.Holds (payload ++ keys.map Prod.fst) := by
  induction keys generalizing paste payload with
  | nil => exact ⟨paste, rfl, by simpa using h⟩
  | cons key keys ih =>
    rw [List.map_cons, List.append_cons] at hfree ⊢
    rcases h.push_cases key.1 with ⟨whole, hwhole, -, -⟩ | ⟨next, hpush, hnext⟩
    · refine absurd ?_ hfree
      rw [hwhole]
      exact List.infix_append_of_infix_left (List.suffix_append _ _).isInfix
    · obtain ⟨last, hexec, hlast⟩ := ih hnext hfree
      refine ⟨last, ?_, hlast⟩
      rw [exec_typed_cons, push_pasting, hpush]
      exact hexec

/-- The terminator of a paste, wherever the paste was when it came. -/
theorem exec_typed_end {paste : PasteBuffer} {payload whole : List UInt8} (h : paste.Holds payload)
    (hfree : ¬BRACKETED_PASTE_END <:+: whole)
    (hkeys : payload ++ keys.map Prod.fst = whole ++ BRACKETED_PASTE_END) :
    exec InputDecoder.step ⟨[], none, some paste⟩ (InputDecoder.typed keys) =
      ({}, [pasted whole]) := by
  rcases List.eq_nil_or_concat' keys with rfl | ⟨keys, key, rfl⟩
  · rw [List.map_nil, List.append_nil] at hkeys
    exact absurd (hkeys ▸ (List.suffix_append _ _).isInfix) h.free
  have hend : BRACKETED_PASTE_END = BRACKETED_PASTE_END.dropLast ++ [0x7e] := rfl
  rw [List.map_append, List.map_singleton, ← List.append_assoc] at hkeys
  have hbefore : payload ++ keys.map Prod.fst = whole ++ BRACKETED_PASTE_END.dropLast := by
    rw [hend, ← List.append_assoc] at hkeys
    exact (List.append_inj' hkeys rfl).1
  have hopen : ¬BRACKETED_PASTE_END <:+: payload ++ keys.map Prod.fst := by
    rw [hbefore]
    exact free_append hfree (by decide)
  obtain ⟨next, hexec, hnext⟩ := exec_typed_within h hopen
  rw [exec_typed_append, hexec, exec_typed_singleton, push_pasting]
  rcases hnext.push_cases key.1 with ⟨found, hfound, -, hpush⟩ | ⟨last, -, hlast⟩
  · obtain rfl := List.append_cancel_right (hkeys.symm.trans hfound)
    rw [hpush]
    rfl
  · exact absurd (hkeys ▸ (List.suffix_append _ _).isInfix) hlast.free

theorem exec_typed_paste {payload : List UInt8} (hfree : ¬BRACKETED_PASTE_END <:+: payload)
    (hkeys : keys.map Prod.fst = BRACKETED_PASTE_START ++ payload ++ BRACKETED_PASTE_END) :
    exec InputDecoder.step {} (InputDecoder.typed keys) = ({}, [pasted payload]) := by
  rw [List.append_assoc] at hkeys
  obtain ⟨opening, rest, rfl, hopening, hrest⟩ := List.map_eq_append_iff.mp hkeys
  rw [exec_typed_append, exec_typed_start hopening, exec_typed_end holds_nil hfree (by rw [List.nil_append, hrest])]
  rfl

end Typing

theorem hasTerminator_iff {text : List UInt8} :
    hasTerminator text = true ↔ BRACKETED_PASTE_END <:+: text := by
  rw [hasTerminator, List.any_eq_true, List.infix_iff_prefix_suffix]
  constructor
  · rintro ⟨rest, hrest, hlead⟩
    exact ⟨rest, List.isPrefixOf_iff_prefix.mp hlead, (List.mem_tails _ _).mp hrest⟩
  · rintro ⟨rest, hlead, hrest⟩
    exact ⟨rest, (List.mem_tails _ _).mpr hrest, List.isPrefixOf_iff_prefix.mpr hlead⟩

/-- Bytes and the events of them: whatever came in and however the clock ran, the events stand for
all of it but what is held, in order, and of that never more than 64 bytes wait between two calls;
a text that a pane may be pasted and a mouse event that it may be told of are decoded as
themselves. -/
theorem decoding_is_lossless :
    (∀ stimuli : List InputDecoder.Stimulus,
      let run := exec InputDecoder.step {} stimuli
      (∃ segments held, List.Forall₂ Stands run.2 segments ∧
        InputDecoder.consumed stimuli = segments.flatten ++ held ∧ Held run.1 held) ∧
      run.1.pending.length < 65) ∧
    (∀ (text payload : List UInt8) (keys : List (UInt8 × ℕ)),
      terminalPastePayload text true = some payload → text.length ≤ MAX_CLIPBOARD_BYTES →
      keys.map Prod.fst = payload →
      exec InputDecoder.step {} (InputDecoder.typed keys) = ({}, [.paste text])) ∧
    ∀ (mouse : MouseInput) (payload : List UInt8) (keys : List (UInt8 × ℕ)),
      1 ≤ mouse.column → 1 ≤ mouse.row → encodeMouseEvent mouse .sgr = some payload →
      keys.map Prod.fst = payload →
      exec InputDecoder.step {} (InputDecoder.typed keys) = ({}, [.mouse mouse]) := by
  refine ⟨fun stimuli => ?_, fun text payload keys hpayload hfits hkeys => ?_,
    fun mouse payload keys hcolumn hrow hpayload hkeys => ?_⟩
  · obtain ⟨segments, held, hstands, hconsumed, hheld⟩ := exec_held (.waiting waiting_nil) stimuli
    exact ⟨⟨segments, held, hstands, hconsumed, hheld⟩,
      Nat.lt_succ_of_le hheld.length_pending_le⟩
  · rw [terminalPastePayload] at hpayload
    cases hterminator : hasTerminator text with
    | true => simp [hterminator] at hpayload
    | false =>
      have hfree : ¬BRACKETED_PASTE_END <:+: text := by
        rw [← hasTerminator_iff, hterminator]
        decide
      simp only [hterminator, Bool.false_eq_true, if_false, Bool.not_true,
        Option.some.injEq] at hpayload
      rw [exec_typed_paste hfree (hkeys.trans hpayload.symm), pasted, if_pos hfits]
  · have hbody : (Utf8.encode (reportBody mouse)).length ≤ 17 := by
      rw [length_encode_of_report fun c hc => isReport_of_mem_reportBody hc]
      exact length_reportBody_le mouse
    have hplus : 0x2b ∉ Utf8.encode (reportBody mouse) := fun hmem => by
      have hc := (Utf8.mem_encode_iff (c := '+') (by decide)).mp hmem
      exact absurd (isReport_of_mem_reportBody hc) (by decide)
    rw [encodeMouseEvent_sgr, Option.some.injEq] at hpayload
    subst hpayload
    have hpositive : ∀ value : UInt16, 1 ≤ value → value ≠ 0 := by
      rintro value hvalue rfl
      exact absurd hvalue (by decide)
    have hmouse := parseSgrMouse_sgr (hpositive _ hcolumn) (hpositive _ hrow)
    refine exec_typed_report (hkeys ▸ hmouse) ?_ ?_
    · rw [← List.length_map (f := Prod.fst), hkeys]
      simp only [List.length_append, SGR_START, List.length_cons, List.length_nil]
      omega
    · rw [hkeys]
      simp only [List.mem_append, List.mem_singleton, not_or]
      refine ⟨⟨by decide, hplus⟩, ?_⟩
      cases mouse.release <;> decide

/-- A text of two letters, and a press in the first cell. -/
theorem decoding_of_two_letters_and_a_press :
    exec InputDecoder.step {} (InputDecoder.typed
        ((BRACKETED_PASTE_START ++ [0x68, 0x69] ++ BRACKETED_PASTE_END).map fun byte => (byte, 0))) =
      ({}, [.paste [0x68, 0x69]]) ∧
    exec InputDecoder.step {} (InputDecoder.typed
        ([0x1b, 0x5b, 0x3c, 0x30, 0x3b, 0x31, 0x3b, 0x31, 0x4d].map fun byte => (byte, 0))) =
      ({}, [.mouse ⟨0, 1, 1, false⟩]) :=
  ⟨decoding_is_lossless.2.1 [0x68, 0x69]
      (BRACKETED_PASTE_START ++ [0x68, 0x69] ++ BRACKETED_PASTE_END) _ (by decide) (by decide)
      (by decide),
    decoding_is_lossless.2.2 ⟨0, 1, 1, false⟩
      [0x1b, 0x5b, 0x3c, 0x30, 0x3b, 0x31, 0x3b, 0x31, 0x4d] _ (by decide) (by decide)
      ((encodeMouseEvent_sgr _).trans (by decide)) (by decide)⟩

end Tui

end SuperHerdr
