import SuperHerdr.Tui.Decoder

/-!
# A sequence after whatever came before

Somebody presses Escape and pastes. To the decoder both begin with one byte, and it has one
buffer: a byte that starts a paste or a mouse report is added to what is still unfinished there.
So a sequence is told from text exactly when it starts on an empty buffer, and then a report also
has to be short enough and spelled in bytes that are accepted (`last_event_iff`).

The exception is a paste of which the start is missed and in which, after sequences that have
ended (`Settled`), another start stands: what follows that is taken for the paste. Only where both
are too large is this the same event.
-/

namespace SuperHerdr

namespace Tui

open Transducer

/-- A whole paste or mouse report, and the event of it. -/
def Completes (sequence : List UInt8) (event : DecodedInput) : Prop :=
  Stands event sequence ∧ ∀ bytes, event ≠ .bytes bytes

/-- A sequence that ends with its last byte and is no start of a paste. -/
def Closes (sequence : List UInt8) : Prop :=
  sequence ≠ [] ∧ ¬Unfinished sequence ∧ sequence ≠ BRACKETED_PASTE_START ∧
    (sequence.dropLast ≠ [] → Unfinished sequence.dropLast)

/-- Sequences that end, one after the other. -/
inductive Settled : List UInt8 → Prop
  | nil : Settled []
  | concat {bytes sequence} : Settled bytes → Closes sequence → Settled (bytes ++ sequence)

variable {sequence : List UInt8}

theorem completes_cases {event : DecodedInput} (h : Completes sequence event) :
    (∃ payload, sequence = BRACKETED_PASTE_START ++ payload ++ BRACKETED_PASTE_END ∧
      ¬BRACKETED_PASTE_END <:+: payload ∧ event = pasted payload) ∨
    ∃ mouse, parseSgrMouse sequence = some mouse ∧ event = .mouse mouse := by
  obtain ⟨hstands, hother⟩ := h
  match event, hstands with
  | .bytes bytes, _ => exact absurd rfl (hother bytes)
  | .mouse mouse, hmouse => exact .inr ⟨mouse, hmouse, rfl⟩
  | .paste payload, ⟨hsequence, hfree, hfits⟩ =>
    exact .inl ⟨payload, hsequence, hfree, by rw [pasted, if_pos hfits]⟩
  | .pasteTooLarge, ⟨payload, hsequence, hfree, hlarge⟩ =>
    exact .inl ⟨payload, hsequence, hfree, by rw [pasted, if_neg (Nat.not_le.mpr hlarge)]⟩

/-! ### Bytes that are no start of anything -/

theorem Unfinished.not_mem_tilde (h : Unfinished sequence) : 0x7e ∉ sequence := by
  intro hmem
  rcases h.2 with ⟨hlead, hmore⟩ | ⟨⟨rest, rfl⟩, haccepted, -⟩
  · have hend : BRACKETED_PASTE_START = BRACKETED_PASTE_START.dropLast ++ [0x7e] := rfl
    rw [hend] at hlead
    rcases List.prefix_concat_iff.mp hlead with heq | hshort
    · exact hmore heq
    · exact absurd (hshort.subset hmem) (by decide)
  · rcases List.mem_append.mp hmem with hmem | hmem
    · exact absurd hmem (by decide)
    · rw [List.drop_left] at haccepted
      exact absurd (haccepted _ hmem) (by decide)

variable {mouse : MouseInput}

theorem not_mem_tail_of_parseSgrMouse
    (h : parseSgrMouse sequence = some mouse) : 0x1b ∉ sequence.tail := by
  obtain ⟨body, terminator, rfl, hterminator, hbody⟩ := shape_of_parseSgrMouse h
  simp only [SGR_START, List.cons_append, List.nil_append, List.tail_cons, List.mem_cons,
    List.mem_append, List.not_mem_nil, or_false]
  rintro (h | h | h | h)
  · exact absurd h (by decide)
  · exact absurd h (by decide)
  · exact absurd (hbody _ h) (by decide)
  · rcases hterminator with rfl | rfl
    · exact absurd h (by decide)
    · exact absurd h (by decide)

theorem emitted_of_mem_tail (h : 0x1b ∈ sequence.tail) : emitted sequence = .bytes sequence := by
  have hnone : parseSgrMouse sequence = none :=
    Option.eq_none_iff_forall_ne_some.mpr fun _ hmouse => not_mem_tail_of_parseSgrMouse hmouse h
  rw [emitted, hnone, Option.elim_none, ite_self]

variable {keys : List (UInt8 × ℕ)}

theorem exec_typed_plain (h : 0x1b ∉ keys.map Prod.fst) :
    exec InputDecoder.step {} (InputDecoder.typed keys) =
      ({}, (keys.map Prod.fst).map fun byte => .bytes [byte]) := by
  induction keys with
  | nil => rfl
  | cons key keys ih =>
    rw [List.map_cons, List.mem_cons, not_or] at h
    have hbyte : key.1 ≠ 0x1b := fun heq => h.1 heq.symm
    rw [exec_typed_cons, InputDecoder.push, if_pos rfl, if_neg hbyte, ih h.2]
    rfl

variable {pending : List UInt8} {since : Option ℕ}

/-- Bytes none of which is an escape: they go on with what is unfinished, and once that ends,
each is an event. -/
theorem exec_typed_cases (h : Waiting pending since) (hplain : 0x1b ∉ keys.map Prod.fst)
    (hstart : ¬BRACKETED_PASTE_START <+: pending ++ keys.map Prod.fst) :
    (∃ later, exec InputDecoder.step ⟨pending, since, none⟩ (InputDecoder.typed keys) =
        (⟨pending ++ keys.map Prod.fst, later, none⟩, []) ∧
      Waiting (pending ++ keys.map Prod.fst) later) ∨
    ∃ first rest, keys.map Prod.fst = first ++ rest ∧ first ≠ [] ∧ Closes (pending ++ first) ∧
      exec InputDecoder.step ⟨pending, since, none⟩ (InputDecoder.typed keys) =
        ({}, emitted (pending ++ first) :: rest.map fun byte => .bytes [byte]) := by
  induction keys generalizing pending since with
  | nil => exact .inl ⟨since, by simp [InputDecoder.typed], by simpa using h⟩
  | cons key keys ih =>
    rw [List.map_cons, List.mem_cons, not_or] at hplain
    rw [List.map_cons, List.append_cons] at hstart ⊢
    rw [exec_typed_cons, push_waiting h]
    have hkey : pending ++ [key.1] ≠ BRACKETED_PASTE_START := fun heq =>
      hstart (heq ▸ List.prefix_append _ _)
    by_cases hmore : Unfinished (pending ++ [key.1])
    · rw [if_pos hmore]
      rcases ih (hmore.waiting (since.getD key.2)) hplain.2 hstart with
        ⟨later, hexec, hlater⟩ | ⟨first, rest, hkeys, hfirst, hcloses, hexec⟩
      · exact .inl ⟨later, hexec, hlater⟩
      · rw [List.append_assoc] at hcloses hexec
        exact .inr ⟨key.1 :: first, rest, by rw [hkeys, List.cons_append], by simp, hcloses, hexec⟩
    · -- the sequence ends here, and no byte behind it begins another
      rw [if_neg hmore, if_neg hkey, exec_typed_plain hplain.2]
      refine .inr ⟨[key.1], keys.map Prod.fst, rfl, by simp, ⟨by simp, hmore, hkey, ?_⟩, rfl⟩
      rw [List.dropLast_concat]
      rcases h with ⟨rfl, -⟩ | ⟨hpending, -⟩
      · exact fun hne => absurd rfl hne
      · exact fun _ => hpending

/-! ### A sequence that starts on an unfinished one -/

/-- Events of plain text. -/
def Plain (events : List DecodedInput) : Prop :=
  events ≠ [] ∧ ∀ event ∈ events, ∃ bytes, event = .bytes bytes

theorem plain_cons {bytes : List UInt8} (rest : List UInt8) :
    Plain (.bytes bytes :: rest.map fun byte => .bytes [byte]) := by
  refine ⟨List.cons_ne_nil _ _, fun event hevent => ?_⟩
  rcases List.mem_cons.mp hevent with rfl | hevent
  · exact ⟨bytes, rfl⟩
  · obtain ⟨byte, -, rfl⟩ := List.mem_map.mp hevent
    exact ⟨[byte], rfl⟩

theorem Plain.getLast?_ne {events before : List DecodedInput} (h : Plain events)
    {event : DecodedInput} (hevent : ∀ bytes, event ≠ .bytes bytes) :
    (before ++ events).getLast? ≠ some event := by
  rw [List.getLast?_append_of_ne_nil _ h.1]
  intro hlast
  obtain ⟨bytes, heq⟩ := h.2 event (List.mem_of_getLast? hlast)
  exact hevent bytes heq

/-- The start of a paste has no escape byte but its first. -/
theorem not_start_of_escape {pending rest : List UInt8} (hpending : pending ≠ [])
    (h : Unfinished (pending ++ [0x1b])) :
    ¬BRACKETED_PASTE_START <+: pending ++ [0x1b] ++ rest := by
  intro hstart
  rcases List.prefix_or_prefix_of_prefix hstart (List.prefix_append _ _) with hearly | hlate
  · rcases h.2 with ⟨hlead, hmore⟩ | ⟨hsgr, -⟩
    · exact hmore (hlead.eq_of_length_le hearly.length_le)
    · rcases List.prefix_or_prefix_of_prefix hearly hsgr with hboth | hboth
      · exact absurd hboth (by decide)
      · exact absurd hboth (by decide)
  · obtain ⟨byte, tail, rfl⟩ := List.exists_cons_of_ne_nil hpending
    obtain ⟨after, hafter⟩ := hlate
    have hmem : 0x1b ∈ BRACKETED_PASTE_START.tail := by
      rw [← hafter]
      simp
    exact absurd hmem (by decide)

/-- **What an escape byte starts on an unfinished sequence is not seen**: it goes on with that
sequence, or is text. -/
theorem exec_typed_escape (h : Waiting pending since) (hpending : pending ≠ []) {rest : List UInt8}
    (hkeys : keys.map Prod.fst = 0x1b :: rest) (hplain : 0x1b ∉ rest) :
    (Unfinished (pending ++ keys.map Prod.fst) ∧
      (exec InputDecoder.step ⟨pending, since, none⟩ (InputDecoder.typed keys)).2 = []) ∨
    ∃ events, exec InputDecoder.step ⟨pending, since, none⟩ (InputDecoder.typed keys) =
      ({}, events) ∧ Plain events := by
  obtain ⟨key, keys, rfl, hkey, rfl⟩ := List.map_eq_cons_iff.mp hkeys
  have htail : ∀ more, 0x1b ∈ (pending ++ [0x1b] ++ more).tail := by
    obtain ⟨byte, tail, rfl⟩ := List.exists_cons_of_ne_nil hpending
    simp
  rw [List.map_cons, List.append_cons, exec_typed_cons, push_waiting h, hkey]
  -- an escape byte is accepted within a report, and ends what is no report
  by_cases hmore : Unfinished (pending ++ [0x1b])
  · rw [if_pos hmore]
    rcases exec_typed_cases (hmore.waiting _) hplain (not_start_of_escape hpending hmore) with
      ⟨later, hexec, hlater⟩ | ⟨first, more, -, -, -, hexec⟩
    · refine .inl ⟨(hlater.resolve_left fun hnil => ?_).1, ?_⟩
      · exact absurd hnil.1 (by simp)
      · rw [hexec]
        rfl
    · rw [emitted_of_mem_tail (htail first)] at hexec
      exact .inr ⟨_, by rw [hexec]; rfl, plain_cons more⟩
  · have hstart : pending ++ [0x1b] ≠ BRACKETED_PASTE_START := fun heq => by
      have hlast := congrArg List.getLast? heq
      rw [List.getLast?_concat] at hlast
      exact absurd hlast (by decide)
    have hbytes := emitted_of_mem_tail (htail [])
    rw [List.append_nil] at hbytes
    rw [if_neg hmore, if_neg hstart, exec_typed_plain hplain, hbytes]
    exact .inr ⟨_, rfl, plain_cons _⟩

theorem exec_typed_start_plain (h : Waiting pending since) (hpending : pending ≠ [])
    (hkeys : keys.map Prod.fst = BRACKETED_PASTE_START) :
    ∃ events, exec InputDecoder.step ⟨pending, since, none⟩ (InputDecoder.typed keys) =
      ({}, events) := by
  rcases exec_typed_escape h hpending hkeys (by decide) with ⟨hmore, -⟩ | ⟨events, hexec, -⟩
  · exact absurd (by simp [hkeys, BRACKETED_PASTE_START]) hmore.not_mem_tilde
  · exact ⟨events, hexec⟩

/-- The terminator of a paste is text outside one. -/
theorem exec_typed_end_plain (h : Waiting pending since)
    (hkeys : keys.map Prod.fst = BRACKETED_PASTE_END) :
    Plain (exec InputDecoder.step ⟨pending, since, none⟩ (InputDecoder.typed keys)).2 := by
  rcases h with ⟨rfl, rfl⟩ | hpending
  · obtain ⟨key, keys, rfl, hkey, hrest⟩ := List.map_eq_cons_iff.mp hkeys
    have hescape : Unfinished [0x1b] := by decide
    rw [exec_typed_cons, push_waiting waiting_nil, hkey, List.nil_append, if_pos hescape]
    have hplain : 0x1b ∉ keys.map Prod.fst := by
      rw [hrest]
      decide
    rcases exec_typed_cases (hescape.waiting _) hplain
      (by rw [hrest]; decide) with ⟨later, -, hlater⟩ | ⟨first, more, hfirst, -, -, hexec⟩
    · have hmore := (hlater.resolve_left fun hnil => absurd hnil.1 (by simp)).1
      rw [hrest] at hmore
      exact absurd (by decide) hmore.not_mem_tilde
    · -- its first bytes are those of a start of a paste, which its fifth is not
      have hsgr : ¬SGR_START <+: [0x1b] ++ first := fun hsgr => by
        have hend : SGR_START <+: [0x1b] ++ keys.map Prod.fst := by
          rw [hfirst, ← List.append_assoc]
          exact hsgr.trans (List.prefix_append _ _)
        rw [hrest] at hend
        exact absurd hend (by decide)
      rw [emitted_of_not_sgr hsgr] at hexec
      rw [hexec]
      exact plain_cons more
  · rcases exec_typed_escape (.inr hpending) hpending.1.1 hkeys (by decide) with
      ⟨hmore, -⟩ | ⟨events, hexec, hplain⟩
    · exact absurd (by simp [hkeys, BRACKETED_PASTE_END]) hmore.not_mem_tilde
    · rw [hexec]
      exact hplain

/-! ### A report that starts on nothing -/

theorem sgr_prefix_of_parseSgrMouse
    (h : parseSgrMouse sequence = some mouse) : SGR_START <+: sequence := by
  obtain ⟨body, terminator, rfl, -⟩ := shape_of_parseSgrMouse h
  exact ⟨body ++ [terminator], (List.append_assoc ..).symm⟩

theorem not_start_of_report
    (h : parseSgrMouse sequence = some mouse) : ¬BRACKETED_PASTE_START <+: sequence := fun hstart => by
  rcases List.prefix_or_prefix_of_prefix hstart (sgr_prefix_of_parseSgrMouse h) with hboth | hboth
  · exact absurd hboth (by decide)
  · exact absurd hboth (by decide)

/-- A report all of whose starts are unfinished. -/
theorem plus_free_of_closes
    (h : parseSgrMouse sequence = some mouse) (hcloses : Closes sequence) : 0x2b ∉ sequence := by
  obtain ⟨body, terminator, rfl, hterminator, -⟩ := shape_of_parseSgrMouse h
  have hmore : Unfinished (SGR_START ++ body) := by
    have hdropped := hcloses.2.2.2
    rw [List.dropLast_concat] at hdropped
    exact hdropped (by simp [SGR_START])
  -- each byte of the body was accepted when it came, which a plus sign is not
  have haccepted : ∀ byte ∈ body, isAccepted byte := by
    rcases hmore.2 with ⟨hlead, -⟩ | ⟨-, haccepted, -⟩
    · exact absurd hlead (not_prefix_of_sgr (List.prefix_append _ _))
    · rwa [List.drop_left] at haccepted
  simp only [List.mem_append, List.mem_singleton, not_or]
  refine ⟨⟨by decide, fun hmem => absurd (haccepted _ hmem) (by decide)⟩, ?_⟩
  rcases hterminator with rfl | rfl
  · decide
  · decide

theorem getLast?_report_iff (hmouse : parseSgrMouse (keys.map Prod.fst) = some mouse) :
    (exec InputDecoder.step {} (InputDecoder.typed keys)).2.getLast? = some (.mouse mouse) ↔
      keys.length ≤ 64 ∧ 0x2b ∉ keys.map Prod.fst := by
  constructor
  · intro hlast
    have hsgr := sgr_prefix_of_parseSgrMouse hmouse
    have hplain := not_mem_tail_of_parseSgrMouse hmouse
    obtain ⟨after, hafter⟩ := hsgr
    obtain ⟨key, keys, rfl, hkey, -⟩ := List.map_eq_cons_iff.mp hafter.symm
    have hescape : Unfinished [0x1b] := by decide
    rw [List.map_cons, hkey] at hmouse hplain hafter ⊢
    rw [exec_typed_cons, push_waiting waiting_nil, hkey, List.nil_append, if_pos hescape] at hlast
    rcases exec_typed_cases (hescape.waiting _) hplain (not_start_of_report hmouse) with
      ⟨later, hexec, -⟩ | ⟨first, more, hfirst, -, hcloses, hexec⟩
    · rw [hexec] at hlast
      cases hlast
    · rw [hexec] at hlast
      rcases List.eq_nil_or_concat' more with rfl | ⟨more, byte, rfl⟩
      · rw [List.append_nil] at hfirst
        rw [← hfirst, List.singleton_append] at hcloses hlast
        refine ⟨?_, plus_free_of_closes hmouse hcloses⟩
        by_contra hlong
        rw [emitted, if_neg (by simpa using hlong)] at hlast
        cases hlast
      · -- what comes after the end of a sequence is text
        simp [List.getLast?_cons] at hlast
  · rintro ⟨hlength, hplus⟩
    rw [exec_typed_report hmouse hlength hplus]
    rfl

/-! ### A paste of which the start is missed -/

/-- What reading some bytes from nothing leads to, unless a paste ends. -/
inductive Scanned (read : List UInt8) : InputDecoder → Prop
  | settled {bytes pending since} : read = bytes ++ pending → Settled bytes →
      Waiting pending since → Scanned read ⟨pending, since, none⟩
  | opened {bytes payload paste} : read = bytes ++ BRACKETED_PASTE_START ++ payload →
      Settled bytes → PasteBuffer.Holds paste payload → Scanned read ⟨[], none, some paste⟩

theorem Scanned.push {read : List UInt8} {self : InputDecoder} (h : Scanned read self) (now : ℕ)
    {byte : UInt8} (hfree : ¬BRACKETED_PASTE_END <:+: read ++ [byte]) :
    Scanned (read ++ [byte]) (self.push now byte).1 := by
  cases h with
  | @settled bytes pending since hread hsettled hwaiting =>
    rw [hread, List.append_assoc, push_waiting hwaiting]
    by_cases hmore : Unfinished (pending ++ [byte])
    · rw [if_pos hmore]
      exact .settled rfl hsettled (hmore.waiting _)
    · rw [if_neg hmore]
      by_cases hstart : pending ++ [byte] = BRACKETED_PASTE_START
      · rw [if_pos hstart, hstart]
        exact .opened (List.append_nil _).symm hsettled holds_nil
      · rw [if_neg hstart]
        have hcloses : Closes (pending ++ [byte]) := by
          refine ⟨by simp, hmore, hstart, ?_⟩
          rw [List.dropLast_concat]
          rcases hwaiting with ⟨rfl, -⟩ | ⟨hpending, -⟩
          · exact fun hne => absurd rfl hne
          · exact fun _ => hpending
        exact .settled (List.append_nil _).symm (.concat hsettled hcloses) waiting_nil
  | @opened bytes payload paste hread hsettled hholds =>
    rw [push_pasting]
    rcases hholds.push_cases byte with ⟨whole, hwhole, -, -⟩ | ⟨next, hpush, hnext⟩
    · refine absurd ?_ hfree
      rw [hread, List.append_assoc, hwhole, ← List.append_assoc]
      exact (List.suffix_append _ _).isInfix
    · rw [hpush]
      exact .opened (by rw [hread, List.append_assoc]) hsettled hnext

theorem scanned_typed (hfree : ¬BRACKETED_PASTE_END <:+: keys.map Prod.fst) :
    Scanned (keys.map Prod.fst) (exec InputDecoder.step {} (InputDecoder.typed keys)).1 := by
  induction keys using List.reverseRecOn with
  | nil => exact .settled rfl .nil waiting_nil
  | append_singleton keys key ih =>
    rw [List.map_append, List.map_singleton] at hfree ⊢
    have hbefore : ¬BRACKETED_PASTE_END <:+: keys.map Prod.fst := fun hinside =>
      hfree (hinside.trans (List.prefix_append _ _).isInfix)
    rw [exec_typed_append, exec_typed_singleton]
    exact (ih hbefore).push key.2 hfree

/-- Sequences that end leave nothing. -/
theorem exec_typed_settled {bytes : List UInt8} (h : Settled bytes)
    (hkeys : keys.map Prod.fst = bytes) :
    ∃ events, exec InputDecoder.step {} (InputDecoder.typed keys) = ({}, events) := by
  induction h generalizing keys with
  | nil =>
    obtain rfl := List.map_eq_nil_iff.mp hkeys
    exact ⟨[], rfl⟩
  | concat _ hcloses ih =>
    obtain ⟨before, last, rfl, hbefore, hlast⟩ := List.map_eq_append_iff.mp hkeys
    obtain ⟨events, hexec⟩ := ih hbefore
    obtain ⟨hne, hover, hstart, hmore⟩ := hcloses
    have hlast_ne : last ≠ [] := fun hnil => hne (by rw [← hlast, hnil, List.map_nil])
    subst hlast
    rw [exec_typed_append, hexec, exec_typed_finished waiting_nil hlast_ne hmore hover,
      List.nil_append, if_neg hstart]
    exact ⟨_, rfl⟩

/-! ### Which sequences are seen -/

/-- Whether a sequence is told from text by a decoder that holds `pending`. -/
def Recognised (pending sequence : List UInt8) : Prop :=
  (pending = [] ∧
    (BRACKETED_PASTE_START <+: sequence ∨ (sequence.length ≤ 64 ∧ 0x2b ∉ sequence))) ∨
  ∃ bytes payload, sequence = BRACKETED_PASTE_START ++ bytes ++ BRACKETED_PASTE_START ++ payload ++
    BRACKETED_PASTE_END ∧ Settled bytes ∧ MAX_CLIPBOARD_BYTES < payload.length

theorem pasted_eq_iff {payload whole : List UInt8} (h : payload.length < whole.length) :
    pasted payload = pasted whole ↔ MAX_CLIPBOARD_BYTES < payload.length := by
  simp only [pasted]
  split
  · next hfits =>
    split
    · simp only [DecodedInput.paste.injEq, Nat.not_lt.mpr hfits, iff_false]
      rintro rfl
      exact absurd h (Nat.lt_irrefl _)
    · simp [Nat.not_lt.mpr hfits]
  · next hlarge =>
    rw [if_neg (by omega)]
    exact iff_of_true rfl (Nat.not_le.mp hlarge)

/-- What opens a paste from nothing. -/
theorem exec_typed_opening {bytes inner : List UInt8} (h : Settled bytes)
    (hkeys : keys.map Prod.fst = bytes ++ BRACKETED_PASTE_START ++ inner)
    (hfree : ¬BRACKETED_PASTE_END <:+: inner) :
    ∃ paste : PasteBuffer, (exec InputDecoder.step {} (InputDecoder.typed keys)).1 =
      ⟨[], none, some paste⟩ ∧ paste.Holds inner := by
  obtain ⟨front, within, rfl, hfront, rfl⟩ := List.map_eq_append_iff.mp hkeys
  obtain ⟨before, opening, rfl, hbefore, hopening⟩ := List.map_eq_append_iff.mp hfront
  obtain ⟨events, hexec⟩ := exec_typed_settled h hbefore
  rw [← List.nil_append (within.map Prod.fst)] at hfree
  obtain ⟨paste, hwithin, hpaste⟩ := exec_typed_within holds_nil hfree
  rw [List.nil_append] at hpaste
  refine ⟨paste, ?_, hpaste⟩
  rw [exec_typed_append, exec_typed_append, hexec, exec_typed_start hopening, hwithin]

/-- A paste whose start comes on an unfinished sequence is only seen where another start within
it begins one that is also too large. -/
theorem getLast?_paste_iff (h : Waiting pending since) (hpending : pending ≠ [])
    {payload : List UInt8} (hfree : ¬BRACKETED_PASTE_END <:+: payload)
    (hkeys : keys.map Prod.fst = BRACKETED_PASTE_START ++ payload ++ BRACKETED_PASTE_END) :
    (exec InputDecoder.step ⟨pending, since, none⟩ (InputDecoder.typed keys)).2.getLast? =
        some (pasted payload) ↔
      ∃ bytes inner, payload = bytes ++ BRACKETED_PASTE_START ++ inner ∧ Settled bytes ∧
        MAX_CLIPBOARD_BYTES < inner.length := by
  rw [List.append_assoc] at hkeys
  obtain ⟨opening, keys, rfl, hopening, hrest⟩ := List.map_eq_append_iff.mp hkeys
  obtain ⟨within, closing, rfl, rfl, hclosing⟩ := List.map_eq_append_iff.mp hrest
  obtain ⟨text, hexec⟩ := exec_typed_start_plain h hpending hopening
  rw [exec_typed_append, hexec, exec_typed_append]
  -- where the bytes within leave a paste open, the terminator ends that one
  have hopened : ∀ {bytes inner : List UInt8} {paste : PasteBuffer},
      (exec InputDecoder.step {} (InputDecoder.typed within)).1 = ⟨[], none, some paste⟩ →
      paste.Holds inner → within.map Prod.fst = bytes ++ BRACKETED_PASTE_START ++ inner →
      ((text ++ ((exec InputDecoder.step {} (InputDecoder.typed within)).2 ++
          (exec InputDecoder.step (exec InputDecoder.step {} (InputDecoder.typed within)).1
            (InputDecoder.typed closing)).2)).getLast? = some (pasted (within.map Prod.fst)) ↔
        MAX_CLIPBOARD_BYTES < inner.length) := by
    intro bytes inner paste hstate hholds hwithin
    have hshorter : inner.length < (within.map Prod.fst).length := by
      rw [hwithin, List.length_append, List.length_append]
      exact Nat.lt_add_of_pos_left (Nat.add_pos_right _ (by decide))
    rw [hstate, exec_typed_end hholds hholds.free (by rw [hclosing]), ← List.append_assoc,
      List.getLast?_concat, Option.some.injEq, pasted_eq_iff hshorter]
  constructor
  · intro hlast
    generalize hstate : (exec InputDecoder.step {} (InputDecoder.typed within)).1 = state
    have hscanned := scanned_typed hfree
    rw [hstate] at hscanned
    cases hscanned with
    -- no paste is open when the terminator comes: so it is text, and the last event
    | settled _ _ hwaiting =>
      rw [hstate, ← List.append_assoc] at hlast
      refine absurd hlast ((exec_typed_end_plain hwaiting hclosing).getLast?_ne fun bytes => ?_)
      rw [pasted]
      split <;> exact fun heq => by cases heq
    | opened hread hsettled hholds =>
      exact ⟨_, _, hread, hsettled, (hopened hstate hholds hread).mp hlast⟩
  · rintro ⟨bytes, inner, hread, hsettled, hlarge⟩
    have hinner : ¬BRACKETED_PASTE_END <:+: inner := fun hinside => hfree (by
      rw [hread]
      exact hinside.trans (List.suffix_append _ _).isInfix)
    obtain ⟨paste, hstate, hholds⟩ := exec_typed_opening hsettled hread hinner
    exact (hopened hstate hholds hread).mpr hlarge

theorem recognised_report_iff {pending sequence : List UInt8}
    (h : parseSgrMouse sequence = some mouse) :
    Recognised pending sequence ↔ pending = [] ∧ sequence.length ≤ 64 ∧ 0x2b ∉ sequence := by
  have hstart := not_start_of_report h
  refine ⟨?_, fun ⟨hpending, hreport⟩ => .inl ⟨hpending, .inr hreport⟩⟩
  rintro (⟨hpending, hpaste | hreport⟩ | ⟨bytes, payload, rfl, -⟩)
  · exact absurd hpaste hstart
  · exact ⟨hpending, hreport⟩
  · exact absurd (by simp only [List.append_assoc]; exact List.prefix_append _ _) hstart

theorem recognised_paste_iff {pending payload : List UInt8} :
    Recognised pending (BRACKETED_PASTE_START ++ payload ++ BRACKETED_PASTE_END) ↔
      pending = [] ∨ ∃ bytes inner, payload = bytes ++ BRACKETED_PASTE_START ++ inner ∧
        Settled bytes ∧ MAX_CLIPBOARD_BYTES < inner.length := by
  have hinner : ∀ bytes inner, BRACKETED_PASTE_START ++ payload ++ BRACKETED_PASTE_END =
      BRACKETED_PASTE_START ++ bytes ++ BRACKETED_PASTE_START ++ inner ++ BRACKETED_PASTE_END ↔
        payload = bytes ++ BRACKETED_PASTE_START ++ inner := by
    intro bytes inner
    rw [List.append_cancel_right_eq, List.append_assoc BRACKETED_PASTE_START bytes,
      List.append_assoc BRACKETED_PASTE_START, List.append_cancel_left_eq]
  have hstart : BRACKETED_PASTE_START <+:
      BRACKETED_PASTE_START ++ payload ++ BRACKETED_PASTE_END :=
    ⟨payload ++ BRACKETED_PASTE_END, (List.append_assoc ..).symm⟩
  simp only [Recognised, hinner, hstart, true_or, and_true]

/-- **A sequence is seen exactly where it is recognised**: whatever came before, with or without
pauses, as long as that does not end within a paste. -/
theorem last_event_iff (stimuli : List InputDecoder.Stimulus)
    (hpaste : (exec InputDecoder.step {} stimuli).1.paste = none) (keys : List (UInt8 × ℕ))
    (event : DecodedInput) (hevent : Completes (keys.map Prod.fst) event) :
    (exec InputDecoder.step (exec InputDecoder.step {} stimuli).1
        (InputDecoder.typed keys)).2.getLast? = some event ↔
      Recognised (exec InputDecoder.step {} stimuli).1.pending (keys.map Prod.fst) := by
  obtain ⟨_, held, -, -, hheld⟩ := exec_held (.waiting waiting_nil) stimuli
  generalize (exec InputDecoder.step {} stimuli).1 = self at hpaste hheld
  cases hheld with
  | pasting => cases hpaste
  | @waiting pending since hwaiting =>
    rcases completes_cases hevent with ⟨payload, hkeys, hfree, rfl⟩ | ⟨mouse, hmouse, rfl⟩
    · rw [hkeys, recognised_paste_iff]
      by_cases hpending : held = []
      · obtain ⟨rfl, rfl⟩ := hwaiting.resolve_right fun h => h.1.1 hpending
        rw [exec_typed_paste hfree hkeys]
        exact iff_of_true rfl (.inl rfl)
      · rw [getLast?_paste_iff hwaiting hpending hfree hkeys]
        exact (or_iff_right hpending).symm
    · rw [recognised_report_iff hmouse, List.length_map]
      by_cases hpending : held = []
      · obtain ⟨rfl, rfl⟩ := hwaiting.resolve_right fun h => h.1.1 hpending
        rw [getLast?_report_iff hmouse]
        exact (and_iff_right rfl).symm
      · -- the escape byte of the report goes on with what is pending
        refine iff_of_false ?_ fun hseen => hpending hseen.1
        obtain ⟨rest, hrest⟩ := sgr_prefix_of_parseSgrMouse hmouse
        have hplain := not_mem_tail_of_parseSgrMouse hmouse
        rw [← hrest] at hplain
        rcases exec_typed_escape hwaiting hpending hrest.symm hplain with
          ⟨-, hnone⟩ | ⟨events, hexec, htext⟩
        · rw [hnone]
          exact fun hlast => by cases hlast
        · rw [hexec, ← List.nil_append events]
          exact htext.getLast?_ne fun _ heq => by cases heq

/-- A paste of one letter into a decoder that holds nothing. -/
theorem paste_into_nothing_is_seen :
    let keys := (BRACKETED_PASTE_START ++ [0x78] ++ BRACKETED_PASTE_END).map fun byte => (byte, 0)
    (exec InputDecoder.step {} (InputDecoder.typed keys)).2.getLast? = some (.paste [0x78]) :=
  (last_event_iff [] rfl _ (.paste [0x78])
    ⟨⟨rfl, by decide, by decide⟩, fun _ heq => by cases heq⟩).mpr (.inl ⟨rfl, .inl (by decide)⟩)

/-- A paste of one letter right after the Escape key. -/
theorem paste_after_escape_is_text :
    let escape : List InputDecoder.Stimulus := [.byte 0x1b 0]
    let keys := (BRACKETED_PASTE_START ++ [0x78] ++ BRACKETED_PASTE_END).map fun byte => (byte, 0)
    (exec InputDecoder.step {} escape).1.paste = none ∧
      Completes (keys.map Prod.fst) (.paste [0x78]) ∧
      (exec InputDecoder.step (exec InputDecoder.step {} escape).1
        (InputDecoder.typed keys)).2.getLast? ≠ some (.paste [0x78]) := by
  refine ⟨by decide, ⟨⟨rfl, by decide, by decide⟩, fun _ heq => by cases heq⟩, by decide⟩

end Tui

end SuperHerdr
