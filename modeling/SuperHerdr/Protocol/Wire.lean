import Mathlib
import SuperHerdr.Library.Framing
import SuperHerdr.Protocol.Message

/-!
# Messages on the wire

A message travels as one line of JSON. `encode` refuses what is too long for a line, and each of
three readers bounds a line before it looks for the newline: the daemon's loop over a client's
messages, a client's loop over the daemon's, and the stream that hands the daemon's lines on to a
browser, whose reads are cut short by a timer and continued.

The JSON itself is not the program's: `Serde` is what it does to one type of message, and
`Serde.Faithful` what is relied on. Reads that fail and writes that fail end every loop, and are
left out.
-/

namespace SuperHerdr

open Framing

def MAX_MESSAGE_BYTES : ℕ := 4 * 1024 * 1024

def newline : UInt8 := 10

/-- What the JSON library does to one type of message. -/
structure Serde (M : Type*) where
  toVec : M → Except String (List UInt8)
  fromSlice : List UInt8 → Except String M

namespace Serde

variable {M : Type*} (serde : Serde M)

/-- A message is one line of text, and is read back as it was. -/
structure Faithful : Prop where
  newlineFree : ∀ {message line}, serde.toVec message = .ok line → newline ∉ line
  roundTrip : ∀ {message line}, serde.toVec message = .ok line →
    serde.fromSlice line = .ok message

/-- Encode one message as a protocol line, including its terminating newline. -/
def encode (message : M) : Except String (List UInt8) :=
  match serde.toVec message with
  | .error error => .error error
  | .ok line =>
      if MAX_MESSAGE_BYTES ≤ line.length then
        .error s!"refusing to send a {line.length} byte protocol message; the limit is {MAX_MESSAGE_BYTES}"
      else .ok (line ++ [newline])

/-- Decode one protocol line, without its terminating newline. -/
def decode (line : List UInt8) : Except String M :=
  if MAX_MESSAGE_BYTES ≤ line.length then
    .error s!"refusing to parse a {line.length} byte protocol message; the limit is {MAX_MESSAGE_BYTES}"
  else serde.fromSlice line

theorem Faithful.encode {serde : Serde M} (h : serde.Faithful) {message : M} {line : List UInt8}
    (hencode : serde.encode message = .ok line) :
    ∃ body, line = body ++ [newline] ∧ newline ∉ body ∧ body.length < MAX_MESSAGE_BYTES ∧
      serde.decode body = .ok message := by
  rw [Serde.encode] at hencode
  split at hencode
  · cases hencode
  · next body hbody =>
    split at hencode
    · cases hencode
    · next hshort =>
      refine ⟨body, (Except.ok.inj hencode).symm, h.newlineFree hbody, by omega, ?_⟩
      rw [decode, if_neg hshort, h.roundTrip hbody]

end Serde

/-! ### The daemon's loop and a client's -/

section Loop

variable {M : Type*} (serde : Serde M)

/-- Read lines until there is nothing left, a line is not complete or a message unreadable: the
messages, and what was left unread. -/
def readMessages (chunks : List (List UInt8)) : List M × List (List UInt8) :=
  match _hread : readUntil newline MAX_MESSAGE_BYTES [] chunks with
  | (line, left) =>
      if _hline : line = [] then ([], left)
      else if line.getLast? ≠ some newline then ([], left)
      else
        match serde.decode line.dropLast with
        | .error _ => ([], left)
        | .ok message =>
            let rest := readMessages left
            (message :: rest.1, rest.2)
termination_by chunks.flatten.length
decreasing_by
  have hall := congrArg List.length (readUntil_append newline MAX_MESSAGE_BYTES [] chunks)
  have hpos := List.length_pos_iff.mpr _hline
  simp only [_hread, List.length_append, List.nil_append] at hall
  omega

/-- **A loop over lines reads every message**, and stops where there is nothing left to read. -/
theorem readMessages_of_flatten (hserde : serde.Faithful) {messages : List M}
    {lines : List (List UInt8)}
    (hlines : List.Forall₂ (fun message line => serde.encode message = .ok line) messages lines)
    {chunks : List (List UInt8)} (h : chunks.flatten = lines.flatten) :
    (readMessages serde chunks).1 = messages ∧ (readMessages serde chunks).2.flatten = [] := by
  induction hlines generalizing chunks with
  | nil =>
    obtain ⟨hline, hleft⟩ := readUntil_of_nothing newline MAX_MESSAGE_BYTES h []
    rw [readMessages]
    split
    next line left hread =>
      rw [hread] at hline hleft
      rw [dif_pos hline]
      exact ⟨rfl, hleft⟩
  | @cons message line messages lines hencode _ ih =>
    obtain ⟨body, rfl, hbody, hshort, hdecode⟩ := hserde.encode hencode
    rw [List.flatten_cons, List.append_assoc, List.singleton_append] at h
    obtain ⟨left, hread, hleft⟩ := readUntil_of_flatten h hbody hshort []
    obtain ⟨hmessages, hrest⟩ := ih hleft
    rw [readMessages]
    split
    next line' left' hread' =>
      obtain ⟨rfl, rfl⟩ := Prod.mk.inj (hread'.symm.trans hread)
      rw [dif_neg (by simp), if_neg (by simp)]
      simp only [List.nil_append, List.dropLast_concat, hdecode]
      exact ⟨by rw [hmessages], hrest⟩

end Loop

/-- The daemon's loop over what a client sends. -/
def connection (serde : Serde ClientMessage) (chunks : List (List UInt8)) :
    List ClientMessage × List (List UInt8) :=
  readMessages serde chunks

/-- A client's loop over what the daemon sends. -/
def receiving (serde : Serde ServerMessage) (chunks : List (List UInt8)) :
    List ServerMessage × List (List UInt8) :=
  readMessages serde chunks

/-! ### The browser's stream -/

/-- What a browser's stream waits for. -/
inductive Arrival
  | bytes (chunk : List UInt8)
  /-- Nothing was written for an interval. -/
  | tick

def Arrival.chunk : Arrival → List UInt8
  | .bytes chunk => chunk
  | .tick => []

def Arrival.weight : Arrival → ℕ
  | .bytes chunk => chunk.length
  | .tick => 1

/-- What is written to a browser. -/
inductive Written
  | keepalive
  | event (line : List UInt8)
deriving DecidableEq

def Written.bytes : Written → List UInt8
  | .keepalive => ": keepalive\n\n".toUTF8.toList
  | .event line => "data: ".toUTF8.toList ++ line ++ [newline]

/-- The lines among what was written. -/
def events (written : List Written) : List (List UInt8) :=
  written.filterMap fun
    | .event line => some line
    | .keepalive => none

/-- Read on from `line` until it is complete, its budget is spent, nothing more arrives or the
timer cuts in: the line, what is left, and whether the timer did. -/
def readOrTick : ℕ → List UInt8 → List Arrival → List UInt8 × List Arrival × Bool
  | _, line, [] => (line, [], false)
  | _, line, .tick :: arrivals => (line, arrivals, true)
  | limit, line, .bytes chunk :: arrivals =>
      let (used, left) := scan newline limit chunk
      if Scanned newline limit used then (line ++ used, .bytes left :: arrivals, false)
      else readOrTick (limit - used.length) (line ++ used) arrivals

/-- What is left is less than there was, unless nothing was taken. -/
theorem weight_readOrTick (limit : ℕ) (line : List UInt8) (arrivals : List Arrival) :
    (readOrTick limit line arrivals).1.length +
        ((readOrTick limit line arrivals).2.1.map Arrival.weight).sum +
          (readOrTick limit line arrivals).2.2.toNat =
      line.length + (arrivals.map Arrival.weight).sum := by
  induction arrivals generalizing limit line with
  | nil => simp [readOrTick]
  | cons arrival arrivals ih =>
    cases arrival with
    | tick =>
      simp only [readOrTick, List.map_cons, List.sum_cons, Arrival.weight, Bool.toNat_true]
      omega
    | bytes chunk =>
      have hall := congrArg List.length (scan_append newline limit chunk)
      rw [List.length_append] at hall
      simp only [readOrTick]
      split
      · simp only [List.map_cons, List.sum_cons, Arrival.weight, List.length_append,
          Bool.toNat_false]
        omega
      · next hopen =>
        have hscan := scan_of_open hopen
        rw [ih, hscan]
        simp only [List.map_cons, List.sum_cons, Arrival.weight, List.length_append]
        omega

/-- Hand lines on as events, with a comment for every interval of silence. What a read that was
cut short already took counts against the budget of the line it goes on with. -/
def streamEvents (line : List UInt8) (arrivals : List Arrival) : List Written × List Arrival :=
  match _hread : readOrTick (MAX_MESSAGE_BYTES - line.length) line arrivals with
  | (whole, left, true) =>
      let rest := streamEvents whole left
      (.keepalive :: rest.1, rest.2)
  | (whole, left, false) =>
      if whole.length = line.length then ([], left)
      else if _hlast : whole.getLast? ≠ some newline then ([], left)
      else
        let rest := streamEvents [] left
        (.event whole :: rest.1, rest.2)
termination_by line.length + (arrivals.map Arrival.weight).sum
decreasing_by
  · have hweight := weight_readOrTick (MAX_MESSAGE_BYTES - line.length) line arrivals
    simp only [_hread, Bool.toNat_true] at hweight
    omega
  · have hweight := weight_readOrTick (MAX_MESSAGE_BYTES - line.length) line arrivals
    have hpos : 0 < whole.length := by
      refine List.length_pos_iff.mpr fun hempty => _hlast ?_
      rw [hempty]
      simp
    simp only [_hread, Bool.toNat_false] at hweight
    simp only [List.length_nil]
    omega

/-- All that arrives, in order. -/
def arriving (arrivals : List Arrival) : List UInt8 := (arrivals.map Arrival.chunk).flatten

variable {arrivals : List Arrival}

/-- A line is completed, or a timer cuts into it; either way it is read on to where it was. -/
theorem readOrTick_cases {limit : ℕ} {body rest : List UInt8}
    (h : arriving arrivals = body ++ newline :: rest) (hbody : newline ∉ body)
    (hlimit : body.length < limit) (line : List UInt8) :
    (∃ left, readOrTick limit line arrivals = (line ++ (body ++ [newline]), left, false) ∧
      arriving left = rest) ∨
    ∃ used body' left, readOrTick limit line arrivals = (line ++ used, left, true) ∧
      body = used ++ body' ∧ arriving left = body' ++ newline :: rest := by
  induction arrivals generalizing limit body line with
  | nil => simp [arriving] at h
  | cons arrival arrivals ih =>
    cases arrival with
    | tick => exact .inr ⟨[], body, arrivals, by simp [readOrTick], rfl, h⟩
    | bytes chunk =>
      have hsplit : chunk ++ arriving arrivals = body ++ newline :: rest := h
      rcases scan_cases hsplit hbody hlimit with
        ⟨hscan, hopen, body', rfl, hlater⟩ | ⟨left, hscan, hleft⟩
      · have hbody' : newline ∉ body' := fun hmem => hbody (List.mem_append_right _ hmem)
        have hlimit' : body'.length < limit - chunk.length := by
          rw [List.length_append] at hlimit
          omega
        have hstep : readOrTick limit line (.bytes chunk :: arrivals) =
            readOrTick (limit - chunk.length) (line ++ chunk) arrivals := by
          simp only [readOrTick, hscan]
          rw [if_neg hopen]
        rw [hstep]
        rcases ih hlater hbody' hlimit' (line ++ chunk) with
          ⟨left, hread, hleft⟩ | ⟨used, body'', left, hread, hused, hleft⟩
        · exact .inl ⟨left, by rw [hread]; simp only [List.append_assoc], hleft⟩
        · refine .inr ⟨chunk ++ used, body'', left, ?_, ?_, hleft⟩
          · rw [hread, List.append_assoc]
          · rw [hused, List.append_assoc]
      · refine .inl ⟨.bytes left :: arrivals, ?_, hleft⟩
        simp only [readOrTick, hscan]
        rw [if_pos (.inl (by simp))]

theorem readOrTick_of_nothing (limit : ℕ) (h : arriving arrivals = []) (line : List UInt8) :
    (readOrTick limit line arrivals).1 = line ∧
      arriving (readOrTick limit line arrivals).2.1 = [] := by
  induction arrivals generalizing limit with
  | nil => exact ⟨rfl, rfl⟩
  | cons arrival arrivals ih =>
    cases arrival with
    | tick => exact ⟨rfl, h⟩
    | bytes chunk =>
      obtain ⟨rfl, hrest⟩ := List.append_eq_nil_iff.mp (show chunk ++ arriving arrivals = [] from h)
      have hscan : scan newline limit ([] : List UInt8) = ([], []) := by
        cases limit <;> rfl
      simp only [readOrTick, hscan, List.append_nil]
      split
      · exact ⟨rfl, hrest⟩
      · exact ih _ hrest

/-- A line within the budget of every reader. -/
def Framed (line : List UInt8) : Prop :=
  ∃ body, line = body ++ [newline] ∧ newline ∉ body ∧ body.length < MAX_MESSAGE_BYTES

/-- **One read of the stream**, with a part of the next line already taken: there is nothing more,
the next line is completed, or the timer cuts in and a longer part is taken. -/
theorem readOrTick_of_lines {lines : List (List UInt8)} (hlines : ∀ line ∈ lines, Framed line)
    {line : List UInt8} (hline : newline ∉ line)
    (h : line ++ arriving arrivals = lines.flatten) :
    ∃ left,
      (lines = [] ∧ readOrTick (MAX_MESSAGE_BYTES - line.length) line arrivals = (line, left, false) ∧
        arriving left = []) ∨
      (∃ first others, lines = first :: others ∧ line.length < first.length ∧
        readOrTick (MAX_MESSAGE_BYTES - line.length) line arrivals = (first, left, false) ∧
          arriving left = others.flatten) ∨
      ∃ part, readOrTick (MAX_MESSAGE_BYTES - line.length) line arrivals = (part, left, true) ∧
        newline ∉ part ∧ part ++ arriving left = lines.flatten := by
  cases lines with
  | nil =>
    obtain ⟨rfl, hnone⟩ := List.append_eq_nil_iff.mp h
    obtain ⟨hpart, hleft⟩ :=
      readOrTick_of_nothing (MAX_MESSAGE_BYTES - ([] : List UInt8).length) hnone []
    generalize readOrTick (MAX_MESSAGE_BYTES - ([] : List UInt8).length) [] arrivals = read at *
    obtain ⟨part, left, ticked⟩ := read
    simp only at hpart hleft
    subst hpart
    cases ticked with
    | true => exact ⟨left, .inr (.inr ⟨[], rfl, hline, hleft⟩)⟩
    | false => exact ⟨left, .inl ⟨rfl, rfl, hleft⟩⟩
  | cons first others =>
    obtain ⟨body, rfl, hbody, hshort⟩ := hlines first List.mem_cons_self
    rw [List.flatten_cons, List.append_assoc, List.singleton_append] at h
    -- the part that was taken ends before the newline
    obtain ⟨later, rfl, hlater⟩ : ∃ later, body = line ++ later ∧
        arriving arrivals = later ++ newline :: others.flatten := by
      rcases List.append_eq_append_iff.mp h with ⟨later, hsplit, hlater⟩ | ⟨piece, hpart, hrest⟩
      · exact ⟨later, hsplit, hlater⟩
      · cases piece with
        | nil => exact ⟨[], by simpa using hpart.symm, by simpa using hrest.symm⟩
        | cons b piece =>
          obtain ⟨rfl, -⟩ := List.cons.inj hrest
          exact absurd (by rw [hpart]; simp) hline
    have hlater' : newline ∉ later := fun hmem => hbody (List.mem_append_right _ hmem)
    have hbudget : later.length < MAX_MESSAGE_BYTES - line.length := by
      rw [List.length_append] at hshort
      omega
    rcases readOrTick_cases hlater hlater' hbudget line with
      ⟨left, hread, hleft⟩ | ⟨used, later', left, hread, rfl, hleft⟩
    · refine ⟨left, .inr (.inl ⟨_, others, rfl, ?_, ?_, hleft⟩)⟩
      · simp only [List.length_append, List.length_singleton]
        omega
      · rw [hread, List.append_assoc]
    · refine ⟨left, .inr (.inr ⟨line ++ used, hread, ?_, ?_⟩)⟩
      · intro hmem
        exact hbody (by rw [← List.append_assoc]; exact List.mem_append_left _ hmem)
      · rw [hleft, List.flatten_cons]
        simp only [List.append_assoc, List.singleton_append]

/-- **The stream hands on every line once**, whole and in order, wherever the timer cuts in. -/
theorem streamEvents_of_arriving {lines : List (List UInt8)}
    (hlines : ∀ line ∈ lines, Framed line) {line : List UInt8}
    (hline : newline ∉ line) (h : line ++ arriving arrivals = lines.flatten) :
    events (streamEvents line arrivals).1 = lines ∧
      arriving (streamEvents line arrivals).2 = [] := by
  fun_induction streamEvents line arrivals generalizing lines with
  | case1 line arrivals whole left hread rest =>
    rename_i ih
    obtain ⟨left', ⟨-, hread', -⟩ | ⟨first, others, -, -, hread', -⟩ |
      ⟨part, hread', hpart, hleft⟩⟩ := readOrTick_of_lines hlines hline h
    · cases hread.symm.trans hread'
    · cases hread.symm.trans hread'
    · obtain ⟨rfl, hsame⟩ := Prod.mk.inj (hread.symm.trans hread')
      obtain ⟨rfl, -⟩ := Prod.mk.inj hsame
      exact ih hlines hpart hleft
  | case2 line arrivals whole left hread hlength =>
    obtain ⟨left', ⟨rfl, hread', hleft⟩ | ⟨first, others, -, hlonger, hread', -⟩ |
      ⟨part, hread', -, -⟩⟩ := readOrTick_of_lines hlines hline h
    · obtain ⟨-, hsame⟩ := Prod.mk.inj (hread.symm.trans hread')
      obtain ⟨rfl, -⟩ := Prod.mk.inj hsame
      exact ⟨rfl, hleft⟩
    · obtain ⟨rfl, -⟩ := Prod.mk.inj (hread.symm.trans hread')
      omega
    · cases hread.symm.trans hread'
  | case3 line arrivals whole left hread hlength hlast =>
    obtain ⟨left', ⟨-, hread', -⟩ | ⟨first, others, rfl, -, hread', -⟩ | ⟨part, hread', -, -⟩⟩ :=
      readOrTick_of_lines hlines hline h
    · obtain ⟨rfl, -⟩ := Prod.mk.inj (hread.symm.trans hread')
      exact absurd rfl hlength
    · obtain ⟨rfl, -⟩ := Prod.mk.inj (hread.symm.trans hread')
      obtain ⟨body, rfl, -⟩ := hlines whole List.mem_cons_self
      exact absurd List.getLast?_concat hlast
    · cases hread.symm.trans hread'
  | case4 line arrivals whole left hread hlength hlast rest =>
    rename_i ih
    obtain ⟨left', ⟨-, hread', -⟩ | ⟨first, others, rfl, -, hread', hleft⟩ |
      ⟨part, hread', -, -⟩⟩ := readOrTick_of_lines hlines hline h
    · obtain ⟨rfl, -⟩ := Prod.mk.inj (hread.symm.trans hread')
      exact absurd rfl hlength
    · obtain ⟨rfl, hsame⟩ := Prod.mk.inj (hread.symm.trans hread')
      obtain ⟨rfl, -⟩ := Prod.mk.inj hsame
      obtain ⟨hevents, hrest⟩ := ih (fun line hmem => hlines line (List.mem_cons_of_mem _ hmem))
        List.not_mem_nil hleft
      refine ⟨?_, hrest⟩
      rw [← hevents]
      rfl
    · cases hread.symm.trans hread'

/-! ### Lossless -/

/-- **Framing is lossless**: whatever is encoded is read back as it was by each of the readers, in
order and however it arrives, and each reads until there is nothing left. -/
theorem framing_lossless (requests : Serde ClientMessage) (replies : Serde ServerMessage)
    (hrequests : requests.Faithful) (hreplies : replies.Faithful) :
    (∀ messages lines,
      List.Forall₂ (fun message line => requests.encode message = .ok line) messages lines →
      ∀ chunks, chunks.flatten = lines.flatten →
        (connection requests chunks).1 = messages ∧
          (connection requests chunks).2.flatten = []) ∧
    ∀ messages lines,
      List.Forall₂ (fun message line => replies.encode message = .ok line) messages lines →
      (∀ chunks, chunks.flatten = lines.flatten →
        (receiving replies chunks).1 = messages ∧ (receiving replies chunks).2.flatten = []) ∧
      ∀ arrivals, arriving arrivals = lines.flatten →
        (events (streamEvents [] arrivals).1).map (fun line => replies.decode line.dropLast) =
          messages.map .ok ∧
        events (streamEvents [] arrivals).1 = lines ∧
        arriving (streamEvents [] arrivals).2 = [] := by
  refine ⟨fun messages lines hlines chunks h => ?_, fun messages lines hlines => ⟨fun chunks h => ?_,
    fun arrivals h => ?_⟩⟩
  · exact readMessages_of_flatten requests hrequests hlines h
  · exact readMessages_of_flatten replies hreplies hlines h
  · have hframed : (∀ line ∈ lines, Framed line) ∧
        lines.map (fun line => replies.decode line.dropLast) = messages.map .ok := by
      clear h
      induction hlines with
      | nil => exact ⟨fun line hmem => absurd hmem List.not_mem_nil, rfl⟩
      | cons hencode _ ih =>
        obtain ⟨body, rfl, hbody, hshort, hdecode⟩ := hreplies.encode hencode
        refine ⟨fun line hmem => ?_, ?_⟩
        · rcases List.mem_cons.mp hmem with rfl | hmem
          · exact ⟨body, rfl, hbody, hshort⟩
          · exact ih.1 line hmem
        · rw [List.map_cons, List.map_cons, List.dropLast_concat, hdecode, ih.2]
    obtain ⟨hevents, hleft⟩ := streamEvents_of_arriving hframed.1 List.not_mem_nil h
    rw [hevents]
    exact ⟨hframed.2, rfl, hleft⟩

/-! ### A run -/

/-- The library, as far as one message goes. -/
def Serde.only {M : Type} [DecidableEq M] (message : M) (json : String) : Serde M where
  toVec other := if other = message then .ok json.toUTF8.toList else .error "not this one"
  fromSlice line := if line = json.toUTF8.toList then .ok message else .error "not this one"

theorem Serde.faithful_only {M : Type} [DecidableEq M] (message : M) {json : String}
    (h : newline ∉ json.toUTF8.toList) : (Serde.only message json).Faithful where
  newlineFree {other line} hvec := by
    simp only [Serde.only] at hvec
    split at hvec
    · rw [← Except.ok.inj hvec]
      exact h
    · cases hvec
  roundTrip {other line} hvec := by
    simp only [Serde.only] at hvec ⊢
    split at hvec
    · next hother => rw [if_pos (Except.ok.inj hvec).symm, hother]
    · cases hvec

def subscribing : Serde ClientMessage := .only .subscribeState "\x7b\"type\":\"state.subscribe\"\x7d"

def finishing : Serde ServerMessage :=
  .only (.downloadFinished 7) "\x7b\"type\":\"download.finished\",\"request\":7\x7d"

/-- The daemon reads two requests out of one piece and a half, and a browser is handed a line that
the timer cut in two. -/
theorem framing_lossless_cut :
    let request := "\x7b\"type\":\"state.subscribe\"\x7d\n".toUTF8.toList
    let reply := "\x7b\"type\":\"download.finished\",\"request\":7\x7d\n".toUTF8.toList
    (connection subscribing [request ++ request.take 5, request.drop 5]).1 =
        [.subscribeState, .subscribeState] ∧
      (receiving finishing [reply]).1 = [.downloadFinished 7] ∧
      events (streamEvents [] [.bytes (reply.take 9), .tick, .bytes (reply.drop 9)]).1 =
        [reply] := by
  have hrequests : subscribing.Faithful := Serde.faithful_only _ (by decide +kernel)
  have hreplies : finishing.Faithful := Serde.faithful_only _ (by decide +kernel)
  obtain ⟨hrequest, hreply⟩ := framing_lossless subscribing finishing hrequests hreplies
  have hsent : subscribing.encode .subscribeState =
      .ok "\x7b\"type\":\"state.subscribe\"\x7d\n".toUTF8.toList := by decide +kernel
  have hanswered : finishing.encode (.downloadFinished 7) =
      .ok "\x7b\"type\":\"download.finished\",\"request\":7\x7d\n".toUTF8.toList := by decide +kernel
  obtain ⟨hreceived, hstreamed⟩ := hreply _ _ (.cons hanswered .nil)
  exact ⟨(hrequest _ _ (.cons hsent (.cons hsent .nil)) _ (by decide +kernel)).1,
    (hreceived _ (by decide +kernel)).1, (hstreamed _ (by decide +kernel)).2.1⟩

end SuperHerdr
