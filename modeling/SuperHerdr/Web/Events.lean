import SuperHerdr.Library.EventStream
import SuperHerdr.Protocol.Wire

/-!
# The events a browser is sent

The daemon's lines are handed on to a browser as server-sent events, one line of data each, with a
comment for every interval of silence. A comment is written between two events, even where the timer cut
into the reading of the second: what was read of it stays where it is. So whatever the pieces are that
the lines arrive in and wherever the timer cuts in, a browser reads these lines, once each and whole, and
nothing else but comments (`keepalives_never_damage`).
-/

namespace SuperHerdr

open Framing Transducer EventStream

/-- A line of the protocol: JSON text as it is written, which has no control character that is not
escaped, and is within the budget of a line. -/
structure ProtocolLine where
  json : List UInt8
  escaped : ∀ byte ∈ json, 0x20 ≤ byte
  short : json.length < MAX_MESSAGE_BYTES

namespace ProtocolLine

def line (self : ProtocolLine) : List UInt8 := self.json ++ [newline]

theorem inline (self : ProtocolLine) : Inline self.json :=
  ⟨fun hmem => absurd (self.escaped lineFeed hmem) (by decide),
    fun hmem => absurd (self.escaped carriageReturn hmem) (by decide)⟩

theorem framed (self : ProtocolLine) : Framed self.line :=
  ⟨self.json, rfl, self.inline.1, self.short⟩

theorem exists_of_encode {M : Type*} {serde : Serde M}
    (hescaped : ∀ {message json}, serde.toVec message = .ok json → ∀ byte ∈ json, 0x20 ≤ byte)
    {message : M} {text : List UInt8} (hencode : serde.encode message = .ok text) :
    ∃ line : ProtocolLine, line.line = text := by
  rw [Serde.encode] at hencode
  split at hencode
  · cases hencode
  · next json hjson =>
    split at hencode
    · cases hencode
    · next hshort =>
      exact ⟨⟨json, hescaped hjson, Nat.not_le.mp hshort⟩, Except.ok.inj hencode⟩

end ProtocolLine

def responseHead : List UInt8 :=
  "HTTP/1.1 200 OK\r\ncontent-type: text/event-stream\r\ncache-control: no-store\r\nconnection: close\r\n\r\n".toUTF8.toList

/-- What a browser is sent while this arrives from the daemon. -/
def served (arrivals : List Arrival) : List UInt8 :=
  responseHead ++ (streamEvents [] arrivals).1.flatMap Written.bytes

/-- The body of the response. -/
def bodyOf (response : List UInt8) : List UInt8 := response.drop responseHead.length

/-! ### A line or nothing -/

namespace Spoken

/-- What is written for a line, and for an interval of silence. -/
def written : Option ProtocolLine → Written
  | some line => .event line.line
  | none => .keepalive

/-- The lines of text it is written as. -/
def spelled : Option ProtocolLine → List (List UInt8)
  | some line => messageLines line.json
  | none => commentLines (word " keepalive")

/-- What a browser reads. -/
def said : Option ProtocolLine → Item
  | some line => .message (.plain line.json)
  | none => .comment (word " keepalive")

variable (spoken : Option ProtocolLine)

theorem bytes_written :
    (written spoken).bytes = (spelled spoken).flatMap fun line => line ++ [lineFeed] := by
  cases spoken with
  | some line => simp [written, Written.bytes, spelled, messageLines, ProtocolLine.line, word,
      newline, lineFeed]
  | none =>
    simp only [written, Written.bytes, spelled]
    decide +kernel

theorem inline_spelled : ∀ line ∈ spelled spoken, Inline line := by
  have hempty : Inline [] := ⟨List.not_mem_nil, List.not_mem_nil⟩
  cases spoken with
  | some line =>
    have hword : Inline (word "data: ") := by
      rw [Inline]
      decide +kernel
    intro text htext
    rcases List.mem_pair.mp htext with rfl | rfl
    · refine ⟨fun hmem => ?_, fun hmem => ?_⟩
      · exact (List.mem_append.mp hmem).elim hword.1 line.inline.1
      · exact (List.mem_append.mp hmem).elim hword.2 line.inline.2
    · exact hempty
  | none =>
    have hword : Inline (colon :: word " keepalive") := by
      rw [Inline]
      decide +kernel
    intro text htext
    rcases List.mem_pair.mp htext with rfl | rfl
    · exact hword
    · exact hempty

theorem exec_spelled : exec readLine .start (spelled spoken) = (.start, [said spoken]) := by
  cases spoken with
  | some line => exact exec_messageLines line.json
  | none => exact exec_commentLines (word " keepalive")

end Spoken

open Spoken

theorem exec_flatMap_spelled (spoken : List (Option ProtocolLine)) :
    exec readLine .start (spoken.flatMap spelled) = (.start, spoken.map said) := by
  induction spoken with
  | nil => rfl
  | cons one spoken ih =>
    rw [List.flatMap_cons, exec_append, exec_spelled, ih, List.map_cons, List.singleton_append]

theorem head_written (one : Option ProtocolLine) :
    (written one).bytes.head? = some (if one.isSome then 100 else 58) := by
  rw [bytes_written]
  cases one with
  | some line =>
    have hword : word "data: " = 100 :: word "ata: " := by decide +kernel
    simp only [spelled, messageLines, hword]
    rfl
  | none => rfl

/-- **What is written is read back**, line by line of text and item by item. -/
theorem parse_written (spoken : List (Option ProtocolLine)) :
    (exec readByte .start ((spoken.map written).flatMap Written.bytes)).2 = spoken.flatMap spelled ∧
      parse ((spoken.map written).flatMap Written.bytes) = spoken.map said := by
  have hbytes : (spoken.map written).flatMap Written.bytes =
      (spoken.flatMap spelled).flatMap fun line => line ++ [lineFeed] := by
    rw [List.flatMap_map, List.flatMap_assoc]
    exact List.flatMap_congr fun one _ => bytes_written one
  have hinline : ∀ line ∈ spoken.flatMap spelled, Inline line := by
    intro line hline
    obtain ⟨one, -, hone⟩ := List.mem_flatMap.mp hline
    exact inline_spelled one line hone
  have hmark : withoutMark ((spoken.map written).flatMap Written.bytes) =
      (spoken.map written).flatMap Written.bytes := by
    refine withoutMark_of_head ?_
    cases spoken with
    | nil => exact Option.some_ne_none _ |>.symm
    | cons one spoken =>
      rw [List.map_cons, List.flatMap_cons, List.head?_append, head_written, Option.some_or]
      cases one with
      | some line => simp
      | none => simp
  rw [parse, hmark, hbytes, exec_lines hinline, exec_flatMap_spelled]
  exact ⟨rfl, rfl⟩

/-! ### The stream -/

theorem exists_spoken {lines : List ProtocolLine} {done : List Written}
    (h : events done = lines.map ProtocolLine.line) :
    ∃ spoken : List (Option ProtocolLine), spoken.reduceOption = lines ∧ done = spoken.map written := by
  induction done generalizing lines with
  | nil =>
    obtain rfl := List.map_eq_nil_iff.mp h.symm
    exact ⟨[], rfl, rfl⟩
  | cons one done ih =>
    cases one with
    | keepalive =>
      obtain ⟨spoken, hspoken, rfl⟩ := ih h
      exact ⟨none :: spoken, hspoken, rfl⟩
    | event text =>
      cases lines with
      | nil => cases h
      | cons line lines =>
        obtain ⟨rfl, hrest⟩ := List.cons.inj h
        obtain ⟨spoken, rfl, rfl⟩ := ih hrest
        exact ⟨some line :: spoken, rfl, rfl⟩

theorem length_readOrTick (limit : ℕ) (line : List UInt8) (arrivals : List Arrival) :
    (readOrTick limit line arrivals).1.length ≤ line.length + limit := by
  induction arrivals generalizing limit line with
  | nil => exact Nat.le_add_right _ _
  | cons arrival arrivals ih =>
    cases arrival with
    | tick => exact Nat.le_add_right _ _
    | bytes chunk =>
      have hscan := length_scan newline limit chunk
      simp only [readOrTick]
      split
      · rw [List.length_append]
        omega
      · have hrest := ih (limit - (scan newline limit chunk).1.length)
          (line ++ (scan newline limit chunk).1)
        rw [List.length_append] at hrest
        omega

/-- **No line over the budget is handed on**, whatever arrives and however often the timer cuts in: the
part that was read counts against the line it is of. -/
theorem length_of_mem_events {line : List UInt8} {arrivals : List Arrival}
    (hline : line.length ≤ MAX_MESSAGE_BYTES) :
    ∀ whole ∈ events (streamEvents line arrivals).1, whole.length ≤ MAX_MESSAGE_BYTES := by
  have hread : ∀ {line whole : List UInt8} {arrivals left : List Arrival} {ticked : Bool},
      line.length ≤ MAX_MESSAGE_BYTES →
      readOrTick (MAX_MESSAGE_BYTES - line.length) line arrivals = (whole, left, ticked) →
      whole.length ≤ MAX_MESSAGE_BYTES := by
    intro line whole arrivals left ticked hline hread
    have hlength := length_readOrTick (MAX_MESSAGE_BYTES - line.length) line arrivals
    rw [hread] at hlength
    simp only at hlength
    omega
  fun_induction streamEvents line arrivals with
  | case1 line arrivals whole left hpart rest ih => exact ih (hread hline hpart)
  | case2 line arrivals whole left hpart hlength =>
    intro other hother
    cases hother
  | case3 line arrivals whole left hpart hlength hlast =>
    intro other hother
    cases hother
  | case4 line arrivals whole left hpart hlength hlast rest ih =>
    intro other hother
    rcases List.mem_cons.mp hother with rfl | hother
    · exact hread hline hpart
    · exact ih (Nat.zero_le _) other hother

/-- **Keepalives never damage the stream.** Whatever arrives, no line that is handed on is over the
budget. And where the lines of the protocol arrive, in whatever pieces and with the timer cutting in
wherever it does, a browser reads these lines as messages, once each, whole and in order, and comments
between them; every line of text it is sent is one of a message or of a comment. -/
theorem keepalives_never_damage (arrivals : List Arrival) :
    (∀ line ∈ events (streamEvents [] arrivals).1, line.length ≤ MAX_MESSAGE_BYTES) ∧
    ∀ lines : List ProtocolLine, arriving arrivals = (lines.map ProtocolLine.line).flatten →
      ∃ spoken : List (Option ProtocolLine), spoken.reduceOption = lines ∧
        parse (bodyOf (served arrivals)) = spoken.map said ∧
        (exec readByte .start (bodyOf (served arrivals))).2 = spoken.flatMap spelled := by
  refine ⟨length_of_mem_events (Nat.zero_le _), fun lines h => ?_⟩
  have hframed : ∀ line ∈ lines.map ProtocolLine.line, Framed line := by
    intro line hline
    obtain ⟨held, -, rfl⟩ := List.mem_map.mp hline
    exact held.framed
  obtain ⟨hevents, -⟩ := streamEvents_of_arriving hframed List.not_mem_nil h
  obtain ⟨spoken, hspoken, hdone⟩ := exists_spoken hevents
  obtain ⟨htext, hitems⟩ := parse_written spoken
  have hbody : bodyOf (served arrivals) = (spoken.map written).flatMap Written.bytes := by
    rw [bodyOf, served, List.drop_left, hdone]
  rw [hbody]
  exact ⟨spoken, hspoken, hitems, htext⟩

/-- Two lines arrive in three pieces, and the timer cuts into the first twice. -/
theorem keepalives_never_damage_cut :
    let first : ProtocolLine := ⟨"\x7b\"type\":\"client.detached\"\x7d".toUTF8.toList, by decide +kernel, by decide +kernel⟩
    let second : ProtocolLine := ⟨"\x7b\"type\":\"attention.history\"\x7d".toUTF8.toList, by decide +kernel, by decide +kernel⟩
    let arrivals : List Arrival := [.bytes (first.line.take 5), .tick, .bytes ((first.line.drop 5).take 4),
      .tick, .bytes (first.line.drop 9 ++ second.line)]
    (∃ spoken : List (Option ProtocolLine), spoken.reduceOption = [first, second] ∧
      parse (bodyOf (served arrivals)) = spoken.map said ∧
      (exec readByte .start (bodyOf (served arrivals))).2 = spoken.flatMap spelled) ∧
    parse (bodyOf (served arrivals)) = [.comment (word " keepalive"), .comment (word " keepalive"),
      .message (.plain first.json), .message (.plain second.json)] := by
  intro first second arrivals
  exact ⟨(keepalives_never_damage arrivals).2 [first, second] (by decide +kernel), by decide +kernel⟩

end SuperHerdr
