import SuperHerdr.Library.Utf8
import SuperHerdr.Files.Listing
import SuperHerdr.Protocol.Wire
import SuperHerdr.Bridge.Relay

/-!
# Heads of requests

The bridge reads the head of a pairing request and as much of a body as that announces, and forwards
both with another request line and a header more; the daemon then reads the head it is given, and as
much of a body as it finds announced there. The two look for `Content-Length` in ways of their own: the
bridge takes the first value that is a number, in whatever line of the head, and the daemon takes the
last header ahead of a blank line, and zero for what is no number. Besides, the bridge writes its header
into the head two bytes ahead of its end. That is its blank line where the head's lines end with `\r\n`,
but where they end with `\n` it joins the last header.

`FramedAlike` says of a head that none of this shows in it, and `pair_framing_agrees_iff` that the two
lengths are equal for those heads only.
-/

namespace SuperHerdr

namespace Http

open Records Texts Utf8

def MAX_HTTP_HEAD_BYTES : ℕ := 16 * 1024
def MAX_PAIR_BODY_BYTES : ℕ := 1024
def MAX_TUNNEL_CHUNK_BYTES : ℕ := 32 * 1024
def MAX_HEADER_BYTES : ℕ := 16 * 1024
def MAX_SESSION_CHARS : ℕ := 64

/-- The value of a header, if a line is one of this name. -/
def headerValue (name : String) (line : List Char) : Option (List Char) := do
  let (given, value) ← splitOnce ':' line
  if eqIgnoreAsciiCase given name.toList then some value else none

/-! ### The bridge -/

def EndsHead (head : List UInt8) : Prop := [13, 10, 13, 10] <:+ head ∨ [10, 10] <:+ head

instance (head : List UInt8) : Decidable (EndsHead head) := inferInstanceAs (Decidable (_ ∨ _))

/-- Read on from `head`, byte by byte: the head, and what is left of the stream. -/
def readHttpHead (head : List UInt8) : List UInt8 → Option (List UInt8 × List UInt8)
  | [] => none
  | byte :: stream =>
      if MAX_HTTP_HEAD_BYTES ≤ head.length then none
      else if EndsHead (head ++ [byte]) then some (head ++ [byte], stream)
      else readHttpHead (head ++ [byte]) stream

structure ParsedRequest where
  method : List Char
  path : List Char
  length : ℕ
deriving DecidableEq

def parseRequest (head : List UInt8) : Option ParsedRequest := do
  let text ← (fromUtf8 head).map String.toList
  match splitWhitespace ((lines text).headD []) with
  | method :: path :: _ =>
      let length := (lines text).findSome? fun line =>
        (headerValue "content-length" line).bind fun value => parseUsize (trim value)
      some ⟨method, path, length.getD 0⟩
  | _ => none

/-- The header that says where a request came through. -/
def FORWARDED : String := "X-Forwarded-Proto: https\r\n"

def rewriteRequestTarget (head : List UInt8) (localTarget : String) : Option (List UInt8) := do
  let text ← (fromUtf8 head).map String.toList
  let (first, rest) ← splitOnce '\n' text
  match splitWhitespace first with
  | method :: _ :: version :: _ =>
      let rewritten := encode (method ++ ' ' :: localTarget.toList ++ ' ' :: version ++ ['\r', '\n']) ++
        encode rest
      if rewritten.length < 2 then none
      else
        let insertion := rewritten.length - 2
        let rewritten := rewritten.take insertion ++ encode FORWARDED.toList ++
          rewritten.drop insertion
        if rewritten.length ≤ MAX_HTTP_HEAD_BYTES then some rewritten else none
  | _ => none

/-- A pairing request as it is forwarded. -/
structure Pairing where
  head : List UInt8
  length : ℕ
  request : List UInt8
deriving DecidableEq

/-- What the bridge makes of what a device sends. Between reading the body and rewriting the head it
looks a route up, under the code in the body, and that does not depend on the head. -/
def pairDevice (stream : List UInt8) : Option Pairing := do
  let (head, stream) ← readHttpHead [] stream
  let request ← parseRequest head
  if request.method = "POST".toList ∧ request.path = "/_bridge/pair".toList then
    if request.length = 0 ∨ MAX_PAIR_BODY_BYTES < request.length then none
    else if stream.length < request.length then none
    else
      let rewritten ← rewriteRequestTarget head "/pair"
      let forwarded := rewritten ++ stream.take request.length
      if MAX_TUNNEL_CHUNK_BYTES < forwarded.length then none
      else some ⟨head, request.length, forwarded⟩
  else none

/-! ### The daemon -/

/-- The bytes at the beginning of what is no UTF-8 that one replacement character stands for. -/
def invalidLength (bytes : List UInt8) : ℕ :=
  let continues (lower upper : UInt8) (byte : Option UInt8) : Bool :=
    byte.any fun byte => lower ≤ byte && byte ≤ upper
  let width : Option (ℕ × UInt8 × UInt8) := bytes.head?.bind fun first =>
    if first = 0xe0 then some (3, 0xa0, 0xbf)
    else if 0xe1 ≤ first ∧ first ≤ 0xec ∨ 0xee ≤ first ∧ first ≤ 0xef then some (3, 0x80, 0xbf)
    else if first = 0xed then some (3, 0x80, 0x9f)
    else if first = 0xf0 then some (4, 0x90, 0xbf)
    else if 0xf1 ≤ first ∧ first ≤ 0xf3 then some (4, 0x80, 0xbf)
    else if first = 0xf4 then some (4, 0x80, 0x8f)
    else none
  match width with
  | none => 1
  | some (width, lower, upper) =>
      if !continues lower upper bytes[1]? then 1
      else if width = 4 ∧ continues 0x80 0xbf bytes[2]? then 3 else 2

/-- At most so many characters of what may be no UTF-8. -/
def lossyChars : ℕ → List UInt8 → List Char
  | 0, _ => []
  | _ + 1, [] => []
  | fuel + 1, byte :: bytes =>
      match (⟨(byte :: bytes).toArray⟩ : ByteArray).utf8DecodeChar? 0 with
      | some c => c :: lossyChars fuel ((byte :: bytes).drop c.utf8Size)
      | none => '\uFFFD' :: lossyChars fuel ((byte :: bytes).drop (invalidLength (byte :: bytes)))

def fromUtf8Lossy (bytes : List UInt8) : List Char :=
  match fromUtf8 bytes with
  | some text => text.toList
  | none => lossyChars bytes.length bytes

/-- Headers that mean TLS or a private-network proxy relayed the request. -/
def FORWARDING_HEADERS : List String :=
  ["x-forwarded-for", "x-forwarded-proto", "x-forwarded-host", "forwarded", "tailscale-user-login"]

structure Request where
  method : List Char
  path : List Char
  session : Option (List Char)
  token : Option (List Char)
  forwarded : Bool
  length : ℕ
deriving DecidableEq

def sanitizedSession (value : List Char) : List Char :=
  (value.filter fun c => c.isAlphanum || c == '-').take MAX_SESSION_CHARS

/-- A token is hex from this daemon, so anything else is not one and is dropped rather than
compared. -/
def sanitizedToken (value : List Char) : List Char := (value.filter Bridge.isHexdigit).take 128

/-- The fields of a head that its headers set. -/
structure Fields where
  length : ℕ
  token : Option (List Char)
  forwarded : Bool
deriving DecidableEq

def Fields.read (fields : Fields) (line : List Char) : Fields :=
  match splitOnce ':' line with
  | none => fields
  | some (name, value) =>
      { length :=
          if eqIgnoreAsciiCase name "content-length".toList then (parseUsize (trim value)).getD 0
          else fields.length
        forwarded :=
          fields.forwarded || FORWARDING_HEADERS.any fun header => eqIgnoreAsciiCase name header.toList
        token :=
          if eqIgnoreAsciiCase name "cookie".toList then
            (((value.splitOn ';').filterMap fun pair =>
              stripPrefixText "sh_device=" (trim pair)).map sanitizedToken).find? fun token => token ≠ []
          else fields.token }

def Blank (line : List UInt8) : Prop := line = [13, 10] ∨ line = [10]

instance (line : List UInt8) : Decidable (Blank line) := inferInstanceAs (Decidable (_ ∨ _))

/-- Read on from `head`, line by line, to the first blank one. Each line takes a byte at least, so there
is no more than one for each byte that a head may have. -/
def headFrom : ℕ → List UInt8 → List (List UInt8) → Option (List UInt8 × List (List UInt8))
  | 0, _, _ => none
  | fuel + 1, head, chunks =>
      let remaining := MAX_HEADER_BYTES - head.length
      if remaining = 0 then none
      else
        let (line, chunks) := Framing.readUntil newline remaining [] chunks
        if line = [] then none
        else if Blank line then some (head ++ line, chunks)
        else headFrom fuel (head ++ line) chunks

/-- The request that arrives, however it does, and what is left behind its head. -/
def readRequest (chunks : List (List UInt8)) : Option (Request × List (List UInt8)) := do
  let (head, chunks) ← headFrom MAX_HEADER_BYTES [] chunks
  let text := lines (fromUtf8Lossy head)
  let start := splitWhitespace (text.headD [])
  let target := start.getD 1 []
  let (path, query) := (splitOnce '?' target).getD (target, [])
  let session := (((query.splitOn '&').findSome? (stripPrefixText "session=")).map
    sanitizedSession).filter fun session => session ≠ []
  let fields := text.tail.foldl Fields.read ⟨0, none, false⟩
  return (⟨start.headD [], path, session, fields.token, fields.forwarded,
    min fields.length MAX_MESSAGE_BYTES⟩, chunks)

/-! ### Lines -/

theorem encode_framed (raws : List (List Char)) :
    encode (framed '\n' raws) = framed newline (raws.map encode) := by
  rw [framed, framed, encode_flatMap, List.flatMap_map]
  exact List.flatMap_congr fun raw _ => encode_append raw ['\n']

theorem newline_not_mem_encode {raw : List Char} (h : '\n' ∉ raw) : newline ∉ encode raw := by
  have hmem : newline ∈ encode raw ↔ '\n' ∈ raw := mem_encode_iff (c := '\n') (by decide)
  exact fun hline => h (hmem.mp hline)

theorem of_readHttpHead {front stream head rest : List UInt8}
    (h : readHttpHead front stream = some (head, rest)) : EndsHead head := by
  induction stream generalizing front with
  | nil => simp [readHttpHead] at h
  | cons byte stream ih =>
    rw [readHttpHead] at h
    split at h
    · simp at h
    · split at h
      · next hends =>
        obtain ⟨rfl, -⟩ := Prod.mk.inj (Option.some.inj h)
        exact hends
      · exact ih h

/-- A head is lines, of which the last is blank. -/
theorem exists_framed_of_endsHead {text : List Char} (h : EndsHead (encode text)) :
    ∃ raws last, text = framed '\n' (raws ++ [last]) ∧ raws ≠ [] ∧ (∀ raw ∈ raws, '\n' ∉ raw) ∧
      (last = ['\r'] ∨ last = []) := by
  rcases h with ⟨bytes, hbytes⟩ | ⟨bytes, hbytes⟩
  · obtain ⟨front, rfl, -⟩ := @exists_of_encode_eq_append _ ['\r', '\n', '\r', '\n'] _
      (by simp) hbytes.symm
    obtain ⟨raws, hraws, hfree⟩ := exists_framed '\n' (front ++ ['\r'])
    refine ⟨raws, ['\r'], ?_, ?_, hfree, .inl rfl⟩
    · rw [framed_append, ← hraws]
      simp [framed]
    · rintro rfl
      simp [framed] at hraws
  · obtain ⟨front, rfl, -⟩ := @exists_of_encode_eq_append _ ['\n', '\n'] _ (by simp)
      hbytes.symm
    obtain ⟨raws, hraws, hfree⟩ := exists_framed '\n' front
    refine ⟨raws, [], ?_, ?_, hfree, .inr rfl⟩
    · rw [framed_append, ← hraws]
      simp [framed]
    · rintro rfl
      simp [framed] at hraws

/-! ### The lengths that a head announces -/

def contentLengths (lines : List (List Char)) : List (List Char) :=
  lines.filterMap (headerValue "content-length")

def parseLength (value : List Char) : Option ℕ := parseUsize (trim value)

/-- The lines behind the request line, to the first blank one. -/
def headers (text : List Char) : List (List Char) := (lines text).tail.takeWhile (· ≠ [])

/-- The length that the last of some headers announces. -/
def lastLength (headers : List (List Char)) : Option ℕ :=
  (contentLengths headers).getLast?.bind parseLength

/-- The length that the first of some lines announces that announces one. -/
def firstLength (lines : List (List Char)) : Option ℕ := (contentLengths lines).findSome? parseLength

/-- The bridge's header joins a `Content-Length`: the head ends without a `\r`, this is the last of its
headers, and no blank line stands ahead of it. -/
def Glued (text : List Char) : Prop :=
  ['\n', '\n'] <:+ text ∧ (headers text).length + 2 = (lines text).length ∧
    ∃ line ∈ (headers text).getLast?, (headerValue "content-length" line).isSome

/-- A head of which both sides read the same length. -/
def FramedAlike (text : List Char) : Prop :=
  lastLength (headers text) = firstLength (lines text) ∧ ¬Glued text

theorem length_read (fields : Fields) (line : List Char) :
    (fields.read line).length =
      ((headerValue "content-length" line).map fun value => (parseLength value).getD 0).getD
        fields.length := by
  rw [Fields.read, headerValue]
  cases splitOnce ':' line with
  | none => rfl
  | some parts =>
    obtain ⟨name, value⟩ := parts
    simp only [Option.bind_eq_bind, Option.bind_some]
    split
    · rfl
    · rfl

theorem length_foldl_read (lines : List (List Char)) (fields : Fields) :
    (lines.foldl Fields.read fields).length =
      ((contentLengths lines).getLast?.map fun value => (parseLength value).getD 0).getD
        fields.length := by
  induction lines using List.reverseRecOn with
  | nil => rfl
  | append_singleton lines line ih =>
    rw [List.foldl_append, List.foldl_cons, List.foldl_nil, length_read, contentLengths,
      List.filterMap_append]
    cases hvalue : headerValue "content-length" line with
    | none => simpa [hvalue, contentLengths] using ih
    | some value => simp [hvalue]

theorem getD_lastLength (headers : List (List Char)) (token : Option (List Char)) (forwarded : Bool) :
    (headers.foldl Fields.read ⟨0, token, forwarded⟩).length = (lastLength headers).getD 0 := by
  rw [length_foldl_read, lastLength]
  cases (contentLengths headers).getLast? <;> rfl

theorem length_parseRequest {text : String} {request : ParsedRequest}
    (h : parseRequest (utf8 text) = some request) :
    request.length = (firstLength (lines text.toList)).getD 0 ∧
      ∃ path rest, splitWhitespace ((lines text.toList).headD []) = request.method :: path :: rest := by
  rw [parseRequest, fromUtf8_eq_some_iff.mpr rfl] at h
  simp only [Option.map_some, Option.bind_eq_bind, Option.bind_some] at h
  split at h
  · next method path rest hfields =>
    obtain rfl := Option.some.inj h
    refine ⟨?_, path, rest, hfields⟩
    rw [firstLength, contentLengths, ← List.head?_filterMap, ← List.head?_filterMap,
      List.filterMap_filterMap]
    rfl
  · simp at h

/-! ### What the daemon reads -/

variable {chunks : List (List UInt8)}

theorem headFrom_line (fuel : ℕ) (head : List UInt8) {line rest : List UInt8}
    (hflat : chunks.flatten = line ++ newline :: rest)
    (hline : newline ∉ line) (hfit : head.length + line.length < MAX_HEADER_BYTES) :
    ∃ left, left.flatten = rest ∧ headFrom (fuel + 1) head chunks =
      if Blank (line ++ [newline]) then some (head ++ (line ++ [newline]), left)
      else headFrom fuel (head ++ (line ++ [newline])) left := by
  obtain ⟨left, hread, hleft⟩ :=
    Framing.readUntil_of_flatten hflat hline
      (show line.length < MAX_HEADER_BYTES - head.length by omega) []
  refine ⟨left, hleft, ?_⟩
  rw [headFrom, hread, if_neg (by omega), List.nil_append]
  simp only
  rw [if_neg (by simp)]

/-- The lines to the first blank one are read, however they arrive. -/
theorem headFrom_framed (fuel : ℕ) (head : List UInt8) {raws : List (List UInt8)}
    {blank rest : List UInt8}
    (hflat : chunks.flatten = framed newline (raws ++ [blank]) ++ rest)
    (hfree : ∀ raw ∈ raws, newline ∉ raw) (hsome : ∀ raw ∈ raws, ¬Blank (raw ++ [newline]))
    (hblank : Blank (blank ++ [newline])) (hblankfree : newline ∉ blank)
    (hfit : head.length + (framed newline (raws ++ [blank])).length ≤ MAX_HEADER_BYTES)
    (hfuel : raws.length < fuel) :
    ∃ left, left.flatten = rest ∧
      headFrom fuel head chunks = some (head ++ framed newline (raws ++ [blank]), left) := by
  induction raws generalizing fuel head chunks with
  | nil =>
    obtain ⟨fuel, rfl⟩ := Nat.exists_eq_succ_of_ne_zero (Nat.ne_zero_of_lt hfuel)
    have hone : framed newline [blank] = blank ++ [newline] := by simp [framed]
    rw [List.nil_append, hone] at hfit hflat ⊢
    obtain ⟨left, hleft, hread⟩ := headFrom_line fuel head
      (hflat.trans (List.append_assoc ..)) hblankfree (by simp at hfit; omega)
    exact ⟨left, hleft, by rw [hread, if_pos hblank]⟩
  | cons raw raws ih =>
    obtain ⟨fuel, rfl⟩ := Nat.exists_eq_succ_of_ne_zero (Nat.ne_zero_of_lt hfuel)
    rw [List.cons_append, framed_cons] at hfit hflat ⊢
    rw [List.append_assoc, List.cons_append] at hflat
    simp only [List.length_append, List.length_cons] at hfit
    obtain ⟨left, hleft, hread⟩ := headFrom_line fuel head hflat
      (hfree raw List.mem_cons_self) (by omega)
    obtain ⟨last, hlast, hrest⟩ := ih fuel (head ++ (raw ++ [newline])) hleft
      (fun other hother => hfree other (List.mem_cons_of_mem _ hother))
      (fun other hother => hsome other (List.mem_cons_of_mem _ hother))
      (by simp only [List.length_append, List.length_singleton]; omega)
      (by simpa using hfuel)
    refine ⟨last, hlast, ?_⟩
    rw [hread, if_neg (hsome raw List.mem_cons_self), hrest]
    simp

theorem blank_encode_iff {raw : List Char} :
    Blank (encode raw ++ [newline]) ↔ stripReturn raw = [] := by
  have hreturn : [13, newline] = encode ['\r'] ++ [newline] := rfl
  have hnone : [newline] = encode [] ++ [newline] := rfl
  rw [stripReturn_eq_nil_iff, Blank, or_comm]
  change _ = [newline] ∨ _ = [13, newline] ↔ _
  rw [hreturn]
  nth_rewrite 2 [hnone]
  rw [List.append_cancel_right_eq, List.append_cancel_right_eq, encode_injective.eq_iff,
    encode_injective.eq_iff]

theorem fromUtf8Lossy_encode (text : List Char) : fromUtf8Lossy (encode text) = text := by
  have hbytes : encode text = utf8 (String.ofList text) := by
    rw [utf8, ← encode_toList, String.toList_ofList]
  rw [fromUtf8Lossy, hbytes, fromUtf8_eq_some_iff.mpr rfl]
  exact String.toList_ofList

theorem headerValue_nil (name : String) : headerValue name [] = none := rfl

theorem lastLength_concat {line : List Char} (hline : headerValue "content-length" line = none)
    (headers : List (List Char)) : lastLength (headers ++ [line]) = lastLength headers := by
  rw [lastLength, lastLength, contentLengths, contentLengths, List.filterMap_append,
    List.filterMap_cons_none hline, List.filterMap_nil, List.append_nil]

/-- The lines of a head are read to the first blank one. -/
theorem readRequest_encode {start blank : List Char} {ahead more : List (List Char)}
    {rest : List UInt8}
    (hflat : chunks.flatten = encode (framed '\n' (start :: ahead ++ blank :: more)) ++ rest)
    (hfree : ∀ raw ∈ start :: ahead ++ [blank], '\n' ∉ raw)
    (hsome : ∀ raw ∈ start :: ahead, stripReturn raw ≠ []) (hblank : stripReturn blank = [])
    (hfit : (encode (framed '\n' (start :: ahead ++ blank :: more))).length ≤ MAX_HEADER_BYTES) :
    ∃ request left, readRequest chunks = some (request, left) ∧
      request.length = min ((lastLength (ahead.map stripReturn)).getD 0) MAX_MESSAGE_BYTES := by
  have hbytes : framed newline ((start :: ahead).map encode ++ [encode blank]) =
      encode (framed '\n' (start :: ahead ++ [blank])) := by
    rw [encode_framed, List.map_append]
    rfl
  have hwhole : encode (framed '\n' (start :: ahead ++ blank :: more)) =
      framed newline ((start :: ahead).map encode ++ [encode blank]) ++
        encode (framed '\n' more) := by
    rw [hbytes, ← encode_append, ← framed_append, List.append_assoc, List.singleton_append]
  rw [hwhole, List.length_append] at hfit
  rw [hwhole, List.append_assoc] at hflat
  have hcount := @length_le_length_framed UInt8 newline
    ((start :: ahead).map encode ++ [encode blank])
  rw [List.length_append, List.length_map, List.length_singleton] at hcount
  obtain ⟨left, -, hread⟩ := headFrom_framed MAX_HEADER_BYTES [] hflat
    (by
      intro bytes hmem
      obtain ⟨raw, hraw, rfl⟩ := List.mem_map.mp hmem
      exact newline_not_mem_encode (hfree raw (List.mem_append_left _ hraw)))
    (by
      intro bytes hmem
      obtain ⟨raw, hraw, rfl⟩ := List.mem_map.mp hmem
      rw [blank_encode_iff]
      exact hsome raw hraw)
    (blank_encode_iff.mpr hblank)
    (newline_not_mem_encode (hfree blank (by simp)))
    (by rw [List.length_nil, Nat.zero_add]; omega)
    (by rw [List.length_map]; omega)
  have hlines : (lines (framed '\n' (start :: ahead ++ [blank]))).tail =
      ahead.map stripReturn ++ [[]] := by
    rw [lines_framed hfree, List.map_append, List.map_cons, List.cons_append, List.tail_cons,
      List.map_singleton, hblank]
  rw [List.nil_append, hbytes] at hread
  rw [readRequest, hread]
  simp only [Option.bind_eq_bind, Option.bind_some, fromUtf8Lossy_encode, hlines]
  refine ⟨_, left, rfl, ?_⟩
  simp only [getD_lastLength, lastLength_concat (headerValue_nil _)]

/-- Of a head with a blank line, the headers ahead of that are read. -/
theorem readRequest_of_blank {start : List Char} {raws : List (List Char)} {rest : List UInt8}
    (hflat : chunks.flatten = encode (framed '\n' (start :: raws)) ++ rest)
    (hfree : ∀ raw ∈ start :: raws, '\n' ∉ raw) (hstart : stripReturn start ≠ [])
    (hblank : ∃ raw ∈ raws, stripReturn raw = [])
    (hfit : (encode (framed '\n' (start :: raws))).length ≤ MAX_HEADER_BYTES) :
    ∃ request left, readRequest chunks = some (request, left) ∧ request.length =
      min ((lastLength ((raws.map stripReturn).takeWhile (· ≠ []))).getD 0) MAX_MESSAGE_BYTES := by
  obtain ⟨blank, hfind⟩ := Option.isSome_iff_exists.mp (List.find?_isSome
    (p := fun raw => decide (stripReturn raw = [])).mpr (by simpa using hblank))
  obtain ⟨hnone, ahead, more, rfl, hsome⟩ := List.find?_eq_some_iff_append.mp hfind
  rw [decide_eq_true_eq] at hnone
  have hsome' : ∀ raw ∈ ahead, stripReturn raw ≠ [] := fun raw hmem => by simpa using hsome raw hmem
  obtain ⟨request, left, hread, hlength⟩ := readRequest_encode hflat
    (fun raw hmem => hfree raw (by
      simp only [List.cons_append, List.mem_cons, List.mem_append, List.not_mem_nil, or_false]
        at hmem ⊢
      tauto))
    (by
      rintro raw (_ | ⟨_, hmem⟩)
      · exact hstart
      · exact hsome' raw hmem)
    hnone (by rw [List.cons_append]; exact hfit)
  refine ⟨request, left, hread, ?_⟩
  have hahead : ((ahead ++ blank :: more).map stripReturn).takeWhile (· ≠ []) =
      ahead.map stripReturn := by
    rw [List.map_append, List.map_cons, hnone, List.takeWhile_append_of_pos]
    · simp
    · intro line hmem
      obtain ⟨raw, hraw, rfl⟩ := List.mem_map.mp hmem
      simpa using hsome' raw hraw
  rw [hlength, hahead]

/-! ### What the bridge writes -/

variable {c : Char}

theorem splitOnce_append {front : List Char} (hfront : c ∉ front) (rest : List Char) :
    splitOnce c (front ++ c :: rest) = some (front, rest) := by
  have hne : ∀ d ∈ front, decide (d ≠ c) = true := by
    rintro d hd
    exact decide_eq_true fun heq => hfront (heq ▸ hd)
  rw [splitOnce, if_pos (by simp), List.takeWhile_append_of_pos hne,
    List.dropWhile_append_of_pos hne]
  simp

theorem mem_of_mem_splitOnP {p : Char → Bool} {text field : List Char}
    (h : field ∈ text.splitOnP p) (hc : c ∈ field) : c ∈ text := by
  induction text generalizing field with
  | nil =>
    obtain rfl : field = [] := by simpa using h
    exact hc
  | cons d text ih =>
    rw [List.splitOnP_cons_eq_if_modifyHead] at h
    split at h
    · rcases List.mem_cons.mp h with rfl | h
      · simp at hc
      · exact List.mem_cons_of_mem _ (ih h hc)
    · obtain ⟨first, fields, hfields⟩ := List.exists_cons_of_ne_nil (List.splitOnP_ne_nil p text)
      rw [hfields, List.modifyHead_cons] at h
      rw [hfields] at ih
      rcases List.mem_cons.mp h with rfl | h
      · rcases List.mem_cons.mp hc with rfl | hc
        · exact List.mem_cons_self
        · exact List.mem_cons_of_mem _ (ih List.mem_cons_self hc)
      · exact List.mem_cons_of_mem _ (ih (List.mem_cons_of_mem _ h) hc)

theorem mem_of_mem_splitWhitespace {text field : List Char}
    (h : field ∈ splitWhitespace text) (hc : c ∈ field) : c ∈ text :=
  mem_of_mem_splitOnP (List.mem_filter.mp h).1 hc

/-- The request line is another, and the header stands two bytes ahead of the end. -/
theorem rewriteRequestTarget_encode {first : List Char} {raws : List (List Char)}
    {localTarget : String} {rewritten : List UInt8} (hfirst : '\n' ∉ first)
    (htarget : '\n' ∉ localTarget.toList)
    (h : rewriteRequestTarget (encode (framed '\n' (first :: raws))) localTarget = some rewritten) :
    ∃ start, '\n' ∉ start ∧ stripReturn start ≠ [] ∧ rewritten.length ≤ MAX_HTTP_HEAD_BYTES ∧
      ∀ front tail, framed '\n' (start :: raws) = front ++ tail → (encode tail).length = 2 →
        rewritten = encode (front ++ FORWARDED.toList ++ tail) := by
  have htext : (fromUtf8 (encode (framed '\n' (first :: raws)))).map String.toList =
      some (framed '\n' (first :: raws)) := by
    have hbytes : encode (framed '\n' (first :: raws)) =
        utf8 (String.ofList (framed '\n' (first :: raws))) := by
      rw [utf8, ← encode_toList, String.toList_ofList]
    rw [hbytes, fromUtf8_eq_some_iff.mpr rfl, Option.map_some, String.toList_ofList]
  rw [rewriteRequestTarget, htext] at h
  simp only [Option.bind_eq_bind, Option.bind_some] at h
  rw [framed_cons, splitOnce_append hfirst, Option.bind_some] at h
  split at h
  swap
  · simp at h
  next method target version more hfields =>
  have hmem : ∀ field ∈ method :: target :: version :: more, '\n' ∉ field := by
    intro field hfield hc
    rw [← hfields] at hfield
    exact hfirst (mem_of_mem_splitWhitespace hfield hc)
  split at h
  · simp at h
  split at h
  swap
  · simp at h
  next hlong hfit =>
  obtain rfl := Option.some.inj h
  refine ⟨method ++ ' ' :: localTarget.toList ++ ' ' :: version ++ ['\r'], ?_, ?_, hfit, ?_⟩
  · have hmethod := hmem method (by simp)
    have hversion := hmem version (by simp)
    simp [hmethod, hversion, htarget]
  · rw [stripReturn_concat]
    simp
  · intro front tail hcut htail
    have hwhole : encode (method ++ ' ' :: localTarget.toList ++ ' ' :: version ++ ['\r', '\n']) ++
        encode (framed '\n' raws) = encode front ++ encode tail := by
      rw [← encode_append, ← encode_append, ← hcut, framed_cons]
      simp
    have hlength : (encode front ++ encode tail).length - 2 = (encode front).length := by
      rw [List.length_append, htail, Nat.add_sub_cancel]
    simp only
    rw [hwhole, hlength, List.take_left, List.drop_left, encode_append, encode_append]

/-! ### A header that is joined -/

/-- What the bridge's header leaves of the `\n` at its end. -/
def announced : List Char := "X-Forwarded-Proto: https\r".toList

theorem mem_dropWhile {p : Char → Bool} {text : List Char} (hc : c ∈ text)
    (hp : p c = false) : c ∈ text.dropWhile p := by
  rw [← List.takeWhile_append_dropWhile (p := p) (l := text)] at hc
  rcases List.mem_append.mp hc with hfront | hrest
  · have htrue := List.mem_takeWhile_imp hfront
    rw [hp] at htrue
    exact absurd htrue Bool.false_ne_true
  · exact hrest

theorem mem_trim {text : List Char} (hc : c ∈ text) (hblack : isWhiteSpace c = false) :
    c ∈ trim text := by
  rw [trim, List.rdropWhile, List.mem_reverse]
  exact mem_dropWhile (List.mem_reverse.mpr (mem_dropWhile hc hblack)) hblack

theorem parseLength_eq_none {value : List Char} (h : 'X' ∈ value) : parseLength value = none := by
  have htrim := mem_trim h (by decide)
  rw [parseLength, parseUsize]
  have hdigits : 'X' ∈ if (trim value).head? = some '+' then (trim value).tail else trim value := by
    split
    · next hplus =>
      obtain ⟨tail, htail⟩ := List.head?_eq_some_iff.mp hplus
      rw [htail] at htrim ⊢
      simpa using htrim
    · exact htrim
  refine if_neg fun hall => ?_
  have hX := List.all_eq_true.mp hall.2 'X' hdigits
  exact absurd hX (by decide)

/-- What joins a line leaves it the header it is. -/
theorem headerValue_append {line tail : List Char} (htail : 'X' ∈ tail.takeWhile (· ≠ ':')) :
    headerValue "content-length" (line ++ tail) =
      (headerValue "content-length" line).map (· ++ tail) := by
  by_cases hcolon : ':' ∈ line
  · obtain ⟨name, value, hname, rfl⟩ := List.eq_append_cons_of_mem hcolon |>.imp fun name h =>
      h.imp fun value h => And.intro h.2 h.1
    rw [headerValue, headerValue, List.append_assoc, List.cons_append, splitOnce_append hname,
      splitOnce_append hname]
    simp only [Option.bind_eq_bind, Option.bind_some]
    split <;> rfl
  · have hline : headerValue "content-length" line = none := by
      rw [headerValue, splitOnce, if_neg hcolon]
      rfl
    rw [hline, Option.map_none, headerValue, splitOnce]
    split
    · have hne : ∀ d ∈ line, decide (d ≠ ':') = true := by
        rintro d hd
        exact decide_eq_true fun heq => hcolon (heq ▸ hd)
      simp only [Option.bind_eq_bind, Option.bind_some]
      refine if_neg fun hname => ?_
      rw [eqIgnoreAsciiCase, decide_eq_true_eq] at hname
      rw [List.takeWhile_append_of_pos hne, List.map_append] at hname
      have hx : 'x' ∈ "content-length".toList.map Char.toLower := by
        rw [← hname]
        exact List.mem_append_right _ (List.mem_map.mpr ⟨'X', htail, by decide⟩)
      exact absurd hx (by decide)
    · rfl

theorem exists_stripReturn_append (raw : List Char) :
    ∃ tail, stripReturn (raw ++ announced) = stripReturn raw ++ tail ∧ 'X' ∈ tail ∧
      'X' ∈ tail.takeWhile (· ≠ ':') := by
  have hjoined : raw ++ announced = raw ++ "X-Forwarded-Proto: https".toList ++ ['\r'] := by
    rw [List.append_assoc]
    rfl
  rw [hjoined, stripReturn_concat]
  rcases List.eq_nil_or_concat' raw with rfl | ⟨front, c, rfl⟩
  · exact ⟨_, rfl, by decide, by decide⟩
  · by_cases hc : c = '\r'
    · rw [hc, stripReturn_concat, List.append_assoc]
      exact ⟨_, rfl, by decide, by decide⟩
    · refine ⟨"X-Forwarded-Proto: https".toList, ?_, by decide, by decide⟩
      rw [stripReturn, if_neg (by simpa using hc)]

theorem isWhiteSpace_of_toLower (h : c.toLower = 'c') : isWhiteSpace c = false := by
  refine Bool.eq_false_of_not_eq_true fun hwhite => ?_
  have hsame : c.toLower = c := by
    refine dif_neg fun hupper => ?_
    have hlower : 65 ≤ c.toNat := UInt32.le_iff_toNat_le.mp hupper.1
    have hbound : c.toNat ≤ 90 := UInt32.le_iff_toNat_le.mp hupper.2
    simp only [isWhiteSpace, Bool.or_eq_true, Bool.and_eq_true, decide_eq_true_eq, beq_iff_eq]
      at hwhite
    omega
  rw [hsame] at h
  rw [h] at hwhite
  exact absurd hwhite (by decide)

/-- The request line of a pairing request is no header of this kind. -/
theorem headerValue_requestLine {line : List Char} {fields : List (List Char)}
    (h : splitWhitespace line = "POST".toList :: fields) :
    headerValue "content-length" line = none := by
  rw [headerValue]
  cases hsplit : splitOnce ':' line with
  | none => rfl
  | some parts =>
    obtain ⟨name, value⟩ := parts
    simp only [Option.bind_eq_bind, Option.bind_some]
    refine if_neg fun hname => ?_
    rw [eqIgnoreAsciiCase, decide_eq_true_eq] at hname
    cases name with
    | nil => exact absurd hname (by decide)
    | cons c name =>
      have hc : c.toLower = 'c' := (List.cons.inj hname).1
      rw [splitOnce] at hsplit
      split at hsplit
      swap
      · simp at hsplit
      obtain ⟨htake, -⟩ := Prod.mk.inj (Option.some.inj hsplit)
      obtain ⟨line, rfl⟩ : ∃ rest, line = c :: rest := by
        cases line with
        | nil => simp at htake
        | cons d line =>
          rw [List.takeWhile_cons] at htake
          split at htake
          · exact ⟨line, by rw [(List.cons.inj htake).1]⟩
          · simp at htake
      have hblack := isWhiteSpace_of_toLower hc
      rw [splitWhitespace, List.splitOnP_cons_eq_if_modifyHead, hblack] at h
      obtain ⟨first, more, hmore⟩ :=
        List.exists_cons_of_ne_nil (List.splitOnP_ne_nil isWhiteSpace line)
      rw [hmore, if_neg Bool.false_ne_true, List.modifyHead_cons,
        List.filter_cons_of_pos (by simp)] at h
      have hP : c = 'P' := (List.cons.inj (List.cons.inj h).1).1
      rw [hP] at hc
      exact absurd hc (by decide)

/-! ### Both sides -/

section Sides

variable {first : List Char} {raws : List (List Char)} {rewritten body : List UInt8}
  {chunks : List (List UInt8)}

theorem headers_framed (hfree : ∀ raw ∈ first :: raws, '\n' ∉ raw) :
    headers (framed '\n' (first :: raws)) = (raws.map stripReturn).takeWhile (· ≠ []) := by
  rw [headers, lines_framed hfree, List.map_cons, List.tail_cons]

theorem lastLength_takeWhile {line : List Char} (hline : headerValue "content-length" line = none)
    (hsome : line ≠ []) (ahead : List (List Char)) :
    lastLength ((ahead ++ [line, []]).takeWhile (· ≠ [])) =
      lastLength ((ahead ++ [[]]).takeWhile (· ≠ [])) := by
  rw [List.takeWhile_append, List.takeWhile_append]
  split
  · have hone : [line, []].takeWhile (fun line : List Char => decide (line ≠ [])) = [line] := by
      simp [hsome]
    rw [hone, lastLength_concat hline]
    simp
  · rfl

/-- Where a head's lines end with `\r\n`, the daemon goes by its last header. -/
theorem readRequest_rewritten_crlf (hfree : ∀ raw ∈ first :: raws, '\n' ∉ raw)
    (h : rewriteRequestTarget (encode (framed '\n' (first :: raws ++ [['\r']]))) "/pair" =
      some rewritten) (hchunks : chunks.flatten = rewritten ++ body) :
    ∃ request left, readRequest chunks = some (request, left) ∧ request.length =
      min ((lastLength (headers (framed '\n' (first :: raws ++ [['\r']])))).getD 0)
        MAX_MESSAGE_BYTES := by
  obtain ⟨start, hnewline, hstart, hfit, hwritten⟩ :=
    rewriteRequestTarget_encode (hfree first List.mem_cons_self) (by decide) h
  have hcut : framed '\n' (start :: (raws ++ [['\r']])) =
      framed '\n' (start :: raws) ++ ['\r', '\n'] := by
    rw [← List.cons_append, framed_append]
    rfl
  have hlines : framed '\n' (start :: raws) ++ FORWARDED.toList ++ ['\r', '\n'] =
      framed '\n' (start :: (raws ++ [announced, ['\r']])) := by
    rw [← List.cons_append, framed_append, List.append_assoc]
    rfl
  obtain rfl := (hwritten _ _ hcut rfl).trans (congrArg encode hlines)
  have hraws : ∀ raw ∈ start :: (raws ++ [announced, ['\r']]), '\n' ∉ raw := by
    simp only [List.mem_cons, List.mem_append, List.not_mem_nil, or_false]
    rintro raw (rfl | hmem | rfl | rfl)
    · exact hnewline
    · exact hfree raw (List.mem_cons_of_mem _ hmem)
    · decide
    · decide
  obtain ⟨request, left, hread, hlength⟩ := readRequest_of_blank hchunks hraws hstart
    ⟨['\r'], by simp, rfl⟩ hfit
  refine ⟨request, left, hread, ?_⟩
  have hfree' : ∀ raw ∈ first :: (raws ++ [['\r']]), '\n' ∉ raw := by
    rw [← List.cons_append]
    rintro raw hmem
    rcases List.mem_append.mp hmem with hmem | hmem
    · exact hfree raw hmem
    · rw [List.mem_singleton.mp hmem]
      decide
  rw [List.cons_append, headers_framed hfree', hlength, List.map_append, List.map_append]
  have hline : headerValue "content-length" (stripReturn announced) = none := by decide
  congr 2
  exact lastLength_takeWhile hline (by decide) _

theorem lastLength_concat_some {line value : List Char}
    (hline : headerValue "content-length" line = some value) (headers : List (List Char)) :
    lastLength (headers ++ [line]) = parseLength value := by
  rw [lastLength, contentLengths, List.filterMap_append, List.filterMap_cons_some hline,
    List.filterMap_nil, List.getLast?_concat, Option.bind_some]

/-- The last header of some that no blank line interrupts, if another line joins it: it is lost if it is a
`Content-Length`. -/
theorem lastLength_joined (ahead : List (List Char)) (line : List Char) {tail : List Char}
    (hX : 'X' ∈ tail)
    (hname : 'X' ∈ tail.takeWhile (· ≠ ':')) :
    (((ahead ++ [line, []]).takeWhile (· ≠ [])).length = ahead.length + 1 ∧
        (∃ last ∈ ((ahead ++ [line, []]).takeWhile (· ≠ [])).getLast?,
          (headerValue "content-length" last).isSome) ∧
        lastLength ((ahead ++ [line ++ tail, [], []]).takeWhile (· ≠ [])) = none) ∨
      (((ahead ++ [line, []]).takeWhile (· ≠ [])).length = ahead.length + 1 →
        ∀ last ∈ ((ahead ++ [line, []]).takeWhile (· ≠ [])).getLast?,
          headerValue "content-length" last = none) ∧
        lastLength ((ahead ++ [line ++ tail, [], []]).takeWhile (· ≠ [])) =
          lastLength ((ahead ++ [line, []]).takeWhile (· ≠ [])) := by
  have hjoin : [line ++ tail, [], []].takeWhile (fun line : List Char => decide (line ≠ [])) =
      [line ++ tail] := by
    have hne : line ++ tail ≠ [] := List.append_ne_nil_of_right_ne_nil _ (List.ne_nil_of_mem hX)
    simp [hne]
  rw [List.takeWhile_append, List.takeWhile_append, hjoin]
  split
  · cases hvalue : headerValue "content-length" line with
    | some value =>
      have hjoined : headerValue "content-length" (line ++ tail) = some (value ++ tail) := by
        rw [headerValue_append hname, hvalue, Option.map_some]
      have hne : line ≠ [] := by
        rintro rfl
        rw [headerValue_nil] at hvalue
        exact absurd hvalue.symm (Option.some_ne_none _)
      have hone : [line, []].takeWhile (fun line : List Char => decide (line ≠ [])) = [line] := by
        simp [hne]
      rw [hone, lastLength_concat_some hjoined, parseLength_eq_none (List.mem_append_right _ hX)]
      exact .inl ⟨by simp, ⟨line, by simp, by rw [hvalue]; rfl⟩, rfl⟩
    | none =>
      have hjoined : headerValue "content-length" (line ++ tail) = none := by
        rw [headerValue_append hname, hvalue, Option.map_none]
      rw [lastLength_concat hjoined]
      by_cases hne : line = []
      · have hnone : [line, []].takeWhile (fun line : List Char => decide (line ≠ [])) = [] := by
          simp [hne]
        rw [hnone, List.append_nil]
        exact .inr ⟨fun hlength => absurd hlength (by omega), rfl⟩
      · have hone : [line, []].takeWhile (fun line : List Char => decide (line ≠ [])) = [line] := by
          simp [hne]
        rw [hone, lastLength_concat hvalue]
        exact .inr ⟨fun _ last hlast => by simp_all, rfl⟩
  · refine .inr ⟨fun hlength => ?_, rfl⟩
    have hle := (List.takeWhile_sublist (fun line : List Char => decide (line ≠ []))
      (l := ahead)).length_le
    omega

/-- Where they end with `\n`, it does not find the last header if that is a `Content-Length`. -/
theorem readRequest_rewritten_lf {raw : List Char}
    (hfree : ∀ line ∈ first :: (raws ++ [raw]), '\n' ∉ line)
    (h : rewriteRequestTarget (encode (framed '\n' (first :: (raws ++ [raw, []])))) "/pair" =
      some rewritten) (hchunks : chunks.flatten = rewritten ++ body) :
    ∃ request left, readRequest chunks = some (request, left) ∧
      (Glued (framed '\n' (first :: (raws ++ [raw, []]))) → request.length = 0) ∧
      (¬Glued (framed '\n' (first :: (raws ++ [raw, []]))) → request.length =
        min ((lastLength (headers (framed '\n' (first :: (raws ++ [raw, []]))))).getD 0)
          MAX_MESSAGE_BYTES) := by
  obtain ⟨start, hnewline, hstart, hfit, hwritten⟩ :=
    rewriteRequestTarget_encode (hfree first List.mem_cons_self) (by decide) h
  have hends : ∀ start, framed '\n' (start :: (raws ++ [raw, []])) =
      (framed '\n' (start :: raws) ++ raw) ++ ['\n', '\n'] := by
    intro start
    rw [← List.cons_append, framed_append]
    simp [framed]
  have hlines : framed '\n' (start :: raws) ++ raw ++ FORWARDED.toList ++ ['\n', '\n'] =
      framed '\n' (start :: (raws ++ [raw ++ announced, [], []])) := by
    have hheader : FORWARDED.toList = announced ++ ['\n'] := rfl
    rw [← List.cons_append, framed_append, hheader]
    simp [framed]
  obtain rfl := (hwritten _ _ (hends start) rfl).trans (congrArg encode hlines)
  have hraws : ∀ line ∈ start :: (raws ++ [raw ++ announced, [], []]), '\n' ∉ line := by
    have hannounced : '\n' ∉ announced := by decide
    simp only [List.mem_cons, List.mem_append, List.not_mem_nil, or_false]
    rintro line (rfl | hmem | rfl | rfl | rfl)
    · exact hnewline
    · exact hfree line (by simp [hmem])
    · rw [List.mem_append, not_or]
      exact ⟨hfree raw (by simp), hannounced⟩
    · exact List.not_mem_nil
    · exact List.not_mem_nil
  obtain ⟨request, left, hread, hlength⟩ := readRequest_of_blank hchunks hraws hstart
    ⟨[], by simp, rfl⟩ hfit
  refine ⟨request, left, hread, ?_⟩
  have hfree' : ∀ line ∈ first :: (raws ++ [raw, []]), '\n' ∉ line := by
    simp only [List.mem_cons, List.mem_append, List.not_mem_nil, or_false]
    rintro line (rfl | hmem | rfl | rfl)
    · exact hfree line List.mem_cons_self
    · exact hfree line (by simp [hmem])
    · exact hfree line (by simp)
    · exact List.not_mem_nil
  obtain ⟨tail, hjoined, hX, hname⟩ := exists_stripReturn_append raw
  have hnil : stripReturn [] = [] := rfl
  have hcount : (lines (framed '\n' (first :: (raws ++ [raw, []])))).length = raws.length + 3 := by
    simp [lines_framed hfree']
  have hheaders := headers_framed hfree'
  rw [List.map_append, List.map_cons, List.map_singleton, hnil] at hheaders
  rw [List.map_append, List.map_cons, List.map_cons, List.map_singleton, hnil, hjoined] at hlength
  have hmap : (raws.map stripReturn).length = raws.length := List.length_map ..
  have hglued : Glued (framed '\n' (first :: (raws ++ [raw, []]))) ↔
      (headers (framed '\n' (first :: (raws ++ [raw, []])))).length = raws.length + 1 ∧
        ∃ line ∈ (headers (framed '\n' (first :: (raws ++ [raw, []])))).getLast?,
          (headerValue "content-length" line).isSome := by
    rw [Glued, hcount, Nat.add_right_cancel_iff (n := 2)]
    exact and_iff_right ⟨_, (hends first).symm⟩
  rw [hglued, hheaders, hlength, ← hmap]
  rcases lastLength_joined (raws.map stripReturn) (stripReturn raw) hX hname with
    ⟨hall, hlast, hnone⟩ | ⟨hlast, hsame⟩
  · rw [hnone]
    exact ⟨fun _ => rfl, fun hnot => absurd ⟨hall, hlast⟩ hnot⟩
  · rw [hsame]
    refine ⟨?_, fun _ => rfl⟩
    rintro ⟨hall, last, hmem, hsome⟩
    rw [hlast hall last hmem] at hsome
    exact absurd hsome Bool.false_ne_true

end Sides

/-- A pairing request that is forwarded has a head of its own, and announces a body. -/
theorem of_pairDevice {stream : List UInt8} {pairing : Pairing}
    (h : pairDevice stream = some pairing) :
    ∃ text first raws last, fromUtf8 pairing.head = some text ∧
      text.toList = framed '\n' (first :: raws ++ [last]) ∧ (last = ['\r'] ∨ last = []) ∧
      (∀ raw ∈ first :: raws, '\n' ∉ raw) ∧ headerValue "content-length" (stripReturn first) = none ∧
      pairing.length ≠ 0 ∧ pairing.length ≤ MAX_PAIR_BODY_BYTES ∧
      pairing.length = (firstLength (lines text.toList)).getD 0 ∧
      ∃ rewritten body, rewriteRequestTarget pairing.head "/pair" = some rewritten ∧
        pairing.request = rewritten ++ body := by
  rw [pairDevice] at h
  obtain ⟨⟨head, stream'⟩, hhead, h⟩ := Option.bind_eq_some_iff.mp h
  obtain ⟨request, hrequest, h⟩ := Option.bind_eq_some_iff.mp h
  simp only at h
  split at h
  swap
  · simp at h
  next hpost =>
  split at h
  · simp at h
  next hbound =>
  split at h
  · simp at h
  obtain ⟨rewritten, hrewritten, h⟩ := Option.bind_eq_some_iff.mp h
  split at h
  · simp at h
  obtain rfl := Option.some.inj h
  obtain ⟨text, htext⟩ : ∃ text, fromUtf8 head = some text := by
    cases htext : fromUtf8 head with
    | none => simp [parseRequest, htext] at hrequest
    | some text => exact ⟨text, rfl⟩
  obtain rfl := fromUtf8_eq_some_iff.mp htext
  obtain ⟨hlength, path, fields, hfields⟩ := length_parseRequest hrequest
  have hends := of_readHttpHead hhead
  rw [utf8, ← encode_toList] at hends
  obtain ⟨raws, last, hlines, hne, hfree, hlast⟩ := exists_framed_of_endsHead hends
  obtain ⟨first, raws, rfl⟩ := List.exists_cons_of_ne_nil hne
  refine ⟨text, first, raws, last, htext, hlines, hlast, hfree, ?_, ?_, ?_, hlength, rewritten,
    stream'.take request.length, hrewritten, rfl⟩
  · rw [hlines, lines_framed, List.map_append, List.map_cons, List.cons_append, List.headD_cons,
      hpost.1] at hfields
    · exact headerValue_requestLine hfields
    · intro raw hmem
      rcases List.mem_append.mp hmem with hmem | hmem
      · exact hfree raw hmem
      · rw [List.mem_singleton.mp hmem]
        rcases hlast with rfl | rfl <;> decide
  · exact fun hzero => hbound (.inl hzero)
  · exact Nat.not_lt.mp fun hlong => hbound (.inr hlong)

/-- **Both sides frame a pairing request alike for the heads that say so**, and for no others: the last
`Content-Length` ahead of a blank line is the number that is the first of all, and the bridge's header
does not join it. -/
theorem pair_framing_agrees_iff {stream : List UInt8} {pairing : Pairing}
    (h : pairDevice stream = some pairing) {chunks : List (List UInt8)}
    (hchunks : chunks.flatten = pairing.request) :
    ∃ text request left, fromUtf8 pairing.head = some text ∧
      readRequest chunks = some (request, left) ∧
      (request.length = pairing.length ↔ FramedAlike text.toList) := by
  obtain ⟨text, first, raws, last, htext, hlines, hlast, hfree, hfirst, hpos, hsmall, hlength,
    rewritten, body, hrewritten, hrequest⟩ := of_pairDevice h
  have hhead : encode text.toList = pairing.head := by
    rw [encode_toList]
    exact fromUtf8_eq_some_iff.mp htext
  rw [← hhead, hlines] at hrewritten
  rw [hrequest] at hchunks
  have hannounced : firstLength (lines text.toList) = some pairing.length := by
    cases hcase : firstLength (lines text.toList) with
    | none =>
      rw [hcase] at hlength
      exact absurd hlength hpos
    | some length =>
      rw [hcase] at hlength
      rw [hlength]
      rfl
  suffices hdaemon : ∃ request left, readRequest chunks = some (request, left) ∧
      (Glued text.toList → request.length = 0) ∧
      (¬Glued text.toList → request.length =
        min ((lastLength (headers text.toList)).getD 0) MAX_MESSAGE_BYTES) by
    obtain ⟨request, left, hread, hglued, hnot⟩ := hdaemon
    refine ⟨text, request, left, htext, hread, ?_⟩
    rw [FramedAlike, hannounced]
    have hbound : pairing.length < MAX_MESSAGE_BYTES := hsmall.trans_lt (by decide)
    by_cases hjoins : Glued text.toList
    · rw [hglued hjoins]
      exact ⟨fun heq => absurd heq.symm hpos, fun halike => absurd hjoins halike.2⟩
    · rw [hnot hjoins]
      cases lastLength (headers text.toList) with
      | none =>
        rw [Option.getD_none, Nat.zero_min]
        exact ⟨fun heq => absurd heq.symm hpos, fun halike => absurd halike.1.symm (by simp)⟩
      | some length =>
        rw [Option.getD_some, Option.some.injEq]
        exact ⟨fun heq => ⟨by omega, hjoins⟩, fun halike => by omega⟩
  rcases hlast with rfl | rfl
  · obtain ⟨request, left, hread, hsame⟩ := readRequest_rewritten_crlf hfree hrewritten hchunks
    rw [← hlines] at hsame
    have hnot : ¬Glued text.toList := by
      rintro ⟨⟨front, hfront⟩, -⟩
      have hend : (framed '\n' (first :: raws) ++ ['\r']) ++ ['\n'] = (front ++ ['\n']) ++ ['\n'] := by
        rw [List.append_assoc front]
        refine Eq.trans ?_ (hlines.symm.trans hfront.symm)
        rw [framed_append, List.append_assoc]
        rfl
      have hreturn := (List.append_inj' (List.append_cancel_right hend) rfl).2
      exact absurd hreturn (by decide)
    exact ⟨request, left, hread, fun hjoins => absurd hjoins hnot, fun _ => hsame⟩
  · rcases List.eq_nil_or_concat' raws with rfl | ⟨raws, raw, rfl⟩
    · -- A head of a request line only announces nothing.
      have hnone : firstLength (lines text.toList) = none := by
        have hfree' : ∀ raw ∈ [first] ++ [[]], '\n' ∉ raw := by
          rintro raw (_ | ⟨_, hmem⟩)
          · exact hfree first List.mem_cons_self
          · rw [List.mem_singleton.mp hmem]
            exact List.not_mem_nil
        rw [hlines, lines_framed hfree', firstLength, contentLengths]
        have hnil : headerValue "content-length" (stripReturn []) = none := rfl
        rw [List.map_append, List.map_singleton, List.map_singleton, List.singleton_append,
          List.filterMap_cons_none hfirst, List.filterMap_cons_none hnil]
        rfl
      rw [hannounced] at hnone
      exact absurd hnone (Option.some_ne_none _)
    · have hcons : first :: (raws ++ [raw]) ++ [[]] = first :: (raws ++ [raw, []]) := by simp
      rw [hcons] at hrewritten hlines
      rw [hlines]
      exact readRequest_rewritten_lf hfree hrewritten hchunks

/-- A request that announces its body once. -/
def oneLength : List UInt8 :=
  utf8 ("POST /_bridge/pair HTTP/1.1\r\nContent-Length: 31\r\n\r\n" ++
    "\x7b\"code\":\"ABCDEFGH\",\"name\":\"me\"\x7d")

theorem pair_framing_agrees_oneLength :
    ∃ pairing, pairDevice oneLength = some pairing ∧ ∃ text request left,
      fromUtf8 pairing.head = some text ∧ readRequest [pairing.request] = some (request, left) ∧
        (request.length = pairing.length ↔ FramedAlike text.toList) := by
  obtain ⟨pairing, hpairing⟩ := Option.isSome_iff_exists.mp
    (show (pairDevice oneLength).isSome by decide +kernel)
  exact ⟨pairing, hpairing, pair_framing_agrees_iff hpairing (by simp)⟩

/-- A request that announces its body twice. -/
def twoLengths : List UInt8 :=
  utf8 ("POST /_bridge/pair HTTP/1.1\r\nContent-Length: 31\r\nContent-Length: 5\r\n\r\n" ++
    "\x7b\"code\":\"ABCDEFGH\",\"name\":\"me\"\x7d")

/-- The bridge reads a body of 31 bytes and forwards it, and the daemon reads five of them. -/
theorem two_lengths_are_read_differently :
    ∃ pairing request left, pairDevice twoLengths = some pairing ∧
      readRequest [pairing.request] = some (request, left) ∧ pairing.length = 31 ∧
        request.length = 5 := by
  have hbridge : (pairDevice twoLengths).map (·.length) = some 31 := by decide +kernel
  have hdaemon : ((pairDevice twoLengths).bind fun pairing =>
      readRequest [pairing.request]).map (·.1.length) = some 5 := by decide +kernel
  obtain ⟨pairing, hpairing, hlength⟩ := Option.map_eq_some_iff.mp hbridge
  rw [hpairing, Option.bind_some] at hdaemon
  obtain ⟨⟨request, left⟩, hread, hfive⟩ := Option.map_eq_some_iff.mp hdaemon
  exact ⟨pairing, request, left, hpairing, hread, hlength, hfive⟩

end Http

end SuperHerdr
