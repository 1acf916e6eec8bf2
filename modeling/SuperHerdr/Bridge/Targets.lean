import SuperHerdr.Bridge.Requests

/-!
# What a request is forwarded as

A device asks the bridge for `/r/`, a route and what it wants there, and the host of the route is sent
the request with the first two taken off its target. The rest of the head is kept, and a header joins
it.

`rewriteRequestTarget` puts that header two bytes ahead of the head's end, which is ahead of its blank
line only where that is `\r\n`: `forwards_iff`. `rewriteDeviceRequest` looks for the end of the route at
the first `/` of all that follows it, so that the query of a target without a path is cut at a `/` of its
own: `rewriteDeviceRequest_iff`.
-/

namespace SuperHerdr

namespace Http

open Records Texts Utf8

def DEVICE_PATH : String := "/r/"

/-- The route that a request is for, and its head as the host of the route is sent it. -/
def rewriteDeviceRequest (head : List UInt8) (path : List Char) :
    Option (List Char × List UInt8) := do
  let rest ← stripPrefixText DEVICE_PATH path
  let (route, suffix) := (splitOnce '/' rest).getD (rest, [])
  let route := route.takeWhile (· ≠ '?')
  if !Bridge.ensureRoute (String.ofList route) then none
  else
    let query := (splitOnce '?' path).map Prod.snd
    let localPath := if suffix = [] then ['/'] else '/' :: suffix
    let localTarget := match query with
      | some query => if '?' ∉ localPath then localPath ++ '?' :: query else localPath
      | none => localPath
    let rewritten ← rewriteRequestTarget head (String.ofList localTarget)
    if rewritten.length ≤ MAX_HTTP_HEAD_BYTES then some (route, rewritten) else none

/-! ### The head with another target -/

/-- A head with the bridge's header two bytes ahead of its end. -/
def spliced (rewritten : List UInt8) : List UInt8 :=
  rewritten.take (rewritten.length - 2) ++ encode FORWARDED.toList ++
    rewritten.drop (rewritten.length - 2)

theorem length_spliced (rewritten : List UInt8) :
    (spliced rewritten).length = rewritten.length + (encode FORWARDED.toList).length := by
  simp only [spliced, List.length_append, List.length_take, List.length_drop]
  omega

theorem spliced_injective : Function.Injective spliced := by
  intro rewritten other h
  have hlength : rewritten.length = other.length := by
    have := congrArg List.length h
    simpa only [length_spliced, Nat.add_right_cancel_iff] using this
  rw [spliced, spliced, List.append_assoc, List.append_assoc] at h
  obtain ⟨hfront, hrest⟩ := List.append_inj h (by simp [hlength])
  have htail := List.append_cancel_left hrest
  rw [← List.take_append_drop (rewritten.length - 2) rewritten, hfront, htail,
    List.take_append_drop]

theorem spliced_append (front : List UInt8) {tail : List UInt8} (h : tail.length = 2) :
    spliced (front ++ tail) = front ++ encode FORWARDED.toList ++ tail := by
  have hcut : (front ++ tail).length - 2 = front.length := by
    rw [List.length_append, h, Nat.add_sub_cancel]
  rw [spliced, hcut, List.take_left, List.drop_left]

/-- The bytes of the request line that a request is forwarded with. -/
def requestLine (method localTarget version : List Char) : List UInt8 :=
  encode (method ++ ' ' :: localTarget ++ ' ' :: version ++ ['\r', '\n'])

theorem two_le_length_requestLine (method localTarget version : List Char) :
    2 ≤ (requestLine method localTarget version).length := by
  have hend : (encode ['\r', '\n']).length = 2 := by decide
  rw [requestLine, encode_append, List.length_append, hend]
  omega

/-- A head is rewritten if it is a text whose first line has three fields. -/
theorem rewriteRequestTarget_eq_some_iff {head out : List UInt8} {localTarget : String} :
    rewriteRequestTarget head localTarget = some out ↔
      ∃ text first rest method target version more, fromUtf8 head = some text ∧
        splitOnce '\n' text.toList = some (first, rest) ∧
        splitWhitespace first = method :: target :: version :: more ∧
        out = spliced (requestLine method localTarget.toList version ++ encode rest) ∧
        out.length ≤ MAX_HTTP_HEAD_BYTES := by
  simp only [rewriteRequestTarget, Option.bind_eq_bind, Option.bind_eq_some_iff,
    Option.map_eq_some_iff, exists_exists_and_eq_and, Prod.exists]
  constructor
  · rintro ⟨text, htext, first, rest, hsplit, h⟩
    split at h
    · next method target version more hfields =>
      split at h
      · simp at h
      · split at h
        · next hfits =>
          obtain rfl := Option.some.inj h
          exact ⟨text, first, rest, method, target, version, more, htext, hsplit, hfields, rfl, hfits⟩
        · simp at h
    · simp at h
  · rintro ⟨text, first, rest, method, target, version, more, htext, hsplit, hfields, rfl, hfits⟩
    refine ⟨text, htext, first, rest, hsplit, ?_⟩
    have hlong := two_le_length_requestLine method localTarget.toList version
    rw [hfields]
    dsimp only
    rw [if_neg, if_pos]
    · rfl
    · exact hfits
    · rw [List.length_append]
      unfold requestLine at hlong
      omega

/-- What a head is rewritten to tells the target it was given. -/
theorem rewriteRequestTarget_injective {head out : List UInt8} {localTarget other : String}
    (h : rewriteRequestTarget head localTarget = some out)
    (hother : rewriteRequestTarget head other = some out) : localTarget = other := by
  obtain ⟨text, first, rest, method, target, version, more, htext, hsplit, hfields, hout, -⟩ :=
    rewriteRequestTarget_eq_some_iff.mp h
  obtain ⟨text', first', rest', method', target', version', more', htext', hsplit', hfields', hout',
    -⟩ := rewriteRequestTarget_eq_some_iff.mp hother
  obtain rfl : text = text' := Option.some.inj (htext.symm.trans htext')
  obtain ⟨rfl, rfl⟩ : first = first' ∧ rest = rest' :=
    Prod.mk.inj (Option.some.inj (hsplit.symm.trans hsplit'))
  obtain ⟨rfl, -, rfl, -⟩ : method = method' ∧ target = target' ∧ version = version' ∧ more = more' := by
    simpa only [List.cons.injEq] using hfields.symm.trans hfields'
  have hline := List.append_cancel_right (spliced_injective (hout.symm.trans hout'))
  have htarget := encode_injective hline
  rw [List.append_assoc, List.append_assoc, List.append_assoc, List.append_assoc] at htarget
  have hrest := (List.cons.inj (List.append_cancel_left htarget)).2
  exact String.toList_inj.mp (List.append_cancel_right hrest)

/-! ### Heads that are forwarded whole -/

/-- The lines behind the request line, without the blank one at the end. -/
def headerLines (text : List Char) : List (List Char) :=
  (text.splitOn '\n').tail.dropLast.dropLast

/-- What a request is when it is forwarded as it came: its request line with another target, its headers,
one more and a blank line. -/
def Forwards (method localTarget version : List Char) (text : List Char) (out : List UInt8) : Prop :=
  ∃ blank, Blank blank ∧
    out = requestLine method localTarget version ++ encode (framed '\n' (headerLines text)) ++
      encode FORWARDED.toList ++ blank

theorem headerLines_framed {first last : List Char} {raws : List (List Char)}
    (hfree : ∀ raw ∈ first :: raws ++ [last], '\n' ∉ raw) :
    headerLines (framed '\n' (first :: raws ++ [last])) = raws := by
  rw [headerLines, splitOn_framed hfree, List.cons_append, List.cons_append, List.tail_cons,
    List.dropLast_concat, List.dropLast_concat]

theorem spliced_crlf (line : List UInt8) (raws : List (List Char)) :
    spliced (line ++ encode (framed '\n' (raws ++ [['\r']]))) =
      line ++ encode (framed '\n' raws) ++ encode FORWARDED.toList ++ [13, 10] := by
  have hblank : encode (framed '\n' [['\r']]) = [13, 10] := by decide
  rw [framed_append, encode_append, hblank, ← List.append_assoc, spliced_append _ rfl]

theorem spliced_lf {line front : List UInt8} {raws : List (List Char)}
    (h : line ++ encode (framed '\n' raws) = front ++ [10]) :
    spliced (line ++ encode (framed '\n' (raws ++ [[]]))) =
      front ++ encode FORWARDED.toList ++ [10, 10] := by
  have hblank : encode (framed '\n' [[]]) = [10] := by decide
  have htwo : front ++ [10] ++ [10] = front ++ [10, 10] := by simp
  rw [framed_append, encode_append, hblank, ← List.append_assoc, h, htwo, spliced_append _ rfl]

theorem exists_line_end (method localTarget version : List Char) (raws : List (List Char)) :
    ∃ front, requestLine method localTarget version ++ encode (framed '\n' raws) = front ++ [10] := by
  have hbyte : encode ['\n'] = [10] := by decide
  rcases List.eq_nil_or_concat' raws with rfl | ⟨raws, raw, rfl⟩
  · refine ⟨encode (method ++ ' ' :: localTarget ++ ' ' :: version ++ ['\r']), ?_⟩
    rw [← hbyte, ← encode_append, requestLine, framed, List.flatMap_nil, encode_nil, List.append_nil]
    simp
  · refine ⟨requestLine method localTarget version ++ encode (framed '\n' raws) ++ encode raw, ?_⟩
    rw [← hbyte, framed_append, encode_append, List.append_assoc, List.append_assoc]
    simp [framed]

/-- How a head ends, by its last line. -/
theorem endsHead_framed {raws : List (List Char)} (hraws : raws ≠ []) :
    [10, 10] <:+ encode (framed '\n' (raws ++ [[]])) ∧
      ¬[10, 10] <:+ encode (framed '\n' (raws ++ [['\r']])) := by
  obtain ⟨front, raw, rfl⟩ := (List.eq_nil_or_concat' raws).resolve_left hraws
  have hnewline : encode ['\n'] = [10] := by decide
  have hblank : encode (framed '\n' [['\r']]) = [13, 10] := by decide
  constructor
  · refine ⟨encode (framed '\n' front) ++ encode raw, ?_⟩
    have hlast : encode (framed '\n' [raw, []]) = encode raw ++ [10, 10] := by
      have hlines : framed '\n' [raw, []] = raw ++ (['\n'] ++ ['\n']) := by simp [framed]
      rw [hlines, encode_append, encode_append, hnewline]
      rfl
    rw [List.append_assoc front, framed_append, encode_append, List.append_assoc]
    exact congrArg (encode (framed '\n' front) ++ ·) hlast.symm
  · rintro ⟨bytes, hbytes⟩
    rw [framed_append, encode_append, hblank] at hbytes
    have hend := (List.append_inj' hbytes rfl).2
    exact absurd hend (by decide)

/-- A head is forwarded as it came if, and only if, it ends with `\r\n\r\n`. -/
theorem forwards_iff {stream head rest out : List UInt8} {text localTarget : String}
    {method target version : List Char} (hhead : readHttpHead [] stream = some (head, rest))
    (htext : fromUtf8 head = some text)
    (hfields : (splitOnce '\n' text.toList).map (fun parts => splitWhitespace parts.1) =
      some [method, target, version])
    (hout : rewriteRequestTarget head localTarget = some out) :
    Forwards method localTarget.toList version text.toList out ↔ [13, 10, 13, 10] <:+ head := by
  have hbytes : encode text.toList = head := by
    rw [encode_toList]
    exact (fromUtf8_eq_some_iff.mp htext)
  have hends := of_readHttpHead hhead
  rw [← hbytes] at hends
  obtain ⟨raws, last, hlines, hsome, hfree, hlast⟩ := exists_framed_of_endsHead hends
  obtain ⟨first, raws, rfl⟩ := List.exists_cons_of_ne_nil hsome
  have hfree' : ∀ raw ∈ first :: raws ++ [last], '\n' ∉ raw := by
    intro raw hraw
    rcases List.mem_append.mp hraw with hraw | hraw
    · exact hfree raw hraw
    · rw [List.mem_singleton.mp hraw]
      rcases hlast with rfl | rfl <;> decide
  have hsplit : splitOnce '\n' text.toList = some (first, framed '\n' (raws ++ [last])) := by
    rw [hlines, List.cons_append, framed_cons, splitOnce_append (hfree first List.mem_cons_self)]
  have hheaders : headerLines text.toList = raws := by rw [hlines, headerLines_framed hfree']
  rw [hsplit, Option.map_some, Option.some.injEq] at hfields
  -- what the head was rewritten to
  obtain ⟨text', first', tail, method', _, version', more, htext', hsplit', hfields', rfl, -⟩ :=
    rewriteRequestTarget_eq_some_iff.mp hout
  obtain rfl : text = text' := Option.some.inj (htext.symm.trans htext')
  obtain ⟨rfl, rfl⟩ : first = first' ∧ framed '\n' (raws ++ [last]) = tail :=
    Prod.mk.inj (Option.some.inj (hsplit.symm.trans hsplit'))
  obtain ⟨rfl, -, rfl, -⟩ : method = method' ∧ target = _ ∧ version = version' ∧ [] = more := by
    simpa only [List.cons.injEq] using hfields.symm.trans hfields'
  rw [Forwards, hheaders, ← hbytes, hlines]
  rw [hlines] at hends
  rcases hlast with rfl | rfl
  · have hcrlf := hends.resolve_right (endsHead_framed hsome).2
    exact iff_of_true ⟨[13, 10], .inl rfl, spliced_crlf _ _⟩ hcrlf
  · refine iff_of_false ?_ ?_
    · rintro ⟨blank, -, hforwarded⟩
      obtain ⟨front, hfront⟩ := exists_line_end method localTarget.toList version raws
      rw [spliced_lf hfront, hfront, List.append_assoc, List.append_assoc, List.append_assoc] at hforwarded
      have hbyte := List.append_cancel_left hforwarded
      have hX : (encode FORWARDED.toList).head? = some 88 := by decide
      have hhead := congrArg List.head? hbyte
      rw [List.head?_append, hX] at hhead
      simp at hhead
    · intro hcrlf
      obtain ⟨front, hfront⟩ := hcrlf
      obtain ⟨front', hfront'⟩ := (endsHead_framed hsome).1
      have hcut : (front ++ [13, 10]) ++ [13, 10] = front' ++ [10, 10] := by
        rw [hfront', ← hfront]
        simp
      have hend := (List.append_inj' hcut rfl).2
      exact absurd hend (by decide)

/-- A request with lines that end as they should. -/
def terminated : List UInt8 := utf8 "GET /r/ HTTP/1.1\r\nHost: desk\r\n\r\n"

theorem forwards_terminated :
    ∃ out, rewriteRequestTarget terminated "/" = some out ∧
      (Forwards "GET".toList "/".toList "HTTP/1.1".toList
        "GET /r/ HTTP/1.1\r\nHost: desk\r\n\r\n".toList out ↔ [13, 10, 13, 10] <:+ terminated) := by
  obtain ⟨out, hout⟩ := Option.isSome_iff_exists.mp
    (show (rewriteRequestTarget terminated "/").isSome by decide +kernel)
  have hread : readHttpHead [] terminated = some (terminated, []) := by decide +kernel
  have hfields : (splitOnce '\n' "GET /r/ HTTP/1.1\r\nHost: desk\r\n\r\n".toList).map
      (fun parts => splitWhitespace parts.1) =
        some ["GET".toList, "/r/".toList, "HTTP/1.1".toList] := by decide +kernel
  exact ⟨out, hout, forwards_iff hread (fromUtf8_eq_some_iff.mpr rfl) hfields hout⟩

/-- The same request with bare line feeds. -/
def bare : List UInt8 := utf8 "GET /r/ HTTP/1.1\nHost: desk\n\n"

/-- The bridge's header becomes the end of the value of `Host`. -/
theorem bare_is_not_forwarded :
    readHttpHead [] bare = some (bare, []) ∧ ∃ out, rewriteRequestTarget bare "/" = some out ∧
      ¬Forwards "GET".toList "/".toList "HTTP/1.1".toList
        "GET /r/ HTTP/1.1\nHost: desk\n\n".toList out := by
  have hout : rewriteRequestTarget bare "/" =
      some (utf8 "GET / HTTP/1.1\r\nHost: deskX-Forwarded-Proto: https\r\n\n\n") := by decide +kernel
  refine ⟨by decide +kernel, _, hout, ?_⟩
  rintro ⟨blank, rfl | rfl, hforwarded⟩
  · revert hforwarded
    decide +kernel
  · revert hforwarded
    decide +kernel

/-! ### What follows a route -/

/-- The target that a host is sent, of what follows the route. -/
def localTarget (suffix : List Char) : List Char :=
  if suffix.head? = some '/' then suffix else '/' :: suffix

/-- Nothing stands behind a `/` in what follows the route, unless it begins with one. -/
def Unbroken (suffix : List Char) : Prop :=
  suffix.head? = some '?' → (suffix.dropWhile (· ≠ '/')).tail = []

instance (suffix : List Char) : Decidable (Unbroken suffix) :=
  inferInstanceAs (Decidable (_ → _))

/-- What stands behind the first `/` of a text. -/
def behindSlash (text : List Char) : List Char := (text.dropWhile (· ≠ '/')).tail

/-- The target that a host is sent, as it comes about. -/
def sentTarget (suffix : List Char) : List Char :=
  let localPath := '/' :: behindSlash suffix
  match (splitOnce '?' suffix).map Prod.snd with
  | some query => if '?' ∉ localPath then localPath ++ '?' :: query else localPath
  | none => localPath

theorem splitOnce_append_of_not_mem {c : Char} {front : List Char} (hfront : c ∉ front)
    (text : List Char) :
    splitOnce c (front ++ text) =
      (splitOnce c text).map fun parts => (front ++ parts.1, parts.2) := by
  have hne : ∀ d ∈ front, decide (d ≠ c) = true := by
    rintro d hd
    exact decide_eq_true fun heq => hfront (heq ▸ hd)
  rw [splitOnce, splitOnce, List.takeWhile_append_of_pos hne, List.dropWhile_append_of_pos hne]
  by_cases hc : c ∈ text
  · rw [if_pos (by simp [hc]), if_pos hc, Option.map_some]
  · rw [if_neg (by simp [hc, hfront]), if_neg hc, Option.map_none]

theorem behindSlash_of_not_mem {text : List Char} (h : '/' ∉ text) : behindSlash text = [] := by
  rw [behindSlash, List.dropWhile_eq_nil_iff.mpr, List.tail_nil]
  intro c hc
  exact decide_eq_true fun heq => h (heq ▸ hc)

/-- A host is sent what it should be as long as no query is cut. -/
theorem sentTarget_eq_iff {suffix : List Char}
    (hsuffix : suffix = [] ∨ suffix.head? = some '/' ∨ suffix.head? = some '?') :
    sentTarget suffix = localTarget suffix ↔ Unbroken suffix := by
  rcases suffix with _ | ⟨c, rest⟩
  · decide
  · simp only [reduceCtorEq, List.head?_cons, Option.some.injEq, false_or] at hsuffix
    rcases hsuffix with rfl | rfl
    · have hbehind : behindSlash ('/' :: rest) = rest := rfl
      refine iff_of_true ?_ fun hquery => ?_
      · rw [sentTarget, hbehind, localTarget, if_pos (List.head?_cons ..), splitOnce]
        by_cases hquery : '?' ∈ '/' :: rest
        · simp [hquery]
        · simp [hquery]
      · simp at hquery
    · have hsplit : splitOnce '?' ('?' :: rest) = some ([], rest) :=
        splitOnce_append (List.not_mem_nil (a := '?')) rest
      have hlength : (behindSlash ('?' :: rest)).length ≤ rest.length := by
        have hdrop : ('?' :: rest).dropWhile (· ≠ '/') = rest.dropWhile (· ≠ '/') := rfl
        rw [behindSlash, hdrop, List.length_tail]
        exact (Nat.sub_le _ _).trans (List.dropWhile_suffix _).length_le
      have hunbroken : Unbroken ('?' :: rest) ↔ behindSlash ('?' :: rest) = [] := by
        simp [Unbroken, behindSlash]
      rw [hunbroken, sentTarget, hsplit, localTarget, if_neg (by simp)]
      generalize behindSlash ('?' :: rest) = behind at hlength ⊢
      dsimp only [Option.map_some]
      split
      · constructor
        · intro heq
          have hcount := congrArg List.length heq
          simp only [List.length_append, List.length_cons] at hcount
          exact List.length_eq_zero_iff.mp (by omega)
        · rintro rfl
          rfl
      · next hmem =>
        refine iff_of_false (fun heq => ?_) fun hnil => hmem (by simp [hnil])
        have hcount := congrArg List.length heq
        simp only [List.length_cons] at hcount
        omega

section

variable {route : String} (hroute : Bridge.ensureRoute route = true)
include hroute

theorem not_mem_route {c : Char} (hc : Bridge.isHexdigit c = false) : c ∉ route.toList := by
  intro hmem
  rw [Bridge.ensureRoute, Bool.and_eq_true, List.all_eq_true] at hroute
  rw [hroute.2 c hmem] at hc
  exact absurd hc (by decide)

omit hroute in
/-- What is held for the route is the route and what stands ahead of the first `/`. -/
theorem splitOnce_route (hslash : '/' ∉ route.toList) {suffix : List Char}
    (hsuffix : suffix = [] ∨ suffix.head? = some '/' ∨ suffix.head? = some '?') :
    ∃ ahead, (splitOnce '/' (route.toList ++ suffix)).getD (route.toList ++ suffix, []) =
        (route.toList ++ ahead, behindSlash suffix) ∧ (ahead = [] ∨ ahead.head? = some '?') := by
  rw [splitOnce_append_of_not_mem hslash, splitOnce]
  by_cases hmem : '/' ∈ suffix
  · refine ⟨suffix.takeWhile (· ≠ '/'), by rw [if_pos hmem]; rfl, ?_⟩
    rcases suffix with _ | ⟨c, suffix⟩
    · exact .inl rfl
    · rcases hsuffix with hnil | hhead | hhead
      · cases hnil
      · obtain rfl := Option.some.inj hhead
        exact .inl rfl
      · obtain rfl := Option.some.inj hhead
        exact .inr rfl
  · refine ⟨suffix, by rw [if_neg hmem, behindSlash_of_not_mem hmem]; rfl, ?_⟩
    refine hsuffix.imp_right fun hhead => hhead.resolve_left fun hslash => hmem ?_
    exact List.mem_of_mem_head? (Option.mem_def.mpr hslash)

theorem rewriteDeviceRequest_route (head : List UInt8) {suffix : List Char}
    (hsuffix : suffix = [] ∨ suffix.head? = some '/' ∨ suffix.head? = some '?') :
    rewriteDeviceRequest head (DEVICE_PATH.toList ++ route.toList ++ suffix) =
      (rewriteRequestTarget head (String.ofList (sentTarget suffix))).map fun rewritten =>
        (route.toList, rewritten) := by
  have hslash : '/' ∉ route.toList := not_mem_route hroute (by decide)
  have hquestion : '?' ∉ route.toList := not_mem_route hroute (by decide)
  have hstrip : stripPrefixText DEVICE_PATH (DEVICE_PATH.toList ++ route.toList ++ suffix) =
      some (route.toList ++ suffix) := by
    rw [List.append_assoc, stripPrefixText, if_pos (List.prefix_append ..), List.drop_left]
  obtain ⟨ahead, hsplit, hahead⟩ := splitOnce_route hslash hsuffix
  have htaken : (route.toList ++ ahead).takeWhile (· ≠ '?') = route.toList := by
    have hne : ∀ c ∈ route.toList, decide (c ≠ '?') = true := by
      intro c hc
      exact decide_eq_true fun heq => hquestion (heq ▸ hc)
    rw [List.takeWhile_append_of_pos hne]
    rcases ahead with _ | ⟨c, ahead⟩
    · simp
    · obtain rfl : c = '?' := by simpa using hahead
      simp
  have hquery : (splitOnce '?' (DEVICE_PATH.toList ++ route.toList ++ suffix)).map Prod.snd =
      (splitOnce '?' suffix).map Prod.snd := by
    have hfree : '?' ∉ DEVICE_PATH.toList ++ route.toList := by
      rw [List.mem_append, not_or]
      exact ⟨by decide, hquestion⟩
    rw [splitOnce_append_of_not_mem hfree, Option.map_map]
    rfl
  have hpath : (if behindSlash suffix = [] then ['/'] else '/' :: behindSlash suffix) =
      '/' :: behindSlash suffix := by
    split
    · next hnil => rw [hnil]
    · rfl
  simp only [rewriteDeviceRequest, hstrip, hsplit, htaken, hquery, hpath, String.ofList_toList,
    hroute, Option.bind_eq_bind, Option.bind_some, Bool.not_true, Bool.false_eq_true, if_false]
  rw [← sentTarget]
  cases hout : rewriteRequestTarget head (String.ofList (sentTarget suffix)) with
  | none => rfl
  | some rewritten =>
    obtain ⟨_, _, _, _, _, _, _, -, -, -, -, hfits⟩ := rewriteRequestTarget_eq_some_iff.mp hout
    rw [Option.bind_some, if_pos hfits, Option.map_some]

/-- A request for a route is led there, and its host is sent what follows the route, if, and only if, no
query is cut at a `/` of its own. -/
theorem rewriteDeviceRequest_iff {suffix : List Char}
    (hsuffix : suffix = [] ∨ suffix.head? = some '/' ∨ suffix.head? = some '?') :
    (Unbroken suffix → ∀ head,
      rewriteDeviceRequest head (DEVICE_PATH.toList ++ route.toList ++ suffix) =
        (rewriteRequestTarget head (String.ofList (localTarget suffix))).map fun rewritten =>
          (route.toList, rewritten)) ∧
    ∀ head out, rewriteRequestTarget head (String.ofList (localTarget suffix)) = some out →
      (rewriteDeviceRequest head (DEVICE_PATH.toList ++ route.toList ++ suffix) =
        some (route.toList, out) ↔ Unbroken suffix) := by
  constructor
  · intro hunbroken head
    rw [rewriteDeviceRequest_route hroute head hsuffix, (sentTarget_eq_iff hsuffix).mpr hunbroken]
  · intro head out hout
    rw [rewriteDeviceRequest_route hroute head hsuffix, ← sentTarget_eq_iff hsuffix]
    constructor
    · intro hsent
      obtain ⟨rewritten, hrewritten, heq⟩ := Option.map_eq_some_iff.mp hsent
      obtain rfl : rewritten = out := (Prod.mk.inj heq).2
      exact String.ofList_injective (rewriteRequestTarget_injective hrewritten hout)
    · intro heq
      rw [heq, hout, Option.map_some]

end

/-- A route. -/
def desk : String := "0123456789abcdef0123456789ABCDEF"

theorem rewriteDeviceRequest_desk :
    (rewriteDeviceRequest terminated (DEVICE_PATH.toList ++ desk.toList ++ "?a=/".toList)).isSome := by
  have hunbroken : Unbroken "?a=/".toList := by decide +kernel
  have hroute : Bridge.ensureRoute desk = true := by decide +kernel
  have hwhole := (rewriteDeviceRequest_iff hroute (.inr (.inr rfl))).1 hunbroken terminated
  rw [hwhole]
  decide +kernel

/-- A query that names a page is taken for a page. -/
theorem query_is_cut :
    ∃ out, rewriteRequestTarget terminated (String.ofList (localTarget "?next=/login".toList)) =
        some out ∧
      rewriteDeviceRequest terminated (DEVICE_PATH.toList ++ desk.toList ++ "?next=/login".toList) ≠
        some (desk.toList, out) ∧
      rewriteDeviceRequest terminated (DEVICE_PATH.toList ++ desk.toList ++ "?next=/login".toList) =
        (rewriteRequestTarget terminated "/login?next=/login").map fun rewritten =>
          (desk.toList, rewritten) := by
  obtain ⟨out, hout⟩ := Option.isSome_iff_exists.mp
    (show (rewriteRequestTarget terminated
      (String.ofList (localTarget "?next=/login".toList))).isSome by decide +kernel)
  refine ⟨out, hout, ?_, by decide +kernel⟩
  rw [← Option.map_some (f := fun rewritten => (desk.toList, rewritten)), ← hout]
  decide +kernel

end Http

end SuperHerdr
