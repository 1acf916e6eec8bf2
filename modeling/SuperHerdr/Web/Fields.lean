import SuperHerdr.Library.Json
import SuperHerdr.Bridge.Relay

/-!
# The fields of a pairing request

The bridge parses a pairing request to find the code in it, and forwards it as it came. The daemon
looks for the fields by searching the text. `jsonField_text` says what a search finds: the first
literal that names the field, and of the string that is its value what stands before the next quote.
So the two agree on the texts whose `Reads` says so (`pairing_fields_agree`), and of the texts that
the page sends the code is read as it was entered, whatever the name is.
-/

namespace SuperHerdr

open JsonText
open Texts (isWhiteSpace)

/-! ### Reading -/

def trimStart (text : List Char) : List Char := text.dropWhile isWhiteSpace

def stripPrefix (c : Char) : List Char → Option (List Char)
  | [] => none
  | d :: text => if d = c then some text else none

/-- What is read behind the name of a field. -/
def fieldValue (text : List Char) : Option (List Char) := do
  let text ← stripPrefix ':' (trimStart text)
  let text ← stripPrefix '"' (trimStart text)
  if '"' ∈ text then some (text.takeWhile (· ≠ '"')) else none

/-- Read one string field out of a small JSON object. -/
def jsonField (text field : String) : Option String :=
  ((afterFirst (quotedWord field.toList) text.toList).bind fieldValue).map String.ofList

/-- The code the daemon reads. -/
def daemonCode (body : String) : String := (jsonField body "code").getD ""

def asStr : Value → Option String
  | .string text => some text
  | _ => none

/-- The code the bridge looks a route up by. -/
def bridgeCode (fromSlice : String → Option Value) (body : String) : Option String := do
  let value ← fromSlice body
  let code ← (value.get "code").bind asStr
  let _ ← Bridge.RelayState.offeredCode (some code)
  return code

/-! ### What is read -/

section Reading

variable {text rest : List Char}

theorem trimStart_cons {c : Char} (h : isWhiteSpace c = false) : trimStart (c :: text) = c :: text := by
  simp [trimStart, h]

theorem trimStart_append (spaces : Spaces) : trimStart (spaces.chars ++ text) = trimStart text := by
  refine List.dropWhile_append_of_pos fun c hc => ?_
  rcases spaces.blank c hc with rfl | rfl | rfl | rfl <;> rfl

theorem fieldValue_of_follows (h : Follows rest) : fieldValue rest = none := by
  obtain ⟨spaces, tail, rfl, htail⟩ := h
  rw [fieldValue, trimStart_append]
  cases tail with
  | nil => rfl
  | cons c tail => rcases htail c rfl with rfl | rfl | rfl <;> rfl

@[simp] theorem stripPrefix_self (c : Char) : stripPrefix c (c :: text) = some text := by
  simp [stripPrefix]

/-- A number or a word begins with neither white space nor a quote. -/
theorem stripPrefix_scalar (value : Scalar) :
    stripPrefix '"' (trimStart (value.chars ++ rest)) = none := by
  obtain ⟨c, tail, htail⟩ := List.exists_cons_of_ne_nil value.nonempty
  have hplain := value.plain c (by rw [htail]; exact List.mem_cons_self)
  have hbegins : isWhiteSpace c = false ∧ c ≠ '"' := by
    rcases hplain with h | rfl | rfl | rfl
    · simp only [Char.isAlphanum, Char.isAlpha, Char.isUpper, Char.isLower, Char.isDigit,
        Bool.or_eq_true, Bool.and_eq_true, decide_eq_true_eq, ge_iff_le,
        UInt32.le_iff_toNat_le] at h
      change ((65 ≤ c.toNat ∧ c.toNat ≤ 90) ∨ (97 ≤ c.toNat ∧ c.toNat ≤ 122)) ∨
        (48 ≤ c.toNat ∧ c.toNat ≤ 57) at h
      constructor
      · simp only [isWhiteSpace, Bool.or_eq_false_iff, Bool.and_eq_false_iff, decide_eq_false_iff_not,
          beq_eq_false_iff_ne]
        omega
      · rintro rfl
        revert h
        decide
    all_goals decide
  rw [htail, List.cons_append, trimStart_cons hbegins.1, stripPrefix, if_neg hbegins.2]

theorem takeWhile_literal (literal : List Item) :
    (chars literal ++ '"' :: rest).takeWhile (· ≠ '"') = untilQuote literal := by
  rw [List.takeWhile_append]
  split
  · next hall =>
    have hself : untilQuote literal = chars literal := List.IsPrefix.eq_of_length (List.takeWhile_prefix _) hall
    rw [hself]
    simp
  · rfl

/-- Behind the name of a key, the literal is read that is its value. -/
theorem fieldValue_of_key (before after : Spaces) (value : Json) :
    fieldValue (before.chars ++ ':' :: (after.chars ++ (value.chars ++ rest))) =
      value.literal?.map untilQuote := by
  have hcolon : trimStart (before.chars ++ ':' :: (after.chars ++ (value.chars ++ rest))) =
      ':' :: (after.chars ++ (value.chars ++ rest)) := by
    rw [trimStart_append]
    exact trimStart_cons rfl
  rw [fieldValue, hcolon, stripPrefix_self, Option.bind_eq_bind, Option.bind_some,
    trimStart_append]
  cases value with
  | scalar value => rw [Json.chars, stripPrefix_scalar]; rfl
  | array pad elements => rfl
  | object pad members => rfl
  | string literal =>
    have htext : Json.chars (.string literal) ++ rest = '"' :: (chars literal ++ '"' :: rest) := by
      simp [Json.chars, quoted]
    have hquote : '"' ∈ chars literal ++ '"' :: rest := by simp
    rw [htext, trimStart_cons rfl, stripPrefix_self, Option.bind_some, if_pos hquote,
      takeWhile_literal]
    rfl

end Reading

/-! ### Which literal is read -/

/-- The fields of a pairing request. -/
def pairingFields : List String := ["code", "name", "confirmation"]

theorem pairingFields_alpha : ∀ field ∈ pairingFields,
    (∀ c ∈ field.toList, c.isAlpha = true) ∧ field.toList ≠ [] := by
  intro field hfield
  simp only [pairingFields, List.mem_cons, List.not_mem_nil, or_false] at hfield
  rcases hfield with rfl | rfl | rfl <;> simp

/-- **What the daemon reads of a field**: of the first literal that names it, if that is a key with a
string, the string up to its first quote. -/
theorem jsonField_text {field : String} (hfield : field ∈ pairingFields) (document : Document) :
    jsonField document.text field =
      ((document.json.firstNamed field.toList).bind (Option.map untilQuote)).map String.ofList := by
  obtain ⟨hword, hne⟩ := pairingFields_alpha field hfield
  have hafter : afterFirst (quotedWord field.toList) document.after.chars = none := by
    rw [← List.append_nil document.after.chars, afterFirst_append document.after.not_mem]
    rfl
  have hread := read_json hword hne (fun _ h => fieldValue_of_follows h)
    (fun before after value rest _ => fieldValue_of_key before after value) document.json
    document.after.chars ⟨document.after, [], by simp, by simp⟩
  rw [jsonField, Document.text, String.toList_ofList, List.append_assoc,
    afterFirst_append document.before.not_mem, hread, hafter]
  cases document.json.firstNamed field.toList <;> rfl

/-- A field reads as a text: the first literal that names it is a key with a string, and the text is
what stands in that before its first quote. -/
def Reads (document : Document) (field text : String) : Prop :=
  ∃ literal, document.json.firstNamed field.toList = some (some literal) ∧
    untilQuote literal = text.toList

theorem jsonField_iff {field text : String} (hfield : field ∈ pairingFields)
    (document : Document) :
    jsonField document.text field = some text ↔ Reads document field text := by
  rw [jsonField_text hfield, Reads]
  cases document.json.firstNamed field.toList with
  | none => simp
  | some found =>
    cases found with
    | none => simp
    | some literal =>
      have htext : String.ofList (untilQuote literal) = text ↔ untilQuote literal = text.toList := by
        constructor
        · rintro rfl
          exact String.toList_ofList.symm
        · intro h
          rw [h, String.ofList_toList]
      simpa using htext

/-! ### The requests of the page -/

/-- A member as the page writes it, without blanks. -/
def pageMember (key : String) (text : String) (rest : Members) : Members :=
  .cons .none (literalOf key) .none .none (.string (literalOf text)) .none rest

/-- The body of the request of the page. -/
def pageBody (code name confirmation : String) : Document where
  before := .none
  json := .object .none (pageMember "code" code (pageMember "name" name
    (pageMember "confirmation" confirmation .nil)))
  after := .none

theorem names_literalOf {word : List Char} (hword : ∀ c ∈ word, c.isAlpha = true)
    (text : String) :
    names word (literalOf text) = true ↔ text.toList = word ∨ '"' :: word <:+ text.toList := by
  rw [names, Bool.or_eq_true, literalOf, spells_literalOf hword, endsWith_literalOf hword]

theorem plain_literalOf (text : String) :
    (∀ item ∈ literalOf text, item.plain?.isSome = true) ↔
      ∀ c ∈ text.toList, c ≠ '"' ∧ c ≠ '\\' ∧ ' ' ≤ c := by
  have hitem : ∀ c, (written c).plain?.isSome = true ↔ c ≠ '"' ∧ c ≠ '\\' ∧ ' ' ≤ c := by
    intro c
    rw [plain_written]
    split
    · next h => simp [h]
    · next h => simpa using h
  simp only [literalOf, List.forall_mem_map, hitem]

theorem untilQuote_literalOf (text : String) :
    untilQuote (literalOf text) = text.toList ↔
      ∀ c ∈ text.toList, c ≠ '"' ∧ c ≠ '\\' ∧ ' ' ≤ c := by
  rw [← plain_literalOf, ← untilQuote_eq_iff]
  have hdecoded : (literalOf text).map Item.char = text.toList := by
    have h := congrArg String.toList (decoded_literalOf text)
    rwa [decoded, String.toList_ofList] at h
  rw [hdecoded]

section Page

variable {code name confirmation : String}

theorem code_plain (hcode : ∀ c ∈ code.toList, c.isUpper = true ∨ c.isDigit = true) :
    ∀ c ∈ code.toList, c ≠ '"' ∧ c ≠ '\\' ∧ ' ' ≤ c := by
  intro c hc
  have h := hcode c hc
  refine ⟨by rintro rfl; revert h; decide, by rintro rfl; revert h; decide, ?_⟩
  simp only [Char.isUpper, Char.isDigit, Bool.and_eq_true, decide_eq_true_eq, ge_iff_le,
    UInt32.le_iff_toNat_le] at h
  change (65 ≤ c.toNat ∧ c.toNat ≤ 90) ∨ (48 ≤ c.toNat ∧ c.toNat ≤ 57) at h
  have hspace : 32 ≤ c.toNat := by omega
  exact UInt32.le_iff_toNat_le.mpr hspace

theorem names_code (hcode : ∀ c ∈ code.toList, c.isUpper = true ∨ c.isDigit = true)
    {word : List Char} (hword : ∀ c ∈ word, c.isAlpha = true) (hsmall : 'n' ∈ word) :
    names word (literalOf code) = false := by
  rw [← Bool.not_eq_true, names_literalOf hword]
  rintro (hsame | hends)
  · have h := hcode 'n' (hsame ▸ hsmall)
    revert h
    decide
  · exact (code_plain hcode '"' (hends.subset List.mem_cons_self)).1 rfl

/-- **The page's code is read as it was entered, whatever the name.** The name itself is, if it needs
no escape, and so is the confirmation number, unless the name hides it. -/
theorem page_fields (hcode : ∀ c ∈ code.toList, c.isUpper = true ∨ c.isDigit = true)
    (hconfirmation : ∀ c ∈ confirmation.toList, c.isUpper = true ∨ c.isDigit = true) :
    jsonField (pageBody code name confirmation).text "code" = some code ∧
      (jsonField (pageBody code name confirmation).text "name" = some name ↔
        ∀ c ∈ name.toList, c ≠ '"' ∧ c ≠ '\\' ∧ ' ' ≤ c) ∧
      (jsonField (pageBody code name confirmation).text "confirmation" = some confirmation ↔
        name ≠ "confirmation" ∧ ¬ '"' :: "confirmation".toList <:+ name.toList) := by
  have hname := (pairingFields_alpha "name" (by simp [pairingFields])).1
  have hlast := (pairingFields_alpha "confirmation" (by simp [pairingFields])).1
  have hkeys : names "code".toList (literalOf "code") = true ∧
      names "name".toList (literalOf "code") = false ∧
      names "name".toList (literalOf "name") = true ∧
      names "confirmation".toList (literalOf "code") = false ∧
      names "confirmation".toList (literalOf "name") = false ∧
      names "confirmation".toList (literalOf "confirmation") = true := by
    decide +kernel
  obtain ⟨hcc, hnc, hnn, hfc, hfn, hff⟩ := hkeys
  refine ⟨?_, ?_, ?_⟩
  · rw [jsonField_iff (by simp [pairingFields])]
    refine ⟨literalOf code, ?_, (untilQuote_literalOf code).mpr (code_plain hcode)⟩
    rw [pageBody, Json.firstNamed, pageMember, Members.firstNamed, if_pos hcc]
    rfl
  · rw [jsonField_iff (by simp [pairingFields]), ← untilQuote_literalOf, Reads]
    have hfirst : (pageBody code name confirmation).json.firstNamed "name".toList =
        some (some (literalOf name)) := by
      rw [pageBody, Json.firstNamed, pageMember, Members.firstNamed, hnc, Json.firstNamed,
        names_code hcode hname (by decide +kernel), pageMember, Members.firstNamed, hnn]
      rfl
    rw [hfirst]
    simp
  · rw [jsonField_iff (by simp [pairingFields]), Reads]
    have hfirst : (pageBody code name confirmation).json.firstNamed "confirmation".toList =
        if names "confirmation".toList (literalOf name) then some none
        else some (some (literalOf confirmation)) := by
      rw [pageBody, Json.firstNamed, pageMember, Members.firstNamed, hfc, Json.firstNamed,
        names_code hcode hlast (by decide +kernel), pageMember, Members.firstNamed, hfn,
        Json.firstNamed, pageMember, Members.firstNamed, hff]
      cases names "confirmation".toList (literalOf name) <;> rfl
    have hhides : names "confirmation".toList (literalOf name) = true ↔
        name = "confirmation" ∨ '"' :: "confirmation".toList <:+ name.toList := by
      rw [names_literalOf hlast, String.toList_inj]
    rw [hfirst]
    by_cases h : names "confirmation".toList (literalOf name) = true
    · rw [if_pos h]
      refine iff_of_false ?_ fun hshown => (hhides.mp h).elim hshown.1 hshown.2
      rintro ⟨literal, hnone, -⟩
      cases hnone
    · rw [if_neg h]
      have hshown := mt hhides.mpr h
      rw [not_or] at hshown
      refine iff_of_true ⟨literalOf confirmation, rfl, ?_⟩ hshown
      exact (untilQuote_literalOf confirmation).mpr (code_plain hconfirmation)

end Page

theorem page_fields_phone :
    let body := (pageBody "ABCD2345" "my phone" "123456").text
    jsonField body "code" = some "ABCD2345" ∧ jsonField body "name" = some "my phone" ∧
      jsonField body "confirmation" = some "123456" := by
  have hcode : ∀ c ∈ "ABCD2345".toList, c.isUpper = true ∨ c.isDigit = true := by simp
  have hconfirmation : ∀ c ∈ "123456".toList, c.isUpper = true ∨ c.isDigit = true := by simp
  have hfields := @page_fields "ABCD2345" "my phone" "123456" hcode hconfirmation
  have hshort : ¬ '"' :: "confirmation".toList <:+ "my phone".toList := fun h =>
    absurd h.length_le (by simp)
  exact ⟨hfields.1, hfields.2.1.mpr (by simp), hfields.2.2.mpr ⟨by simp, hshort⟩⟩

/-- **Bridge and daemon read the same fields exactly of the texts that read so.** Of a body that the
bridge finds a route by, and of every JSON object with the fields as strings, what the daemon reads
is the field if and only if the first literal that names it is a key whose string, up to the first
quote in it, is the field; the member's own string is, exactly if it has no escapes. -/
theorem pairing_fields_agree (fromSlice : String → Option Value)
    (hserde : ∀ text value, fromSlice text = some value →
      ∃ document : Document, document.text = text ∧ document.json.value = value) :
    (∀ body code, bridgeCode fromSlice body = some code →
      ∃ document : Document, document.text = body ∧
        document.json.value.get "code" = some (.string code) ∧
        (daemonCode body = code ↔ Reads document "code" code)) ∧
    (∀ (document : Document), ∀ field ∈ pairingFields, ∀ text,
      document.json.value.get field = some (.string text) →
      (jsonField document.text field = some text ↔ Reads document field text)) ∧
    ∀ (document : Document) (field : String) (literal : List Item),
      document.json.firstNamed field.toList = some (some literal) →
      (Reads document field (decoded literal) ↔
        ∀ item ∈ literal, item.plain?.isSome = true) := by
  refine ⟨fun body code hcode => ?_, fun document field hfield text _ => ?_, ?_⟩
  · simp only [bridgeCode, Option.bind_eq_bind, Option.bind_eq_some_iff] at hcode
    obtain ⟨value, hvalue, found, ⟨member, hmember, hstring⟩, offered, hoffered, hfound⟩ := hcode
    obtain rfl : found = code := Option.some.inj hfound
    obtain ⟨document, rfl, rfl⟩ := hserde body value hvalue
    have hmember_string : member = .string found := by
      cases member with
      | string text => rw [Option.some.inj hstring]
      | _ => cases hstring
    have hnonempty : found ≠ "" := by
      rintro rfl
      have hnone : Bridge.RelayState.offeredCode (some "") = none := by decide +kernel
      cases hnone.symm.trans hoffered
    refine ⟨document, rfl, hmember_string ▸ hmember, ?_⟩
    rw [← jsonField_iff (by simp [pairingFields]), daemonCode]
    cases jsonField document.text "code" with
    | none => simp [Ne.symm hnonempty]
    | some text => simp
  · exact jsonField_iff hfield document
  · intro document field literal hfirst
    have hdecoded : (decoded literal).toList = literal.map Item.char := String.toList_ofList
    rw [Reads, ← untilQuote_eq_iff, hdecoded, hfirst]
    simp

/-- A parser that accepts one request of the page. -/
def oneRequest (body : String) : Option Value :=
  if body = (pageBody "ABCD2345" "my phone" "123456").text then
    some (pageBody "ABCD2345" "my phone" "123456").json.value
  else none

theorem fields_of_one_request_agree :
    ∃ document : Document, document.text = (pageBody "ABCD2345" "my phone" "123456").text ∧
      document.json.value.get "code" = some (.string "ABCD2345") ∧
      (daemonCode (pageBody "ABCD2345" "my phone" "123456").text = "ABCD2345" ↔
        Reads document "code" "ABCD2345") := by
  have hone : ∀ text value, oneRequest text = some value →
      ∃ document : Document, document.text = text ∧ document.json.value = value := by
    intro text value h
    unfold oneRequest at h
    split at h
    · next htext => exact ⟨_, htext.symm, Option.some.inj h⟩
    · cases h
  exact (pairing_fields_agree oneRequest hone).1 _ "ABCD2345" (by decide +kernel)

/-- A code within another member, before the code. -/
def nestedBody : Document where
  before := .none
  json := .object .none (.cons .none (literalOf "x") .none .none
    (.object .none (pageMember "code" "AAAAAAAA" .nil)) .none (pageMember "code" "BBBBBBBB" .nil))
  after := .none

/-- The daemon reads another code than the bridge, and no number from a device called
`confirmation`. -/
theorem fields_are_read_elsewhere :
    (nestedBody.json.value.get "code").bind asStr = some "BBBBBBBB" ∧
      daemonCode nestedBody.text = "AAAAAAAA" ∧
      jsonField (pageBody "ABCD2345" "confirmation" "123456").text "confirmation" = none := by
  decide +kernel

end SuperHerdr
