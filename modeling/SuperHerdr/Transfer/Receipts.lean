import SuperHerdr.Library.Digests
import SuperHerdr.Library.Patterns
import SuperHerdr.Library.Utf8
import SuperHerdr.Files.Listing
import SuperHerdr.Transfer.Staging

/-!
# Receipts of uploads

A host stages an upload in a directory of its own below a base directory, and answers with a
receipt: the path, the size and the digest of what it stored. The path is checked again by whatever
is done with it: by the scripts that resume an upload or ask for its size, by the removal of an
upload that failed, and by the reader of the receipt.

An accepted name passes all of these but one. `sha256sum` begins its line with a backslash where the
path has one, so that the receipt's digest has one too and the receipt is refused; and a base
directory with two dots in a row is refused by the scripts that resume. `uploads_are_usable_iff`
says that there is nothing else.
-/

namespace SuperHerdr

open Digests Patterns Utf8

/-! ### The scripts -/

/-- A base directory that is absolute and printable. -/
structure StagingBase where
  path : String
  absolute : path.toList.head? = some '/'
  printable : ∀ c ∈ path.toList, isControl c = false

/-- The base directory where no other is set. -/
def TMP : StagingBase := ⟨"/tmp", by decide, printable_of_all (by decide)⟩

/-- What `mktemp` puts in the place of the template's letters. -/
structure TemporarySuffix where
  letters : String
  length : letters.toList.length = 8
  alphanumeric : ∀ c ∈ letters.toList, c.isAlphanum = true

/-- What a file holds. Its size is a number of 64 bits. -/
structure StoredFile where
  bytes : List UInt8
  fits : bytes.length < 2 ^ 64

def EMPTY : StoredFile := ⟨[], by decide⟩

/-- `IFS= read -r`. -/
def readHeader (header : List Char) : List Char := header.takeWhile (· ≠ '\n')

/-- A name as `sha256sum` prints it. -/
def escapeName (file : List Char) : List Char :=
  file.flatMap fun c =>
    if c = '\\' then ['\\', '\\']
    else if c = '\n' then ['\\', 'n']
    else if c = '\r' then ['\\', 'r']
    else [c]

/-- The line of `sha256sum` for a file, which begins with a backslash if the name had to be escaped.
-/
def sha256sum (sha : Sha256) (file : List Char) (bytes : List UInt8) : List Char :=
  (if file.any (· ∈ ['\\', '\n', '\r']) then ['\\'] else []) ++ hex (sha.digest bytes) ++
    [' ', ' '] ++ escapeName file ++ ['\n']

/-- `awk`'s first field of a line. -/
def firstField (line : List Char) : List Char :=
  (line.dropWhile (· ∈ [' ', '\t'])).takeWhile (· ∉ [' ', '\t', '\n'])

/-- `super_herdr_digest`, on a host that has `sha256sum`. -/
def superHerdrDigest (sha : Sha256) (file : List Char) (bytes : List UInt8) : List Char :=
  firstField (sha256sum sha file bytes)

/-- The line that a script answers with. -/
def receiptLine (sha : Sha256) (file : List Char) (bytes : List UInt8) : List Char :=
  ['\t'].intercalate [file, Nat.toDigits 10 bytes.length, superHerdrDigest sha file bytes] ++ ['\n']

/-- `UPLOAD_SCRIPT`: where the file is, and the receipt. The base directory is the first of
`XDG_RUNTIME_DIR`, `TMPDIR` and `/tmp` that is set. -/
def uploadScript (sha : Sha256) (base : StagingBase) (suffix : TemporarySuffix)
    (header : List Char) (bytes : List UInt8) : Option (List Char × List Char) :=
  let transferName := readHeader header
  if transferName = [] ∨ transferName = ['.'] ∨ transferName = ['.', '.'] then none
  else if accepts [.many, .literal '/', .many] transferName then none
  else
    let stagingDir := base.path.toList ++ "/super-herdr-clipboard.".toList ++ suffix.letters.toList
    let stagedFile := stagingDir ++ '/' :: transferName
    some (stagedFile, receiptLine sha stagedFile bytes)

/-- `*/super-herdr-clipboard.*/*`. -/
def STAGED_FILE : List (Piece Char) :=
  .many :: (literals "/super-herdr-clipboard.".toList ++ [.many, .literal '/', .many])

/-- `*..*`. -/
def TWO_DOTS : List (Piece Char) := .many :: (literals ['.', '.'] ++ [.many])

/-- The file that a script goes on with, if it is one that was staged. -/
def stagedFile (files : List Char → Option StoredFile) (header : List Char) :
    Option (List Char × StoredFile) :=
  let file := readHeader header
  if !accepts STAGED_FILE file then none
  else if accepts TWO_DOTS file then none
  else (files file).map fun stored => (file, stored)

/-- `RESUME_SCRIPT`: what the file holds then, and the receipt. -/
def resumeScript (sha : Sha256) (files : List Char → Option StoredFile) (header : List Char)
    (payload : List UInt8) : Option (List UInt8 × List Char) :=
  (stagedFile files header).map fun (file, stored) =>
    (stored.bytes ++ payload, receiptLine sha file (stored.bytes ++ payload))

/-- `STAGED_SIZE_SCRIPT`. -/
def stagedSizeScript (files : List Char → Option StoredFile) (header : List Char) :
    Option (List Char) :=
  (stagedFile files header).map fun (_, stored) => Nat.toDigits 10 stored.bytes.length

/-! ### The reader of a receipt -/

structure RemoteUploadReceipt where
  path : String
  bytes : ℕ
  digest : String
deriving DecidableEq

/-- A number of 64 bits in decimal digits. -/
def parseSize (text : List Char) : Option ℕ :=
  let digits := if text.head? = some '+' then text.tail else text
  if digits ≠ [] ∧ digits.all Char.isDigit then
    let value := Nat.ofDigitChars 10 digits 0
    if value < 2 ^ 64 then some value else none
  else none

def parseRemoteUploadReceipt (bytes : List UInt8) : Except String RemoteUploadReceipt :=
  match fromUtf8 bytes with
  | none => .error "remote upload receipt is not UTF-8"
  | some text =>
      let fields := (text.toList.rdropWhile (· ∈ ['\r', '\n'])).splitOn '\t'
      let path := fields[0]?.getD []
      let size := fields[1]?.getD []
      let digest := fields[2]?.getD []
      if fields[3]?.isSome ∨ path.head? ≠ some '/' ∨ path.any isControl = true ∨
          (encode digest).length ≠ 64 ∨ digest.all isHexDigit = false then
        .error "remote clipboard media upload returned an invalid receipt"
      else
        match parseSize size with
        | none => .error "remote clipboard media upload returned an invalid size"
        | some bytes => .ok ⟨String.ofList path, bytes, String.ofList (digest.map Char.toLower)⟩

/-! ### Plain texts -/

theorem notMem_of_isControl {text : List Char} (h : ∀ c ∈ text, isControl c = false) {c : Char}
    (hcontrol : isControl c = true) : c ∉ text := fun hc =>
  Bool.eq_false_iff.mp (h c hc) hcontrol

theorem readHeader_append {text : List Char} (h : ∀ c ∈ text, isControl c = false) :
    readHeader (text ++ ['\n']) = text := by
  have hline : ∀ c ∈ text, decide (c ≠ '\n') = true := fun c hc =>
    decide_eq_true (ne_of_mem_of_not_mem hc (notMem_of_isControl h (by decide)))
  rw [readHeader, List.takeWhile_append_of_pos hline]
  simp

theorem firstField_append {field : List Char} (hnonempty : field ≠ [])
    (h : ∀ c ∈ field, c ∉ [' ', '\t', '\n']) (rest : List Char) :
    firstField (field ++ ' ' :: rest) = field := by
  cases field with
  | nil => exact absurd rfl hnonempty
  | cons c field =>
    have hblank : c ∉ [' ', '\t'] := fun hc =>
      h c List.mem_cons_self (List.mem_append_left ['\n'] hc)
    have hkept : (c :: field ++ ' ' :: rest).dropWhile (· ∈ [' ', '\t']) =
        c :: field ++ ' ' :: rest :=
      List.dropWhile_cons_of_neg fun hc => hblank (of_decide_eq_true hc)
    rw [firstField, hkept, List.takeWhile_append_of_pos fun c hc => decide_eq_true (h c hc)]
    simp

/-! ### Dots across separators -/

/-- What has no separator in it is in one of the parts that a separator stands between. -/
theorem infix_append_cons_iff {word front rest : List Char} {separator : Char}
    (h : separator ∉ word) :
    word <:+: front ++ separator :: rest ↔ word <:+: front ∨ word <:+: rest := by
  constructor
  · rintro ⟨ahead, behind, heq⟩
    rw [List.append_assoc] at heq
    rcases List.append_eq_append_iff.mp heq with ⟨other, rfl, hword⟩ | ⟨other, rfl, hword⟩
    · -- the word begins in the front part
      rcases List.append_eq_append_iff.mp hword with ⟨more, rfl, -⟩ | ⟨more, rfl, hmore⟩
      · exact .inl ⟨ahead, more, by simp⟩
      · cases more with
        | nil => exact .inl ⟨ahead, [], by simp⟩
        | cons c more =>
          obtain ⟨rfl, -⟩ := List.cons.inj hmore
          exact absurd (by simp) h
    · cases other with
      | nil =>
        rw [List.nil_append] at hword
        cases word with
        | nil => exact .inl (List.nil_infix)
        | cons c word =>
          obtain ⟨rfl, -⟩ := List.cons.inj hword
          exact absurd (by simp) h
      | cons c other =>
        obtain ⟨-, rfl⟩ := List.cons.inj hword
        exact .inr ⟨other, behind, by simp⟩
  · rintro (hfront | hrest)
    · exact hfront.trans (List.prefix_append ..).isInfix
    · exact hrest.trans ((List.suffix_cons ..).trans (List.suffix_append ..)).isInfix

/-! ### The path of an upload -/

section Path

variable (base : StagingBase) (suffix : TemporarySuffix) (name : StagedName)

/-- Where an upload of this name is put. -/
def stagedPath : List Char :=
  base.path.toList ++ '/' :: ("super-herdr-clipboard.".toList ++ suffix.letters.toList ++
    '/' :: name.name.toList)

/-- The heading that hands a script its name. -/
def writeTransferName : List Char := name.name.toList ++ ['\n']

theorem head?_stagedPath : (stagedPath base suffix name).head? = some '/' := by
  have habsolute := base.absolute
  rw [stagedPath]
  cases hpath : base.path.toList with
  | nil => rw [hpath] at habsolute; cases habsolute
  | cons c rest =>
    rw [hpath] at habsolute
    simpa using habsolute

theorem printable_stagedPath : ∀ c ∈ stagedPath base suffix name, isControl c = false := by
  have hfixed : ∀ c ∈ "/super-herdr-clipboard.".toList, isControl c = false :=
    printable_of_all (by decide)
  intro c hc
  simp only [stagedPath, List.mem_append, List.mem_cons] at hc
  rcases hc with hc | rfl | (hc | hc) | rfl | hc
  · exact base.printable c hc
  · exact hfixed '/' (by decide)
  · exact hfixed c (List.mem_cons_of_mem '/' hc)
  · exact (isAlphanum_plain (suffix.alphanumeric c hc)).2.2
  · exact hfixed '/' (by decide)
  · exact name.component.printable c hc

theorem backslash_mem_stagedPath_iff :
    '\\' ∈ stagedPath base suffix name ↔ '\\' ∈ base.path.toList ∨ '\\' ∈ name.name.toList := by
  have hletters : '\\' ∉ suffix.letters.toList := fun hmem =>
    absurd (suffix.alphanumeric _ hmem) (by decide)
  simp [stagedPath, hletters]

/-- An accepted name is none of those that a directory has for itself and its parent. -/
theorem ne_dot_of_resolve {requested : Option String} {media : ClipboardMedia} {name : StagedName}
    (h : StagedName.resolve requested media = .ok name) : name.name ≠ "." := by
  have hlong (extension : String) : "payload." ++ extension ≠ "." := fun hsame => by
    have hlength := congrArg (fun text => text.toList.length) hsame
    simp at hlength
  cases requested with
  | none =>
    rw [StagedName.resolve, ClipboardMedia.payloadName] at h
    split at h
    · cases h
      decide
    · split at h
      · cases h
        exact hlong _
      · cases h
  | some requested =>
    rw [StagedName.resolve] at h
    split at h
    · cases h
    · split at h
      · cases h
      · next hdots =>
        split at h
        · cases h
        · cases h
          exact fun hdot => hdots (.inl hdot)

theorem resolve_some {requested : String} {media : ClipboardMedia} (h : IsComponent requested)
    (hlength : requested.utf8ByteSize ≤ MAX_TRANSFER_NAME_BYTES) (hdot : requested ≠ ".") :
    StagedName.resolve (some requested) media = .ok ⟨requested, h⟩ := by
  have hdots : requested ≠ ".." := fun hsame => h.noDots (by rw [hsame]; decide)
  have hprintable : requested.toList.any isControl = false :=
    List.any_eq_false.mpr fun c hc => by simp [h.printable c hc]
  rw [StagedName.resolve, dif_neg (not_or.mpr ⟨h.nonempty, Nat.not_lt.mpr hlength⟩),
    dif_neg (not_or.mpr ⟨hdot, not_or.mpr ⟨hdots, h.noDots⟩⟩),
    dif_neg (not_or.mpr ⟨h.noSeparator, Bool.eq_false_iff.mp hprintable⟩)]

theorem uploadScript_eq (hname : name.name ≠ ".") (sha : Sha256) (bytes : List UInt8) :
    uploadScript sha base suffix (writeTransferName name) bytes =
      some (stagedPath base suffix name, receiptLine sha (stagedPath base suffix name) bytes) := by
  obtain ⟨hnonempty, hseparator, hprintable, hdots⟩ := name.component
  have hone : ¬(name.name.toList = [] ∨ name.name.toList = ['.'] ∨
      name.name.toList = ['.', '.']) := by
    rw [not_or, not_or]
    refine ⟨fun h => hnonempty (String.toList_injective h),
      fun h => hname (String.toList_injective h), fun h => hdots ?_⟩
    rw [h]
  -- the pattern is that of a separator anywhere
  have hcomponent : ¬accepts [.many, .literal '/', .many] name.name.toList = true := by
    intro haccepts
    have hcontains : ['/'] <:+: name.name.toList := accepts_contains_iff.mp haccepts
    exact hseparator (hcontains.subset (List.mem_singleton_self '/'))
  have hpath : base.path.toList ++ "/super-herdr-clipboard.".toList ++ suffix.letters.toList ++
      '/' :: name.name.toList = stagedPath base suffix name := by
    simp [stagedPath]
  rw [uploadScript, writeTransferName, readHeader_append hprintable]
  simp only [if_neg hone, if_neg hcomponent, hpath]

/-! ### Who accepts the path -/

theorem removable_stagedPath :
    removableUploadDirectory (String.ofList (stagedPath base suffix name)) =
      some (base.path ++ "/super-herdr-clipboard." ++ suffix.letters) := by
  have hslash : '/' ∉ "super-herdr-clipboard.".toList ++ suffix.letters.toList := by
    rw [List.mem_append, not_or]
    exact ⟨by decide, fun hmem => (isAlphanum_plain (suffix.alphanumeric _ hmem)).1 rfl⟩
  -- the file's name stands behind the last separator, and the directory's behind the one before
  have hsplit : stagedPath base suffix name =
      (base.path.toList ++ '/' :: ("super-herdr-clipboard.".toList ++ suffix.letters.toList)) ++
        '/' :: name.name.toList := by
    simp [stagedPath]
  have hhead : (base.path.toList ++ '/' ::
      ("super-herdr-clipboard.".toList ++ suffix.letters.toList)).head? = some '/' := by
    have habsolute := head?_stagedPath base suffix name
    rw [hsplit, List.head?_append_of_ne_nil _ (by simp)] at habsolute
    exact habsolute
  have hprintable : (base.path.toList ++ '/' ::
      ("super-herdr-clipboard.".toList ++ suffix.letters.toList)).any isControl = false := by
    refine List.any_eq_false.mpr fun c hc => ?_
    have hplain := printable_stagedPath base suffix name c
    rw [hsplit] at hplain
    simp [hplain (List.mem_append_left _ hc)]
  rw [removableUploadDirectory, String.toList_ofList, hsplit,
    rsplitOnce_append _ name.component.noSeparator]
  simp only [Option.bind_eq_bind, Option.bind_some, rsplitOnce_append _ hslash, Option.map_some,
    Option.getD_some, hhead, hprintable]
  rw [if_neg]
  · congr 1
    rw [← String.toList_inj]
    simp
  · rintro (h | h | h)
    · exact h rfl
    · exact h (List.isPrefixOf_iff_prefix.mpr (List.prefix_append _ _))
    · cases h

theorem accepts_stagedFile : accepts STAGED_FILE (stagedPath base suffix name) = true := by
  refine accepts_many_iff.mpr ⟨base.path.toList, _, rfl, ?_⟩
  have htail : '/' :: ("super-herdr-clipboard.".toList ++ suffix.letters.toList ++
      '/' :: name.name.toList) =
      "/super-herdr-clipboard.".toList ++ (suffix.letters.toList ++ '/' :: name.name.toList) := by
    simp
  rw [htail, accepts_literals_iff]
  refine ⟨_, rfl, accepts_many_iff.mpr ⟨suffix.letters.toList, _, rfl, ?_⟩⟩
  simp [accepts]

/-- Two dots in a row are in the base directory, or nowhere. -/
theorem accepts_twoDots_iff :
    accepts TWO_DOTS (stagedPath base suffix name) = true ↔ ['.', '.'] <:+: base.path.toList := by
  have hslash : '/' ∉ ['.', '.'] := by decide
  -- there is one dot in the directory's name, and none in its letters
  have hmiddle : ¬['.', '.'] <:+: "super-herdr-clipboard.".toList ++ suffix.letters.toList := by
    intro hinfix
    have hcount := hinfix.sublist.count_le '.'
    have hnone : suffix.letters.toList.count '.' = 0 :=
      List.count_eq_zero.mpr fun hmem => (isAlphanum_plain (suffix.alphanumeric _ hmem)).2.1 rfl
    rw [List.count_append, hnone] at hcount
    revert hcount
    decide
  rw [TWO_DOTS, accepts_contains_iff, stagedPath, infix_append_cons_iff hslash,
    infix_append_cons_iff hslash]
  exact or_iff_left (not_or.mpr ⟨hmiddle, name.component.noDots⟩)

end Path

/-! ### Reading a receipt -/

/-- The digest in a receipt has the backslash that the path makes `sha256sum` begin with. -/
theorem superHerdrDigest_eq (sha : Sha256) (bytes : List UInt8) {file : List Char}
    (hprintable : ∀ c ∈ file, isControl c = false) :
    superHerdrDigest sha file bytes =
      (if '\\' ∈ file then ['\\'] else []) ++ hex (sha.digest bytes) := by
  -- of what has to be escaped a printable path can only have a backslash
  have hescaped : file.any (· ∈ ['\\', '\n', '\r']) = true ↔ '\\' ∈ file := by
    rw [List.any_eq_true]
    constructor
    · rintro ⟨c, hc, hone⟩
      simp only [List.mem_cons, List.not_mem_nil, or_false, decide_eq_true_eq] at hone
      rcases hone with rfl | rfl | rfl
      · exact hc
      · exact absurd hc (notMem_of_isControl hprintable (by decide))
      · exact absurd hc (notMem_of_isControl hprintable (by decide))
    · exact fun h => ⟨'\\', h, by decide⟩
  have hfield (c : Char)
      (hc : c ∈ (if '\\' ∈ file then ['\\'] else []) ++ hex (sha.digest bytes)) :
      c ∉ [' ', '\t', '\n'] := by
    rcases List.mem_append.mp hc with hc | hc
    · split at hc
      · rw [List.mem_singleton.mp hc]
        decide
      · cases hc
    · exact of_decide_eq_true
        (of_mem_hex (fun c => decide (c ∉ [' ', '\t', '\n'])) (by decide) c hc)
  have hsome : (if '\\' ∈ file then ['\\'] else []) ++ hex (sha.digest bytes) ≠ [] := by
    refine List.ne_nil_of_length_pos ?_
    rw [List.length_append, sha.length_hex_digest]
    omega
  rw [superHerdrDigest, sha256sum]
  simp only [hescaped, List.append_assoc, List.cons_append, List.nil_append]
  rw [← List.append_assoc]
  exact firstField_append hsome hfield _

theorem parseSize_toDigits {size : ℕ} (hsize : size < 2 ^ 64) :
    parseSize (Nat.toDigits 10 size) = some size := by
  have hdigits : ∀ c ∈ Nat.toDigits 10 size, c.isDigit = true := fun c hc =>
    Nat.isDigit_of_mem_toDigits (by decide) (by decide) hc
  have hsign : (Nat.toDigits 10 size).head? ≠ some '+' := fun hplus =>
    absurd (hdigits '+' (List.mem_of_mem_head? hplus)) (by decide)
  rw [parseSize, if_neg hsign]
  simp only [ne_eq, Nat.toDigits_ne_nil, not_false_eq_true, List.all_eq_true.mpr hdigits, and_self,
    if_true, Nat.ofDigitChars_ten_toDigits, if_pos hsize]

theorem parseRemoteUploadReceipt_eq {path digest : List Char} {size : ℕ}
    (habsolute : path.head? = some '/') (hprintable : ∀ c ∈ path, isControl c = false)
    (hdigest : ∀ c ∈ digest, isControl c = false) (hnonempty : digest ≠ [])
    (hsize : size < 2 ^ 64) :
    parseRemoteUploadReceipt
        (utf8 (String.ofList (['\t'].intercalate [path, Nat.toDigits 10 size, digest] ++ ['\n']))) =
      if (encode digest).length ≠ 64 ∨ digest.all isHexDigit = false then
        .error "remote clipboard media upload returned an invalid receipt"
      else .ok ⟨String.ofList path, size, String.ofList (digest.map Char.toLower)⟩ := by
  -- the fields are told apart by their tabs
  have hfields : ∀ field ∈ [path, Nat.toDigits 10 size, digest], '\t' ∉ field := by
    intro field hfield
    simp only [List.mem_cons, List.not_mem_nil, or_false] at hfield
    rcases hfield with rfl | rfl | rfl
    · exact notMem_of_isControl hprintable (by decide)
    · exact fun hc => absurd (Nat.isDigit_of_mem_toDigits (by decide) (by decide) hc) (by decide)
    · exact notMem_of_isControl hdigest (by decide)
  -- nothing but the newline is taken off, since a digest does not end in one
  have htrim : (['\t'].intercalate [path, Nat.toDigits 10 size, digest] ++ ['\n']).rdropWhile
      (· ∈ ['\r', '\n']) = ['\t'].intercalate [path, Nat.toDigits 10 size, digest] := by
    obtain ⟨front, last, rfl⟩ := List.eq_nil_or_concat' digest |>.resolve_left hnonempty
    have hlast : ¬decide (last ∈ ['\r', '\n']) = true := by
      simp only [List.mem_cons, List.not_mem_nil, or_false, decide_eq_true_eq]
      rintro (rfl | rfl)
      · exact notMem_of_isControl hdigest (c := '\r') (by decide) (by simp)
      · exact notMem_of_isControl hdigest (c := '\n') (by decide) (by simp)
    have hend : ['\t'].intercalate [path, Nat.toDigits 10 size, front ++ [last]] =
        (path ++ '\t' :: (Nat.toDigits 10 size ++ '\t' :: front)) ++ [last] := by
      simp [List.intercalate]
    rw [List.rdropWhile_concat_pos _ _ _ (by decide), hend]
    exact List.rdropWhile_concat_neg _ _ _ hlast
  rw [parseRemoteUploadReceipt, fromUtf8_eq_some_iff.mpr rfl]
  simp only [String.toList_ofList, htrim,
    List.splitOn_intercalate '\t' hfields (List.cons_ne_nil _ _)]
  have hpath : path.any isControl = false := List.any_eq_false.mpr fun c hc => by
    simp [hprintable c hc]
  simp [habsolute, hpath, parseSize_toDigits hsize]

/-- The digest is spelled in lower case, a byte for each digit. -/
theorem spelled_digest (sha : Sha256) (content : List UInt8) :
    (encode (hex (sha.digest content))).length = 64 ∧
      (hex (sha.digest content)).all isHexDigit = true ∧
      (hex (sha.digest content)).map Char.toLower = hex (sha.digest content) := by
  refine ⟨?_, List.all_eq_true.mpr (of_mem_hex isHexDigit (by decide)), ?_⟩
  · have hone : ∀ c ∈ hex (sha.digest content), (String.utf8EncodeChar c).length = 1 := by
      intro c hc
      rw [String.length_utf8EncodeChar]
      exact of_decide_eq_true (of_mem_hex (fun c => decide (c.utf8Size = 1)) (by decide) c hc)
    rw [encode, List.length_flatMap, List.map_congr_left hone]
    simp
  · have hlower : ∀ c ∈ hex (sha.digest content), c.toLower = c := fun c hc =>
      of_decide_eq_true (of_mem_hex (fun c => decide (c.toLower = c)) (by decide) c hc)
    rw [List.map_congr_left hlower, List.map_id']

/-- A receipt is read as it was written, unless the path has a backslash. -/
theorem parse_receiptLine (sha : Sha256) {content : List UInt8} (hsize : content.length < 2 ^ 64)
    {path : List Char} (habsolute : path.head? = some '/')
    (hprintable : ∀ c ∈ path, isControl c = false) :
    parseRemoteUploadReceipt (utf8 (String.ofList (receiptLine sha path content))) =
      if '\\' ∈ path then
        .error "remote clipboard media upload returned an invalid receipt"
      else .ok ⟨String.ofList path, content.length, String.ofList (hex (sha.digest content))⟩ := by
  obtain ⟨hlength, hhex, hlower⟩ := spelled_digest sha content
  have hplain : ∀ c ∈ hex (sha.digest content), isControl c = false := fun c hc => by
    simpa using of_mem_hex (fun c => !isControl c) (by decide) c hc
  have hsome : hex (sha.digest content) ≠ [] := fun hnone => by
    rw [hnone] at hlength
    cases hlength
  rw [receiptLine, superHerdrDigest_eq sha content hprintable]
  by_cases hbackslash : '\\' ∈ path
  · -- the backslash makes the digest one byte too long
    have hprefixed : ∀ c ∈ '\\' :: hex (sha.digest content), isControl c = false :=
      List.forall_mem_cons.mpr ⟨by decide, hplain⟩
    have hlong : (encode ('\\' :: hex (sha.digest content))).length = 65 := by
      rw [encode_cons, List.length_append, hlength]
      decide
    rw [if_pos hbackslash, if_pos hbackslash, List.singleton_append,
      parseRemoteUploadReceipt_eq habsolute hprintable hprefixed (List.cons_ne_nil _ _) hsize,
      if_pos (.inl (by rw [hlong]; decide))]
  · rw [if_neg hbackslash, if_neg hbackslash, List.nil_append,
      parseRemoteUploadReceipt_eq habsolute hprintable hplain hsome hsize, if_neg, hlower]
    rw [hlength, hhex]
    decide

/-! ### Which uploads are usable -/

/-- The path of an upload passes every check that is made of it, and its receipts are read as what
they say of the file. Beyond the reader of the receipt, the program refuses receipts of more than 4096
bytes before it reads them; that bound is not part of this. -/
structure Usable (sha : Sha256) (base : StagingBase) (suffix : TemporarySuffix)
    (name : StagedName) : Prop where
  uploaded : ∀ file : StoredFile, ∃ receipt,
    uploadScript sha base suffix (writeTransferName name) file.bytes =
      some (stagedPath base suffix name, receipt) ∧
    parseRemoteUploadReceipt (utf8 (String.ofList receipt)) =
      .ok ⟨String.ofList (stagedPath base suffix name), file.bytes.length,
        String.ofList (hex (sha.digest file.bytes))⟩
  removable : (removableUploadDirectory (String.ofList (stagedPath base suffix name))).isSome
  sized : ∀ files file, files (stagedPath base suffix name) = some file →
    stagedSizeScript files (stagedPath base suffix name ++ ['\n']) =
      some (Nat.toDigits 10 file.bytes.length)
  resumed : ∀ files file payload, files (stagedPath base suffix name) = some file →
    (file.bytes ++ payload).length < 2 ^ 64 →
    ∃ receipt,
      resumeScript sha files (stagedPath base suffix name ++ ['\n']) payload =
        some (file.bytes ++ payload, receipt) ∧
      parseRemoteUploadReceipt (utf8 (String.ofList receipt)) =
        .ok ⟨String.ofList (stagedPath base suffix name), (file.bytes ++ payload).length,
          String.ofList (hex (sha.digest (file.bytes ++ payload)))⟩

theorem stagedFile_stagedPath (base : StagingBase) (suffix : TemporarySuffix) (name : StagedName)
    {files : List Char → Option StoredFile} {file : StoredFile}
    (h : files (stagedPath base suffix name) = some file) :
    stagedFile files (stagedPath base suffix name ++ ['\n']) =
      if ['.', '.'] <:+: base.path.toList then none
      else some (stagedPath base suffix name, file) := by
  rw [stagedFile, readHeader_append (printable_stagedPath base suffix name)]
  simp only [accepts_stagedFile, accepts_twoDots_iff, h, Option.map_some, Bool.not_true,
    Bool.false_eq_true, if_false]

theorem Usable.noBackslash {sha : Sha256} {base : StagingBase} {suffix : TemporarySuffix}
    {name : StagedName} (husable : Usable sha base suffix name) (hname : name.name ≠ ".") :
    '\\' ∉ stagedPath base suffix name := by
  obtain ⟨receipt, hupload, hparse⟩ := husable.uploaded EMPTY
  rw [uploadScript_eq base suffix name hname, Option.some_inj, Prod.mk.injEq] at hupload
  rw [← hupload.2, parse_receiptLine sha EMPTY.fits (head?_stagedPath base suffix name)
    (printable_stagedPath base suffix name)] at hparse
  intro hmem
  rw [if_pos hmem] at hparse
  cases hparse

/-- An upload under an accepted name is usable unless the name or the base directory has a
backslash, or the base directory has two dots in a row. -/
theorem uploads_are_usable_iff {requested : Option String} {media : ClipboardMedia}
    {name : StagedName} (h : StagedName.resolve requested media = .ok name) (sha : Sha256)
    (base : StagingBase) (suffix : TemporarySuffix) :
    Usable sha base suffix name ↔
      '\\' ∉ base.path.toList ∧ '\\' ∉ name.name.toList ∧ ¬['.', '.'] <:+: base.path.toList := by
  have hread {content : List UInt8} (hsize : content.length < 2 ^ 64) :=
    parse_receiptLine sha hsize (head?_stagedPath base suffix name)
      (printable_stagedPath base suffix name)
  constructor
  · intro husable
    have hnone := husable.noBackslash (ne_dot_of_resolve h)
    rw [backslash_mem_stagedPath_iff, not_or] at hnone
    refine ⟨hnone.1, hnone.2, fun hdots => ?_⟩
    have hsized := husable.sized (fun _ => some EMPTY) EMPTY rfl
    rw [stagedSizeScript, stagedFile_stagedPath base suffix name rfl, if_pos hdots] at hsized
    cases hsized
  · rintro ⟨hbase, hname, hdots⟩
    have hnone : '\\' ∉ stagedPath base suffix name := by
      rw [backslash_mem_stagedPath_iff, not_or]
      exact ⟨hbase, hname⟩
    have hupload := uploadScript_eq base suffix name (ne_dot_of_resolve h) sha
    refine ⟨fun file => ⟨_, hupload file.bytes, ?_⟩, ?_, fun files file hfile => ?_,
      fun files file payload hfile hsize =>
        ⟨receiptLine sha (stagedPath base suffix name) (file.bytes ++ payload), ?_, ?_⟩⟩
    · rw [hread file.fits, if_neg hnone]
    · rw [removable_stagedPath]
      rfl
    · rw [stagedSizeScript, stagedFile_stagedPath base suffix name hfile, if_neg hdots]
      rfl
    · rw [resumeScript, stagedFile_stagedPath base suffix name hfile, if_neg hdots]
      rfl
    · rw [hread hsize, if_neg hnone]

/-- A name with a blank in it is usable. -/
theorem a_name_with_a_blank_is_usable :
    ∃ name, StagedName.resolve (some "a b.txt") OPAQUE = .ok name ∧
      ∀ suffix, Usable sha256 TMP suffix name := by
  have hname : IsComponent "a b.txt" :=
    ⟨by decide, by decide, printable_of_all (by decide), by decide⟩
  have hresolve : StagedName.resolve (some "a b.txt") OPAQUE = .ok ⟨"a b.txt", hname⟩ :=
    resolve_some hname (by decide) (by decide)
  have hbackslash : '\\' ∉ "a b.txt".toList := by decide
  exact ⟨_, hresolve, fun suffix =>
    (uploads_are_usable_iff hresolve sha256 TMP suffix).mpr ⟨by decide, hbackslash, by decide⟩⟩

/-- A name with a backslash is accepted, and the receipt of its upload is refused. -/
theorem a_name_with_a_backslash_is_not_usable :
    ∃ name, StagedName.resolve (some "a\\b") OPAQUE = .ok name ∧
      ∀ suffix, ∃ path receipt,
        uploadScript sha256 TMP suffix (writeTransferName name) [] = some (path, receipt) ∧
        parseRemoteUploadReceipt (utf8 (String.ofList receipt)) =
          .error "remote clipboard media upload returned an invalid receipt" ∧
        ¬Usable sha256 TMP suffix name := by
  have hname : IsComponent "a\\b" :=
    ⟨by decide, by decide, printable_of_all (by decide), by decide⟩
  have hdot : "a\\b" ≠ "." := by decide
  refine ⟨⟨_, hname⟩, resolve_some hname (by decide) hdot, fun suffix => ?_⟩
  have hbackslash : '\\' ∈ stagedPath TMP suffix ⟨_, hname⟩ := by
    simp [stagedPath]
  refine ⟨_, _, uploadScript_eq TMP suffix ⟨_, hname⟩ hdot sha256 [], ?_, fun husable =>
    husable.noBackslash hdot hbackslash⟩
  rw [parse_receiptLine sha256 (by decide) (head?_stagedPath TMP suffix _)
    (printable_stagedPath TMP suffix _), if_pos hbackslash]

end SuperHerdr
