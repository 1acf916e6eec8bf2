import SuperHerdr.Library.Records
import SuperHerdr.Protocol.Model

/-!
# Listings of remote files

A target shows a client the directories below its roots, and finds files in them by name. A script on
the host reports what there is, as records ended by NUL bytes; the bridge keeps the first 64 KiB of that,
drops the record that was cut off, drops names that are no UTF-8, and keeps 500 entries.

What is listed is there, under that name and of that kind. What is not listed should be admitted to by
`truncated`, which is computed from the entries that survived all this: so a record that is dropped for
its length or for its encoding goes unmentioned, unless 500 others survive
(`listings_are_genuine_and_complete_iff`).

What the host has is a parameter: a `Directory`, whose entries answer the tests of the script, and a
`Tree` of files for `find`.
-/

namespace SuperHerdr

open Records

/-- How many entries one listing may carry. -/
def MAX_ENTRIES : ℕ := 500

/-- How deep a search descends below its root. -/
def MAX_SEARCH_DEPTH : ℕ := 6

/-- How many bytes the remote side may produce for one answer. -/
def MAX_OUTPUT_BYTES : ℕ := 64 * 1024

def MAX_QUERY_CHARACTERS : ℕ := 128

def MAX_RELATIVE_CHARACTERS : ℕ := 1024

/-! ### The host's files -/

/-- The name of a directory's entry. -/
structure FileName where
  bytes : List UInt8
  nonempty : bytes ≠ []
  noNul : 0 ∉ bytes
  noSlash : 0x2f ∉ bytes
deriving DecidableEq

/-- One of a directory's entries, with what the tests of the script say about it. -/
structure DirEntry where
  name : FileName
  /-- `-e`. -/
  present : Bool
  /-- `-L`. -/
  isLink : Bool
  /-- `-d`. -/
  isDirectory : Bool
  /-- `-f`. -/
  isFile : Bool
deriving DecidableEq

def DirEntry.kind (entry : DirEntry) : RemoteEntryKind :=
  if entry.isDirectory then .directory else if entry.isFile then .file else .other

/-- A directory, in the order the shell puts names in. It does not list itself nor its parent. -/
structure Directory where
  entries : List DirEntry
  nodup : (entries.map fun entry => entry.name.bytes).Nodup

/-- What a script says about one file. -/
structure Reported where
  kind : RemoteEntryKind
  name : List UInt8
deriving DecidableEq

/-! ### The script that lists a directory -/

/-- A pattern for names. It matches its own text. -/
structure Glob where
  text : List UInt8
  accepts : List UInt8 → Bool
  self : accepts text = true

/-- `*`, which does not match names that begin with a dot. -/
def STAR : Glob where
  text := [0x2a]
  accepts name := name.head? ≠ some 0x2e
  self := by decide

/-- `.[!.]*`. -/
def DOT_NAME : Glob where
  text := [0x2e, 0x5b, 0x21, 0x2e, 0x5d, 0x2a]
  accepts name := name.head? = some 0x2e ∧ name.tail ≠ [] ∧ name.tail.head? ≠ some 0x2e
  self := by decide

/-- `..?*`. -/
def DOTS_NAME : Glob where
  text := [0x2e, 0x2e, 0x3f, 0x2a]
  accepts name := name.head? = some 0x2e ∧ name.tail.head? = some 0x2e ∧ name.tail.tail ≠ []
  self := by decide

namespace Directory

/-- The words a pattern becomes: the names it matches, or the pattern itself if there are none. -/
def expand (directory : Directory) (glob : Glob) : List (List UInt8) :=
  let names := (directory.entries.map fun entry => entry.name.bytes).filter glob.accepts
  if names = [] then [glob.text] else names

/-- The entry a word names. -/
def lookup (directory : Directory) (word : List UInt8) : Option DirEntry :=
  directory.entries.find? fun entry => entry.name.bytes = word

/-- The loop of the script, which has counted so many entries. -/
def reports (directory : Directory) : ℕ → List (List UInt8) → List Reported
  | _, [] => []
  | count, word :: words =>
      match directory.lookup word with
      | none => directory.reports count words
      | some entry =>
          if !entry.present && !entry.isLink then directory.reports count words
          else
            ⟨entry.kind, word⟩ ::
              if count + 1 ≥ 500 then [] else directory.reports (count + 1) words

/-- What `LIST_SCRIPT` reports. -/
def listed (directory : Directory) : List Reported :=
  directory.reports 0 (directory.expand STAR ++ directory.expand DOT_NAME ++
    directory.expand DOTS_NAME)

end Directory

/-- How the script spells a kind. -/
def RemoteEntryKind.letter : RemoteEntryKind → List UInt8
  | .directory => [0x64]
  | .file => [0x66]
  | .other => [0x6f]

/-- `LIST_SCRIPT`'s output for what it reports. -/
def listOutput (reported : List Reported) : List UInt8 :=
  framed 0 (reported.flatMap fun record => [record.kind.letter, record.name])

/-! ### The script that searches -/

/-- The files below a root, each by the names on the way to it, in the order `find` comes to them. -/
structure Tree where
  nodes : List (List FileName × RemoteEntryKind)
  nonempty : ∀ node ∈ nodes, node.1 ≠ []
  nodup : (nodes.map Prod.fst).Nodup

/-- A path relative to the root. -/
def relativePath (path : List FileName) : List UInt8 :=
  [0x2f].intercalate (path.map FileName.bytes)

/-- What `SEARCH_SCRIPT` reports: the files, not too deep, whose last name matches the pattern. -/
def Tree.found (tree : Tree) (matched : List UInt8 → Bool) : List Reported :=
  (tree.nodes.filter fun (path, kind) =>
    path.length ≤ MAX_SEARCH_DEPTH ∧ kind = .file ∧ path.getLast?.any fun name => matched name.bytes).map
      fun (path, kind) => ⟨kind, relativePath path⟩

/-- `SEARCH_SCRIPT`'s output for what it reports. -/
def searchOutput (reported : List Reported) : List UInt8 :=
  framed 0 (reported.map fun record => [0x2e, 0x2f] ++ record.name)

/-! ### Reading the answers -/

/-- The bytes of a text. -/
def utf8 (text : String) : List UInt8 := text.toUTF8.data.toList

/-- The text of some bytes, if they are UTF-8. -/
def fromUtf8 (bytes : List UInt8) : Option String := String.fromUTF8? ⟨bytes.toArray⟩

/-- Split NUL-terminated output, discarding anything after the last terminator. -/
def splitNul (output : List UInt8) : List (List UInt8) := fields 0 output

def kindOfLetter (letter : List UInt8) : RemoteEntryKind :=
  if letter = [0x64] then .directory else if letter = [0x66] then .file else .other

/-- The entries that survive, and whether there are as many as one listing may carry. -/
def capped (entries : List RemoteEntry) : List RemoteEntry × Bool :=
  (entries.take MAX_ENTRIES, entries.length ≥ MAX_ENTRIES)

def parseEntries (output : List UInt8) : List RemoteEntry × Bool :=
  capped ((pairs (splitNul output)).filterMap fun (letter, name) =>
    (fromUtf8 name).map fun name => ⟨kindOfLetter letter, name⟩)

/-- `strip_prefix("./")`, or the path as it is. -/
def stripHere (path : String) : String :=
  match path.toList with
  | '.' :: '/' :: rest => String.ofList rest
  | _ => path

def parsePaths (output : List UInt8) : List RemoteEntry × Bool :=
  capped ((splitNul output).filterMap fun path => do
    let path ← fromUtf8 path
    let name := stripHere path
    if name = "" then none else some ⟨.file, name⟩)

/-! ### What survives -/

theorem fromUtf8_eq_some_iff {bytes : List UInt8} {text : String} :
    fromUtf8 bytes = some text ↔ utf8 text = bytes := by
  unfold fromUtf8 String.fromUTF8? utf8
  constructor
  · intro h
    split at h
    · cases h
      rfl
    · cases h
  · rintro rfl
    have hvalid : (⟨text.toUTF8.data.toList.toArray⟩ : ByteArray) = text.toByteArray := by
      rw [Array.toArray_toList]
      rfl
    rw [hvalid, dif_pos text.isValidUTF8]
    rfl

/-- The entry a record stands for, if its name is UTF-8. -/
def Reported.entry (record : Reported) : Option RemoteEntry :=
  (fromUtf8 record.name).map fun name => ⟨record.kind, name⟩

theorem Reported.entry_eq_some_iff {record : Reported} {entry : RemoteEntry} :
    record.entry = some entry ↔ entry.kind = record.kind ∧ utf8 entry.name = record.name := by
  obtain ⟨kind, name⟩ := entry
  simp only [Reported.entry, Option.map_eq_some_iff, fromUtf8_eq_some_iff, RemoteEntry.mk.injEq]
  constructor
  · rintro ⟨text, htext, rfl, rfl⟩
    exact ⟨rfl, htext⟩
  · rintro ⟨rfl, hname⟩
    exact ⟨name, hname, rfl, rfl⟩

/-- Records of which no two have one name. -/
def Distinct (reported : List Reported) : Prop := (reported.map Reported.name).Nodup

/-- The entries of the records that arrive whole. -/
def surviving (size : Reported → ℕ) (reported : List Reported) : List RemoteEntry :=
  (fitting size MAX_OUTPUT_BYTES reported).filterMap Reported.entry

variable {reported : List Reported}

/-- **When nothing is missing without a word**: as many survive as one listing may carry, or
everything does. -/
theorem capped_complete_iff {size : Reported → ℕ} (hdistinct : Distinct reported) :
    ((capped (surviving size reported)).2 = false → ∀ record ∈ reported,
        ∃ entry ∈ (capped (surviving size reported)).1, record.entry = some entry) ↔
      MAX_ENTRIES ≤ (surviving size reported).length ∨
        fitting size MAX_OUTPUT_BYTES reported = reported ∧
          ∀ record ∈ reported, (fromUtf8 record.name).isSome := by
  have hfront := prefix_fitting size MAX_OUTPUT_BYTES reported
  by_cases hmany : MAX_ENTRIES ≤ (surviving size reported).length
  · refine iff_of_true (fun htruncated => ?_) (.inl hmany)
    simp [capped, hmany] at htruncated
  · have hall : (capped (surviving size reported)).1 = surviving size reported :=
      List.take_of_length_le (by omega)
    have hsaid : (capped (surviving size reported)).2 = false := by
      simpa [capped] using hmany
    rw [or_iff_right hmany, hall, hsaid]
    constructor
    · intro h
      have hcomplete := h rfl
      refine ⟨?_, fun record hrecord => ?_⟩
      · -- a record that does not fit shares its name with none that does
        obtain ⟨rest, hrest⟩ := hfront
        cases rest with
        | nil => rw [List.append_nil] at hrest; exact hrest
        | cons record rest =>
          have hrecord : record ∈ reported := by
            rw [← hrest]
            exact List.mem_append_right _ List.mem_cons_self
          obtain ⟨entry, hmem, hentry⟩ := hcomplete record hrecord
          obtain ⟨other, hother, hsame⟩ := List.mem_filterMap.mp hmem
          have hname : record.name = other.name :=
            (Reported.entry_eq_some_iff.mp hentry).2.symm.trans
              (Reported.entry_eq_some_iff.mp hsame).2
          rw [Distinct, ← hrest, List.map_append, List.nodup_append] at hdistinct
          exact absurd hname.symm (hdistinct.2.2 _ (List.mem_map_of_mem hother) _
            (List.mem_map_of_mem List.mem_cons_self))
      · obtain ⟨entry, -, hentry⟩ := hcomplete record hrecord
        obtain ⟨text, htext, -⟩ := Option.map_eq_some_iff.mp hentry
        exact Option.isSome_of_eq_some htext
    · rintro ⟨hfit, hutf8⟩ - record hrecord
      obtain ⟨text, htext⟩ := Option.isSome_iff_exists.mp (hutf8 record hrecord)
      have hentry : record.entry = some ⟨record.kind, text⟩ := by
        rw [Reported.entry, htext]
        rfl
      refine ⟨_, ?_, hentry⟩
      rw [surviving, hfit]
      exact List.mem_filterMap.mpr ⟨record, hrecord, hentry⟩

theorem mem_of_mem_capped {size : Reported → ℕ} {entry : RemoteEntry}
    (h : entry ∈ (capped (surviving size reported)).1) :
    ∃ record ∈ reported, record.entry = some entry := by
  obtain ⟨record, hrecord, hentry⟩ := List.mem_filterMap.mp (List.mem_of_mem_take h)
  exact ⟨record, (prefix_fitting _ _ _).subset hrecord, hentry⟩

/-! ### A directory that is listed -/

theorem RemoteEntryKind.letter_ne_nil (kind : RemoteEntryKind) : kind.letter ≠ [] := by
  cases kind <;> decide

theorem RemoteEntryKind.nul_notMem_letter (kind : RemoteEntryKind) : 0 ∉ kind.letter := by
  cases kind <;> decide

@[simp] theorem kindOfLetter_letter (kind : RemoteEntryKind) : kindOfLetter kind.letter = kind := by
  cases kind <;> rfl

/-- How many bytes the listing script writes for a record. -/
def listSize (record : Reported) : ℕ := (record.kind.letter.length + 1) + (record.name.length + 1)

/-- Records whose names can be written between NUL bytes. -/
def Writable (reported : List Reported) : Prop :=
  ∀ record ∈ reported, record.name ≠ [] ∧ 0 ∉ record.name

theorem length_listOutput (reported : List Reported) :
    (listOutput reported).length = (reported.map listSize).sum := by
  induction reported with
  | nil => rfl
  | cons record reported ih =>
    have hcons : listOutput (record :: reported) =
        record.kind.letter ++ [0] ++ (record.name ++ [0]) ++ listOutput reported := by
      simp [listOutput, framed]
    rw [hcons, List.length_append, ih, List.map_cons, List.sum_cons, listSize]
    simp only [List.length_append, List.length_singleton]

theorem parseEntries_listOutput (hwritable : Writable reported) :
    parseEntries ((listOutput reported).take MAX_OUTPUT_BYTES) =
      capped (surviving listSize reported) := by
  have hfree : ∀ field ∈ reported.flatMap fun record => [record.kind.letter, record.name],
      0 ∉ field ∧ field ≠ [] := by
    intro field hfield
    obtain ⟨record, hrecord, hfield⟩ := List.mem_flatMap.mp hfield
    rcases List.mem_cons.mp hfield with rfl | hfield
    · exact ⟨record.kind.nul_notMem_letter, record.kind.letter_ne_nil⟩
    · rw [List.mem_singleton.mp hfield]
      exact (hwritable record hrecord).symm
  rw [parseEntries, splitNul, listOutput, fields_take_framed (fun field h => (hfree field h).1)
    (fun field h => (hfree field h).2), pairs_fitting, List.filterMap_map, surviving]
  congr 2
  funext record
  simp only [Function.comp_apply, kindOfLetter_letter]
  rfl

namespace Directory

variable {directory : Directory}

theorem lookup_eq_some {word : List UInt8} {entry : DirEntry}
    (h : directory.lookup word = some entry) : entry ∈ directory.entries ∧ entry.name.bytes = word :=
  ⟨List.mem_of_find?_eq_some h, by simpa using List.find?_some h⟩

theorem of_mem_reports {count : ℕ} {words : List (List UInt8)} {record : Reported}
    (h : record ∈ directory.reports count words) :
    ∃ entry ∈ directory.entries, record = ⟨entry.kind, entry.name.bytes⟩ := by
  induction words generalizing count with
  | nil => cases h
  | cons word words ih =>
    rw [reports] at h
    split at h
    · exact ih h
    · next entry hlookup =>
      obtain ⟨hmem, hname⟩ := lookup_eq_some hlookup
      split at h
      · exact ih h
      · rcases List.mem_cons.mp h with rfl | h
        · exact ⟨entry, hmem, by rw [hname]⟩
        · split at h
          · cases h
          · exact ih h

theorem length_reports {count : ℕ} (hcount : count < MAX_ENTRIES) (words : List (List UInt8)) :
    count + (directory.reports count words).length ≤ MAX_ENTRIES := by
  induction words generalizing count with
  | nil => exact hcount.le
  | cons word words ih =>
    rw [reports]
    split
    · exact ih hcount
    · split
      · exact ih hcount
      · split
        · exact hcount
        · next hmore =>
          have hnext := ih (Nat.lt_of_not_le hmore : count + 1 < MAX_ENTRIES)
          rw [List.length_cons]
          omega

theorem map_name_reports_sublist (count : ℕ) (words : List (List UInt8)) :
    ((directory.reports count words).map Reported.name).Sublist
      (words.filter fun word => (directory.lookup word).isSome) := by
  induction words generalizing count with
  | nil => exact List.Sublist.slnil
  | cons word words ih =>
    rw [reports, List.filter_cons]
    split
    · next hnone => simpa [hnone] using ih count
    · next entry hsome =>
      simp only [hsome, Option.isSome_some, if_true]
      split
      · exact (ih count).cons _
      · refine List.Sublist.cons_cons _ ?_
        split
        · exact List.nil_sublist _
        · exact ih _

/-- The words of a pattern that name an entry are names the pattern matches, each once. -/
theorem words_expand (glob : Glob) :
    let words := (directory.expand glob).filter fun word => (directory.lookup word).isSome
    words.Nodup ∧ ∀ word ∈ words, glob.accepts word = true := by
  intro words
  unfold words expand
  simp only
  split
  · next hnone =>
    -- the pattern names no entry, for it would match that entry's name
    have hlost : directory.lookup glob.text = none := by
      refine List.find?_eq_none.mpr fun entry hentry hname => ?_
      have hname : entry.name.bytes = glob.text := by simpa using hname
      have hmem : glob.text ∈ (directory.entries.map fun entry => entry.name.bytes).filter
          glob.accepts :=
        List.mem_filter.mpr ⟨List.mem_map.mpr ⟨entry, hentry, hname⟩, glob.self⟩
      rw [hnone] at hmem
      cases hmem
    simp [hlost]
  · refine ⟨(directory.nodup.filter _).filter _, fun word hword => ?_⟩
    exact (List.mem_filter.mp (List.mem_filter.mp hword).1).2

theorem distinct_listed : Distinct directory.listed := by
  refine List.Nodup.sublist (directory.map_name_reports_sublist 0 _) ?_
  obtain ⟨hstar, hisStar⟩ := directory.words_expand STAR
  obtain ⟨hdot, hisDot⟩ := directory.words_expand DOT_NAME
  obtain ⟨hdots, hisDots⟩ := directory.words_expand DOTS_NAME
  rw [List.filter_append, List.filter_append]
  refine List.nodup_append.mpr ⟨List.nodup_append.mpr ⟨hstar, hdot, ?_⟩, hdots, ?_⟩
  · rintro word hword _ hword' rfl
    have hone := hisStar word hword
    have htwo := hisDot word hword'
    simp only [STAR, DOT_NAME, decide_eq_true_eq] at hone htwo
    exact hone htwo.1
  · rintro word hword _ hword' rfl
    have htwo := hisDots word hword'
    simp only [DOTS_NAME, decide_eq_true_eq] at htwo
    rcases List.mem_append.mp hword with hword | hword
    · have hone := hisStar word hword
      simp only [STAR, decide_eq_true_eq] at hone
      exact hone htwo.1
    · have hone := hisDot word hword
      simp only [DOT_NAME, decide_eq_true_eq] at hone
      exact hone.2.2 htwo.2.1

theorem writable_listed : Writable directory.listed := by
  intro record hrecord
  obtain ⟨entry, -, rfl⟩ := of_mem_reports hrecord
  exact ⟨entry.name.nonempty, entry.name.noNul⟩

/-- The answer to a client that asks for this directory. -/
def listing (directory : Directory) (root path : String) : RemoteListing :=
  let (entries, truncated) :=
    parseEntries ((listOutput directory.listed).take MAX_OUTPUT_BYTES)
  ⟨root, path, entries, truncated⟩

end Directory

/-! ### A tree that is searched -/

theorem utf8_here (text : String) : utf8 ("./" ++ text) = 0x2e :: 0x2f :: utf8 text := by
  have hhere : "./".toByteArray.data.toList = [0x2e, 0x2f] := by decide
  simp only [utf8, String.toUTF8_eq_toByteArray, String.toByteArray_append, ByteArray.data_append,
    Array.toList_append, hhere, List.cons_append, List.nil_append]

theorem isSome_fromUtf8_iff {bytes : List UInt8} :
    (fromUtf8 bytes).isSome ↔ (⟨bytes.toArray⟩ : ByteArray).IsValidUTF8 := by
  unfold fromUtf8 String.fromUTF8?
  split
  · next hvalid => simp [hvalid]
  · next hinvalid => simp [hinvalid]

theorem stripHere_here (text : String) : stripHere ("./" ++ text) = text := by
  simp [stripHere]

/-- A path is UTF-8 if it is behind `./`. -/
theorem fromUtf8_here (bytes : List UInt8) :
    (fromUtf8 (0x2e :: 0x2f :: bytes)).map stripHere = fromUtf8 bytes := by
  cases htext : fromUtf8 bytes with
  | some text =>
    have hhere : fromUtf8 (0x2e :: 0x2f :: bytes) = some ("./" ++ text) := by
      rw [fromUtf8_eq_some_iff, utf8_here, fromUtf8_eq_some_iff.mp htext]
    rw [hhere, Option.map_some, stripHere_here]
  | none =>
    have hhere : (⟨(0x2e :: 0x2f :: bytes).toArray⟩ : ByteArray) =
        ['.'].utf8Encode ++ (['/'].utf8Encode ++ ⟨bytes.toArray⟩) := rfl
    have hinvalid : ¬(fromUtf8 (0x2e :: 0x2f :: bytes)).isSome := by
      rw [isSome_fromUtf8_iff, hhere, ByteArray.isValidUTF8_utf8Encode_singleton_append_iff,
        ByteArray.isValidUTF8_utf8Encode_singleton_append_iff, ← isSome_fromUtf8_iff, htext]
      exact Bool.false_ne_true
    rw [Option.not_isSome_iff_eq_none.mp hinvalid]
    rfl

/-- How many bytes the searching script writes for a record. -/
def searchSize (record : Reported) : ℕ := record.name.length + 3

theorem length_searchOutput (reported : List Reported) :
    (searchOutput reported).length = (reported.map searchSize).sum := by
  rw [searchOutput, length_framed, List.map_map]
  congr 2

theorem parsePaths_searchOutput (hwritable : Writable reported)
    (hfiles : ∀ record ∈ reported, record.kind = .file) :
    parsePaths ((searchOutput reported).take MAX_OUTPUT_BYTES) =
      capped (surviving searchSize reported) := by
  have hfree : ∀ field ∈ reported.map fun record => [0x2e, 0x2f] ++ record.name,
      0 ∉ field ∧ field ≠ [] := by
    intro field hfield
    obtain ⟨record, hrecord, rfl⟩ := List.mem_map.mp hfield
    have hname := (hwritable record hrecord).2
    exact ⟨by simp [hname], by simp⟩
  have hsize : (fun record : Reported => ([0x2e, 0x2f] ++ record.name).length + 1) = searchSize := by
    funext record
    simp only [searchSize, List.length_append, List.length_cons, List.length_nil]
    omega
  rw [parsePaths, splitNul, searchOutput, fields_take_framed (fun field h => (hfree field h).1)
    (fun field h => (hfree field h).2), fitting_map, hsize, List.filterMap_map, surviving]
  congr 1
  refine List.filterMap_congr fun record hrecord => ?_
  have hmem := (prefix_fitting searchSize MAX_OUTPUT_BYTES reported).subset hrecord
  have hstrip := fromUtf8_here record.name
  simp only [Function.comp_apply, List.cons_append, List.nil_append, Reported.entry,
    hfiles record hmem]
  cases hpath : fromUtf8 (0x2e :: 0x2f :: record.name) with
  | none =>
    rw [hpath, Option.map_none] at hstrip
    rw [← hstrip]
    rfl
  | some path =>
    rw [hpath, Option.map_some] at hstrip
    have hname : stripHere path ≠ "" := by
      intro hempty
      have hbytes := fromUtf8_eq_some_iff.mp hstrip.symm
      rw [hempty] at hbytes
      exact (hwritable record hmem).1 hbytes.symm
    rw [← hstrip]
    simp [hname]

namespace Tree

variable {tree : Tree} {matched : List UInt8 → Bool}

theorem of_mem_found {record : Reported} (h : record ∈ tree.found matched) :
    ∃ node ∈ tree.nodes, node.2 = .file ∧ record = ⟨.file, relativePath node.1⟩ := by
  obtain ⟨⟨path, kind⟩, hnode, rfl⟩ := List.mem_map.mp h
  obtain ⟨hmem, hfound⟩ := List.mem_filter.mp hnode
  simp only [decide_eq_true_eq] at hfound
  obtain ⟨-, rfl, -⟩ := hfound
  exact ⟨_, hmem, rfl, rfl⟩

theorem splitOn_relativePath {path : List FileName} (hpath : path ≠ []) :
    (relativePath path).splitOn 0x2f = path.map FileName.bytes := by
  refine List.splitOn_intercalate _ (fun bytes hbytes => ?_) (by simpa using hpath)
  obtain ⟨name, -, rfl⟩ := List.mem_map.mp hbytes
  exact name.noSlash

theorem relativePath_injOn {path other : List FileName} (hpath : path ≠ []) (hother : other ≠ [])
    (h : relativePath path = relativePath other) : path = other := by
  have hbytes : Function.Injective FileName.bytes := by
    rintro ⟨⟩ ⟨⟩ rfl
    rfl
  refine List.map_injective_iff.mpr hbytes ?_
  rw [← splitOn_relativePath hpath, ← splitOn_relativePath hother, h]

theorem distinct_found : Distinct (tree.found matched) := by
  rw [Distinct, Tree.found, List.map_map]
  have hname : (Reported.name ∘ fun node : List FileName × RemoteEntryKind =>
      ⟨node.2, relativePath node.1⟩) = relativePath ∘ Prod.fst := rfl
  rw [hname, ← List.map_map]
  refine List.Nodup.map_on (fun path hpath other hother h => ?_)
    (tree.nodup.sublist (List.filter_sublist.map _))
  obtain ⟨node, hnode, rfl⟩ := List.mem_map.mp hpath
  obtain ⟨node', hnode', rfl⟩ := List.mem_map.mp hother
  exact relativePath_injOn (tree.nonempty node (List.mem_of_mem_filter hnode))
    (tree.nonempty node' (List.mem_of_mem_filter hnode')) h

theorem nul_notMem_relativePath (path : List FileName) : 0 ∉ relativePath path := by
  induction path with
  | nil => simp [relativePath]
  | cons name path ih =>
    cases path with
    | nil => simpa [relativePath] using name.noNul
    | cons next path =>
      have hcons : relativePath (name :: next :: path) =
          name.bytes ++ 0x2f :: relativePath (next :: path) := by
        simp [relativePath, List.intercalate_cons_cons]
      rw [hcons, List.mem_append, List.mem_cons, not_or, not_or]
      exact ⟨name.noNul, by decide, ih⟩

theorem writable_found : Writable (tree.found matched) := by
  intro record hrecord
  obtain ⟨node, hnode, -, rfl⟩ := of_mem_found hrecord
  refine ⟨fun hempty => ?_, nul_notMem_relativePath node.1⟩
  have hsplit := splitOn_relativePath (tree.nonempty node hnode)
  simp only at hempty
  rw [hempty] at hsplit
  have hmem : [] ∈ node.1.map FileName.bytes := by
    rw [← hsplit]
    exact List.mem_singleton_self _
  obtain ⟨name, -, hname⟩ := List.mem_map.mp hmem
  exact name.nonempty hname

/-- The answer to a client that searches this tree. -/
def listing (tree : Tree) (root : String) (matched : List UInt8 → Bool) : RemoteListing :=
  let (entries, truncated) :=
    parsePaths ((searchOutput (tree.found matched)).take MAX_OUTPUT_BYTES)
  ⟨root, "", entries.mergeSort fun left right => left.name ≤ right.name, truncated⟩

end Tree

/-! ### Asking a target -/

/-- Check a root against what the target declares, compared exactly. -/
def permittedRoot (roots : List String) (root : String) : Except String String :=
  match roots.find? fun declared => declared = root with
  | some declared => .ok declared
  | none => .error "that path is not one of this target's configured roots"

/-- A relative path that may be descended into. -/
def checkedRelative (relative : String) : Except String String :=
  let relative := relative.toList.dropWhile fun c => c = '/'
  if relative.length > MAX_RELATIVE_CHARACTERS ∨ relative.any isControl then
    .error "that path is too long or contains control characters"
  else if (relative.splitOn '/').any fun part => part = ['.', '.'] then
    .error "a path inside a root may not climb out of it"
  else .ok (String.ofList relative)

/-- Make a query match as text rather than as a pattern. -/
def escapeGlob (query : String) : String :=
  String.ofList (query.toList.flatMap fun c =>
    if c ∈ ['*', '?', '[', ']', '\\'] then ['\\', c] else [c])

/-- What a host answers: what the scripts see, where they end well. -/
structure FileHost where
  directory : String → String → Option Directory
  tree : String → Option Tree
  /-- Whether a name matches a pattern. -/
  accepts : String → List UInt8 → Bool

/-- List one directory, given as a path relative to one of the target's roots. -/
def list (host : FileHost) (roots : List String) (root relative : String) :
    Except String RemoteListing := do
  let root ← permittedRoot roots root
  let relative ← checkedRelative relative
  match host.directory root relative with
  | some directory => .ok (directory.listing root relative)
  | none => .error "could not list a directory on that target"

/-- Find files under a root by name. -/
def search (host : FileHost) (roots : List String) (root query : String) (glob : Bool) :
    Except String RemoteListing := do
  let root ← permittedRoot roots root
  if query = "" ∨ query.length > MAX_QUERY_CHARACTERS ∨ query.toList.any isControl then
    .error s!"a search must be 1 to {MAX_QUERY_CHARACTERS} characters of ordinary text"
  else
    let pattern := if glob then query else "*" ++ escapeGlob query ++ "*"
    match host.tree root with
    | some tree => .ok (tree.listing root (host.accepts pattern))
    | none => .error "could not search for files on that target"

/-! ### What a listing promises -/

/-- A listing that says it is complete has an entry for each record. -/
def RemoteListing.Complete (listing : RemoteListing) (reported : List Reported) : Prop :=
  listing.truncated = false → ∀ record ∈ reported, ∃ entry ∈ listing.entries,
    entry.kind = record.kind ∧ utf8 entry.name = record.name

/-- Every record's name is UTF-8. -/
def Decodable (reported : List Reported) : Prop :=
  ∀ record ∈ reported, (fromUtf8 record.name).isSome

theorem fitting_eq_self_iff_length {size : Reported → ℕ}
    {output : List UInt8} (hlength : output.length = (reported.map size).sum) :
    fitting size MAX_OUTPUT_BYTES reported = reported ↔ output.length ≤ MAX_OUTPUT_BYTES := by
  rw [fitting_eq_self_iff, hlength]
  constructor
  · rintro (rfl | hsum)
    · exact Nat.zero_le _
    · exact hsum
  · exact .inr

/-- A listing of a directory may be relied on if everything the script reports is within the bytes that
are kept, and UTF-8. -/
theorem Directory.complete_iff (directory : Directory) (root path : String) :
    (directory.listing root path).Complete directory.listed ↔
      (listOutput directory.listed).length ≤ MAX_OUTPUT_BYTES ∧ Decodable directory.listed := by
  have hcomplete := @capped_complete_iff directory.listed listSize directory.distinct_listed
  have hparsed := parseEntries_listOutput directory.writable_listed
  simp only [Reported.entry_eq_some_iff] at hcomplete
  simp only [RemoteListing.Complete, Directory.listing, hparsed]
  rw [hcomplete, fitting_eq_self_iff_length (length_listOutput _)]
  refine or_iff_right_of_imp fun hmany => ?_
  -- the script reports no more than that many, so that all of them survived
  have hfew : directory.listed.length ≤ MAX_ENTRIES := by
    rw [Directory.listed]
    simpa using directory.length_reports (by decide : 0 < MAX_ENTRIES) _
  have hfront := prefix_fitting listSize MAX_OUTPUT_BYTES directory.listed
  have hfit : (fitting listSize MAX_OUTPUT_BYTES directory.listed).length ≤ MAX_ENTRIES :=
    hfront.length_le.trans hfew
  have hkept : (surviving listSize directory.listed).length ≤
      (fitting listSize MAX_OUTPUT_BYTES directory.listed).length :=
    List.length_filterMap_le _ _
  have hwhole := hfront.eq_of_length_le (by omega)
  refine ⟨(fitting_eq_self_iff_length (length_listOutput _)).mp hwhole, ?_⟩
  have hall : ((directory.listed).filterMap Reported.entry).length = directory.listed.length := by
    rw [surviving, hwhole] at hmany hkept
    omega
  intro record hrecord
  have hentry := List.filterMap_length_eq_length.mp hall record hrecord
  simpa [Reported.entry] using hentry

/-- A listing of a search may be relied on in that case too, and otherwise if as many paths as one listing
may carry are reported whole within those bytes, and UTF-8. -/
theorem Tree.complete_iff (tree : Tree) (root : String) (matched : List UInt8 → Bool) :
    (tree.listing root matched).Complete (tree.found matched) ↔
      MAX_ENTRIES ≤ (surviving searchSize (tree.found matched)).length ∨
        (searchOutput (tree.found matched)).length ≤ MAX_OUTPUT_BYTES ∧
          Decodable (tree.found matched) := by
  have hcomplete := @capped_complete_iff (tree.found matched) searchSize tree.distinct_found
  have hparsed := parsePaths_searchOutput (@writable_found tree matched) fun record hrecord => by
    obtain ⟨node, -, -, rfl⟩ := of_mem_found hrecord
    rfl
  simp only [Reported.entry_eq_some_iff] at hcomplete
  simp only [RemoteListing.Complete, Tree.listing, hparsed, List.mem_mergeSort]
  rw [hcomplete, fitting_eq_self_iff_length (length_searchOutput _)]
  rfl

theorem Directory.genuine (directory : Directory) (root path : String) :
    ∀ entry ∈ (directory.listing root path).entries, ∃ original ∈ directory.entries,
      entry.kind = original.kind ∧ utf8 entry.name = original.name.bytes := by
  intro entry hentry
  simp only [Directory.listing, parseEntries_listOutput directory.writable_listed] at hentry
  obtain ⟨record, hrecord, hsame⟩ := mem_of_mem_capped hentry
  obtain ⟨original, horiginal, rfl⟩ := Directory.of_mem_reports hrecord
  exact ⟨original, horiginal, Reported.entry_eq_some_iff.mp hsame⟩

theorem Tree.genuine (tree : Tree) (root : String) (matched : List UInt8 → Bool) :
    ∀ entry ∈ (tree.listing root matched).entries, ∃ original ∈ tree.nodes,
      original.2 = .file ∧ entry.kind = .file ∧ utf8 entry.name = relativePath original.1 := by
  have hparsed := parsePaths_searchOutput (@writable_found tree matched) fun record hrecord => by
    obtain ⟨node, -, -, rfl⟩ := of_mem_found hrecord
    rfl
  intro entry hentry
  simp only [Tree.listing, hparsed, List.mem_mergeSort] at hentry
  obtain ⟨record, hrecord, hsame⟩ := mem_of_mem_capped hentry
  obtain ⟨original, horiginal, hfile, rfl⟩ := of_mem_found hrecord
  exact ⟨original, horiginal, hfile, Reported.entry_eq_some_iff.mp hsame⟩

/-- **What a listing promises, and when it keeps it.** Whatever is listed, of a directory or of a search,
is there with its own name and kind. That nothing reported is missing from a listing that does not admit
to it holds of a directory exactly if all that is reported fits into the bytes that are kept and is UTF-8,
and of a search exactly in that case, or if 500 of the paths that fit are UTF-8. -/
theorem listings_are_genuine_and_complete_iff (directory : Directory) (tree : Tree)
    (root path : String) (matched : List UInt8 → Bool) :
    (∀ entry ∈ (directory.listing root path).entries, ∃ original ∈ directory.entries,
        entry.kind = original.kind ∧ utf8 entry.name = original.name.bytes) ∧
      (∀ entry ∈ (tree.listing root matched).entries, ∃ original ∈ tree.nodes,
        original.2 = .file ∧ entry.kind = .file ∧ utf8 entry.name = relativePath original.1) ∧
      ((directory.listing root path).Complete directory.listed ↔
        (listOutput directory.listed).length ≤ MAX_OUTPUT_BYTES ∧ Decodable directory.listed) ∧
      ((tree.listing root matched).Complete (tree.found matched) ↔
        MAX_ENTRIES ≤ (surviving searchSize (tree.found matched)).length ∨
          (searchOutput (tree.found matched)).length ≤ MAX_OUTPUT_BYTES ∧
            Decodable (tree.found matched)) :=
  ⟨directory.genuine root path, tree.genuine root matched, directory.complete_iff root path,
    tree.complete_iff root matched⟩

/-- A directory with one file, whose name is a byte that is no UTF-8. -/
def latin : Directory where
  entries := [⟨⟨[0xe9], by decide, by decide, by decide⟩, true, false, false, true⟩]
  nodup := List.nodup_singleton _

/-- The file is reported, and the listing is empty and says that it is complete. -/
theorem an_undecodable_name_is_missing :
    latin.listed = [⟨.file, [0xe9]⟩] ∧
      latin.listing "/srv" "" = ⟨"/srv", "", [], false⟩ := by
  decide

end SuperHerdr
