import SuperHerdr.Bridge.Requests
import SuperHerdr.Library.Patterns
import SuperHerdr.Ssh.Config

/-!
# What an SSH configuration includes

A configuration may include others, and they it. Reading stops at what was read already, at a depth and
at a number of files, so that it ends on every file system (`readInto` is total) and within its bounds,
and the hosts are found in the order of their lines, those of an included file in place of its `Include`
line (`inPlace`).

A name with a wildcard is expanded by its text ahead of the first one. That is what the whole pattern
matches if and only if it matches every regular file that begins so (`includes_are_bounded`).
-/

namespace SuperHerdr

namespace SshConfig

open Http Texts Transducer Patterns Utf8

def MAX_INCLUDE_DEPTH : ℕ := 3
def MAX_FILES : ℕ := 64
def MAX_HOSTS : ℕ := 512

/-! ### Paths -/

/-- The bytes of a path. -/
abbrev Path := List UInt8

def slash : UInt8 := 0x2f
def dot : UInt8 := 0x2e

/-- A segment that leads nowhere. -/
def idle (segment : List UInt8) : Bool := segment = [] || segment = [dot]

/-- The first segment, and those behind it to the last that leads somewhere. -/
def segments (path : Path) : List UInt8 × List (List UInt8) :=
  match path.splitOn slash with
  | first :: rest => (first, rest.rdropWhile idle)
  | [] => ([], [])

/-- What two paths have in common that are one. -/
def components (path : Path) : List (List UInt8) :=
  let (first, rest) := segments path
  let rest := rest.filter (!idle ·)
  if first ≠ [] then first :: rest
  else if path = [] then []
  else [slash] :: rest

def fileName (path : Path) : Option (List UInt8) :=
  let (first, rest) := segments path
  let name := rest.getLast?.getD first
  if idle name ∨ name = [dot, dot] then none else some name

def parent (path : Path) : Option Path :=
  let (first, rest) := segments path
  if rest = [] then if first = [] then none else some []
  else
    let before := rest.dropLast.rdropWhile idle
    some (if first = [] ∧ before = [] then [slash] else [slash].intercalate (first :: before))

def join (base child : Path) : Path :=
  if child.head? = some slash then child
  else if base = [] ∨ base.getLast? = some slash then base ++ child
  else base ++ slash :: child

/-- The root stands ahead of `.`, that of `..`, and that of a name. -/
def componentKey (component : List UInt8) : List UInt8 :=
  if component = [slash] then [0]
  else if component = [dot] then [1]
  else if component = [dot, dot] then [2]
  else 3 :: component

def sortPaths (paths : List Path) : List Path :=
  paths.mergeSort fun path other =>
    decide ((components path).map componentKey ≤ (components other).map componentKey)

/-! ### Files -/

/-- What a program sees of files: their texts, the names in a directory, and which are regular. -/
structure FileSystem where
  readToString : Path → Option (List Char)
  readDir : Path → Option (List (List UInt8))
  isFile : Path → Bool
  home : Option Path

section Expand

variable (fs : FileSystem) (including : Path)

/-- The path of an entry of an `Include` line. -/
def entryPath (entry : List Char) : Option Path :=
  let entry := (entry.dropWhile (· = '"')).rdropWhile (· = '"')
  if ['~', '/'] <+: entry then fs.home.map fun home => join home (encode (entry.drop 2))
  else if entry.head? = some '/' then some (encode entry)
  else some (join ((parent including).getD [dot]) (encode entry))

def isWildcard (c : Char) : Bool := c = '*' || c = '?'

/-- The files an entry names. A name with a wildcard names what is accepted by it. -/
def expandEntry (accept : List Char → List Char → Bool) (entry : List Char) : List Path :=
  match entryPath fs including entry with
  | none => []
  | some path =>
      match (fileName path).map fromUtf8Lossy with
      | none => []
      | some name =>
          if !name.any isWildcard then [path]
          else
            match parent path with
            | none => []
            | some directory =>
                (((fs.readDir directory).getD []).filter fun candidate =>
                  accept name (fromUtf8Lossy candidate) && fs.isFile (join directory candidate)).map
                    (join directory)

/-- What stands ahead of the first wildcard. -/
def literalPrefix (pattern : List Char) : List Char := pattern.takeWhile (!isWildcard ·)

def beginsLike (pattern candidate : List Char) : Bool := literalPrefix pattern <+: candidate

/-- Turn one `Include` value into the files it names. -/
def expandInclude (value : List Char) : List Path :=
  sortPaths ((splitWhitespace value).flatMap (expandEntry fs including beginsLike))

end Expand

/-! ### Reading a configuration and what it includes -/

structure Traversal where
  seen : List (List (List UInt8))
  hosts : List SshHost
  /-- What was opened, and behind how many includes. The program does not keep it. -/
  opened : List (Path × ℕ)

def readInto (fs : FileSystem) (path : Path) (depth : ℕ) (t : Traversal) :
    Traversal × Except String Unit :=
  if _ : MAX_INCLUDE_DEPTH < depth ∨ MAX_FILES ≤ t.seen.length ∨ components path ∈ t.seen then
    (t, .ok ())
  else
    let t : Traversal :=
      ⟨t.seen ++ [components path], t.hosts, t.opened ++ [(path, depth)]⟩
    match fs.readToString path with
    | none => (t, .error ("failed to read " ++ String.ofList (fromUtf8Lossy path)))
    | some text =>
        ((parseInto text).foldl (fun t found =>
          match found with
          | .host named => { t with hosts := t.hosts ++ [named] }
          | .included value =>
              -- a file that cannot be read is skipped
              (expandInclude fs path value).foldl (fun t included =>
                (readInto fs included (depth + 1) t).1) t) t, .ok ())
termination_by MAX_INCLUDE_DEPTH + 1 - depth
decreasing_by omega

/-- Read the hosts of a configuration and of everything it includes. -/
def load (fs : FileSystem) (path : Path) : Except String (List SshHost) :=
  let (t, result) := readInto fs path 0 ⟨[], [], []⟩
  result.map fun _ => t.hosts.take MAX_HOSTS

/-! ### Hosts in place -/

/-- The hosts of a file, so many includes deep at most, and what was seen behind it: the lines of the
file one after the other, and in place of an include the files it names. -/
def inPlace (fs : FileSystem) :
    ℕ → List (List (List UInt8)) → Path → List (List (List UInt8)) × List SshHost
  | 0, seen, _ => (seen, [])
  | remaining + 1, seen, path =>
      if MAX_FILES ≤ seen.length ∨ components path ∈ seen then (seen, [])
      else
        match fs.readToString path with
        | none => (seen ++ [components path], [])
        | some text =>
            exec (fun seen found =>
              match found with
              | .host named => (seen, [named])
              | .included value => exec (inPlace fs remaining) seen (expandInclude fs path value))
              (seen ++ [components path]) (parseInto text)

section Reading

variable {fs : FileSystem}

theorem foldl_adds {ι : Type} {run : Traversal → ι → Traversal}
    {step : List (List (List UInt8)) → ι → List (List (List UInt8)) × List SshHost}
    (h : ∀ t i, (run t i).seen = (step t.seen i).1 ∧
      (run t i).hosts = t.hosts ++ (step t.seen i).2) (is : List ι) (t : Traversal) :
    (is.foldl run t).seen = (exec step t.seen is).1 ∧
      (is.foldl run t).hosts = t.hosts ++ (exec step t.seen is).2 := by
  induction is generalizing t with
  | nil => exact ⟨rfl, (List.append_nil _).symm⟩
  | cons i is ih =>
    obtain ⟨hseen, hhosts⟩ := h t i
    obtain ⟨ihseen, ihhosts⟩ := ih (run t i)
    rw [List.foldl_cons, exec_cons, ihseen, ihhosts, hseen, hhosts, List.append_assoc]
    exact ⟨rfl, rfl⟩

/-- **What is read is found in place**: reading a file adds its hosts, those of what it includes in
place of the includes. The induction is on how much deeper it may go. -/
theorem readInto_inPlace (remaining : ℕ) {depth : ℕ}
    (hdepth : depth + remaining = MAX_INCLUDE_DEPTH + 1)
    (path : Path) (t : Traversal) :
    (readInto fs path depth t).1.seen = (inPlace fs remaining t.seen path).1 ∧
      (readInto fs path depth t).1.hosts = t.hosts ++ (inPlace fs remaining t.seen path).2 := by
  induction remaining generalizing depth path t with
  | zero =>
    -- too deep: the file is not read
    rw [readInto, dif_pos (.inl (by omega)), inPlace]
    exact ⟨rfl, (List.append_nil _).symm⟩
  | succ remaining ih =>
    rw [readInto, inPlace]
    by_cases hrefused : MAX_FILES ≤ t.seen.length ∨ components path ∈ t.seen
    · rw [dif_pos (.inr hrefused), if_pos hrefused]
      exact ⟨rfl, (List.append_nil _).symm⟩
    have hread : ¬(MAX_INCLUDE_DEPTH < depth ∨ MAX_FILES ≤ t.seen.length ∨
        components path ∈ t.seen) := by
      rintro (hdeep | h)
      · omega
      · exact hrefused h
    rw [dif_neg hread, if_neg hrefused]
    cases fs.readToString path with
    | none => exact ⟨rfl, (List.append_nil _).symm⟩
    | some text =>
      refine foldl_adds (fun t found => ?_) (parseInto text) _
      cases found with
      | host named => exact ⟨rfl, rfl⟩
      | included value =>
        exact foldl_adds (fun t included => ih (by omega) included t) _ t

/-! ### The bounds of reading -/

/-- What was seen is what was opened, each file once, few of them and none too deep. -/
structure Traversal.Bounded (t : Traversal) : Prop where
  seen : t.seen = t.opened.map fun entry => components entry.1
  nodup : t.seen.Nodup
  files : t.seen.length ≤ MAX_FILES
  depth : ∀ entry ∈ t.opened, entry.2 ≤ MAX_INCLUDE_DEPTH

theorem Traversal.Bounded.open {t : Traversal} (h : t.Bounded) {path : Path} {depth : ℕ}
    (hread : ¬(MAX_INCLUDE_DEPTH < depth ∨ MAX_FILES ≤ t.seen.length ∨ components path ∈ t.seen)) :
    Traversal.Bounded ⟨t.seen ++ [components path], t.hosts, t.opened ++ [(path, depth)]⟩ := by
  simp only [not_or, Nat.not_lt, Nat.not_le] at hread
  obtain ⟨hdepth, hfiles, hnew⟩ := hread
  refine ⟨?_, ?_, ?_, fun entry hentry => ?_⟩
  · simp [h.seen]
  · rw [List.nodup_append]
    refine ⟨h.nodup, List.nodup_singleton _, fun seen hseen other hother => ?_⟩
    rintro rfl
    exact hnew (List.mem_singleton.mp hother ▸ hseen)
  · rw [List.length_append, List.length_singleton]
    exact hfiles
  · rcases List.mem_append.mp hentry with hentry | hentry
    · exact h.depth entry hentry
    · rw [List.mem_singleton.mp hentry]
      exact hdepth

/-- **Reading stays within its bounds.** -/
theorem Traversal.Bounded.readInto (remaining : ℕ) {depth : ℕ}
    (hdepth : depth + remaining = MAX_INCLUDE_DEPTH + 1) (path : Path) {t : Traversal}
    (h : t.Bounded) : (SshConfig.readInto fs path depth t).1.Bounded := by
  induction remaining generalizing depth path t with
  | zero =>
    rw [SshConfig.readInto, dif_pos (.inl (by omega))]
    exact h
  | succ remaining ih =>
    rw [SshConfig.readInto]
    split
    · exact h
    · next hread =>
      have hopen := h.open hread
      cases fs.readToString path with
      | none => exact hopen
      | some text =>
        refine List.foldlRecOn (parseInto text) _ hopen fun t ht found _ => ?_
        cases found with
        | host named => exact ⟨ht.seen, ht.nodup, ht.files, ht.depth⟩
        | included value =>
          exact List.foldlRecOn _ _ ht fun t ht included _ => ih (by omega) included ht

end Reading

/-! ### What a pattern names -/

/-- The parts of a name with wildcards. -/
def wildcards (pattern : List Char) : List (Piece Char) :=
  pattern.map fun c => if c = '*' then .many else if c = '?' then .one else .literal c

/-- Whether a whole name is matched. -/
def matchesWhole (pattern candidate : List Char) : Bool := accepts (wildcards pattern) candidate

/-- What is matched begins with what stands ahead of the first wildcard. -/
theorem beginsLike_of_matchesWhole {pattern candidate : List Char}
    (h : matchesWhole pattern candidate = true) : beginsLike pattern candidate = true := by
  have hliteral : wildcards (literalPrefix pattern) = literals (literalPrefix pattern) := by
    refine List.map_congr_left fun c hc => ?_
    have hplain := List.mem_takeWhile_imp hc
    simp only [isWildcard, Bool.not_eq_true', Bool.or_eq_false_iff, decide_eq_false_iff_not] at hplain
    rw [if_neg hplain.1, if_neg hplain.2]
  have hparts : wildcards pattern =
      literals (literalPrefix pattern) ++ wildcards (pattern.dropWhile (!isWildcard ·)) := by
    rw [← hliteral, wildcards, wildcards, wildcards, ← List.map_append, literalPrefix,
      List.takeWhile_append_dropWhile]
  rw [matchesWhole, hparts, accepts_literals_iff] at h
  obtain ⟨rest, rfl, -⟩ := h
  exact decide_eq_true (List.prefix_append _ _)

section Expand

variable {fs : FileSystem} {including : Path}

/-- Every regular file that begins like a pattern of an entry is matched by all of it. -/
def PrefixSuffices (fs : FileSystem) (including : Path) (entry : List Char) : Prop :=
  ∀ path name directory, entryPath fs including entry = some path →
    (fileName path).map fromUtf8Lossy = some name → name.any isWildcard = true →
      parent path = some directory → ∀ candidate ∈ (fs.readDir directory).getD [],
        fs.isFile (join directory candidate) = true →
          beginsLike name (fromUtf8Lossy candidate) = true →
            matchesWhole name (fromUtf8Lossy candidate) = true

theorem map_eq_map_iff_of_sublist {α β : Type} (f : α → β) {as bs : List α} (h : as.Sublist bs) :
    as.map f = bs.map f ↔ as = bs := by
  refine ⟨fun heq => h.eq_of_length ?_, congrArg _⟩
  rw [← List.length_map f, heq, List.length_map]

theorem filter_eq_filter_iff {α : Type} {p q : α → Bool} (himp : ∀ a, p a = true → q a = true)
    (as : List α) :
    as.filter p = as.filter q ↔ ∀ a ∈ as, q a = true → p a = true := by
  constructor
  · intro h a hmem hwide
    have hkept : a ∈ as.filter q := List.mem_filter.mpr ⟨hmem, hwide⟩
    rw [← h] at hkept
    exact (List.mem_filter.mp hkept).2
  · intro h
    exact List.filter_congr fun a hmem => Bool.eq_iff_iff.mpr ⟨himp a, h a hmem⟩

/-- What an entry names is among what begins like it, and is all of that if the prefix suffices. -/
theorem expandEntry_matchesWhole (entry : List Char) :
    (expandEntry fs including matchesWhole entry).Sublist (expandEntry fs including beginsLike entry) ∧
      (expandEntry fs including matchesWhole entry = expandEntry fs including beginsLike entry ↔
        PrefixSuffices fs including entry) := by
  rw [expandEntry, expandEntry, PrefixSuffices]
  cases hpath : entryPath fs including entry with
  | none => simp
  | some path =>
    dsimp only
    cases hname : (fileName path).map fromUtf8Lossy with
    | none =>
      refine ⟨List.Sublist.refl _, iff_of_true rfl ?_⟩
      rintro _ _ _ ⟨rfl⟩ hname'
      cases hname.symm.trans hname'
    | some name =>
      dsimp only
      cases hwild : name.any isWildcard with
      | false =>
        refine ⟨List.Sublist.refl _, iff_of_true rfl ?_⟩
        rintro _ _ _ ⟨rfl⟩ hname' hwild'
        obtain rfl := Option.some.inj (hname.symm.trans hname')
        cases hwild.symm.trans hwild'
      | true =>
        cases hparent : parent path with
        | none =>
          refine ⟨List.Sublist.refl _, iff_of_true rfl ?_⟩
          rintro _ _ _ ⟨rfl⟩ _ _ hparent'
          cases hparent.symm.trans hparent'
        | some directory =>
          simp only [Bool.not_true, Bool.false_eq_true, if_false]
          have himp : ∀ candidate, (matchesWhole name (fromUtf8Lossy candidate) &&
              fs.isFile (join directory candidate)) = true →
                (beginsLike name (fromUtf8Lossy candidate) &&
                  fs.isFile (join directory candidate)) = true := by
            intro candidate h
            rw [Bool.and_eq_true] at h ⊢
            exact ⟨beginsLike_of_matchesWhole h.1, h.2⟩
          have hsublist := List.monotone_filter_right ((fs.readDir directory).getD []) himp
          refine ⟨hsublist.map _, ?_⟩
          rw [map_eq_map_iff_of_sublist _ hsublist, filter_eq_filter_iff himp]
          constructor
          · -- the condition speaks of the directory and the name that were found
            rintro h _ _ _ ⟨rfl⟩ hname' _ hparent' candidate hmem hfile hbegins
            obtain rfl := Option.some.inj (hname.symm.trans hname')
            obtain rfl := Option.some.inj (hparent.symm.trans hparent')
            exact (Bool.and_eq_true_iff.mp (h candidate hmem (by rw [hbegins, hfile]; rfl))).1
          · intro h candidate hmem hwide
            obtain ⟨hbegins, hfile⟩ := Bool.and_eq_true_iff.mp hwide
            rw [h path name directory rfl hname hwild hparent candidate hmem hfile hbegins, hfile]
            rfl

/-- Lists that are parts of others, one by one, are them if all together are. -/
theorem flatMap_eq_iff {α β : Type} {f g : α → List β} (hsublist : ∀ a, (f a).Sublist (g a))
    (as : List α) : (as.flatMap f).length = (as.flatMap g).length ↔ ∀ a ∈ as, f a = g a := by
  have hle : ∀ as : List α, (as.flatMap f).length ≤ (as.flatMap g).length := by
    intro as
    induction as with
    | nil => exact le_rfl
    | cons a as ih =>
      rw [List.flatMap_cons, List.flatMap_cons, List.length_append, List.length_append]
      exact Nat.add_le_add (hsublist a).length_le ih
  induction as with
  | nil => simp
  | cons a as ih =>
    rw [List.flatMap_cons, List.flatMap_cons, List.length_append, List.length_append,
      List.forall_mem_cons]
    have hfirst := (hsublist a).length_le
    have hrest := hle as
    constructor
    · intro h
      exact ⟨(hsublist a).eq_of_length (by omega), ih.mp (by omega)⟩
    · rintro ⟨hsame, h⟩
      rw [hsame, ih.mpr h]

/-- A value is expanded to what its entries name as a whole. -/
def ExpandsWhole (fs : FileSystem) (including : Path) (value : List Char) : Prop :=
  expandInclude fs including value =
    sortPaths ((splitWhitespace value).flatMap (expandEntry fs including matchesWhole))

/-- **An include is expanded to what it names** if and only if the text ahead of the first wildcard
suffices for it. -/
theorem expandsWhole_iff (value : List Char) :
    ExpandsWhole fs including value ↔
      ∀ entry ∈ splitWhitespace value, PrefixSuffices fs including entry := by
  have hentries : (∀ entry ∈ splitWhitespace value, PrefixSuffices fs including entry) ↔
      ∀ entry ∈ splitWhitespace value,
        expandEntry fs including matchesWhole entry = expandEntry fs including beginsLike entry :=
    forall₂_congr fun entry _ => (expandEntry_matchesWhole entry).2.symm
  rw [hentries, ExpandsWhole, expandInclude]
  constructor
  · intro h
    refine (flatMap_eq_iff (fun entry => (expandEntry_matchesWhole entry).1) _).mp ?_
    have hlength := congrArg List.length h
    rw [sortPaths, sortPaths, List.length_mergeSort, List.length_mergeSort] at hlength
    exact hlength.symm
  · intro h
    rw [List.flatMap_congr h]

end Expand

/-! ### Bounded and exact -/

/-- What every reading of a configuration is: within its bounds, and with the hosts in place. -/
structure Exact (fs : FileSystem) (path : Path) : Prop where
  files : (readInto fs path 0 ⟨[], [], []⟩).1.opened.length ≤ MAX_FILES
  once : ((readInto fs path 0 ⟨[], [], []⟩).1.opened.map fun entry => components entry.1).Nodup
  depth : ∀ entry ∈ (readInto fs path 0 ⟨[], [], []⟩).1.opened, entry.2 ≤ MAX_INCLUDE_DEPTH
  hosts : load fs path =
    if (fs.readToString path).isSome then
      .ok ((inPlace fs (MAX_INCLUDE_DEPTH + 1) [] path).2.take MAX_HOSTS)
    else .error ("failed to read " ++ String.ofList (fromUtf8Lossy path))

theorem reads_exactly (fs : FileSystem) (path : Path) : Exact fs path := by
  have hempty : Traversal.Bounded ⟨[], [], []⟩ :=
    ⟨rfl, List.nodup_nil, Nat.zero_le _, fun entry h => by cases h⟩
  have hbounded : (readInto fs path 0 ⟨[], [], []⟩).1.Bounded :=
    hempty.readInto (MAX_INCLUDE_DEPTH + 1) (Nat.zero_add _) path
  have hplace := (@readInto_inPlace fs (MAX_INCLUDE_DEPTH + 1) 0 (Nat.zero_add _) path ⟨[], [], []⟩).2
  refine ⟨?_, ?_, hbounded.depth, ?_⟩
  · rw [← List.length_map (f := fun entry => components entry.1), ← hbounded.seen]
    exact hbounded.files
  · rw [← hbounded.seen]
    exact hbounded.nodup
  · rw [List.nil_append] at hplace
    rw [load, ← hplace]
    have hopen : ¬(MAX_INCLUDE_DEPTH < 0 ∨ MAX_FILES ≤ ([] : List (List (List UInt8))).length ∨
        components path ∈ ([] : List (List (List UInt8)))) := by
      simp [MAX_FILES]
    rw [readInto, dif_neg hopen]
    cases hread : fs.readToString path with
    | none => rfl
    | some text => rfl

/-- **Includes are bounded and exact**: on every file system reading ends, opens few files, each once
and none too deep, and lists the hosts in place; and an include is expanded to what it names if and only
if the text ahead of the first wildcard suffices for it. -/
theorem includes_are_bounded (fs : FileSystem) :
    (∀ path, Exact fs path) ∧ ∀ including value, ExpandsWhole fs including value ↔
      ∀ entry ∈ splitWhitespace value, PrefixSuffices fs including entry :=
  ⟨reads_exactly fs, fun _ => expandsWhole_iff⟩

/-- The directory `/s`, with one configuration and a backup of another. -/
def backedUp : FileSystem where
  readToString _ := some []
  readDir directory := if directory = encode "/s".toList then
    some [encode "a.conf".toList, encode "b.bak".toList] else none
  isFile _ := true
  home := none

/-- The backup is read as well. -/
theorem backup_is_included : ¬∀ fs including value, ExpandsWhole fs including value := by
  intro h
  have hsuffices := expandsWhole_iff _ |>.mp (h backedUp (encode "/s/config".toList) "*.conf".toList)
    "*.conf".toList (by decide)
  have hname : (fileName (encode "/s/*.conf".toList)).map fromUtf8Lossy = some "*.conf".toList := by
    rw [show fileName (encode "/s/*.conf".toList) = some (encode "*.conf".toList) by decide,
      Option.map_some, fromUtf8Lossy_encode]
  have hmatched := hsuffices (encode "/s/*.conf".toList) "*.conf".toList (encode "/s".toList)
    (by decide) hname (by decide) (by decide) (encode "b.bak".toList) (by simp [backedUp]) rfl
    (by rw [fromUtf8Lossy_encode]; decide)
  rw [fromUtf8Lossy_encode] at hmatched
  revert hmatched
  decide

end SshConfig

end SuperHerdr
