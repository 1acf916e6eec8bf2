import SuperHerdr.Download.Download
import SuperHerdr.Library.Digests

/-!
# Saving a file that was fetched

The receiving end of a download. The bytes go to a temporary file in the directory that was chosen,
and the file gets its name only when its length and its digest are those that were offered.

The directory is shared with everyone else, and any of the calls to the file system may fail. What
is saved has the bytes of the chunks that were accepted; a chunk whose write failed part of the way
has left bytes in the file that are neither counted nor hashed, and if one did the file is not what
was checked (`saves_are_verified`).
-/

namespace SuperHerdr

namespace Save

open Digests

/-! ### The directory -/

inductive Node
  | file (bytes : List UInt8)
  | directory
  | danglingLink
deriving DecidableEq

/-- What the chosen directory has under each name. One that does not exist has nothing. -/
abbrev Folder : Type := String → Option Node

/-- `Path::exists`, which follows links. -/
def present : Option Node → Bool
  | some (.file _) => true
  | some .directory => true
  | some .danglingLink => false
  | none => false

/-- The name of a direct child of a directory. -/
structure ChildName where
  name : String
  nonempty : name ≠ ""
  notDot : name ≠ "."
  notDots : name ≠ ".."
  noSeparator : '/' ∉ name.toList

/-- `Path::file_name`: the last component, if it is a name. -/
def fileName (name : String) : Option String :=
  match ((name.toList.splitOn '/').filter fun part => part ≠ [] ∧ part ≠ ['.']).getLast? with
  | none => none
  | some last => if last = ['.', '.'] then none else some (String.ofList last)

/-- What separators separate has none. -/
theorem notMem_of_mem_splitOn {separator : Char} {text part : List Char}
    (h : part ∈ text.splitOn separator) : separator ∉ part := by
  induction text generalizing part with
  | nil =>
    rw [List.splitOn_nil, List.mem_singleton] at h
    rw [h]
    exact List.not_mem_nil
  | cons c text ih =>
    rw [List.splitOn_cons_eq_if_modifyHead] at h
    split at h
    · rcases List.mem_cons.mp h with rfl | h
      · exact List.not_mem_nil
      · exact ih h
    · next hother =>
      obtain ⟨first, rest, hparts⟩ :=
        List.exists_cons_of_ne_nil (List.splitOn_ne_nil separator text)
      rw [hparts] at h ih
      rcases List.mem_cons.mp h with rfl | h
      · rw [List.mem_cons, not_or]
        exact ⟨fun hsame => hother (by simp [hsame]), ih List.mem_cons_self⟩
      · exact ih (List.mem_cons_of_mem _ h)

theorem noSeparator_of_fileName {name child : String} (h : fileName name = some child) :
    '/' ∉ child.toList := by
  rw [fileName] at h
  split at h
  · cases h
  · next last hlast =>
    split at h
    · cases h
    · cases h
      rw [String.toList_ofList]
      exact notMem_of_mem_splitOn (List.mem_of_mem_filter (List.mem_of_getLast? hlast))

/-- The name that a file is saved under: the last component of what it was called. -/
def saveName (name : String) : Option ChildName :=
  match hname : fileName name with
  | none => none
  | some child =>
      if h : child ≠ "" ∧ child ≠ "." ∧ child ≠ ".." then
        some ⟨child, h.1, h.2.1, h.2.2, noSeparator_of_fileName hname⟩
      else none

/-- `Path::join` with one name. -/
def join (directory : String) (child : ChildName) : String :=
  if directory = "" ∨ directory.toList.getLast? = some '/' then directory ++ child.name
  else directory ++ "/" ++ child.name

/-! ### The save -/

structure FileSave where
  request : ℕ
  directory : String
  child : ChildName
  length : ℕ
  digest : String
  received : ℕ
  /-- What the hasher has been given. -/
  hashed : List UInt8
  /-- The name of the temporary file. -/
  temporary : String
  outstanding : ℕ

namespace FileSave

def destination (self : FileSave) : String := join self.directory self.child

/-- Begin a save. The directory may not be to be had (`made`), nor a temporary file in it; the name
of one is new. -/
def begin (folder : Folder) (request : ℕ) (directory name : String) (length : ℕ) (digest : String)
    (made : Bool) (temporary : Option String) : Except String FileSave × Folder :=
  match saveName name with
  | none => (.error "that file has no name to save it under", folder)
  | some child =>
      if present (folder child.name) then
        (.error s!"{join directory child} already exists", folder)
      else if !made then (.error s!"failed to create {directory}", folder)
      else
        match temporary.filter fun temporary => (folder temporary).isNone with
        | none => (.error s!"failed to open a temporary file in {directory}", folder)
        | some temporary =>
            (.ok
              { request, directory, child, length, digest, temporary
                received := 0
                hashed := []
                outstanding := 0 },
              Function.update folder temporary (some (.file [])))

/-- Open the window. -/
def start (self : FileSave) : SaveProgress × FileSave :=
  (.pull SAVE_WINDOW_CHUNKS, { self with outstanding := SAVE_WINDOW_CHUNKS })

/-- Write behind what there is in a file. -/
def append (folder : Folder) (name : String) (bytes : List UInt8) : Folder :=
  match folder name with
  | some (.file held) => Function.update folder name (some (.file (held ++ bytes)))
  | _ => folder

/-- Take one chunk. The write may fail when so many of its bytes have been written. -/
def chunk (self : FileSave) (folder : Folder) (bytes : List UInt8) (failed : Option ℕ) :
    Except String SaveProgress × FileSave × Folder :=
  if bytes.length > self.length - self.received then
    (.error "that host sent more than it offered", self, folder)
  else
    match failed with
    | some written =>
        (.error "failed to write the downloaded file", self,
          append folder self.temporary (bytes.take written))
    | none =>
        let received := self.received + bytes.length
        let outstanding := self.outstanding - 1
        let save := { self with received, hashed := self.hashed ++ bytes, outstanding }
        let folder := append folder self.temporary bytes
        if received ≥ self.length ∨ outstanding > 0 then (.ok .waiting, save, folder)
        else
          (.ok (.pull SAVE_WINDOW_CHUNKS), { save with outstanding := SAVE_WINDOW_CHUNKS }, folder)

section Chunk

variable {self : FileSave} {bytes : List UInt8}

theorem chunk_of_over (h : bytes.length > self.length - self.received) (folder : Folder)
    (failed : Option ℕ) :
    self.chunk folder bytes failed =
      (.error "that host sent more than it offered", self, folder) := by
  unfold chunk
  rw [if_pos h]

theorem chunk_of_failed (h : ¬bytes.length > self.length - self.received) (folder : Folder)
    (written : ℕ) :
    self.chunk folder bytes (some written) =
      (.error "failed to write the downloaded file", self,
        append folder self.temporary (bytes.take written)) := by
  unfold chunk
  rw [if_neg h]

theorem chunk_of_written (h : ¬bytes.length > self.length - self.received) (folder : Folder) :
    ∃ progress outstanding, self.chunk folder bytes none =
      (.ok progress,
        { self with
          received := self.received + bytes.length
          hashed := self.hashed ++ bytes
          outstanding },
        append folder self.temporary bytes) := by
  unfold chunk
  rw [if_neg h]
  simp only
  split
  · exact ⟨_, _, rfl⟩
  · exact ⟨_, _, rfl⟩

end Chunk

/-- The temporary file goes with the save. -/
def discard (self : FileSave) (folder : Folder) : Folder :=
  Function.update folder self.temporary none

/-- Check what arrived and put it where it belongs. Flushing may fail, and so may giving the file
its name, which is not done if there is something of that name. -/
def finish (self : FileSave) (sha : Sha256) (folder : Folder) (synced persisted : Bool) :
    Except String String × Folder :=
  if self.received ≠ self.length then
    (.error s!"that transfer stopped after {self.received} of {self.length} bytes",
      self.discard folder)
  else if self.digest ≠ "" ∧ String.ofList (hex (sha.digest self.hashed)) ≠ self.digest then
    (.error "that file did not match the digest its host reported", self.discard folder)
  else if !synced then (.error "failed to flush the downloaded file", self.discard folder)
  else if (folder self.child.name).isSome ∨ (folder self.temporary).isNone ∨ !persisted then
    (.error s!"failed to save {self.destination}", self.discard folder)
  else
    (.ok self.destination,
      Function.update (self.discard folder) self.child.name (folder self.temporary))

/-- The save as `Download` keeps its books. What the hasher was given is what it has written. -/
def counted (self : FileSave) : SuperHerdr.FileSave :=
  ⟨self.length, self.digest, self.received, self.hashed, self.outstanding⟩

theorem counted_start (self : FileSave) :
    self.counted.start = (self.start.2.counted, self.start.1) := rfl

theorem counted_chunk (self : FileSave) (folder : Folder) (bytes : List UInt8) (failed : Option ℕ) :
    self.counted.chunk failed.isNone bytes = (self.chunk folder bytes failed).1.map fun progress =>
      ((self.chunk folder bytes failed).2.1.counted, progress) := by
  by_cases hover : bytes.length > self.length - self.received
  · rw [chunk_of_over hover, SuperHerdr.FileSave.chunk, counted, if_pos hover]
    rfl
  · cases failed with
    | some written =>
      rw [chunk_of_failed hover, SuperHerdr.FileSave.chunk, counted, if_neg hover]
      rfl
    | none =>
      unfold chunk SuperHerdr.FileSave.chunk
      rw [if_neg hover, counted, if_neg hover]
      simp only [Option.isNone_none, Bool.not_true, Bool.false_eq_true, if_false]
      split
      · rfl
      · rfl

end FileSave

/-! ### Runs -/

/-- What happens between the beginning and the end of a save. -/
inductive Event
  | start
  | chunk (bytes : List UInt8) (failed : Option ℕ)
  /-- Others change the directory, but not the temporary file. -/
  | others (folder : Folder)

abbrev State : Type := FileSave × Folder

def step (state : State) : Event → State
  | .start => (state.1.start.2, state.2)
  | .chunk bytes failed => (state.1.chunk state.2 bytes failed).2
  | .others folder =>
      (state.1, Function.update folder state.1.temporary (state.2 state.1.temporary))

def run (state : State) (events : List Event) : State := events.foldl step state

/-- The bytes of a chunk that is accepted. -/
def acceptedAt (state : State) : Event → List UInt8
  | .chunk bytes failed =>
      match (state.1.chunk state.2 bytes failed).1 with
      | .ok _ => bytes
      | .error _ => []
  | _ => []

/-- The bytes of a chunk that a write left in the file before it failed. -/
def strayedAt (state : State) : Event → List UInt8
  | .chunk bytes (some written) =>
      if bytes.length > state.1.length - state.1.received then [] else bytes.take written
  | _ => []

/-- What each of the events gives, one after another. -/
def gathered (at_ : State → Event → List UInt8) : State → List Event → List UInt8
  | _, [] => []
  | state, event :: events => at_ state event ++ gathered at_ (step state event) events

/-- The bytes of the chunks that are accepted. -/
def accepted : State → List Event → List UInt8 := gathered acceptedAt

/-- The bytes that failed writes leave in the file. -/
def strayed : State → List Event → List UInt8 := gathered strayedAt

/-- The bytes that get into the file. -/
def written : State → List Event → List UInt8 :=
  gathered fun state event => acceptedAt state event ++ strayedAt state event

/-! ### What a run keeps -/

/-- A save and its directory, when these bytes have been accepted and these are in the file. -/
structure Holds (begun : FileSave) (state : State) (taken inFile : List UInt8) : Prop where
  directory : state.1.directory = begun.directory
  child : state.1.child = begun.child
  length : state.1.length = begun.length
  digest : state.1.digest = begun.digest
  hashed : state.1.hashed = taken
  received : state.1.received = taken.length
  within : taken.length ≤ begun.length
  file : state.2 state.1.temporary = some (.file inFile)

theorem append_of_file {folder : Folder} {name : String} {held : List UInt8}
    (h : folder name = some (.file held)) (bytes : List UInt8) :
    FileSave.append folder name bytes =
      Function.update folder name (some (.file (held ++ bytes))) := by
  rw [FileSave.append, h]

theorem Holds.step {begun : FileSave} {state : State} {taken inFile : List UInt8}
    (h : Holds begun state taken inFile) (event : Event) :
    Holds begun (Save.step state event) (taken ++ acceptedAt state event)
      (inFile ++ (acceptedAt state event ++ strayedAt state event)) := by
  obtain ⟨save, folder⟩ := state
  obtain ⟨hdirectory, hchild, hlength, hdigest, hhashed, hreceived, hwithin, hfile⟩ := h
  cases event with
  | start =>
    simp only [acceptedAt, strayedAt, List.append_nil]
    exact ⟨hdirectory, hchild, hlength, hdigest, hhashed, hreceived, hwithin, hfile⟩
  | others other =>
    simp only [acceptedAt, strayedAt, List.append_nil]
    exact ⟨hdirectory, hchild, hlength, hdigest, hhashed, hreceived, hwithin,
      (Function.update_self ..).trans hfile⟩
  | chunk bytes failed =>
    -- a chunk is refused, or its write fails, or it is accepted
    by_cases hover : bytes.length > save.length - save.received
    · have hnothing : strayedAt (save, folder) (.chunk bytes failed) = [] := by
        cases failed with
        | none => rfl
        | some written => exact if_pos hover
      simp only [Save.step, acceptedAt, FileSave.chunk_of_over hover, hnothing, List.append_nil]
      exact ⟨hdirectory, hchild, hlength, hdigest, hhashed, hreceived, hwithin, hfile⟩
    · cases failed with
      | some written =>
        simp only [Save.step, acceptedAt, strayedAt, FileSave.chunk_of_failed hover, if_neg hover,
          List.append_nil, List.nil_append, append_of_file hfile]
        exact ⟨hdirectory, hchild, hlength, hdigest, hhashed, hreceived, hwithin,
          Function.update_self ..⟩
      | none =>
        obtain ⟨progress, outstanding, hchunk⟩ := FileSave.chunk_of_written hover folder
        simp only [Save.step, acceptedAt, strayedAt, hchunk, List.append_nil, append_of_file hfile]
        refine ⟨hdirectory, hchild, hlength, hdigest, ?_, ?_, ?_, Function.update_self ..⟩
        · exact congrArg (· ++ bytes) hhashed
        · rw [List.length_append]
          exact congrArg (· + bytes.length) hreceived
        · simp only at hlength hreceived
          rw [List.length_append]
          omega

theorem Holds.run {begun : FileSave} {state : State} {taken inFile : List UInt8}
    (h : Holds begun state taken inFile) (events : List Event) :
    Holds begun (Save.run state events) (taken ++ accepted state events)
      (inFile ++ written state events) := by
  induction events generalizing state taken inFile with
  | nil =>
    rw [accepted, written, gathered, gathered, List.append_nil, List.append_nil]
    exact h
  | cons event events ih =>
    have hnext := ih (h.step event)
    rw [List.append_assoc, List.append_assoc] at hnext
    exact hnext

theorem length_written (state : State) (events : List Event) :
    (written state events).length =
      (accepted state events).length + (strayed state events).length := by
  induction events generalizing state with
  | nil => rfl
  | cons event events ih =>
    have hrest := ih (Save.step state event)
    simp only [written, accepted, strayed] at hrest
    simp only [written, accepted, strayed, gathered, List.length_append, hrest]
    omega

theorem written_eq_accepted_iff (state : State) (events : List Event) :
    written state events = accepted state events ↔ strayed state events = [] := by
  constructor
  · intro h
    have hlength := length_written state events
    rw [h] at hlength
    exact List.eq_nil_of_length_eq_zero (by omega)
  · intro h
    induction events generalizing state with
    | nil => rfl
    | cons event events ih =>
      obtain ⟨hfirst, hrest⟩ := List.append_eq_nil_iff.mp h
      have hsame := ih (Save.step state event) hrest
      simp only [written, accepted] at hsame
      simp only [written, accepted, gathered, hsame, hfirst, List.append_nil]

/-! ### Beginning and finishing -/

/-- A save that was begun has taken nothing, and its temporary file is empty. A refusal changes
nothing. -/
theorem begin_cases {folder after : Folder} {request length : ℕ} {directory name digest : String}
    {made : Bool} {temporary : Option String} {result : Except String FileSave}
    (h : FileSave.begin folder request directory name length digest made temporary =
      (result, after)) :
    (∃ message, result = .error message ∧ after = folder) ∨
      ∃ save, result = .ok save ∧ save.directory = directory ∧ save.length = length ∧
        save.digest = digest ∧ saveName name = some save.child ∧
        present (folder save.child.name) = false ∧ Holds save (save, after) [] [] := by
  rw [FileSave.begin] at h
  split at h
  · cases h
    exact .inl ⟨_, rfl, rfl⟩
  · next child hchild =>
    split at h
    · cases h
      exact .inl ⟨_, rfl, rfl⟩
    · next habsent =>
      split at h
      · cases h
        exact .inl ⟨_, rfl, rfl⟩
      · split at h
        · cases h
          exact .inl ⟨_, rfl, rfl⟩
        · cases h
          exact .inr ⟨_, rfl, rfl, rfl, rfl, hchild, Bool.eq_false_iff.mpr habsent,
            ⟨rfl, rfl, rfl, rfl, rfl, rfl, Nat.zero_le _, Function.update_self ..⟩⟩

/-- A save that is finished has the whole length and the digest, and gives a new file its name. -/
theorem finish_cases {sha : Sha256} {save : FileSave} {folder after : Folder}
    {synced persisted : Bool} {result : Except String String}
    (h : save.finish sha folder synced persisted = (result, after)) :
    (∃ message, result = .error message ∧ after = save.discard folder) ∨
      result = .ok save.destination ∧ save.received = save.length ∧
        (save.digest ≠ "" → String.ofList (hex (sha.digest save.hashed)) = save.digest) ∧
        folder save.child.name = none ∧ after save.child.name = folder save.temporary := by
  rw [FileSave.finish] at h
  split at h
  · cases h
    exact .inl ⟨_, rfl, rfl⟩
  · next hreceived =>
    -- all of the length has arrived
    split at h
    · cases h
      exact .inl ⟨_, rfl, rfl⟩
    · next hdigest =>
      split at h
      · cases h
        exact .inl ⟨_, rfl, rfl⟩
      · split at h
        · cases h
          exact .inl ⟨_, rfl, rfl⟩
        · next hpersisted =>
          cases h
          obtain ⟨hfree, -⟩ := not_or.mp hpersisted
          exact .inr ⟨rfl, not_not.mp hreceived, fun hsome => by_contra fun hother =>
            hdigest ⟨hsome, hother⟩, by simpa using hfree, Function.update_self ..⟩

theorem finish_of_verified {sha : Sha256} {save : FileSave} {folder : Folder}
    (hreceived : save.received = save.length)
    (hdigest : save.digest = String.ofList (hex (sha.digest save.hashed)))
    (hfree : folder save.child.name = none) (hfile : folder save.temporary ≠ none) :
    save.finish sha folder true true =
      (.ok save.destination,
        Function.update (save.discard folder) save.child.name (folder save.temporary)) := by
  have hnot : ¬((folder save.child.name).isSome ∨ (folder save.temporary).isNone ∨ !true) := by
    simp [hfree, hfile]
  rw [FileSave.finish, if_neg (not_not.mpr hreceived), if_neg fun h => h.2 hdigest.symm,
    if_neg (by decide), if_neg hnot]

/-- The digest is 64 hexadecimal digits. -/
def IsDigest (digest : String) : Prop :=
  digest.toList.length = 64 ∧ digest.toList.all isHexDigit = true

/-- **Saved downloads are verified.** A refused beginning leaves the directory as it was, and a
refused end leaves it as it was but for the temporary file, which is gone. A chunk that would exceed
the length changes nothing. And a save that ends well has accepted exactly what was offered, and has
made a new file in the chosen directory, with these bytes if and only if no failed write has left
any. -/
theorem saves_are_verified (sha : Sha256) :
    (∀ folder request directory name length digest made temporary message after,
      FileSave.begin folder request directory name length digest made temporary =
        (.error message, after) → after = folder) ∧
    (∀ (save : FileSave) folder synced persisted message after,
      save.finish sha folder synced persisted = (.error message, after) →
        after = Function.update folder save.temporary none) ∧
    (∀ (save : FileSave) folder bytes failed, bytes.length > save.length - save.received →
      save.chunk folder bytes failed =
        (.error "that host sent more than it offered", save, folder)) ∧
    ∀ folder request directory name length digest made temporary save begun,
      FileSave.begin folder request directory name length digest made temporary =
        (.ok save, begun) →
      IsDigest digest → ∀ events synced persisted path after,
        (run (save, begun) events).1.finish sha (run (save, begun) events).2 synced persisted =
          (.ok path, after) →
        (accepted (save, begun) events).length = length ∧
          String.ofList (hex (sha.digest (accepted (save, begun) events))) = digest ∧
          ∃ child contents, saveName name = some child ∧ path = join directory child ∧
            (run (save, begun) events).2 child.name = none ∧
            after child.name = some (.file contents) ∧
            (contents = accepted (save, begun) events ↔ strayed (save, begun) events = []) := by
  refine ⟨?_, ?_, ?_, ?_⟩
  · intro folder request directory name length digest made temporary message after h
    rcases begin_cases h with ⟨_, -, rfl⟩ | ⟨_, herror, -⟩
    · rfl
    · cases herror
  · intro save folder synced persisted message after h
    rcases finish_cases h with ⟨_, -, rfl⟩ | ⟨herror, -⟩
    · rfl
    · cases herror
  · exact fun save folder bytes failed h => FileSave.chunk_of_over h folder failed
  · intro folder request directory name length digest made temporary save begun hbegin hdigest
      events synced persisted path after hfinish
    rcases begin_cases hbegin with ⟨_, herror, -⟩ | ⟨_, hsave, hdir, hlen, hdig, hchild, -, hholds⟩
    · cases herror
    cases hsave
    have hrun := hholds.run events
    rw [List.nil_append, List.nil_append] at hrun
    rcases finish_cases hfinish with ⟨_, herror, -⟩ | ⟨hpath, hreceived, hsame, hfree, hafter⟩
    · cases herror
    -- a digest of 64 digits is checked
    have hsome : digest ≠ "" := by
      rintro rfl
      exact absurd hdigest.1 (by decide)
    rw [hrun.received, hrun.length, hlen] at hreceived
    rw [hrun.digest, hdig, hrun.hashed] at hsame
    rw [hrun.child] at hfree hafter
    rw [hrun.file] at hafter
    rw [FileSave.destination, hrun.directory, hrun.child, hdir] at hpath
    cases hpath
    exact ⟨hreceived, hsame hsome, save.child, _, hchild, rfl, hfree, hafter,
      written_eq_accepted_iff _ _⟩

theorem isDigest_hex (sha : Sha256) (content : List UInt8) :
    IsDigest (String.ofList (hex (sha.digest content))) := by
  rw [IsDigest, String.toList_ofList]
  exact ⟨sha.length_hex_digest content,
    List.all_eq_true.mpr (of_mem_hex isHexDigit (by decide))⟩

/-- A save of two bytes into an empty directory. -/
def ofTwo : Except String FileSave × Folder :=
  FileSave.begin (fun _ => none) 1 "/home/a" "../report.txt" 2
    (String.ofList (hex (sha256.digest [1, 2]))) true (some ".super-herdr-download-a1b2c3")

/-- Two bytes that are written at once are saved. -/
theorem two_bytes_are_saved :
    ∃ save begun after, ofTwo = (.ok save, begun) ∧
      (run (save, begun) [.start, .chunk [1, 2] none]).1.finish sha256
        (run (save, begun) [.start, .chunk [1, 2] none]).2 true true =
        (.ok "/home/a/report.txt", after) ∧
      ∃ child contents, saveName "../report.txt" = some child ∧
        after child.name = some (.file contents) ∧
        (contents = accepted (save, begun) [.start, .chunk [1, 2] none] ↔
          strayed (save, begun) [.start, .chunk [1, 2] none] = []) := by
  have hfinish : ∃ save begun after, ofTwo = (.ok save, begun) ∧
      (run (save, begun) [.start, .chunk [1, 2] none]).1.finish sha256
        (run (save, begun) [.start, .chunk [1, 2] none]).2 true true =
        (.ok "/home/a/report.txt", after) :=
    ⟨_, _, _, rfl, finish_of_verified rfl rfl rfl (by decide)⟩
  obtain ⟨save, begun, after, hbegin, hfinish⟩ := hfinish
  obtain ⟨-, -, child, contents, hchild, -, -, hafter, hsame⟩ :=
    (saves_are_verified sha256).2.2.2 _ _ _ _ _ _ _ _ save begun hbegin (isDigest_hex _ _) _ _ _ _ _
      hfinish
  exact ⟨save, begun, after, hbegin, hfinish, child, contents, hchild, hafter, hsame⟩

/-- A chunk of two bytes is cut short by its write, and sent again. -/
def sentAgain : List Event := [.chunk [1, 2] (some 1), .chunk [1, 2] none]

/-- A beginning that is refused leaves the file that was there, and a save whose chunk is sent again
when its write has failed ends well with a file that is not what was checked. -/
theorem a_failed_write_is_saved_with :
    (∃ message after,
      FileSave.begin (Function.update (fun _ => none) "report.txt" (some (.file [0]))) 1 "/home/a"
        "report.txt" 2 (String.ofList (hex (sha256.digest [1, 2]))) true none =
        (.error message, after) ∧ after "report.txt" = some (.file [0])) ∧
    ∃ save begun after, ofTwo = (.ok save, begun) ∧
      IsDigest (String.ofList (hex (sha256.digest [1, 2]))) ∧
      (run (save, begun) sentAgain).1.finish sha256 (run (save, begun) sentAgain).2 true true =
        (.ok "/home/a/report.txt", after) ∧
      accepted (save, begun) sentAgain = [1, 2] ∧ after "report.txt" = some (.file [1, 1, 2]) := by
  refine ⟨⟨_, _, rfl, rfl⟩, _, _, _, rfl, isDigest_hex _ _,
    finish_of_verified rfl rfl rfl (by decide), rfl, ?_⟩
  rfl

end Save

end SuperHerdr
