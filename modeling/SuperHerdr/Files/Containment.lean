import Mathlib.Data.List.DropRight
import SuperHerdr.Library.Patterns
import SuperHerdr.Library.Utf8
import SuperHerdr.Files.Listing

/-!
# Containment in a root

The script that lists a directory goes to the root, notes the root's physical path, goes on to the
directory it was asked for and compares that directory's physical path with the root's, as two
texts. What the links on the way have made of a relative path shows in the physical path.

A text that a command prints is held without the newlines at its end, and the root of the file
system is spelled as a separator alone. So the comparison is one of the names on the two paths, but
for the last name of each, which lacks its newlines, and for the root of the file system, which is
held as one name with nothing in it (`accepts_containmentPatterns_iff`). It agrees with the order of
the directories unless the root is that of the file system, below which nothing is found, or a name
ends in a newline (`containment_is_exact_iff`).
-/

namespace SuperHerdr

open Patterns

/-! ### The host's directories -/

inductive Node
  | directory
  | link (target : List UInt8)
  | other
deriving DecidableEq

/-- What a host has below the root of its file system, each by the names on the way to it. -/
structure FileSystem where
  node : List FileName → Option Node
  /-- What a directory has in it. -/
  contents : List FileName → Directory
  /-- Where a script begins. -/
  home : List FileName
  /-- How many links may be on the way. -/
  links : ℕ

/-- The name in a path. -/
def FileName.ofPart (part : List UInt8) : Option FileName :=
  if h : part ≠ [] ∧ 0 ∉ part ∧ 0x2f ∉ part then some ⟨part, h.1, h.2.1, h.2.2⟩ else none

/-- Where a path begins: at the root of the file system, or here. -/
def pathStart (here : List FileName) (path : List UInt8) : List FileName :=
  if path.head? = some 0x2f then [] else here

namespace FileSystem

/-- Go along a path to the first link that is on it. -/
def walkToLink (fs : FileSystem)
    (follow : List FileName → List (List UInt8) → Option (List FileName)) :
    List FileName → List (List UInt8) → Option (List FileName)
  | here, [] => some here
  | here, part :: parts =>
      if part = [] ∨ part = [0x2e] then fs.walkToLink follow here parts
      else if part = [0x2e, 0x2e] then fs.walkToLink follow here.dropLast parts
      else
        match FileName.ofPart part with
        | none => none
        | some name =>
            match fs.node (here ++ [name]) with
            | some .directory => fs.walkToLink follow (here ++ [name]) parts
            | some (.link target) =>
                follow (pathStart here target) (target.splitOn 0x2f ++ parts)
            | _ => none

/-- Go along a path, through so many links at most. -/
def walk (fs : FileSystem) : ℕ → List FileName → List (List UInt8) → Option (List FileName)
  | 0 => fs.walkToLink fun _ _ => none
  | links + 1 => fs.walkToLink (fs.walk links)

/-- `cd`: the directory it leads to, if it leads to one. -/
def cd (fs : FileSystem) (here : List FileName) (path : List UInt8) : Option (List FileName) :=
  fs.walk fs.links (pathStart here path) (path.splitOn 0x2f)

end FileSystem

/-! ### The script -/

/-- What `pwd -P` prints, less the newline at its end. -/
def physicalText (path : List FileName) : List UInt8 := 0x2f :: relativePath path

/-- A text that a command prints, as `$(...)` holds it. -/
def captured (text : List UInt8) : List UInt8 := text.rdropWhile (· = 0x0a)

/-- A line for each parameter. -/
def parameterLines (parameters : List String) : List UInt8 :=
  parameters.flatMap fun parameter => utf8 parameter ++ [0x0a]

/-- The two patterns that the directory's path may match. -/
def containmentPatterns (root : List UInt8) : List (List (Piece UInt8)) :=
  [literals root, literals root ++ [.literal 0x2f, .many]]

namespace FileSystem

/-- The second change of directory. -/
def descend (fs : FileSystem) (here : List FileName) (relative : List UInt8) :
    Option (List FileName) :=
  if relative = [] then some here else fs.cd here ([0x2e, 0x2f] ++ relative)

/-- `LIST_SCRIPT`: the directory it goes on to list, or its exit status. -/
def listScript (fs : FileSystem) (input : List UInt8) : Except ℕ (List FileName) :=
  let root := input.takeWhile (· ≠ 0x0a)
  let rest := (input.dropWhile (· ≠ 0x0a)).tail
  let relative := rest.takeWhile (· ≠ 0x0a)
  match fs.cd fs.home root with
  | none => .error 3
  | some top =>
      let rootReal := captured (physicalText top)
      match fs.descend top relative with
      | none => .error 4
      | some here =>
          let text := captured (physicalText here)
          if (containmentPatterns rootReal).any fun pattern => accepts pattern text then .ok here
          else .error 5

/-- A host whose directories are listed by the script. -/
def host (fs : FileSystem) (other : FileHost) : FileHost :=
  { other with
    directory := fun root relative =>
      match fs.listScript (parameterLines [root, relative]) with
      | .ok here => some (fs.contents here)
      | .error _ => none }

end FileSystem

/-- What `Config::validate` asks of a root. -/
def validRoot (root : String) : Bool :=
  root.toList.head? = some '/' && !root.toList.any isControl &&
    !(root.toList.splitOn '/').any fun part => part = ['.', '.']

/-! ### Paths as they are held -/

/-- The names of a path as the script holds it: the last one lacks the newlines at its end, and the
root of the file system has one name with nothing in it. -/
def heldNames : List FileName → List (List UInt8)
  | [] => [[]]
  | [name] => [captured name.bytes]
  | name :: next :: path => name.bytes :: heldNames (next :: path)

/-- Names with a separator ahead of each. -/
def spelledNames (names : List (List UInt8)) : List UInt8 := names.flatMap fun name => 0x2f :: name

theorem captured_append_slash (text rest : List UInt8) :
    captured (text ++ 0x2f :: rest) = text ++ 0x2f :: captured rest := by
  rw [captured, captured, List.rdropWhile, List.rdropWhile, List.reverse_append, List.reverse_cons,
    List.append_assoc, List.dropWhile_append]
  split
  · next hempty =>
    rw [List.isEmpty_iff] at hempty
    rw [hempty, List.singleton_append, List.dropWhile_cons_of_neg (by decide)]
    simp
  · simp

theorem spelledNames_cons (name : List UInt8) (names : List (List UInt8)) :
    spelledNames (name :: names) = 0x2f :: (name ++ spelledNames names) := rfl

theorem spelledNames_append (names more : List (List UInt8)) :
    spelledNames (names ++ more) = spelledNames names ++ spelledNames more := List.flatMap_append

theorem heldNames_cons (name : FileName) {path : List FileName} (h : path ≠ []) :
    heldNames (name :: path) = name.bytes :: heldNames path := by
  cases path with
  | nil => exact absurd rfl h
  | cons next path => rfl

theorem captured_physicalText (path : List FileName) :
    captured (physicalText path) = spelledNames (heldNames path) := by
  induction path with
  | nil => decide
  | cons name path ih =>
    cases path with
    | nil =>
      have hone : physicalText [name] = [] ++ 0x2f :: name.bytes := by
        simp [physicalText, relativePath, List.intercalate]
      rw [hone, captured_append_slash, heldNames, spelledNames_cons]
      simp [spelledNames]
    | cons next path =>
      have hcons : physicalText (name :: next :: path) =
          (0x2f :: name.bytes) ++ 0x2f :: relativePath (next :: path) := by
        simp [physicalText, relativePath, List.intercalate_cons_cons]
      have hnext : captured (physicalText (next :: path)) =
          0x2f :: captured (relativePath (next :: path)) := captured_append_slash [] _
      rw [hcons, captured_append_slash, ← hnext, ih, heldNames, spelledNames_cons, List.cons_append]

theorem noSlash_heldNames (path : List FileName) : ∀ name ∈ heldNames path, 0x2f ∉ name := by
  induction path with
  | nil => simp [heldNames]
  | cons name path ih =>
    cases path with
    | nil =>
      intro one hone hslash
      rw [List.mem_singleton.mp hone] at hslash
      exact name.noSlash ((List.rdropWhile_prefix _ _).subset hslash)
    | cons next path => exact List.forall_mem_cons.mpr ⟨name.noSlash, ih⟩

theorem intercalate_cons (name : List UInt8) (names : List (List UInt8)) :
    [0x2f].intercalate (name :: names) = name ++ spelledNames names := by
  induction names generalizing name with
  | nil => simp [List.intercalate, spelledNames]
  | cons next names ih =>
    rw [List.intercalate_cons_cons, ih, spelledNames_cons, List.append_assoc, List.singleton_append]

theorem splitOn_spelledNames {names : List (List UInt8)} (h : ∀ name ∈ names, 0x2f ∉ name) :
    (spelledNames names).splitOn 0x2f = [] :: names := by
  have hspelled := intercalate_cons [] names
  rw [List.nil_append] at hspelled
  rw [← hspelled]
  exact List.splitOn_intercalate 0x2f (List.forall_mem_cons.mpr ⟨List.not_mem_nil, h⟩)
    (List.cons_ne_nil _ _)

/-- A spelling begins with another, up to a separator or the end, if the names do. -/
theorem spelledNames_prefix_iff {names more : List (List UInt8)}
    (hnames : ∀ name ∈ names, 0x2f ∉ name)
    (hmore : ∀ name ∈ more, 0x2f ∉ name) :
    spelledNames more = spelledNames names ∨
        spelledNames names ++ [0x2f] <+: spelledNames more ↔ names <+: more := by
  constructor
  · rintro (heq | ⟨rest, heq⟩)
    · -- a separator is in none of the names, so the same text has the same names
      have hsplit := congrArg (List.splitOn 0x2f) heq
      rw [splitOn_spelledNames hnames, splitOn_spelledNames hmore] at hsplit
      rw [(List.cons.inj hsplit).2]
    · rw [List.append_assoc, List.singleton_append] at heq
      have hsplit := congrArg (List.splitOn 0x2f) heq
      rw [List.splitOn_append_cons_self, splitOn_spelledNames hnames, splitOn_spelledNames hmore,
        List.cons_append] at hsplit
      exact ⟨_, (List.cons.inj hsplit).2⟩
  · rintro ⟨rest, rfl⟩
    rw [spelledNames_append]
    cases rest with
    | nil => exact .inl (List.append_nil _)
    | cons name rest =>
      refine .inr ⟨name ++ spelledNames rest, ?_⟩
      rw [spelledNames_cons, List.append_assoc, List.singleton_append]

theorem accepts_containmentPatterns_iff (top here : List FileName) :
    ((containmentPatterns (captured (physicalText top))).any fun pattern =>
        accepts pattern (captured (physicalText here))) = true ↔
      heldNames top <+: heldNames here := by
  have hbelow (root : List UInt8) :
      literals root ++ [.literal 0x2f, .many] = literals (root ++ [0x2f]) ++ [.many] := by
    simp [literals]
  rw [captured_physicalText, captured_physicalText,
    ← spelledNames_prefix_iff (noSlash_heldNames top) (noSlash_heldNames here)]
  simp only [containmentPatterns, List.any_cons, List.any_nil, Bool.or_false, Bool.or_eq_true,
    hbelow, accepts_prefix_iff, accepts_self_iff]

/-! ### What the script does -/

theorem newline_notMem_utf8 {text : String} (h : text.toList.any isControl = false) :
    0x0a ∉ utf8 text := by
  rw [utf8, ← Utf8.encode_toList, ← show UInt8.ofNat '\n'.toNat = 0x0a from rfl,
    Utf8.mem_encode_iff (by decide)]
  intro hmem
  exact absurd (List.any_eq_false.mp h _ hmem) (by decide)

theorem takeWhile_line {line : List UInt8} (rest : List UInt8) (h : 0x0a ∉ line) :
    (line ++ 0x0a :: rest).takeWhile (· ≠ 0x0a) = line ∧
      (line ++ 0x0a :: rest).dropWhile (· ≠ 0x0a) = 0x0a :: rest := by
  have hline : ∀ b ∈ line, decide (b ≠ 0x0a) = true := fun b hb =>
    decide_eq_true fun hsame => h (hsame ▸ hb)
  rw [List.takeWhile_append_of_pos hline, List.dropWhile_append_of_pos hline]
  simp

/-- The script lists a directory if the root's path, as it is held, is the beginning of its own. -/
theorem FileSystem.listScript_eq (fs : FileSystem) {root relative : String}
    (hroot : root.toList.any isControl = false) (hrelative : relative.toList.any isControl = false)
    {top here : List FileName} (htop : fs.cd fs.home (utf8 root) = some top)
    (hhere : fs.descend top (utf8 relative) = some here) :
    fs.listScript (parameterLines [root, relative]) =
      if heldNames top <+: heldNames here then .ok here else .error 5 := by
  obtain ⟨hfirst, hrest⟩ := takeWhile_line (utf8 relative ++ 0x0a :: [])
    (newline_notMem_utf8 hroot)
  obtain ⟨hsecond, -⟩ := takeWhile_line [] (newline_notMem_utf8 hrelative)
  -- neither text has a newline, so that each is read as the line it was written as
  have hlines : parameterLines [root, relative] =
      utf8 root ++ 0x0a :: (utf8 relative ++ 0x0a :: []) := by
    simp [parameterLines]
  rw [listScript, hlines]
  simp only [hfirst, hrest, List.tail_cons, hsecond, htop, hhere, accepts_containmentPatterns_iff]

theorem printable_of_checkedRelative {relative checked : String}
    (h : checkedRelative relative = .ok checked) : checked.toList.any isControl = false := by
  rw [checkedRelative] at h
  split at h
  · cases h
  · next hplain =>
    split at h
    · cases h
    · cases h
      simpa using (not_or.mp hplain).2

/-- What the client is answered then. -/
theorem list_host (fs : FileSystem) (other : FileHost) {roots : List String}
    {root relative checked : String} (hdeclared : root ∈ roots)
    (hroot : root.toList.any isControl = false) (hrelative : checkedRelative relative = .ok checked)
    {top here : List FileName} (htop : fs.cd fs.home (utf8 root) = some top)
    (hhere : fs.descend top (utf8 checked) = some here) :
    list (fs.host other) roots root relative =
      if heldNames top <+: heldNames here then .ok ((fs.contents here).listing root checked)
      else .error "could not list a directory on that target" := by
  have hpermitted : permittedRoot roots root = .ok root := by
    have hfound : (roots.find? fun declared => declared = root).isSome :=
      List.find?_isSome.mpr ⟨root, hdeclared, decide_eq_true rfl⟩
    rw [permittedRoot]
    obtain ⟨declared, hdeclared⟩ := Option.isSome_iff_exists.mp hfound
    have hsame : declared = root := by simpa using List.find?_some hdeclared
    rw [hdeclared, hsame]
  have hscript := fs.listScript_eq hroot (printable_of_checkedRelative hrelative) htop hhere
  rw [list]
  simp only [hpermitted, hrelative, bind, Except.bind, FileSystem.host, hscript]
  by_cases hbelow : heldNames top <+: heldNames here
  · simp only [if_pos hbelow]
  · simp only [if_neg hbelow]

/-! ### Which directories are told apart -/

def EndsInNewline (path : List FileName) : Prop :=
  ∃ name ∈ path.getLast?, name.bytes.getLast? = some 0x0a

/-- A directory at or below the root is the root, or is below one that is not the file system's and
whose name does not end in a newline, or below the file system's under a name of newlines; and one
that is elsewhere is not taken for one below the root because of the newlines at the ends of their
paths. -/
def Discerned (top here : List FileName) : Prop :=
  if top <+: here then
    here = top ∨ (top ≠ [] ∧ ¬EndsInNewline top) ∨ (top = [] ∧ heldNames here = [[]])
  else ¬heldNames top <+: heldNames here

theorem captured_eq_self_iff {name : List UInt8} :
    captured name = name ↔ name.getLast? ≠ some 0x0a := by
  rw [captured, List.rdropWhile_eq_self_iff]
  constructor
  · intro h hlast
    obtain ⟨front, rfl⟩ := List.getLast?_eq_some_iff.mp hlast
    exact h (by simp) (by simp)
  · intro h hsome hnewline
    rw [decide_eq_true_eq] at hnewline
    exact h (hnewline ▸ List.getLast?_eq_some_getLast hsome)

theorem heldNames_concat (front : List FileName) (name : FileName) :
    heldNames (front ++ [name]) = front.map FileName.bytes ++ [captured name.bytes] := by
  induction front with
  | nil => rfl
  | cons first front ih =>
    rw [List.cons_append, heldNames_cons first (by simp), ih, List.map_cons, List.cons_append]

theorem heldNames_append {more : List FileName} (h : more ≠ []) (path : List FileName) :
    heldNames (path ++ more) = path.map FileName.bytes ++ heldNames more := by
  induction path with
  | nil => rfl
  | cons name path ih =>
    rw [List.cons_append, heldNames_cons name (by simp [h]), ih, List.map_cons, List.cons_append]

/-- What is below a root is held as below it if the root is held as it is, or if it is the root of
the file system and a single name of newlines is below it. -/
theorem heldNames_prefix_append_iff (top : List FileName) {more : List FileName} (h : more ≠ []) :
    heldNames top <+: heldNames (top ++ more) ↔
      (top ≠ [] ∧ ¬EndsInNewline top) ∨ (top = [] ∧ heldNames (top ++ more) = [[]]) := by
  rcases List.eq_nil_or_concat' top with rfl | ⟨front, last, rfl⟩
  · obtain ⟨name, more, rfl⟩ := List.exists_cons_of_ne_nil h
    cases more with
    | nil => simp [heldNames]
    | cons next more => simp [heldNames, name.nonempty, Ne.symm name.nonempty]
  · have hends : EndsInNewline (front ++ [last]) ↔ last.bytes.getLast? = some 0x0a := by
      simp [EndsInNewline]
    rw [heldNames_concat, heldNames_append h, List.map_append, List.append_assoc,
      List.prefix_append_right_inj, List.map_singleton, List.singleton_append,
      List.cons_prefix_cons, captured_eq_self_iff, hends]
    simp

/-- **The containment check.** After both changes of directory the script lists the directory
exactly if it is at or below the root, if and only if the texts of the two paths discern them. -/
theorem containment_is_exact_iff (fs : FileSystem) {root relative checked : String}
    (hroot : validRoot root = true) (hrelative : checkedRelative relative = .ok checked)
    {top here : List FileName} (htop : fs.cd fs.home (utf8 root) = some top)
    (hhere : fs.descend top (utf8 checked) = some here) :
    (fs.listScript (parameterLines [root, checked]) = .ok here ↔ top <+: here) ↔
      Discerned top here := by
  have hplain : root.toList.any isControl = false := by
    simp only [validRoot, Bool.and_eq_true, Bool.not_eq_true'] at hroot
    exact hroot.1.2
  rw [fs.listScript_eq hplain (printable_of_checkedRelative hrelative) htop hhere]
  have hlisted :
      (if heldNames top <+: heldNames here then Except.ok here else Except.error 5) = .ok here ↔
      heldNames top <+: heldNames here := by
    split <;> simp [*]
  rw [hlisted, Discerned]
  split
  · next hbelow =>
    obtain ⟨more, rfl⟩ := hbelow
    rw [iff_true_right (List.prefix_append top more)]
    by_cases hmore : more = []
    · simp [hmore]
    · rw [heldNames_prefix_append_iff top hmore]
      simp [hmore]
  · next hbelow => rw [iff_false_right hbelow]

/-- A host where directories are nested once. -/
def nestedOnce : FileSystem where
  node path := if path.length ≤ 2 then some .directory else none
  contents _ := ⟨[], List.nodup_nil⟩
  home := []
  links := 40

/-- `etc`. -/
def ETC : FileName := ⟨[0x65, 0x74, 0x63], by decide, by decide, by decide⟩

/-- `ssh`. -/
def SSH : FileName := ⟨[0x73, 0x73, 0x68], by decide, by decide, by decide⟩

/-- A directory below a root of its own is listed. -/
theorem a_directory_below_is_listed :
    nestedOnce.listScript (parameterLines ["/etc", "ssh"]) = .ok [ETC, SSH] ↔
      [ETC] <+: [ETC, SSH] := by
  have hrelative : checkedRelative "ssh" = .ok "ssh" := by decide +kernel
  have hnewline : ¬EndsInNewline [ETC] := by simp [EndsInNewline, ETC]
  have hdiscerned : Discerned [ETC] [ETC, SSH] := by
    rw [Discerned, if_pos ⟨[SSH], rfl⟩]
    exact .inr (.inl ⟨List.cons_ne_nil _ _, hnewline⟩)
  exact (containment_is_exact_iff nestedOnce (by decide +kernel) hrelative (by decide +kernel)
    (by decide +kernel)).mpr hdiscerned

theorem list_host_below :
    list (nestedOnce.host ⟨fun _ _ => none, fun _ => none, fun _ _ => false⟩) ["/etc"] "/etc" "ssh" =
      .ok (Directory.listing ⟨[], List.nodup_nil⟩ "/etc" "ssh") := by
  have hlist := list_host nestedOnce ⟨fun _ _ => none, fun _ => none, fun _ _ => false⟩
    (by decide : "/etc" ∈ ["/etc"]) (by decide +kernel : "/etc".toList.any isControl = false)
    (by decide +kernel : checkedRelative "ssh" = .ok "ssh")
    (by decide +kernel : nestedOnce.cd nestedOnce.home (utf8 "/etc") = some [ETC])
    (by decide +kernel : nestedOnce.descend [ETC] (utf8 "ssh") = some [ETC, SSH])
  rw [hlist, if_pos (by decide +kernel)]
  rfl

/-- The root of the file system is a root, and what is below it is not listed. -/
theorem nothing_below_the_root_of_the_file_system :
    validRoot "/" = true ∧ checkedRelative "etc" = .ok "etc" ∧
      nestedOnce.cd nestedOnce.home (utf8 "/") = some [] ∧
      nestedOnce.descend [] (utf8 "etc") = some [ETC] ∧ [] <+: [ETC] ∧
      nestedOnce.listScript (parameterLines ["/", "etc"]) = .error 5 := by
  decide +kernel

end SuperHerdr
