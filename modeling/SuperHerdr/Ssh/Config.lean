import Mathlib
import SuperHerdr.Library.Texts

/-!
# The hosts of an SSH configuration

A configuration is read line by line. A `Host` line starts a block of its aliases, and what is given in
the block is shown of each of them; what is read is, line for line, what the lines say
(`parseInto_eq_entries`).

An alias is shown with what was given last in its block, and once for every time it is listed. SSH uses
what was given first in any block that lists it. So a preview says where a connection goes if and only
if no alias is listed twice and no block that lists one contradicts itself (`previews_iff`).
-/

namespace SuperHerdr

namespace SshConfig

open Texts

structure SshHost where
  hostAlias : List Char
  hostname : Option (List Char)
  user : Option (List Char)
  port : Option UInt16
deriving DecidableEq

/-- What is found: a host, or the value of an `Include` line. -/
inductive Found
  | host (host : SshHost)
  | included (pattern : List Char)
deriving DecidableEq

def Found.host? : Found → Option SshHost
  | .host named => some named
  | .included _ => none

def Found.onHost (f : SshHost → SshHost) : Found → Found
  | .host named => .host (f named)
  | .included pattern => .included pattern

/-! ### Lines -/

structure Directive where
  keyword : List Char
  value : List Char
deriving DecidableEq

def isSeparator (c : Char) : Bool := c = ' ' || c = '\t' || c = '='

/-- What a line says, unless it is blank or a comment. -/
def directive (line : List Char) : Option Directive :=
  let line := trim line
  if line = [] ∨ line.head? = some '#' then none
  else if line.any isSeparator then
    some ⟨(line.takeWhile (!isSeparator ·)).map Char.toLower,
      trim ((trim (line.dropWhile (!isSeparator ·)).tail).dropWhile (· = '='))⟩
  else some ⟨line.map Char.toLower, []⟩

def directives (text : List Char) : List Directive := (lines text).filterMap directive

def Directive.isOption (line : Directive) : Bool :=
  line.keyword = "hostname".toList || line.keyword = "user".toList || line.keyword = "port".toList

/-- A name somebody can be offered: a pattern names whatever matches, and a negation what does not. -/
def isLiteral (word : List Char) : Bool :=
  !(word.any fun c => c = '*' || c = '?') && word.head? ≠ some '!'

/-! ### Reading a configuration -/

def SshHost.bare (word : List Char) : SshHost := ⟨word, none, none, none⟩

/-- What a line gives a host. -/
def SshHost.given (self : SshHost) (line : Directive) : SshHost :=
  if line.keyword = "hostname".toList then { self with hostname := some line.value }
  else if line.keyword = "user".toList then { self with user := some line.value }
  else if line.keyword = "port".toList then { self with port := parseU16 line.value }
  else self

/-- What was found so far, and the places of the hosts that the last `Host` line named. -/
structure Parsing where
  found : List Found
  current : List ℕ

namespace Parsing

/-- One word of a `Host` line. -/
def name (self : Parsing) (word : List Char) : Parsing :=
  if isLiteral word then ⟨self.found ++ [.host (.bare word)], self.current ++ [self.found.length]⟩
  else self

def read (self : Parsing) (line : Directive) : Parsing :=
  if line.keyword = "host".toList then
    (splitWhitespace line.value).foldl name { self with current := [] }
  else if line.keyword = "match".toList then { self with current := [] }
  else if line.keyword = "include".toList then
    { self with found := self.found ++ [.included line.value] }
  else if line.isOption then
    ⟨self.current.foldl (fun found index => found.modify index (Found.onHost (·.given line)))
      self.found, self.current⟩
  else self

end Parsing

def parseInto (text : List Char) : List Found :=
  ((directives text).foldl Parsing.read ⟨[], []⟩).found

/-! ### What the lines say -/

/-- A line that ends no block. -/
def Directive.continues (line : Directive) : Bool :=
  line.keyword ≠ "host".toList && line.keyword ≠ "match".toList

/-- What a block gives a host. -/
def SshHost.described (self : SshHost) (options : List Directive) : SshHost :=
  options.foldl SshHost.given self

def offered (words : List (List Char)) : List (List Char) := words.filter isLiteral

/-- What is found, line for line. -/
def entries : List Directive → List Found
  | [] => []
  | line :: rest =>
      if line.keyword = "host".toList then
        (offered (splitWhitespace line.value)).map (fun word =>
          .host ((SshHost.bare word).described (rest.takeWhile Directive.continues))) ++ entries rest
      else if line.keyword = "include".toList then .included line.value :: entries rest
      else entries rest

/-- A `Host` line, and the lines of its block. -/
structure Block where
  words : List (List Char)
  options : List Directive

def blocks : List Directive → List Block
  | [] => []
  | line :: rest =>
      if line.keyword = "host".toList then
        ⟨splitWhitespace line.value, rest.takeWhile Directive.continues⟩ :: blocks rest
      else blocks rest

/-! ### Changes at several places -/

section ModifyAll

variable {α : Type*}

/-- Change what stands at some places. -/
def modifyAll (places : List ℕ) (f : α → α) (found : List α) : List α :=
  places.foldl (fun found index => found.modify index f) found

variable {places : List ℕ}

theorem getElem?_modifyAll (hnodup : places.Nodup) (f : α → α) (found : List α)
    (i : ℕ) : (modifyAll places f found)[i]? = if i ∈ places then found[i]?.map f else found[i]? := by
  induction places generalizing found with
  | nil => simp [modifyAll]
  | cons place places ih =>
    rw [List.nodup_cons] at hnodup
    rw [modifyAll, List.foldl_cons, ← modifyAll, ih hnodup.2, List.getElem?_modify]
    by_cases hplace : place = i
    · subst hplace
      simp [hnodup.1]
    · simp [hplace, Ne.symm hplace]

theorem length_modifyAll (places : List ℕ) (f : α → α) (found : List α) :
    (modifyAll places f found).length = found.length := by
  induction places generalizing found with
  | nil => rfl
  | cons place places ih =>
    rw [modifyAll, List.foldl_cons, ← modifyAll, ih, List.length_modify]

theorem modifyAll_modifyAll (hnodup : places.Nodup) (f g : α → α) (found : List α) :
    modifyAll places g (modifyAll places f found) = modifyAll places (g ∘ f) found := by
  refine List.ext_getElem? fun i => ?_
  rw [getElem?_modifyAll hnodup, getElem?_modifyAll hnodup, getElem?_modifyAll hnodup]
  split
  · rw [Option.map_map]
  · rfl

theorem modifyAll_id (hnodup : places.Nodup) (found : List α) :
    modifyAll places id found = found := by
  refine List.ext_getElem? fun i => ?_
  rw [getElem?_modifyAll hnodup]
  split
  · rw [Option.map_id, id]
  · rfl

theorem modifyAll_append (hnodup : places.Nodup) (f : α → α) {found : List α}
    (hplaces : ∀ i ∈ places, i < found.length) (later : List α) :
    modifyAll places f (found ++ later) = modifyAll places f found ++ later := by
  refine List.ext_getElem? fun i => ?_
  rw [getElem?_modifyAll hnodup]
  by_cases hlt : i < found.length
  · rw [List.getElem?_append_left hlt, List.getElem?_append_left (by rwa [length_modifyAll]),
      getElem?_modifyAll hnodup]
  · have hout : i ∉ places := fun hmem => hlt (hplaces i hmem)
    rw [if_neg hout, List.getElem?_append_right (by omega),
      List.getElem?_append_right (by rw [length_modifyAll]; omega), length_modifyAll]

/-- A change at the last places. -/
theorem modifyAll_range' (f : α → α) (found later : List α) :
    modifyAll (List.range' found.length later.length) f (found ++ later) = found ++ later.map f := by
  refine List.ext_getElem? fun i => ?_
  rw [getElem?_modifyAll List.nodup_range']
  by_cases hlt : i < found.length
  · have hout : i ∉ List.range' found.length later.length := by
      rw [List.mem_range'_1]
      omega
    rw [if_neg hout, List.getElem?_append_left hlt, List.getElem?_append_left hlt]
  · rw [List.getElem?_append_right (by omega), List.getElem?_append_right (by omega),
      List.getElem?_map]
    split
    · rfl
    · next hout =>
      have hnone : later.length ≤ i - found.length := by
        rw [List.mem_range'_1] at hout
        omega
      rw [List.getElem?_eq_none hnone]
      rfl

end ModifyAll

/-! ### What is read is what the lines say -/

/-- The places of the last hosts are places, each of them once. -/
structure Parsing.Placed (state : Parsing) : Prop where
  nodup : state.current.Nodup
  lt : ∀ index ∈ state.current, index < state.found.length

/-- **What a `Host` line finds**: its literal words, at the end. -/
theorem foldl_name (words : List (List Char)) (found : List Found) (current : List ℕ) :
    words.foldl Parsing.name ⟨found, current⟩ =
      ⟨found ++ (offered words).map fun word => .host (.bare word),
        current ++ List.range' found.length (offered words).length⟩ := by
  induction words generalizing found current with
  | nil => simp [offered]
  | cons word words ih =>
    rw [List.foldl_cons, Parsing.name]
    split
    · next hliteral =>
      have hwords : offered (word :: words) = word :: offered words :=
        List.filter_cons_of_pos hliteral
      rw [ih, hwords]
      simp [List.range'_succ]
    · next hpattern =>
      have hwords : offered (word :: words) = offered words := List.filter_cons_of_neg hpattern
      rw [ih, hwords]

theorem onHost_described (line : Directive) (options : List Directive) :
    Found.onHost (·.described options) ∘ Found.onHost (·.given line) =
      Found.onHost (·.described (line :: options)) := by
  funext found
  cases found <;> rfl

theorem onHost_given_of_not {line : Directive} (h : ¬line.isOption = true) :
    Found.onHost (·.given line) = id := by
  simp only [Directive.isOption, Bool.or_eq_true, decide_eq_true_iff, not_or] at h
  funext found
  cases found with
  | host named => rw [Found.onHost, SshHost.given, if_neg h.1.1, if_neg h.1.2, if_neg h.2, id]
  | included pattern => rfl

theorem continues_iff {line : Directive} :
    line.continues = true ↔ line.keyword ≠ "host".toList ∧ line.keyword ≠ "match".toList := by
  rw [Directive.continues, Bool.and_eq_true, decide_eq_true_iff, decide_eq_true_iff]

theorem onHost_described_nil : Found.onHost (·.described []) = id := by
  funext found
  cases found <;> rfl

/-- **What is read behind a state**: what the rest of the block gives its hosts, and what the lines
say. The induction is on the lines, over all states that a run may be in. -/
theorem foldl_read (lines : List Directive) {state : Parsing} (h : state.Placed) :
    (lines.foldl Parsing.read state).found =
      modifyAll state.current (Found.onHost (·.described (lines.takeWhile Directive.continues)))
        state.found ++ entries lines := by
  induction lines generalizing state with
  | nil =>
    rw [List.takeWhile_nil, onHost_described_nil, modifyAll_id h.nodup, entries, List.append_nil]
    rfl
  | cons line lines ih =>
    rw [List.foldl_cons, Parsing.read, entries]
    by_cases hhost : line.keyword = "host".toList
    · -- the block before ends, and the new hosts stand behind all that was found
      have hends : ¬line.continues = true := fun h => (continues_iff.mp h).1 hhost
      have hlength : (offered (splitWhitespace line.value)).length =
          ((offered (splitWhitespace line.value)).map fun word =>
            Found.host (.bare word)).length := by rw [List.length_map]
      rw [if_pos hhost, if_pos hhost, foldl_name, List.nil_append, ih, List.takeWhile_cons_of_neg hends,
        onHost_described_nil, modifyAll_id h.nodup]
      · dsimp only
        rw [hlength, modifyAll_range', List.map_map, List.append_assoc]
        rfl
      · refine ⟨List.nodup_range', fun index hindex => ?_⟩
        rw [List.mem_range'_1] at hindex
        rw [List.length_append, List.length_map]
        exact hindex.2
    rw [if_neg hhost, if_neg hhost]
    by_cases hmatch : line.keyword = "match".toList
    · have hends : ¬line.continues = true := fun h => (continues_iff.mp h).2 hmatch
      have hinclude : line.keyword ≠ "include".toList := by
        rw [hmatch]
        decide
      rw [if_pos hmatch, if_neg hinclude, ih ⟨List.nodup_nil, fun index hindex => by cases hindex⟩,
        List.takeWhile_cons_of_neg hends, onHost_described_nil, modifyAll_id h.nodup]
      rfl
    have hcontinues : line.continues = true := continues_iff.mpr ⟨hhost, hmatch⟩
    rw [if_neg hmatch, List.takeWhile_cons_of_pos hcontinues]
    by_cases hinclude : line.keyword = "include".toList
    · have hnone : ¬line.isOption = true := by
        rw [Directive.isOption, hinclude]
        decide
      rw [if_pos hinclude, if_pos hinclude, ih, modifyAll_append h.nodup _ h.lt, List.append_assoc,
        ← onHost_described, onHost_given_of_not hnone, Function.comp_id]
      · rfl
      · refine ⟨h.nodup, fun index hindex => ?_⟩
        rw [List.length_append]
        exact Nat.lt_add_right _ (h.lt index hindex)
    rw [if_neg hinclude, if_neg hinclude]
    by_cases hoption : line.isOption = true
    · rw [if_pos hoption, ← modifyAll, ih, modifyAll_modifyAll h.nodup, onHost_described]
      refine ⟨h.nodup, fun index hindex => ?_⟩
      rw [length_modifyAll]
      exact h.lt index hindex
    · rw [if_neg hoption, ih h, ← onHost_described, onHost_given_of_not hoption, Function.comp_id]

theorem parseInto_eq_entries (text : List Char) : parseInto text = entries (directives text) := by
  rw [parseInto, foldl_read _ ⟨List.nodup_nil, fun index h => by cases h⟩]
  rfl

/-! ### What is shown of an alias -/

namespace Block

/-- The names of the block that somebody can be offered. -/
def aliases (self : Block) : List (List Char) := offered self.words

/-- What the block gives for a keyword, in order. -/
def given (self : Block) (keyword : String) : List (List Char) :=
  (self.options.filter fun line => line.keyword = keyword.toList).map Directive.value

/-- What is shown of a name of the block: what was given last. -/
def shown (self : Block) (word : List Char) : SshHost :=
  ⟨word, (self.given "hostname").getLast?, (self.given "user").getLast?,
    (self.given "port").getLast?.bind parseU16⟩

theorem given_concat (words : List (List Char)) (options : List Directive) (line : Directive)
    (keyword : String) : given ⟨words, options ++ [line]⟩ keyword =
      given ⟨words, options⟩ keyword ++
        if line.keyword = keyword.toList then [line.value] else [] := by
  rw [given, given, List.filter_append, List.map_append]
  split
  · next h => simp [h]
  · next h => simp [h]

/-- **What a block gives a host** is what it gives last. -/
theorem described_options (self : Block) (word : List Char) :
    (SshHost.bare word).described self.options = self.shown word := by
  obtain ⟨words, options⟩ := self
  induction options using List.reverseRecOn with
  | nil => rfl
  | append_singleton options line ih =>
    rw [SshHost.described] at ih
    rw [SshHost.described, List.foldl_append, List.foldl_cons, List.foldl_nil, ih, SshHost.given, shown,
      shown, given_concat, given_concat, given_concat]
    by_cases hhostname : line.keyword = "hostname".toList
    · simp [hhostname]
    by_cases huser : line.keyword = "user".toList
    · simp [huser]
    by_cases hport : line.keyword = "port".toList
    · simp [hport]
    rw [if_neg hhostname, if_neg huser, if_neg hport, if_neg hhostname, if_neg huser, if_neg hport,
      List.append_nil, List.append_nil, List.append_nil]

end Block

def hosts (text : List Char) : List SshHost := (parseInto text).filterMap Found.host?

/-- **The hosts that are found** are those of the blocks, each with what its block shows of it. -/
theorem hosts_eq (text : List Char) :
    hosts text = (blocks (directives text)).flatMap fun block => block.aliases.map block.shown := by
  rw [hosts, parseInto_eq_entries]
  induction directives text with
  | nil => rfl
  | cons line lines ih =>
    rw [entries, blocks]
    by_cases hhost : line.keyword = "host".toList
    · have hshown : ((offered (splitWhitespace line.value)).map fun word =>
          Found.host ((SshHost.bare word).described (lines.takeWhile Directive.continues))).filterMap
            Found.host? = (Block.aliases ⟨splitWhitespace line.value,
              lines.takeWhile Directive.continues⟩).map (Block.shown ⟨splitWhitespace line.value,
                lines.takeWhile Directive.continues⟩) := by
        rw [List.filterMap_map, Block.aliases, ← List.filterMap_eq_map]
        refine List.filterMap_congr fun word _ => ?_
        exact congrArg some (Block.described_options ⟨_, _⟩ word)
      rw [if_pos hhost, if_pos hhost, List.filterMap_append, hshown, ih, List.flatMap_cons]
    · rw [if_neg hhost, if_neg hhost]
      split
      · exact ih
      · exact ih

theorem map_hostAlias_hosts (text : List Char) :
    (hosts text).map SshHost.hostAlias = (blocks (directives text)).flatMap Block.aliases := by
  rw [hosts_eq, List.map_flatMap]
  refine List.flatMap_congr fun block _ => ?_
  rw [List.map_map]
  exact List.map_id _

variable {text : List Char}

theorem mem_hosts {host : SshHost} : host ∈ hosts text ↔
      ∃ block ∈ blocks (directives text), ∃ word ∈ block.aliases, block.shown word = host := by
  simp [hosts_eq]

/-! ### What SSH uses -/

/-- What is given first for a keyword in any block that lists a name. -/
def firstGiven (blocks : List Block) (word : List Char) (keyword : String) : Option (List Char) :=
  ((blocks.filter (·.words.contains word)).flatMap fun block => block.given keyword).head?

/-- Every name that is listed is found once, and shown with what SSH uses. -/
structure Previews (text : List Char) : Prop where
  literal : ∀ host ∈ hosts text, isLiteral host.hostAlias = true
  listed : ∀ host ∈ hosts text, ∃ block ∈ blocks (directives text), host.hostAlias ∈ block.words
  once : ∀ word, isLiteral word = true → (∃ block ∈ blocks (directives text), word ∈ block.words) →
    ((hosts text).map SshHost.hostAlias).count word = 1
  hostname : ∀ host ∈ hosts text,
    host.hostname = firstGiven (blocks (directives text)) host.hostAlias "hostname"
  user : ∀ host ∈ hosts text,
    host.user = firstGiven (blocks (directives text)) host.hostAlias "user"
  port : ∀ host ∈ hosts text,
    host.port = (firstGiven (blocks (directives text)) host.hostAlias "port").bind parseU16

/-- No name is listed twice, and no block that lists one contradicts itself. -/
structure Unambiguous (blocks : List Block) : Prop where
  once : (blocks.flatMap Block.aliases).Nodup
  hostname : ∀ block ∈ blocks, block.aliases ≠ [] →
    (block.given "hostname").head? = (block.given "hostname").getLast?
  user : ∀ block ∈ blocks, block.aliases ≠ [] →
    (block.given "user").head? = (block.given "user").getLast?
  port : ∀ block ∈ blocks, block.aliases ≠ [] →
    (block.given "port").head?.bind parseU16 = (block.given "port").getLast?.bind parseU16

/-- If no name is listed twice, only the block of a name lists it. -/
theorem filter_words {blocks : List Block} (hnodup : (blocks.flatMap Block.aliases).Nodup)
    {block : Block} (hblock : block ∈ blocks) {word : List Char} (hword : word ∈ block.aliases) :
    blocks.filter (·.words.contains word) = [block] := by
  have hlists : ∀ other : Block, word ∈ other.words ↔ word ∈ other.aliases := fun other => by
    rw [Block.aliases, offered, List.mem_filter, and_iff_left (List.mem_filter.mp hword).2]
  induction blocks with
  | nil => cases hblock
  | cons first blocks ih =>
    rw [List.flatMap_cons, List.nodup_append] at hnodup
    obtain ⟨-, hrest, hdisjoint⟩ := hnodup
    rcases List.mem_cons.mp hblock with rfl | hblock
    · have hnone : blocks.filter (·.words.contains word) = [] := by
        refine List.filter_eq_nil_iff.mpr fun other hother hmem => ?_
        have hmem := (hlists other).mp (List.contains_iff_mem.mp hmem)
        exact hdisjoint word hword word (List.mem_flatMap.mpr ⟨other, hother, hmem⟩) rfl
      rw [List.filter_cons_of_pos (by simpa using (hlists block).mpr hword), hnone]
    · have hfirst : word ∉ first.words := fun hmem =>
        hdisjoint word ((hlists first).mp hmem) word
          (List.mem_flatMap.mpr ⟨block, hblock, hword⟩) rfl
      rw [List.filter_cons_of_neg (by simpa using hfirst), ih hrest hblock]

theorem firstGiven_of_mem {blocks : List Block} (hnodup : (blocks.flatMap Block.aliases).Nodup)
    {block : Block} (hblock : block ∈ blocks) {word : List Char} (hword : word ∈ block.aliases)
    (keyword : String) : firstGiven blocks word keyword = (block.given keyword).head? := by
  rw [firstGiven, filter_words hnodup hblock hword, List.flatMap_singleton]

theorem Previews.nodup (h : Previews text) :
    ((blocks (directives text)).flatMap Block.aliases).Nodup := by
  refine List.nodup_iff_count_le_one.mpr fun word => ?_
  by_cases hmem : word ∈ (blocks (directives text)).flatMap Block.aliases
  · obtain ⟨block, hblock, hword⟩ := List.mem_flatMap.mp hmem
    obtain ⟨hlisted, hliteral⟩ := List.mem_filter.mp hword
    rw [← map_hostAlias_hosts, h.once word hliteral ⟨block, hblock, hlisted⟩]
  · rw [List.count_eq_zero_of_not_mem hmem]
    exact Nat.zero_le 1

/-- What is shown of a block's first name is what is given first: so the block does not contradict
itself. -/
theorem Previews.unambiguous (h : Previews text) : Unambiguous (blocks (directives text)) := by
  have hfirst : ∀ block ∈ blocks (directives text), block.aliases ≠ [] → ∃ word,
      block.shown word ∈ hosts text ∧ ∀ keyword,
        firstGiven (blocks (directives text)) word keyword = (block.given keyword).head? := by
    intro block hblock hne
    obtain ⟨word, hword⟩ := List.exists_mem_of_ne_nil _ hne
    exact ⟨word, mem_hosts.mpr ⟨block, hblock, word, hword, rfl⟩,
      firstGiven_of_mem h.nodup hblock hword⟩
  refine ⟨h.nodup, fun block hblock hne => ?_, fun block hblock hne => ?_,
    fun block hblock hne => ?_⟩
  · obtain ⟨word, hhost, hgiven⟩ := hfirst block hblock hne
    exact (hgiven "hostname").symm.trans (h.hostname _ hhost).symm
  · obtain ⟨word, hhost, hgiven⟩ := hfirst block hblock hne
    exact (hgiven "user").symm.trans (h.user _ hhost).symm
  · obtain ⟨word, hhost, hgiven⟩ := hfirst block hblock hne
    rw [← hgiven]
    exact (h.port _ hhost).symm

theorem Unambiguous.previews (h : Unambiguous (blocks (directives text))) : Previews text := by
  have hshown : ∀ host ∈ hosts text, ∃ block ∈ blocks (directives text), block.aliases ≠ [] ∧
      isLiteral host.hostAlias = true ∧ host.hostAlias ∈ block.words ∧
        block.shown host.hostAlias = host ∧ ∀ keyword,
          firstGiven (blocks (directives text)) host.hostAlias keyword =
            (block.given keyword).head? := by
    intro host hhost
    obtain ⟨block, hblock, word, hword, rfl⟩ := mem_hosts.mp hhost
    obtain ⟨hlisted, hliteral⟩ := List.mem_filter.mp hword
    exact ⟨block, hblock, List.ne_nil_of_mem hword, hliteral, hlisted, rfl,
      firstGiven_of_mem h.once hblock hword⟩
  refine ⟨fun host hhost => ?_, fun host hhost => ?_, fun word hliteral hlisted => ?_,
    fun host hhost => ?_, fun host hhost => ?_, fun host hhost => ?_⟩
  · obtain ⟨-, -, -, hliteral, -⟩ := hshown host hhost
    exact hliteral
  · obtain ⟨block, hblock, -, -, hlisted, -⟩ := hshown host hhost
    exact ⟨block, hblock, hlisted⟩
  · obtain ⟨block, hblock, hword⟩ := hlisted
    rw [map_hostAlias_hosts]
    exact List.count_eq_one_of_mem h.once (List.mem_flatMap.mpr
      ⟨block, hblock, List.mem_filter.mpr ⟨hword, hliteral⟩⟩)
  · obtain ⟨block, hblock, hne, -, -, heq, hgiven⟩ := hshown host hhost
    rw [hgiven, h.hostname block hblock hne, ← heq]
    rfl
  · obtain ⟨block, hblock, hne, -, -, heq, hgiven⟩ := hshown host hhost
    rw [hgiven, h.user block hblock hne, ← heq]
    rfl
  · obtain ⟨block, hblock, hne, -, -, heq, hgiven⟩ := hshown host hhost
    rw [hgiven, h.port block hblock hne, ← heq]
    rfl

/-- **A preview says where SSH goes** if and only if no name is listed twice and no block that lists one
contradicts itself. -/
theorem previews_iff (text : List Char) : Previews text ↔ Unambiguous (blocks (directives text)) :=
  ⟨Previews.unambiguous, Unambiguous.previews⟩

/-- A block that gives two names of one host: SSH goes to the first, and the preview shows the second. -/
theorem second_hostname_is_shown : ¬∀ text, (∀ line ∈ directives text,
      line.keyword ∈ ["host".toList, "hostname".toList, "user".toList, "port".toList]) →
    Previews text := by
  intro h
  have hpreviews := h "Host build\n  HostName first.example\n  HostName second.example\n".toList
    (by decide)
  have hshown := hpreviews.hostname
    ⟨"build".toList, some "second.example".toList, none, none⟩ (by decide)
  revert hshown
  decide

end SshConfig

end SuperHerdr
