import Mathlib
import SuperHerdr.Protocol.Model

/-!
# Where a transfer's bytes go

A transfer is staged on its target host in a private directory of its own, as a file whose name
the sender chose or the media type supplies. `StagedName` is such a name: it carries the proof
that it is one printable path component, so that a name which is not cannot be handed to the
host. A path comes back from the host and is trusted for one thing only, being one this bridge
staged, which `removableUploadDirectory` decides.

A `TransferPlan` is one attempt at a transfer: into a fresh directory, or onto the end of a file
that already holds its beginning.
-/

namespace SuperHerdr

/-! ### Names -/

/-- A flavor the bridge can move. -/
structure ClipboardMedia where
  mime : String
  extension : Option String
deriving DecidableEq, Repr

def KNOWN_MEDIA : List ClipboardMedia :=
  [⟨"image/png", some "png"⟩, ⟨"image/jpeg", some "jpg"⟩, ⟨"image/webp", some "webp"⟩,
    ⟨"image/gif", some "gif"⟩, ⟨"image/tiff", some "tif"⟩, ⟨"application/pdf", some "pdf"⟩,
    ⟨"image/svg+xml", some "svg"⟩]

/-- A payload whose type the bridge does not recognize. -/
def OPAQUE : ClipboardMedia := ⟨"application/octet-stream", none⟩

/-- The flavor a caller names. An unknown one is carried opaquely. -/
def mediaForMime (mime : String) : ClipboardMedia :=
  (KNOWN_MEDIA.find? fun media => media.mime = mime).getD OPAQUE

/-- One printable path component, without two dots in a row. -/
structure IsComponent (name : String) : Prop where
  nonempty : name ≠ ""
  noSeparator : '/' ∉ name.toList
  printable : ∀ c ∈ name.toList, isControl c = false
  noDots : ¬['.', '.'] <:+: name.toList

/-- What a transfer is called on the target host. -/
structure StagedName where
  name : String
  component : IsComponent name

/-- A letter or a digit is neither a separator, nor a dot, nor a control character. -/
theorem isAlphanum_plain {c : Char} (hc : c.isAlphanum = true) :
    c ≠ '/' ∧ c ≠ '.' ∧ isControl c = false := by
  refine ⟨?_, ?_, ?_⟩
  · rintro rfl
    revert hc
    decide
  · rintro rfl
    revert hc
    decide
  · simp only [Char.isAlphanum, Char.isAlpha, Char.isUpper, Char.isLower, Char.isDigit,
      Bool.or_eq_true, Bool.and_eq_true, decide_eq_true_eq, UInt32.le_iff_toNat_le,
      ge_iff_le] at hc
    simp only [isControl, Bool.or_eq_false_iff, Bool.and_eq_false_iff, decide_eq_false_iff_not,
      UInt32.lt_iff_toNat_lt, UInt32.le_iff_toNat_le]
    have hA : 'A'.val.toNat = 65 := rfl
    have hZ : 'Z'.val.toNat = 90 := rfl
    have ha : 'a'.val.toNat = 97 := rfl
    have hz : 'z'.val.toNat = 122 := rfl
    have h0 : '0'.val.toNat = 48 := rfl
    have h9 : '9'.val.toNat = 57 := rfl
    simp only [UInt32.reduceToNat]
    omega

theorem printable_of_all {name : String}
    (h : (name.toList.all fun c => !isControl c) = true) :
    ∀ c ∈ name.toList, isControl c = false := by
  intro c hc
  simpa using List.all_eq_true.mp h c hc

/-- A name the flavor supplies is one component. -/
theorem isComponent_payload {extension : String}
    (h : ∀ c ∈ extension.toList, c.isAlphanum = true) :
    IsComponent ("payload." ++ extension) := by
  have hchars : ("payload." ++ extension).toList = "payload.".toList ++ extension.toList := by
    simp
  have hplain : ∀ c ∈ "payload.".toList, isControl c = false := printable_of_all (by decide)
  refine ⟨?_, ?_, ?_, ?_⟩
  · intro hempty
    have := congrArg String.toList hempty
    rw [hchars] at this
    simp at this
  · rw [hchars, List.mem_append, not_or]
    exact ⟨by decide, fun hmem => (isAlphanum_plain (h _ hmem)).1 rfl⟩
  · rw [hchars]
    intro c hc
    rcases List.mem_append.mp hc with hc | hc
    · exact hplain c hc
    · exact (isAlphanum_plain (h c hc)).2.2
  · -- Two dots would have to be counted twice, and only the one before the extension is there.
    rw [hchars]
    intro hinfix
    have hcount := hinfix.sublist.count_le '.'
    have hnone : extension.toList.count '.' = 0 :=
      List.count_eq_zero.mpr fun hmem => (isAlphanum_plain (h _ hmem)).2.1 rfl
    rw [List.count_append, hnone] at hcount
    revert hcount
    decide

/-- What a payload is called when nobody named it. -/
def ClipboardMedia.payloadName (media : ClipboardMedia) : Except String StagedName :=
  match media.extension with
  | none => .ok ⟨"payload", by decide, by decide, printable_of_all (by decide), by decide⟩
  | some extension =>
      if h : extension ≠ "" ∧ ∀ c ∈ extension.toList, c.isAlphanum = true then
        .ok ⟨"payload." ++ extension, isComponent_payload h.2⟩
      else .error "unsupported clipboard media extension"

/-- The longest name a caller may ask for, in bytes. -/
def MAX_TRANSFER_NAME_BYTES : ℕ := 240

/-- Resolve what a caller asked for, falling back to the flavor's own name. -/
def StagedName.resolve (requested : Option String) (media : ClipboardMedia) :
    Except String StagedName :=
  match requested with
  | none => media.payloadName
  | some requested =>
      if hlength : requested = "" ∨ requested.utf8ByteSize > MAX_TRANSFER_NAME_BYTES then
        .error (s!"a transfer name must be between 1 and {MAX_TRANSFER_NAME_BYTES} bytes; " ++
          s!"this one is {requested.utf8ByteSize}")
      else if hdots : requested = "." ∨ requested = ".." ∨ ['.', '.'] <:+: requested.toList then
        .error s!"a transfer cannot be named {requested.quote}"
      else if hchars : '/' ∈ requested.toList ∨ requested.toList.any isControl = true then
        .error "a transfer name must be one printable path component"
      else
        .ok
          { name := requested
            component :=
              { nonempty := fun h => hlength (.inl h)
                noSeparator := fun h => hchars (.inl h)
                printable := fun c hc => Bool.eq_false_iff.mpr fun h =>
                  hchars (.inr (List.any_eq_true.mpr ⟨c, hc, h⟩))
                noDots := fun h => hdots (.inr (.inr h)) } }

/-! ### Paths -/

/-- Split at the last occurrence of a separator. -/
def rsplitOnce (separator : Char) : List Char → Option (List Char × List Char)
  | [] => none
  | c :: rest =>
      match rsplitOnce separator rest with
      | some (head, tail) => some (c :: head, tail)
      | none => if c = separator then some ([], rest) else none

theorem rsplitOnce_eq_none {separator : Char} {chars : List Char} (h : separator ∉ chars) :
    rsplitOnce separator chars = none := by
  induction chars with
  | nil => rfl
  | cons c rest ih =>
    obtain ⟨hne, hrest⟩ := not_or.mp (List.mem_cons.not.mp h)
    rw [rsplitOnce, ih hrest]
    exact if_neg fun heq => hne heq.symm

theorem rsplitOnce_append {separator : Char} (head : List Char) {tail : List Char}
    (h : separator ∉ tail) :
    rsplitOnce separator (head ++ separator :: tail) = some (head, tail) := by
  induction head with
  | nil =>
    rw [List.nil_append, rsplitOnce, rsplitOnce_eq_none h]
    exact if_pos rfl
  | cons c head ih => rw [List.cons_append, rsplitOnce, ih]

theorem directory_of_path {directory other : String} {name name' : StagedName}
    (h : directory ++ "/" ++ name.name = other ++ "/" ++ name'.name) : directory = other := by
  have hsplit : ∀ (directory : String) (name : StagedName),
      rsplitOnce '/' (directory ++ "/" ++ name.name).toList =
        some (directory.toList, name.name.toList) := by
    intro directory name
    rw [← rsplitOnce_append directory.toList name.component.noSeparator]
    simp
  have hboth := hsplit directory name
  rw [h, hsplit other name', Option.some.injEq, Prod.mk.injEq] at hboth
  exact String.toList_injective hboth.1.symm

/-- The directory a staged path lives in, if it is one this bridge made. -/
def removableUploadDirectory (path : String) : Option String := do
  let (directory, _) ← rsplitOnce '/' path.toList
  let name := ((rsplitOnce '/' directory).map Prod.snd).getD directory
  if directory.head? ≠ some '/' ∨ ¬"super-herdr-clipboard.".toList.isPrefixOf name ∨
      directory.any isControl then none
  else some (String.ofList directory)

/-! ### Plans -/

/-- Where a transfer's bytes are going. -/
inductive Staging
  /-- A private directory of its own, under a name the caller chose or the flavor's own. -/
  | fresh (name : Option String)
  /-- One that already holds the beginning of this transfer. -/
  | resume (path : String) (staged : ℕ)
deriving DecidableEq

/-- One attempt at moving a transfer to a host. -/
structure TransferPlan where
  media : ClipboardMedia
  staging : Staging
  /-- The whole content's length, including anything already staged. -/
  length : ℕ

namespace TransferPlan

/-- How much of the content is already on the host. -/
def staged (plan : TransferPlan) : ℕ :=
  match plan.staging with
  | .fresh _ => 0
  | .resume _ staged => staged

/-- How much this attempt is responsible for. -/
def remaining (plan : TransferPlan) : ℕ :=
  match plan.staging with
  | .fresh _ => plan.length
  | .resume _ staged => plan.length - staged

/-- The path being resumed. -/
def resumed (plan : TransferPlan) : Option String :=
  match plan.staging with
  | .fresh _ => none
  | .resume path _ => some path

end TransferPlan

end SuperHerdr
