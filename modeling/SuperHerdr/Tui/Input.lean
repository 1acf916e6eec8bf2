import Mathlib
import SuperHerdr.Protocol.Model

/-!
# What a person types, points at and pastes

The frontend reads its terminal byte by byte, and a decoder makes events of the bytes. Here are
the events and the two encodings that lead back to bytes: a mouse event as a pane's program asked
to hear of it, and a text as the program in a pane may be pasted it.

The emulator of a pane is not the program's. `Parser` is what it was fed, and what the frontend
asks of it is a function of that.
-/

namespace SuperHerdr

namespace Tui

def PREFIX_KEY : UInt8 := 0x1d
def HERDR_PREFIX_KEY : UInt8 := 0x02
def MAX_CLIPBOARD_BYTES : ℕ := 1024 * 1024
def MAX_CLIPBOARD_MEDIA_BYTES : ℕ := 32 * 1024 * 1024
def MOUSE_SCROLL_LINES : UInt16 := 3

/-- `ESC [ 200 ~` -/
def BRACKETED_PASTE_START : List UInt8 := [0x1b, 0x5b, 0x32, 0x30, 0x30, 0x7e]

/-- `ESC [ 201 ~` -/
def BRACKETED_PASTE_END : List UInt8 := [0x1b, 0x5b, 0x32, 0x30, 0x31, 0x7e]

inductive InputMode
  | terminal
  /-- The frontend's own prefix key was pressed. -/
  | prefixed
  /-- Herdr's prefix key was pressed. -/
  | herdrPrefixed
deriving DecidableEq

/-! ### The mouse -/

structure MouseInput where
  code : UInt16
  column : UInt16
  row : UInt16
  release : Bool
deriving DecidableEq

namespace MouseInput

def isLeftPress (self : MouseInput) : Bool := !self.release && self.code &&& 0b01100011 == 0

def isLeftMotion (self : MouseInput) : Bool :=
  !self.release && self.code &&& 0b01100011 == 0b00100000

def isLeftRelease (self : MouseInput) : Bool := self.release && self.code &&& 0b01100011 == 0

def isRightPress (self : MouseInput) : Bool := !self.release && self.code &&& 0b01100011 == 2

def isMotion (self : MouseInput) : Bool := self.code &&& 0b00100000 != 0

def isVerticalWheel (self : MouseInput) : Bool :=
  !self.release && self.code &&& 0b01000000 != 0 && self.code &&& 0b11 ≤ 1

def scrollDirection (self : MouseInput) : Option TerminalScrollDirection :=
  if !self.isVerticalWheel then none
  else if self.code &&& 0b11 = 0 then some .up
  else if self.code &&& 0b11 = 1 then some .down
  else none

/-- The modifiers as the terminal library numbers them. -/
def keyModifiers (self : MouseInput) : UInt8 :=
  (if self.code &&& 0b00000100 != 0 then 0b001 else 0) |||
    (if self.code &&& 0b00010000 != 0 then 0b010 else 0) |||
    (if self.code &&& 0b00001000 != 0 then 0b100 else 0)

def shift (self : MouseInput) : Bool := self.code &&& 0b00000100 != 0

end MouseInput

/-- A column or row counted from zero. -/
def zeroBased (value : UInt16) : UInt16 := if value = 0 then 0 else value - 1

inductive DecodedInput
  | bytes (bytes : List UInt8)
  | mouse (mouse : MouseInput)
  | paste (bytes : List UInt8)
  | pasteTooLarge
deriving DecidableEq

/-! ### The emulator of a pane -/

/-- What an emulator of some size was fed. -/
structure Parser where
  rows : UInt16
  columns : UInt16
  processed : List UInt8
deriving DecidableEq

inductive MouseProtocolMode
  | none
  | press
  | pressRelease
  | buttonMotion
  | anyMotion
deriving DecidableEq

inductive MouseProtocolEncoding
  | default
  | utf8
  | sgr
deriving DecidableEq

/-- What the frontend asks an emulator. -/
structure Emulator where
  bracketedPaste : Parser → Bool
  mouseProtocolMode : Parser → MouseProtocolMode
  mouseProtocolEncoding : Parser → MouseProtocolEncoding

def mousePassthroughEnabled (mode : MouseProtocolMode) (writable : Bool) : Bool :=
  writable && mode ≠ .none

def mouseEventAllowed (mode : MouseProtocolMode) (mouse : MouseInput) : Bool :=
  match mode with
  | .none => false
  | .press => !mouse.release && !mouse.isMotion
  | .pressRelease => !mouse.isMotion
  | .buttonMotion => !mouse.isMotion || mouse.code &&& 0b11 ≠ 0b11
  | .anyMotion => true

/-- The code of an event in the encodings that cannot say which button was released. -/
def releasedCode (mouse : MouseInput) : UInt16 :=
  if mouse.release then (mouse.code &&& ~~~0b11) ||| 0b11 else mouse.code

/-- A number in one byte, offset so that it prints. -/
def printableByte (value : UInt16) : Option UInt8 :=
  if value.toNat + 32 < 256 then some (UInt8.ofNat (value.toNat + 32)) else none

/-- A number as one character, offset so that it prints. -/
def printableCharacter (value : UInt16) : Option (List UInt8) :=
  if value.toNat + 32 < 65536 ∧ (value.toNat + 32).isValidChar then
    some (String.singleton (Char.ofNat (value.toNat + 32))).toUTF8.toList
  else none

def encodeMouseEvent (mouse : MouseInput) (encoding : MouseProtocolEncoding) :
    Option (List UInt8) :=
  match encoding with
  | .sgr =>
      let final := if mouse.release then "m" else "M"
      some s!"\x1b[<{mouse.code};{mouse.column};{mouse.row}{final}".toUTF8.toList
  | .default => do
      let code ← printableByte (releasedCode mouse)
      let column ← printableByte mouse.column
      let row ← printableByte mouse.row
      return [0x1b, 0x5b, 0x4d, code, column, row]
  | .utf8 => do
      let code ← printableCharacter (releasedCode mouse)
      let column ← printableCharacter mouse.column
      let row ← printableCharacter mouse.row
      return [0x1b, 0x5b, 0x4d] ++ code ++ column ++ row

/-! ### Pastes -/

def hasTerminator (text : List UInt8) : Bool :=
  text.tails.any fun rest => BRACKETED_PASTE_END.isPrefixOf rest

def terminalPastePayload (text : List UInt8) (bracketed : Bool) : Option (List UInt8) :=
  if hasTerminator text then none
  else if !bracketed then some text
  else some (BRACKETED_PASTE_START ++ text ++ BRACKETED_PASTE_END)

/-- One verified remote path as one shell word. -/
def shellQuotedPath (path : String) : String :=
  String.ofList (['\''] ++ (path.toList.flatMap fun character =>
    if character = '\'' then ['\'', '\\', '\'', '\''] else [character]) ++ ['\''])

end Tui

end SuperHerdr
