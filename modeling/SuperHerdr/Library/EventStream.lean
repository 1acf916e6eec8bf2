import SuperHerdr.Library.Transducer

/-!
# Server-sent events

A stream of server-sent events is a text of lines, each ended by a carriage return, a line feed or
both. A line that starts with a colon is a comment; any other is a field with a value. Fields are
collected until an empty line, which dispatches what was collected if there is any data in it.

Reading is two transducers, one over the bytes and one over the lines, so that what a stream says is
what its parts say one after the other (`exec_append`). `exec_ends_line` and `exec_comment_line`,
`exec_message_lines` are what a writer needs who writes an event as one line of data, and comments
between events.
-/

namespace EventStream

open Transducer

def lineFeed : UInt8 := 10
def carriageReturn : UInt8 := 13
def space : UInt8 := 32
def colon : UInt8 := 58

/-! ### Lines -/

/-- The line that is read, and whether the last byte was a carriage return. -/
structure Cursor where
  line : List UInt8
  returned : Bool
deriving DecidableEq

def Cursor.start : Cursor := ⟨[], false⟩

/-- Read one byte; a line feed right after a carriage return ends the same line. -/
def readByte (self : Cursor) (byte : UInt8) : Cursor × List (List UInt8) :=
  if byte = carriageReturn then (⟨[], true⟩, [self.line])
  else if byte = lineFeed then
    if self.returned then (⟨[], false⟩, []) else (⟨[], false⟩, [self.line])
  else (⟨self.line ++ [byte], false⟩, [])

/-! ### Fields -/

/-- A message is what an empty line dispatches. -/
structure Message where
  type : List UInt8
  data : List UInt8
  lastEventId : List UInt8
deriving DecidableEq

inductive Item
  | message (message : Message)
  | comment (text : List UInt8)
deriving DecidableEq

/-- What is collected of a message. -/
structure Buffers where
  type : List UInt8
  data : List UInt8
  lastEventId : List UInt8
deriving DecidableEq

def Buffers.start : Buffers := ⟨[], [], []⟩

def word (text : String) : List UInt8 := text.toUTF8.toList

/-- The name of a field, and its value without the one space it may start with. -/
def fieldOf (line : List UInt8) : List UInt8 × List UInt8 :=
  let value := (line.dropWhile (· ≠ colon)).tail
  (line.takeWhile (· ≠ colon), if value.head? = some space then value.tail else value)

/-- A field of another name says nothing about a message. -/
def Buffers.collect (self : Buffers) (field : List UInt8 × List UInt8) : Buffers :=
  if field.1 = word "event" then { self with type := field.2 }
  else if field.1 = word "data" then { self with data := self.data ++ field.2 ++ [lineFeed] }
  else if field.1 = word "id" then
    if 0 ∈ field.2 then self else { self with lastEventId := field.2 }
  else self

/-- An empty line ends a message, if it has any data. -/
def Buffers.dispatch (self : Buffers) : Buffers × List Item :=
  if self.data = [] then ({ self with type := [] }, [])
  else
    (⟨[], [], self.lastEventId⟩,
      [.message ⟨if self.type = [] then word "message" else self.type, self.data.dropLast,
        self.lastEventId⟩])

def readLine (self : Buffers) (line : List UInt8) : Buffers × List Item :=
  if line = [] then self.dispatch
  else if line.head? = some colon then (self, [.comment line.tail])
  else (self.collect (fieldOf line), [])

/-- The mark a text may start with is not part of it. -/
def withoutMark (bytes : List UInt8) : List UInt8 :=
  if bytes.take 3 = [0xEF, 0xBB, 0xBF] then bytes.drop 3 else bytes

/-- What a stream says: its messages, and the comments between them. What no empty line ended is not
a message. -/
def parse (bytes : List UInt8) : List Item :=
  (exec readLine .start (exec readByte .start (withoutMark bytes)).2).2

/-- A text that starts otherwise has no mark. -/
theorem withoutMark_of_head {bytes : List UInt8} (h : bytes.head? ≠ some 0xEF) :
    withoutMark bytes = bytes := by
  rw [withoutMark, if_neg]
  intro hmark
  have hhead : (bytes.take 3).head? = some 0xEF := by
    rw [hmark]
    rfl
  cases bytes with
  | nil => cases hhead
  | cons byte bytes => exact h hhead

/-! ### Lines that end -/

/-- A text within a line. -/
def Inline (text : List UInt8) : Prop := lineFeed ∉ text ∧ carriageReturn ∉ text

theorem exec_inline {text : List UInt8} (h : Inline text) (line : List UInt8) :
    exec readByte ⟨line, false⟩ text = (⟨line ++ text, false⟩, []) := by
  induction text generalizing line with
  | nil => simp
  | cons byte text ih =>
    obtain ⟨hfeed, hreturn⟩ := h
    rw [List.mem_cons, not_or] at hfeed hreturn
    have hbyte : readByte ⟨line, false⟩ byte = (⟨line ++ [byte], false⟩, []) := by
      rw [readByte, if_neg (Ne.symm hreturn.1), if_neg (Ne.symm hfeed.1)]
    rw [exec_cons, hbyte, ih ⟨hfeed.2, hreturn.2⟩, List.append_assoc, List.singleton_append,
      List.nil_append]

/-- **A line feed ends a line.** -/
theorem exec_ends_line {text : List UInt8} (h : Inline text) :
    exec readByte .start (text ++ [lineFeed]) = (.start, [text]) := by
  rw [exec_append, Cursor.start, exec_inline h]
  simp [readByte, lineFeed, carriageReturn]

/-- Lines that are ended one after the other are read one after the other. -/
theorem exec_lines {lines : List (List UInt8)} (h : ∀ line ∈ lines, Inline line) :
    exec readByte .start (lines.flatMap fun line => line ++ [lineFeed]) = (.start, lines) := by
  induction lines with
  | nil => rfl
  | cons line lines ih =>
    rw [List.flatMap_cons, exec_append, exec_ends_line (h line List.mem_cons_self),
      ih fun later hlater => h later (List.mem_cons_of_mem line hlater), List.singleton_append]

/-! ### Comments and messages -/

/-- The lines of a comment, with an empty line behind it. -/
def commentLines (text : List UInt8) : List (List UInt8) := [colon :: text, []]

/-- The lines of a message of one line of data. -/
def messageLines (text : List UInt8) : List (List UInt8) := [word "data: " ++ text, []]

/-- The message that one line of data is. -/
def Message.plain (text : List UInt8) : Message := ⟨word "message", text, []⟩

/-- **A comment between messages** is read as that, and leaves nothing behind. -/
theorem exec_commentLines (text : List UInt8) :
    exec readLine .start (commentLines text) = (.start, [.comment text]) := by
  simp [commentLines, readLine, Buffers.start, Buffers.dispatch]

theorem fieldOf_data (text : List UInt8) : fieldOf (word "data: " ++ text) = (word "data", text) := by
  have hword : word "data: " = word "data" ++ [colon, space] := by decide +kernel
  have hname : ∀ byte ∈ word "data", byte ≠ colon := by decide +kernel
  have hdrop : (word "data: " ++ text).dropWhile (· ≠ colon) = colon :: space :: text := by
    rw [hword, List.append_assoc, List.dropWhile_append_of_pos (by simpa using hname)]
    simp
  have htake : (word "data: " ++ text).takeWhile (· ≠ colon) = word "data" := by
    rw [hword, List.append_assoc, List.takeWhile_append_of_pos (by simpa using hname)]
    simp
  rw [fieldOf, hdrop, htake]
  simp

/-- **One line of data** is one message. -/
theorem exec_messageLines (text : List UInt8) :
    exec readLine .start (messageLines text) = (.start, [.message (.plain text)]) := by
  have hhead : (word "data: " ++ text).head? = some 100 := by
    have hword : word "data: " = 100 :: word "ata: " := by decide +kernel
    rw [hword]
    rfl
  have hne : word "data: " ++ text ≠ [] := by
    intro hempty
    rw [hempty] at hhead
    cases hhead
  have hcollected : readLine .start (word "data: " ++ text) =
      (⟨[], text ++ [lineFeed], []⟩, []) := by
    have hdata : word "data" ≠ word "event" := by decide +kernel
    rw [readLine, if_neg hne, if_neg (by rw [hhead]; decide), fieldOf_data, Buffers.collect,
      if_neg hdata, if_pos rfl]
    rfl
  rw [messageLines, exec_cons, hcollected]
  simp [readLine, Buffers.dispatch, Buffers.start, Message.plain]

end EventStream
