import ThreatAtlas.Failure

/-!
# Decoding UTF-8

Bytes are read one character at a time. A fault covers the longest start of a well-formed sequence,
or one byte; a lenient reader puts one replacement character for it.
-/

namespace ThreatAtlas.Text.Utf8

/-- One step of reading: a character and its width, or a fault, its width and its reason. -/
inductive Step where
  | char (c : Char) (width : Nat)
  | fault (reason : String) (width : Nat)

def invalidStart : String := "invalid start byte"
def invalidContinuation : String := "invalid continuation byte"
def unexpectedEnd : String := "unexpected end of data"

def isTail (b : Nat) : Bool :=
  0x80 ≤ b && b < 0xC0

/-- The least and greatest second byte after the first byte of a long sequence. -/
def secondBounds (lead : Nat) : Nat × Nat :=
  if lead == 0xE0 then (0xA0, 0xBF)
  else if lead == 0xED then (0x80, 0x9F)
  else if lead == 0xF0 then (0x90, 0xBF)
  else if lead == 0xF4 then (0x80, 0x8F)
  else (0x80, 0xBF)

def isSecond (lead b : Nat) : Bool :=
  (secondBounds lead).1 ≤ b && b ≤ (secondBounds lead).2

/-- How many bytes a sequence with this first byte has; zero when none starts with it. -/
def width (lead : Nat) : Nat :=
  if lead < 0x80 then 1
  else if lead < 0xC2 then 0
  else if lead < 0xE0 then 2
  else if lead < 0xF0 then 3
  else if lead < 0xF5 then 4
  else 0

/-- Reads the bytes after the first, which has been counted; `seen` bytes are good so far. -/
def readTail (need : Nat) (code seen : Nat) : List Nat → Step
  | [] => if need == 0 then .char (Char.ofNat code) seen else .fault unexpectedEnd seen
  | b :: rest =>
    if need == 0 then .char (Char.ofNat code) seen
    else if isTail b then readTail (need - 1) (code * 64 + (b - 0x80)) (seen + 1) rest
    else .fault invalidContinuation seen

def step (lead : Nat) (rest : List Nat) : Step :=
  match width lead with
  | 0 => .fault invalidStart 1
  | 1 => .char (Char.ofNat lead) 1
  | w =>
    let code := lead % (if w == 2 then 32 else if w == 3 then 16 else 8)
    match rest with
    | [] => .fault unexpectedEnd 1
    | b :: more =>
      if isSecond lead b then readTail (w - 2) (code * 64 + (b - 0x80)) 2 more
      else .fault invalidContinuation 1

/-- Reads all bytes, with each fault passed to `onFault` and replaced by what it gives. -/
def readAll [Monad m] (onFault : Undecodable → m (List Char)) (offset : Nat) :
    List Nat → m (List Char)
  | [] => pure []
  | lead :: rest =>
    match step lead rest with
    | .char c w => do
      let cs ← readAll onFault (offset + w) (rest.drop (w - 1))
      return c :: cs
    | .fault reason w => do
      let here ← onFault ⟨lead, offset, reason, w⟩
      let cs ← readAll onFault (offset + w) (rest.drop (w - 1))
      return here ++ cs
termination_by bytes => bytes.length
decreasing_by all_goals simp only [List.length_drop, List.length_cons]; omega

def decode (bytes : ByteArray) : Except Failure (List Char) :=
  readAll (fun e => .error (.undecodable e)) 0 (bytes.toList.map UInt8.toNat)

def decodeLenient (bytes : ByteArray) : List Char :=
  Id.run (readAll (fun _ => pure ['\ufffd']) 0 (bytes.toList.map UInt8.toNat))

end ThreatAtlas.Text.Utf8
