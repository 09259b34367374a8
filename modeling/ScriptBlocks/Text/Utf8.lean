/-!
# UTF-8

`Utf8.encode` writes a text as bytes and `Utf8.size` counts them.  `Utf8.decode` reads bytes back;
bytes that are no UTF-8 give the first fault, which names the bytes refused and why.
-/

namespace ScriptBlocks.Utf8

/-- The bytes of a text. -/
def encode (s : List Char) : List UInt8 := s.flatMap String.utf8EncodeChar

/-- The number of bytes of a text. -/
def size (s : List Char) : Nat := s.foldl (fun n c => n + c.utf8Size) 0

/-- Why a byte sequence is refused. -/
inductive Reason where
  /-- No character starts with this byte. -/
  | invalidStart
  /-- A byte that the character needs next is not one that may follow. -/
  | invalidContinuation
  /-- The bytes end within a character. -/
  | unexpectedEnd
  deriving DecidableEq, Repr

def Reason.message : Reason → String
  | invalidStart => "invalid start byte"
  | invalidContinuation => "invalid continuation byte"
  | unexpectedEnd => "unexpected end of data"

/-- The first place where bytes are no UTF-8. -/
structure Fault where
  /-- The index of the first byte refused. -/
  start : Nat
  /-- The first byte refused. -/
  byte : UInt8
  /-- The number of bytes refused. -/
  width : Nat
  reason : Reason
  deriving DecidableEq, Repr

/-- Whether the byte may continue any character. -/
def isContinuation (b : UInt8) : Bool := 0x80 ≤ b && b < 0xC0

/-- How a character that starts with a given byte goes on: the number of bytes after the first,
the bits the first one gives, and the bounds of the second byte. -/
structure Lead where
  /-- The number of bytes after the first. -/
  rest : Nat
  /-- The bits of the code point in the first byte. -/
  bits : Nat
  /-- The least second byte. -/
  low : UInt8 := 0x80
  /-- The greatest second byte. -/
  high : UInt8 := 0xBF

/-- The lead of a character from its first byte; the bounds keep out overlong forms, surrogates
and code points past the last. -/
def lead? (b : UInt8) : Option Lead :=
  if b < 0x80 then some { rest := 0, bits := b.toNat }
  else if b < 0xC2 then none
  else if b < 0xE0 then some { rest := 1, bits := b.toNat - 0xC0 }
  else if b = 0xE0 then some { rest := 2, bits := 0, low := 0xA0 }
  else if b = 0xED then some { rest := 2, bits := 0xD, high := 0x9F }
  else if b < 0xF0 then some { rest := 2, bits := b.toNat - 0xE0 }
  else if b = 0xF0 then some { rest := 3, bits := 0, low := 0x90 }
  else if b < 0xF4 then some { rest := 3, bits := b.toNat - 0xF0 }
  else if b = 0xF4 then some { rest := 3, bits := 4, high := 0x8F }
  else none

/-- Reads the bytes after the first of a character: `bits` is the code point so far and `seen` the
number of bytes read.  A refusal gives the number of bytes read and the reason. -/
def continueChar (bits seen : Nat) (low high : UInt8) :
    Nat → List UInt8 → Except (Nat × Reason) (Nat × List UInt8)
  | 0, bytes => .ok (bits, bytes)
  | _ + 1, [] => .error (seen, .unexpectedEnd)
  | rest + 1, b :: bytes =>
    if low ≤ b && b ≤ high then
      continueChar (bits * 64 + (b.toNat - 0x80)) (seen + 1) 0x80 0xBF rest bytes
    else .error (seen, .invalidContinuation)

theorem length_le_of_continueChar {bits seen rest code : Nat} {low high : UInt8}
    {bytes left : List UInt8}
    (h : continueChar bits seen low high rest bytes = .ok (code, left)) :
    left.length ≤ bytes.length := by
  induction rest generalizing bits seen low high bytes with
  | zero => simp [continueChar] at h; simp [h.2]
  | succ rest ih =>
    cases bytes with
    | nil => simp [continueChar] at h
    | cons b bytes =>
      simp only [continueChar] at h
      split at h
      · have := ih h
        simp only [List.length_cons]
        omega
      · cases h

/-- Reads the bytes from index `start` on and appends their characters to `done`, which is in
reverse order. -/
def decodeOnto (done : List Char) (start : Nat) (bytes : List UInt8) :
    Except Fault (List Char) :=
  match bytes with
  | [] => .ok done.reverse
  | b :: bytes =>
    match lead? b with
    | none => .error ⟨start, b, 1, .invalidStart⟩
    | some lead =>
      match h : continueChar lead.bits 1 lead.low lead.high lead.rest bytes with
      | .error (width, reason) => .error ⟨start, b, width, reason⟩
      | .ok (code, left) => decodeOnto (Char.ofNat code :: done) (start + lead.rest + 1) left
termination_by bytes.length
decreasing_by
  have := length_le_of_continueChar h
  simp only [List.length_cons]
  omega

/-- The text whose bytes these are, or the first fault. -/
def decode (bytes : List UInt8) : Except Fault (List Char) := decodeOnto [] 0 bytes

end ScriptBlocks.Utf8
