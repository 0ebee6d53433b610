/-
# Texts as bytes

UTF-8 read byte by byte.  A first byte announces how many bytes follow and the range of the
second one, which rules out overlong forms, surrogates and code points beyond the last plane
(`lead?`).  A text that is not UTF-8 has a fault (`Fault`): the bytes read since the last
complete character, and why they end there.
-/
namespace SchemaTypes.Text.Utf8

/-- Why bytes are not the form of a character. -/
inductive Cause where
  | invalidStart
  | invalidContinuation
  | unexpectedEnd
deriving DecidableEq, Repr

/-- Bytes that are not the form of a character. -/
structure Fault where
  first : UInt8
  start : Nat
  length : Nat
  cause : Cause
deriving DecidableEq, Repr

/-- A character whose first bytes were read: `more` bytes follow, the next one from `low` to
`high`. -/
structure Partial where
  first : UInt8
  start : Nat
  value : Nat
  more : Nat
  low : UInt8
  high : UInt8
deriving DecidableEq, Repr

/-- What the first byte of a longer form announces. -/
def lead? (b : UInt8) (start : Nat) : Option Partial :=
  if b < 0xC2 then none
  else if b < 0xE0 then some ⟨b, start, b.toNat - 0xC0, 1, 0x80, 0xBF⟩
  else if b < 0xF0 then
    some ⟨b, start, b.toNat - 0xE0, 2, if b = 0xE0 then 0xA0 else 0x80,
      if b = 0xED then 0x9F else 0xBF⟩
  else if b < 0xF5 then
    some ⟨b, start, b.toNat - 0xF0, 3, if b = 0xF0 then 0x90 else 0x80,
      if b = 0xF4 then 0x8F else 0xBF⟩
  else none

/-- Reads on at a position; `done` holds the characters so far, the last one first. -/
def decodeFrom (position : Nat) (pending : Option Partial) (done : List Char) :
    List UInt8 → Except Fault (List Char)
  | [] =>
    match pending with
    | none => .ok done.reverse
    | some p => .error ⟨p.first, p.start, position - p.start, .unexpectedEnd⟩
  | b :: rest =>
    match pending with
    | none =>
      if b < 0x80 then decodeFrom (position + 1) none (Char.ofNat b.toNat :: done) rest
      else
        match lead? b position with
        | some p => decodeFrom (position + 1) (some p) done rest
        | none => .error ⟨b, position, 1, .invalidStart⟩
    | some p =>
      if p.low ≤ b && b ≤ p.high then
        let value := p.value * 64 + b.toNat % 64
        if p.more = 1 then decodeFrom (position + 1) none (Char.ofNat value :: done) rest
        else
          decodeFrom (position + 1)
            (some { p with value := value, more := p.more - 1, low := 0x80, high := 0xBF })
            done rest
      else .error ⟨p.first, p.start, position - p.start, .invalidContinuation⟩

/-- The characters that bytes stand for. -/
def decode (bytes : List UInt8) : Except Fault (List Char) := decodeFrom 0 none [] bytes

/-- The words for a cause. -/
def Cause.text : Cause → String
  | .invalidStart => "invalid start byte"
  | .invalidContinuation => "invalid continuation byte"
  | .unexpectedEnd => "unexpected end of data"

/-- A byte as two hexadecimal digits. -/
def byteText (b : UInt8) : String :=
  String.ofList ['0', 'x', Nat.digitChar (b.toNat / 16), Nat.digitChar (b.toNat % 16)]

/-- The message of a fault. -/
def Fault.message (f : Fault) : String :=
  "'utf-8' codec can't decode "
    ++ (if f.length = 1 then "byte " ++ byteText f.first ++ " in position " ++ toString f.start
        else
          "bytes in position " ++ toString f.start ++ "-" ++ toString (f.start + f.length - 1))
    ++ ": " ++ f.cause.text

/-! ## Small laws -/

/-- ASCII bytes stand for themselves. -/
theorem decodeFrom_ascii (bytes : List UInt8) (h : ∀ b ∈ bytes, b < 0x80) (position : Nat)
    (done : List Char) :
    decodeFrom position none done bytes
      = .ok (done.reverse ++ bytes.map fun b => Char.ofNat b.toNat) := by
  induction bytes generalizing position done with
  | nil => simp [decodeFrom]
  | cons b r ih =>
    have hb : b < 0x80 := h b (by simp)
    have hr : ∀ c ∈ r, c < 0x80 := fun c hc => h c (by simp [hc])
    simp [decodeFrom, hb, ih hr]

end SchemaTypes.Text.Utf8
