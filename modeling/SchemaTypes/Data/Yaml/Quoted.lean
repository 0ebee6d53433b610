/-
# Quoted scalars

A scalar between single or double quotes, read character by character (`readQuoted`).  Inside it a
line break with the blanks around it stands for a space, and each further break for itself; a mark
between documents is a fault.  Between single quotes a doubled quote stands for one; between
double quotes a backslash begins an escape.  An escape may name half of a surrogate pair, which is
no character; the text remembers that (`Spelling`).
-/
import SchemaTypes.Data.Yaml.Cursor

namespace SchemaTypes.Yaml

/-- The text of a scalar, and whether half of a surrogate pair stands in it; a sign stands in its
place. -/
structure Spelling where
  text : String
  isHalf : Bool := false
deriving DecidableEq, Repr, Inhabited

/-- What was read last inside a quoted scalar; lists have the last character first. -/
inductive QuotedState where
  | text (blanks : List Char)
  | breaks (first : Option Char) (further : List Char)
  | escape
  | digits (more value : Nat)
  | secondQuote
deriving DecidableEq, Repr

/-- What comes of one character. -/
inductive QuotedStep where
  | on (state : QuotedState) (done : List Char)
  | closed (done : List Char)
deriving DecidableEq, Repr

/-- What an escape of one letter stands for. -/
def escapes : List (Char × Char) := [
  ('0', '\x00'), ('a', '\x07'), ('b', '\x08'), ('t', '\t'), ('\t', '\t'), ('n', '\n'),
  ('v', '\x0B'), ('f', '\x0C'), ('r', '\r'), ('e', '\x1B'), (' ', ' '), ('"', '"'), ('\\', '\\'),
  ('/', '/'), ('N', '\u0085'), ('_', '\u00A0'), ('L', '\u2028'), ('P', '\u2029')]

/-- How many hexadecimal digits an escape takes. -/
def escapeDigits : List (Char × Nat) := [('x', 2), ('u', 4), ('U', 8)]

/-- The value of a hexadecimal digit. -/
def hexValue? (c : Char) : Option Nat :=
  if '0' ≤ c && c ≤ '9' then some (c.toNat - '0'.toNat)
  else if 'a' ≤ c && c ≤ 'f' then some (c.toNat - 'a'.toNat + 10)
  else if 'A' ≤ c && c ≤ 'F' then some (c.toNat - 'A'.toNat + 10)
  else none

/-- The code point is half of a surrogate pair. -/
def isSurrogate (code : Nat) : Bool := 0xD800 ≤ code && code ≤ 0xDFFF

/-- The character of a code point; half of a pair has none and is replaced. -/
def charOf (code : Nat) : Except Fault Char :=
  if code < 0x110000 then .ok (if isSurrogate code then '\uFFFD' else Char.ofNat code)
  else if code < 0x80000000 then .error (.unusable "chr() arg not in range(0x110000)")
  else .error .tooLarge

/-- What breaks stand for: the first one alone for a space. -/
def folded (first : Option Char) (further : List Char) : List Char :=
  match first with
  | none => further
  | some b => if b != '\n' then further ++ [b] else if further.isEmpty then [' '] else further

/-- A break inside a quoted scalar, with the characters behind it. -/
def breakStep (first : Option Char) (further done ahead : List Char) : Except Fault QuotedStep :=
  if atDocumentMark ahead then .error .malformed else .ok (.on (.breaks first further) done)

/-- One character of the text of a quoted scalar. -/
def textStep (double : Bool) (blanks done : List Char) (c : Char) (ahead : List Char) :
    Except Fault QuotedStep :=
  let kept := blanks ++ done
  if isBlank c then .ok (.on (.text (c :: blanks)) done)
  else if isBreak c then breakStep (some c) [] done ahead
  else if double && c == '"' then .ok (.closed kept)
  else if double && c == '\\' then .ok (.on .escape kept)
  else if !double && c == '\'' then
    if ahead.head? == some '\'' then .ok (.on .secondQuote ('\'' :: kept)) else .ok (.closed kept)
  else .ok (.on (.text []) (c :: kept))

/-- The character behind a backslash. -/
def escapeStep (done : List Char) (c : Char) (ahead : List Char) : Except Fault QuotedStep :=
  match escapes.lookup c, escapeDigits.lookup c with
  | some stands, _ => .ok (.on (.text []) (stands :: done))
  | none, some n => .ok (.on (.digits n 0) done)
  | none, none => if isBreak c then breakStep none [] done ahead else .error .malformed

/-- One character of a quoted scalar. -/
def quotedStep (double : Bool) (state : QuotedState) (done : List Char) (c : Char)
    (ahead : List Char) : Except Fault QuotedStep :=
  match state with
  | .text blanks => textStep double blanks done c ahead
  | .breaks first further =>
    if isBlank c then .ok (.on state done)
    else if isBreak c then breakStep first (c :: further) done ahead
    else textStep double [] (folded first further ++ done) c ahead
  | .escape => escapeStep done c ahead
  | .digits more value =>
    match hexValue? c with
    | none => .error .malformed
    | some d =>
      let value := value * 16 + d
      if more ≤ 1 then do
        let ch ← charOf value
        return .on (.text []) (ch :: done)
      else .ok (.on (.digits (more - 1) value) done)
  | .secondQuote => .ok (.on (.text []) done)

/-- The character ends the escape of half of a surrogate pair. -/
def endsHalf (state : QuotedState) (c : Char) : Bool :=
  match state with
  | .digits more value => more ≤ 1 && (hexValue? c).any fun d => isSurrogate (value * 16 + d)
  | _ => false

/-- Reads on inside a quoted scalar; `half` tells whether half of a surrogate pair was read. -/
def readQuotedFrom (double : Bool) (place : Place) (state : QuotedState) (half : Bool)
    (done : List Char) : List Char → Except Fault (Spelling × Cursor)
  | [] => .error .malformed
  | c :: rest =>
    match quotedStep double state done c rest with
    | .error f => .error f
    | .ok (.closed done) => .ok (⟨String.ofList done.reverse, half⟩, ⟨rest, place.after c⟩)
    | .ok (.on next done) =>
      readQuotedFrom double (place.after c) next (half || endsHalf state c) done rest

/-- Reads a quoted scalar from its opening quote on. -/
def readQuoted (double : Bool) (c : Cursor) : Except Fault (Spelling × Cursor) :=
  readQuotedFrom double c.step.place (.text []) false [] c.step.rest

/-- A text without blanks, breaks, quotes and backslashes stands for itself. -/
theorem readQuotedFrom_plain (double : Bool) (cs : List Char)
    (h : ∀ c ∈ cs, isGap c = false ∧ c ≠ '"' ∧ c ≠ '\'' ∧ c ≠ '\\') (place : Place)
    (half : Bool) (done rest : List Char) :
    readQuotedFrom double place (.text []) half done (cs ++ rest)
      = readQuotedFrom double (cs.foldl Place.after place) (.text []) half (cs.reverse ++ done)
          rest := by
  induction cs generalizing place done with
  | nil => simp
  | cons c r ih =>
    obtain ⟨hgap, hd, hs, hb⟩ := h c (by simp)
    simp only [isGap, Bool.or_eq_false_iff] at hgap
    have hstep :
        quotedStep double (.text []) done c (r ++ rest) = .ok (.on (.text []) (c :: done)) := by
      simp [quotedStep, textStep, hgap.1, hgap.2, hd, hs, hb]
    rw [List.cons_append, readQuotedFrom, hstep]
    simp only
    simp only [endsHalf, Bool.or_false]
    rw [ih (fun x hx => h x (by simp [hx]))]
    simp

end SchemaTypes.Yaml
