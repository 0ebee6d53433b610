/-
# Bytes in base 64

Four characters stand for three bytes, each for six bits.  Characters outside the alphabet do not
count.  A last group of two or three characters is filled up with equals signs; they end the
text, and in front of a group's third character they do not count.
-/
namespace SchemaTypes.Base64

/-- The six bits of a character. -/
def sextet? (c : Char) : Option Nat :=
  if 'A' ≤ c && c ≤ 'Z' then some (c.toNat - 'A'.toNat)
  else if 'a' ≤ c && c ≤ 'z' then some (c.toNat - 'a'.toNat + 26)
  else if '0' ≤ c && c ≤ '9' then some (c.toNat - '0'.toNat + 52)
  else if c = '+' then some 62
  else if c = '/' then some 63
  else none

/-- The bytes of a group of up to four characters: one less than there are characters. -/
def groupBytes (group : List Nat) : List UInt8 :=
  let filled := group ++ List.replicate (4 - group.length) 0
  let n := filled.foldl (fun n x => n * 64 + x) 0
  [UInt8.ofNat (n / 65536), UInt8.ofNat (n / 256), UInt8.ofNat n].take (group.length - 1)

/-- Decodes a text on, behind a part of a group and some equals signs. -/
def decodeFrom (group : List Nat) (fill : Nat) (done : List UInt8) : List Char → Option (List UInt8)
  | [] => if group.isEmpty then some done.reverse else none
  | c :: rest =>
    if c = '=' then
      if group.length < 2 then decodeFrom group fill done rest
      else if 4 ≤ group.length + fill + 1 then some ((groupBytes group).reverse ++ done).reverse
      else decodeFrom group (fill + 1) done rest
    else
      match sextet? c with
      | none => decodeFrom group fill done rest
      | some x =>
        if group.length < 3 then decodeFrom (group ++ [x]) 0 done rest
        else decodeFrom [] 0 ((groupBytes (group ++ [x])).reverse ++ done) rest

/-- The bytes that a text stands for; none when its last group is not full. -/
def decode (cs : List Char) : Option (List UInt8) := decodeFrom [] 0 [] cs

example : decode "TWFu".toList = some [77, 97, 110] := by decide +kernel
example : decode "TW Fu\nTQ==".toList = some [77, 97, 110, 77] := by decide +kernel
example : decode "TWFuT".toList = none := by decide +kernel

/-- Nothing stands for no bytes. -/
@[simp] theorem decode_nil : decode [] = some [] := rfl

end SchemaTypes.Base64
