import TextTemplate.Text
import TextTemplate.Number.Binary64

namespace TextTemplate.Text.Utf8

inductive Fault where
  | incomplete (index : Nat)
  | invalid (length index : Nat)
  deriving DecidableEq, Repr

def Fault.message : Fault → String
  | .incomplete index => "incomplete utf-8 byte sequence from index " ++ toString index
  | .invalid length index =>
      "invalid utf-8 sequence of " ++ toString length ++ " bytes from index " ++ toString index

def shape? (lead : Nat) : Option (Nat × Nat × Nat) :=
  if lead < 0x80 then some (1, 0, 0)
  else if 0xC2 ≤ lead ∧ lead ≤ 0xDF then some (2, 0x80, 0xBF)
  else if lead = 0xE0 then some (3, 0xA0, 0xBF)
  else if lead = 0xED then some (3, 0x80, 0x9F)
  else if 0xE1 ≤ lead ∧ lead ≤ 0xEF then some (3, 0x80, 0xBF)
  else if lead = 0xF0 then some (4, 0x90, 0xBF)
  else if 0xF1 ≤ lead ∧ lead ≤ 0xF3 then some (4, 0x80, 0xBF)
  else if lead = 0xF4 then some (4, 0x80, 0x8F)
  else none

def append (bits byte : Nat) : Nat := 0x40 * bits + byte % 0x40

def continue? (index : Nat) : (needed taken low high bits : Nat) → List Nat → Except Fault Char
  | 0, _, _, _, bits, _ => .ok (Char.ofNat bits)
  | _ + 1, _, _, _, _, [] => .error (.incomplete index)
  | needed + 1, taken, low, high, bits, byte :: rest =>
      if low ≤ byte ∧ byte ≤ high then continue? index needed (taken + 1) 0x80 0xBF (append bits byte) rest
      else .error (.invalid taken index)

def first? (index : Nat) (lead : Nat) (rest : List Nat) : Except Fault (Char × Nat) :=
  match shape? lead with
  | none => .error (.invalid 1 index)
  | some (size, low, high) => do
      let bits := if size = 1 then lead else lead % twoTo (7 - size)
      return (← continue? index (size - 1) 1 low high bits rest, size)

def decodeFrom (index : Nat) : (inside : Nat) → List Nat → Except Fault Text
  | _, [] => .ok []
  | inside + 1, _ :: rest => decodeFrom (index + 1) inside rest
  | 0, lead :: rest => do
      let (c, size) ← first? index lead rest
      return c :: (← decodeFrom (index + 1) (size - 1) rest)

def decode (bytes : List Nat) : Except Fault Text := decodeFrom 0 0 bytes

end TextTemplate.Text.Utf8
