/-!
# Decoding UTF-8

Bytes are read one at a time. Between two characters nothing is owed; after the first byte of a
longer character the decoder owes a number of continuation bytes, and the next of them is confined
to a range, which for four of the leading bytes is narrower than the range of all continuation
bytes: this keeps out overlong forms, surrogates and code points above U+10FFFF. A fault names the
bytes that were read in vain.
-/

namespace ScriptCheck.Text.Utf8

/-- What is wrong with a sequence of bytes. -/
inductive Reason where
  | invalidStart
  | invalidContinuation
  | unexpectedEnd
  deriving DecidableEq, Repr

/-- A place that is not UTF-8: the bytes at the positions from `start` up to but not including
`stop`, the first of which is `lead`. -/
structure Fault where
  reason : Reason
  lead : Nat
  start : Nat
  stop : Nat
  deriving DecidableEq, Repr

/-- A character whose first bytes have been read: `code` holds their payload, `owed + 1` bytes are
to come, and the next one lies between `low` and `high`. -/
structure Pending where
  lead : Nat
  start : Nat
  code : Nat
  owed : Nat
  low : Nat
  high : Nat

/-- What the byte `b` at position `start` owes when it leads a character of several bytes, and
nothing when no such character starts with it. -/
def Pending.ofLead? (start b : Nat) : Option Pending :=
  if 0xc2 ≤ b ∧ b ≤ 0xdf then some ⟨b, start, b - 0xc0, 0, 0x80, 0xbf⟩
  else if b = 0xe0 then some ⟨b, start, 0, 1, 0xa0, 0xbf⟩
  else if b = 0xed then some ⟨b, start, 0xd, 1, 0x80, 0x9f⟩
  else if 0xe1 ≤ b ∧ b ≤ 0xef then some ⟨b, start, b - 0xe0, 1, 0x80, 0xbf⟩
  else if b = 0xf0 then some ⟨b, start, 0, 2, 0x90, 0xbf⟩
  else if 0xf1 ≤ b ∧ b ≤ 0xf3 then some ⟨b, start, b - 0xf0, 2, 0x80, 0xbf⟩
  else if b = 0xf4 then some ⟨b, start, 4, 2, 0x80, 0x8f⟩
  else none

/-- Decode the bytes that stand from `position` on, where `read` holds the characters so far, latest
first, and `pending` the character begun. -/
def decodeFrom (read : List Char) (position : Nat) (pending : Option Pending) :
    List Nat → Except Fault (List Char)
  | [] =>
    match pending with
    | none => .ok read.reverse
    | some p => .error ⟨.unexpectedEnd, p.lead, p.start, position⟩
  | b :: rest =>
    match pending with
    | none =>
      if b < 0x80 then decodeFrom (Char.ofNat b :: read) (position + 1) none rest
      else
        match Pending.ofLead? position b with
        | none => .error ⟨.invalidStart, b, position, position + 1⟩
        | some p => decodeFrom read (position + 1) (some p) rest
    | some p =>
      if p.low ≤ b ∧ b ≤ p.high then
        let code := p.code * 0x40 + (b - 0x80)
        match p.owed with
        | 0 => decodeFrom (Char.ofNat code :: read) (position + 1) none rest
        | owed + 1 =>
          decodeFrom read (position + 1)
            (some { p with code, owed, low := 0x80, high := 0xbf }) rest
      else .error ⟨.invalidContinuation, p.lead, p.start, position⟩

/-- The characters that a sequence of bytes encodes, or its first fault. -/
def decode (bytes : List Nat) : Except Fault (List Char) :=
  decodeFrom [] 0 none bytes

end ScriptCheck.Text.Utf8
