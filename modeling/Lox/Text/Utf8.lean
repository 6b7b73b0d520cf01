import Lox.Text.Quoted

/-! Decoding UTF-8. A fault names the offset where the bad sequence starts and how far it is a
beginning of some character. -/

namespace Lox.Text

inductive Utf8Reason where
  | startByte
  | continuation
  | truncated
  deriving DecidableEq, Repr

/-- The bytes from `start` to before `stop` are no character; `lead` is the first of them. -/
structure Utf8Fault where
  start : Nat
  stop : Nat
  lead : UInt8
  reason : Utf8Reason
  deriving DecidableEq, Repr

namespace Utf8Reason

def message : Utf8Reason → String
  | .startByte => "invalid start byte"
  | .continuation => "invalid continuation byte"
  | .truncated => "unexpected end of data"

end Utf8Reason

namespace Utf8Fault

def message (fault : Utf8Fault) : String :=
  let place :=
    if fault.stop = fault.start + 1 then
      "byte 0x" ++ String.ofList (hexadecimal 2 fault.lead.toNat) ++ " in position "
        ++ toString fault.start
    else "bytes in position " ++ toString fault.start ++ "-" ++ toString (fault.stop - 1)
  "'utf-8' codec can't decode " ++ place ++ ": " ++ fault.reason.message

end Utf8Fault

/-- A character of which some bytes are still to come, the next between `low` and `high`. -/
structure Pending where
  start : Nat
  lead : UInt8
  value : Nat
  missing : Nat
  low : UInt8 := 0x80
  high : UInt8 := 0xbf

/-- What a first byte begins: a character with bytes to come, unless no character has it. The
bounds on the second byte keep out overlong forms, surrogates and what is above U+10FFFF. -/
def begin? (offset : Nat) (lead : UInt8) : Option Pending :=
  let value := lead.toNat
  if 0xc2 ≤ lead ∧ lead ≤ 0xdf then some ⟨offset, lead, value - 0xc0, 1, 0x80, 0xbf⟩
  else if lead = 0xe0 then some ⟨offset, lead, 0, 2, 0xa0, 0xbf⟩
  else if lead = 0xed then some ⟨offset, lead, value - 0xe0, 2, 0x80, 0x9f⟩
  else if 0xe1 ≤ lead ∧ lead ≤ 0xef then some ⟨offset, lead, value - 0xe0, 2, 0x80, 0xbf⟩
  else if lead = 0xf0 then some ⟨offset, lead, 0, 3, 0x90, 0xbf⟩
  else if 0xf1 ≤ lead ∧ lead ≤ 0xf3 then some ⟨offset, lead, value - 0xf0, 3, 0x80, 0xbf⟩
  else if lead = 0xf4 then some ⟨offset, lead, value - 0xf0, 3, 0x80, 0x8f⟩
  else none

/-- Decodes from an offset, within a character or between two. -/
def decodeFrom (offset : Nat) : Option Pending → List UInt8 → Except Utf8Fault (List Char)
  | none, [] => .ok []
  | some p, [] => .error ⟨p.start, offset, p.lead, .truncated⟩
  | none, byte :: rest =>
    if byte < 0x80 then (decodeFrom (offset + 1) none rest).map (Char.ofNat byte.toNat :: ·)
    else
      match begin? offset byte with
      | some p => decodeFrom (offset + 1) (some p) rest
      | none => .error ⟨offset, offset + 1, byte, .startByte⟩
  | some p, byte :: rest =>
    if p.low ≤ byte ∧ byte ≤ p.high then
      let value := p.value * 64 + (byte.toNat - 0x80)
      if p.missing = 1 then (decodeFrom (offset + 1) none rest).map (Char.ofNat value :: ·)
      else decodeFrom (offset + 1) (some ⟨p.start, p.lead, value, p.missing - 1, 0x80, 0xbf⟩) rest
    else .error ⟨p.start, offset, p.lead, .continuation⟩

def decodeUtf8 (bytes : List UInt8) : Except Utf8Fault (List Char) := decodeFrom 0 none bytes

end Lox.Text
