/-
Bytes read as text. A sequence of bytes is read as UTF-8, and a byte that cannot stand where it
stands is a fault that names the offending bytes; then every line end becomes one line feed.
-/
import FlowTemplate.Text.Quoted

namespace FlowTemplate

/-- Why some bytes are not UTF-8. -/
inductive Utf8Reason where
  /-- No character starts with this byte. -/
  | invalidStart
  /-- The byte after these does not continue the character. -/
  | invalidContinuation
  /-- The bytes end inside a character. -/
  | unexpectedEnd
  deriving DecidableEq, Repr

/-- Bytes that cannot be read: the offset and value of the first, how many there are, and why. -/
structure Utf8Fault where
  offset : Nat
  first : UInt8
  count : Nat
  reason : Utf8Reason
  deriving DecidableEq, Repr

namespace Utf8Reason

/-- The wording of a reason. -/
def message : Utf8Reason → Text
  | invalidStart => "invalid start byte".toList
  | invalidContinuation => "invalid continuation byte".toList
  | unexpectedEnd => "unexpected end of data".toList

end Utf8Reason

namespace Utf8Fault

/-- The wording of a fault: one byte is shown, several are located by their first and last. -/
def message (fault : Utf8Fault) : Text :=
  let place :=
    if fault.count = 1 then
      "byte 0x".toList ++ Text.hex 2 fault.first.toNat ++ " in position ".toList
        ++ Text.ofNat fault.offset
    else
      "bytes in position ".toList ++ Text.ofNat fault.offset ++ ['-']
        ++ Text.ofNat (fault.offset + fault.count - 1)
  "'utf-8' codec can't decode ".toList ++ place ++ ": ".toList ++ fault.reason.message

end Utf8Fault

namespace Utf8

/-- Whether a byte continues a character. -/
def isContinuation (b : UInt8) : Bool := 0x80 ≤ b && b ≤ 0xBF

/-- Whether `second` may follow the first byte `first`: it continues the character, the character
does not fit in fewer bytes, and it is neither a surrogate nor past the last code point. -/
def mayFollow (first second : UInt8) : Bool :=
  isContinuation second &&
    (if first = 0xE0 then 0xA0 ≤ second
    else if first = 0xED then second ≤ 0x9F
    else if first = 0xF0 then 0x90 ≤ second
    else if first = 0xF4 then second ≤ 0x8F
    else true)

/-- The six bits that a continuation byte carries. -/
def payload (b : UInt8) : Nat := b.toNat % 0x40

/-- Reads UTF-8 that starts at `offset` of the whole. -/
def decodeFrom (offset : Nat) : List UInt8 → Except Utf8Fault Text
  | [] => .ok []
  | a :: rest =>
    let fault (count : Nat) (reason : Utf8Reason) : Except Utf8Fault Text :=
      .error ⟨offset, a, count, reason⟩
    if a < 0x80 then do
      return Char.ofNat a.toNat :: (← decodeFrom (offset + 1) rest)
    else if a < 0xC2 || 0xF4 < a then fault 1 .invalidStart
    else
      match rest with
      | [] => fault 1 .unexpectedEnd
      | b :: rest =>
        if !mayFollow a b then fault 1 .invalidContinuation
        else if a < 0xE0 then do
          return Char.ofNat (a.toNat % 0x20 * 0x40 + payload b) :: (← decodeFrom (offset + 2) rest)
        else
          match rest with
          | [] => fault 2 .unexpectedEnd
          | c :: rest =>
            if !isContinuation c then fault 2 .invalidContinuation
            else if a < 0xF0 then do
              return Char.ofNat ((a.toNat % 0x10 * 0x40 + payload b) * 0x40 + payload c)
                :: (← decodeFrom (offset + 3) rest)
            else
              match rest with
              | [] => fault 3 .unexpectedEnd
              | d :: rest =>
                if !isContinuation d then fault 3 .invalidContinuation
                else do
                  return Char.ofNat
                      (((a.toNat % 0x08 * 0x40 + payload b) * 0x40 + payload c) * 0x40 + payload d)
                    :: (← decodeFrom (offset + 4) rest)

end Utf8

namespace Text

/-- Every line end as one line feed: a carriage return with the line feed after it, and a carriage
return alone. -/
def unifyLineEnds : Text → Text
  | [] => []
  | '\r' :: '\n' :: rest => '\n' :: unifyLineEnds rest
  | c :: rest => (if c = '\r' then '\n' else c) :: unifyLineEnds rest

/-- The text that a sequence of bytes spells, with unified line ends. -/
def ofBytes (bytes : List UInt8) : Except Utf8Fault Text :=
  (Utf8.decodeFrom 0 bytes).map unifyLineEnds

/-- The bytes of a text in UTF-8. -/
def toBytes (text : Text) : List UInt8 := text.flatMap String.utf8EncodeChar

end Text

end FlowTemplate
