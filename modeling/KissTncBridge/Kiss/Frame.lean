import KissTncBridge.Net

namespace KissTncBridge.Kiss

def FEND : UInt8 := 0xC0
def FESC : UInt8 := 0xDB
def TFEND : UInt8 := 0xDC
def TFESC : UInt8 := 0xDD

structure KissFrame where
  command : UInt8
  data : List UInt8
deriving DecidableEq, Repr

def stuffByte (b : UInt8) : List UInt8 :=
  if b = FEND then [FESC, TFEND]
  else if b = FESC then [FESC, TFESC]
  else [b]

namespace KissFrame

/-- The bytes between the delimiters. -/
def stuffed (f : KissFrame) : List UInt8 := stuffByte f.command ++ f.data.flatMap stuffByte

/-- Undo the stuffing of a frame's data. -/
def unstuff : List UInt8 → Except String (List UInt8)
  | [] => .ok []
  | b :: bs =>
    if b = FESC then
      match bs with
      | [] => .error "truncated escape sequence"
      | e :: bs =>
        if e = TFEND then (unstuff bs).map (FEND :: ·)
        else if e = TFESC then (unstuff bs).map (FESC :: ·)
        else .error ("invalid escape byte 0x" ++ Text.hexByte e.toNat)
    else (unstuff bs).map (b :: ·)

/-- Decode a raw KISS frame (the bytes between FEND delimiters). The command
byte is taken as it is. -/
def decode : List UInt8 → Except String KissFrame
  | [] => .error "empty frame"
  | command :: raw => (unstuff raw).map (fun data => ⟨command, data⟩)

/-- Encode into wire format with FEND delimiters and byte stuffing. -/
def encode (f : KissFrame) : List UInt8 := FEND :: f.stuffed ++ [FEND]

end KissFrame
end KissTncBridge.Kiss
