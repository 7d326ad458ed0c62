import KissTncBridge.Kiss.Frame

namespace KissTncBridge.Ax25
open Kiss

structure Header where
  source : String
  destination : String
  /-- Digipeaters, `*` on those that have repeated the frame. -/
  path : List String
deriving DecidableEq, Repr

/-- A KISS frame, decoded as far as it decodes. -/
structure Decoded where
  channel : UInt8
  command : UInt8
  ax25 : Option Header
  summary : String
deriving DecidableEq, Repr

/-- Callsign characters are shifted left by one bit. -/
def shifted (b : UInt8) : Char := Char.ofNat (b >>> 1).toNat

/-- The callsign's characters, without the spaces it is padded with. -/
def callsign : List UInt8 → Option (List Char)
  | [] => some []
  | b :: bs =>
    let c := shifted b
    if c ≠ ' ' then
      if c.isUpper || c.isDigit then (callsign bs).map (c :: ·) else none
    else callsign bs

/-- One 7-byte address: callsign, whether it is the last address, and the
has-been-repeated bit. -/
def address (field : List UInt8) : Option (String × Bool × Bool) := do
  let call ← callsign (field.take 6)
  if call.isEmpty then none
  else
    let flags := field.getD 6 0
    let ssid := (flags >>> 1) &&& 0x0F
    let suffix := if ssid ≠ 0 then "-" ++ toString ssid.toNat else ""
    some (String.ofList call ++ suffix, flags &&& 0x01 == 1, flags &&& 0x80 != 0)

/-- The address fields up to the last one, with what follows them. -/
def addresses (addrs : List (String × Bool)) :
    List UInt8 → Option (List (String × Bool) × List UInt8)
  | b₀ :: b₁ :: b₂ :: b₃ :: b₄ :: b₅ :: b₆ :: rest => do
    let (call, last, repeated) ← address [b₀, b₁, b₂, b₃, b₄, b₅, b₆]
    let addrs := addrs ++ [(call, repeated)]
    if last then some (addrs, rest)
    -- destination, source and at most 8 digipeaters
    else if addrs.length > 10 then none
    else addresses addrs rest
  | _ => none

/-- UI (0x03, either poll/final) and I frames (low bit 0) carry a PID and an
information field; others carry neither. -/
def carriesInfo (control : UInt8) : Bool := control &&& 0xEF == 0x03 || control &&& 0x01 == 0

/-- The address fields, and the information field of UI and I frames. -/
def parse (data : List UInt8) : Option (Header × List UInt8) := do
  let (addrs, rest) ← addresses [] data
  match addrs with
  | destination :: source :: via =>
    let control ← rest.head?
    let info := if carriesInfo control then rest.drop 2 else []
    some (⟨source.1, destination.1, via.map (fun a => if a.2 then a.1 ++ "*" else a.1)⟩, info)
  | _ => none

def printable (b : List UInt8) : String :=
  String.ofList (b.map (fun c => if 0x20 ≤ c ∧ c ≤ 0x7E then Char.ofNat c.toNat else '.'))

def hex (b : List UInt8) : String := String.intercalate " " (b.map (fun x => Text.hexByte x.toNat))

/-- Decode the bytes between FENDs as forwarded, still stuffed. -/
def decode (raw : List UInt8) : Decoded :=
  match KissFrame.decode raw with
  | .error _ => ⟨0, 0, none, "undecodable KISS frame (" ++ toString raw.length ++ " bytes)"⟩
  | .ok frame =>
    let channel := frame.command >>> 4
    let command := frame.command &&& 0x0F
    if command ≠ 0 then
      ⟨channel, command, none,
        "KISS command 0x" ++ Text.hex command.toNat ++ ": " ++ hex frame.data⟩
    else match parse frame.data with
      | some (header, info) =>
        let via := if header.path.isEmpty then "" else "," ++ String.intercalate "," header.path
        ⟨channel, command, some header,
          header.source ++ ">" ++ header.destination ++ via ++ ":" ++ printable info⟩
      | none => ⟨channel, command, none, toString frame.data.length ++ " bytes, not AX.25"⟩

end KissTncBridge.Ax25
