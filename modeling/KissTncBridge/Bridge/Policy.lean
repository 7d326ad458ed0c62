import KissTncBridge.Config.Resolved

namespace KissTncBridge.Bridge
open Conf

/-- The bytes between two FENDs, still stuffed. -/
abbrev Frame := List UInt8

def CMD_DATA : UInt8 := 0x00
def CMD_TXDELAY : UInt8 := 0x01
def CMD_PERSISTENCE : UInt8 := 0x02
def CMD_SLOTTIME : UInt8 := 0x03
def CMD_TXTAIL : UInt8 := 0x04
def CMD_FULLDUPLEX : UInt8 := 0x05
def CMD_SETHARDWARE : UInt8 := 0x06
/-- Leaves KISS mode: a whole-byte command without a channel. -/
def CMD_RETURN : UInt8 := 0xFF

inductive Verdict where
  | pass
  | drop (why : String)
deriving DecidableEq, Repr

/-- Whether a frame from an app may go to the TNC. -/
def filterAppFrame (raw : Frame) (appParams : AppParams) : Verdict :=
  match raw with
  | [] => .drop "empty frame"
  | cmd :: _ =>
    if cmd = CMD_RETURN then .drop "KISS return (C0 FF C0) from an app"
    else
      let c := cmd &&& 0x0F
      if c = CMD_DATA then .pass
      else if c ∈ [CMD_TXDELAY, CMD_PERSISTENCE, CMD_SLOTTIME, CMD_TXTAIL, CMD_FULLDUPLEX,
          CMD_SETHARDWARE] then
        match appParams with
        | .pass => .pass
        | .drop => .drop "KISS parameter command (app_params = \"drop\")"
      else .drop "unknown KISS command"

end KissTncBridge.Bridge
