import KissTncBridge.Port.TncInit

namespace KissTncBridge.TncInit
open Kiss Wire

/-- The radio of the tests. It answers commands in command mode, ignores them in
KISS mode and leaves KISS mode on KISS "return". `busy` has it answer `?` to
commands as they come, `queue` is what it has sent and has not been read, and
`owed` is how much of that there is up to the end of the last answer. -/
structure RadioState where
  mode : UInt8
  band : UInt8
  kissElsewhere : Bool := false
  busy : List Bool := []
  line : List UInt8 := []
  kiss : List UInt8 := []
  queue : List UInt8 := []
  owed : Nat := 0
deriving DecidableEq, Repr

namespace RadioState

/-- The radio is in KISS mode, and on this link. -/
def inKiss (st : RadioState) : Bool := st.mode == 2 && !st.kissElsewhere

def answer (st : RadioState) (text : String) : RadioState :=
  let queue := st.queue ++ bytes (text ++ "\r")
  { st with queue, owed := queue.length }

/-- A `TN` command it cannot read ends the fake, which then answers nothing. -/
def setTn (st : RadioState) (cmd value : String) : RadioState :=
  match splitOnce ',' value with
  | none => st
  | some (mode, band) =>
    match uint8 mode, uint8 band with
    | some mode, some band => { st with mode, band }.answer cmd
    | _, _ => st

def obey (st : RadioState) (cmd : String) : RadioState :=
  if cmd = "BT" then st.answer "BT 1"
  else if cmd = "ID" then st.answer "ID TH-D75"
  else if cmd = "TN" then st.answer ("TN " ++ toString st.mode ++ "," ++ toString st.band)
  else
    match stripStart "TN " cmd with
    | some value => st.setTn cmd value
    | none => st.answer "?"

/-- A radio that is busy only says so. -/
def command (st : RadioState) (cmd : String) : RadioState :=
  match st.busy with
  | true :: busy => { st with busy }.answer "?"
  | false :: busy => { st with busy }.obey cmd
  | [] => st.obey cmd

/-- One byte sent to the radio. -/
def take (st : RadioState) (b : UInt8) : RadioState :=
  if st.inKiss then
    let kiss := st.kiss ++ [b]
    if KISS_RETURN.isSuffixOf kiss then { st with mode := 0, kiss := [] }
    else if (bytes "BT\r").isSuffixOf kiss then { st with kiss := [] }
    else { st with kiss }
  else if b = FEND then st
  else if b ≠ CR then { st with line := st.line ++ [b] }
  else { st with line := [] }.command (fromUtf8Lossy st.line)

end RadioState

/-- What happens on a link to the radio: what init does, and a frame that the
radio hears and passes on. -/
inductive Label where
  | act (a : Act)
  | air (raw : List UInt8)
deriving DecidableEq, Repr

/-- A read brings what has been sent, some or all of it. A wait ends with nothing
only if no answer is on its way. -/
def RadioState.step (st : RadioState) : Label → Option RadioState
  | .act (.sent bs) => some (bs.foldl take st)
  | .act (.got bs) =>
    if bs.isPrefixOf st.queue then
      some { st with queue := st.queue.drop bs.length, owed := st.owed - bs.length }
    else none
  | .act (.quiet _) => if st.owed = 0 then some st else none
  | .act (.slept _) => some st
  | .air raw =>
    if raw ≠ [] ∧ FEND ∉ raw then some { st with queue := st.queue ++ writeFrame raw } else none

/-- What init did among all that happened. -/
def acts (labels : List Label) : List Act :=
  labels.filterMap (fun | .act a => some a | .air _ => none)

/-- The frames the radio heard meanwhile. -/
def heard (labels : List Label) : List (List UInt8) :=
  labels.filterMap (fun | .act _ => none | .air raw => some raw)

/-- The bytes sent, one write after the other, and the bytes got. -/
def sends (trace : List Act) : List (List UInt8) :=
  trace.filterMap (fun | .sent bs => some bs | _ => none)

def received (trace : List Act) : List UInt8 :=
  (trace.filterMap (fun | .got bs => some bs | _ => none)).flatten

end KissTncBridge.TncInit
