import KissTncBridge.Config.Values
import KissTncBridge.Port.Stream

namespace KissTncBridge.TncInit
open Kiss Wire Conf

/-- KISS "return": leave KISS mode. -/
def KISS_RETURN : List UInt8 := [FEND, 0xFF, FEND]

/-- How long to wait for a reply to a radio command, and how long a TNC that
just entered KISS mode must stay silent to a probe. -/
def REPLY_WAIT : Duration := 1000
def KISS_CHECK_WAIT : Duration := 500

/-- How long the radio needs after leaving KISS mode before it takes commands. -/
def AFTER_KISS_RETURN : Duration := 300

/-- `?` means the radio is busy; ask again this many times, this far apart. -/
def BUSY_RETRIES : Nat := 3
def BUSY_GAP : Duration := 200

def MAX_LINE : Nat := 128
def MAX_FRAME : Nat := 8192

def CR : UInt8 := 0x0D
def LF : UInt8 := 0x0A

/-- The UTF-8 bytes of a text. -/
def bytes (s : String) : List UInt8 := s.toList.flatMap String.utf8EncodeChar

/-- A character that has begun: the bits so far, how many bytes follow the next
one, and the range the next one must be in. -/
structure Begun where
  bits : Nat
  more : Nat
  low : UInt8
  high : UInt8
deriving DecidableEq, Repr

/-- What a byte at the start of a character gives. -/
def beginChar (b : UInt8) : List Char × Option Begun :=
  if b < 0x80 then ([Char.ofNat b.toNat], none)
  else if 0xC2 ≤ b ∧ b ≤ 0xDF then ([], some ⟨b.toNat % 32, 0, 0x80, 0xBF⟩)
  else if b = 0xE0 then ([], some ⟨b.toNat % 16, 1, 0xA0, 0xBF⟩)
  else if b = 0xED then ([], some ⟨b.toNat % 16, 1, 0x80, 0x9F⟩)
  else if 0xE1 ≤ b ∧ b ≤ 0xEF then ([], some ⟨b.toNat % 16, 1, 0x80, 0xBF⟩)
  else if b = 0xF0 then ([], some ⟨b.toNat % 8, 2, 0x90, 0xBF⟩)
  else if 0xF1 ≤ b ∧ b ≤ 0xF3 then ([], some ⟨b.toNat % 8, 2, 0x80, 0xBF⟩)
  else if b = 0xF4 then ([], some ⟨b.toNat % 8, 2, 0x80, 0x8F⟩)
  else ([Char.ofNat 0xFFFD], none)

def nextByte (c : Option Begun) (b : UInt8) : List Char × Option Begun :=
  match c with
  | none => beginChar b
  | some c =>
    if c.low ≤ b ∧ b ≤ c.high then
      let bits := c.bits * 64 + b.toNat % 64
      match c.more with
      | 0 => ([Char.ofNat bits], none)
      | more + 1 => ([], some ⟨bits, more, 0x80, 0xBF⟩)
    else
      let (chars, next) := beginChar b
      (Char.ofNat 0xFFFD :: chars, next)

/-- The characters of UTF-8 bytes, with a replacement character for whatever is
not UTF-8. -/
def lossyChars : Option Begun → List UInt8 → List Char
  | none, [] => []
  | some _, [] => [Char.ofNat 0xFFFD]
  | c, b :: bs => (nextByte c b).1 ++ lossyChars (nextByte c b).2 bs

def fromUtf8Lossy (bs : List UInt8) : String := String.ofList (lossyChars none bs)

/-- What follows `p` in a text that starts with it. -/
def stripStart (p s : String) : Option String :=
  if p.toList.isPrefixOf s.toList then some (String.ofList (s.toList.drop p.toList.length))
  else none

/-- What stands before and after the first `c`. -/
def splitOnce (c : Char) (s : String) : Option (String × String) :=
  if c ∈ s.toList then
    some (String.ofList (s.toList.takeWhile (· ≠ c)),
      String.ofList ((s.toList.dropWhile (· ≠ c)).drop 1))
  else none

def uint8 (s : String) : Option UInt8 := (Parse.number 10 UInt8.size s.toList).map Nat.toUInt8

/-- `TN 1,0` is mode 1 on band 0. -/
def parseTn (reply : String) : Option (UInt8 × UInt8) := do
  let (mode, band) ← splitOnce ',' (← stripStart "TN " reply)
  some (← uint8 (Text.trim mode), ← uint8 (Text.trim band))

inductive Scan where
  | text
  | frame
  | afterFrame
deriving DecidableEq, Repr

/-- What comes over a stream that carries replies and may also carry KISS
frames. `line` is the text outside frames since the last reply. -/
structure Radio where
  line : List UInt8 := []
  frame : List UInt8 := []
  state : Scan := .text
  replies : List String := []
  frames : List (List UInt8) := []
deriving DecidableEq, Repr

namespace Radio

/-- One byte of `push`. A FEND that closes a frame may also open the next one,
or be followed by a reply: a frame starts with a byte below 0x20. -/
def take (r : Radio) (b : UInt8) : Radio :=
  if b = FEND then
    if r.state = .frame ∧ r.frame ≠ [] then
      { r with frames := r.frames ++ [r.frame], frame := [], state := .afterFrame }
    else { r with frame := [], state := .frame }
  else if r.state = .afterFrame ∧ b < 0x20 then { r with frame := r.frame ++ [b], state := .frame }
  else if r.state = .frame then
    if r.frame.length < MAX_FRAME then { r with frame := r.frame ++ [b] }
    else { r with frame := [], state := .text }
  else if b = CR ∨ b = LF then
    if r.line = [] then { r with state := .text }
    else
      { r with
        state := .text
        line := []
        replies := r.replies ++ [Text.trim (fromUtf8Lossy r.line)] }
  else if r.line.length < MAX_LINE then { r with state := .text, line := r.line ++ [b] }
  else { r with state := .text, line := [] }

/-- Split incoming bytes into KISS frames and lines. -/
def push (r : Radio) (data : List UInt8) : Radio := data.foldl take r

end Radio

inductive Error where
  | connect (why : String)
  | linkClosed
  | io (why : String)
deriving DecidableEq, Repr

/-- What the next operation on the link meets. A read of no bytes is the end of
the stream, and an error ends a read, a write or a sleep: the link has failed or
init has taken as long as it may. -/
inductive Event where
  | bytes (bs : List UInt8)
  | deadline
  | failed (e : Error)
deriving DecidableEq, Repr

/-- What init has done: bytes sent, bytes got, a wait that brought nothing
(more), and a sleep. -/
inductive Act where
  | sent (bs : List UInt8)
  | got (bs : List UInt8)
  | quiet (wait : Duration)
  | slept (time : Duration)
deriving DecidableEq, Repr

structure Link where
  radio : Radio := {}
  tape : List Event
  trace : List Act := []
deriving DecidableEq, Repr

abbrev Talk := EStateM Error Link

/-- An operation that goes through unless the tape has it fail. -/
def act (a : Act) : Talk Unit := fun s =>
  match s.tape with
  | .failed e :: tape => .error e { s with tape }
  | _ => .ok () { s with trace := s.trace ++ [a] }

def sendRaw (bs : List UInt8) : Talk Unit := act (.sent bs)

def sleep (time : Duration) : Talk Unit := act (.slept time)

/-- Read until there is a reply or the wait is over. -/
def hear (wait : Duration) (r : Radio) (trace : List Act) (tape : List Event) :
    EStateM.Result Error Link (Option String) :=
  match r.replies, tape with
  | reply :: replies, tape => .ok (some reply) ⟨{ r with replies }, tape, trace⟩
  | [], [] => .error .linkClosed ⟨r, [], trace⟩
  | [], .deadline :: tape => .ok none ⟨r, tape, trace ++ [.quiet wait]⟩
  | [], .failed e :: tape => .error e ⟨r, tape, trace⟩
  | [], .bytes [] :: tape => .error .linkClosed ⟨r, tape, trace⟩
  | [], .bytes (b :: bs) :: tape => hear wait (r.push (b :: bs)) (trace ++ [.got (b :: bs)]) tape

def reply (wait : Duration) : Talk (Option String) := fun s => hear wait s.radio s.trace s.tape

def clearReplies : Talk Unit := fun s => .ok () { s with radio := { s.radio with replies := [] } }

def attempt (cmd : String) (wait : Duration) : Talk (Option String) := do
  clearReplies
  sendRaw (bytes (cmd ++ "\r"))
  reply wait

/-- Send `cmd` and return its reply, or `none` if there is none in time. A busy
reply is retried as often as given. -/
def ask (cmd : String) (wait : Duration) : Nat → Talk (Option String)
  | 0 => attempt cmd wait
  | retries + 1 => do
    let r ← attempt cmd wait
    if r = some "?" then
      sleep BUSY_GAP
      ask cmd wait retries
    else pure r

def commandWithin (cmd : String) (wait : Duration) : Talk (Option String) :=
  ask cmd wait BUSY_RETRIES

def command (cmd : String) : Talk (Option String) := commandWithin cmd REPLY_WAIT

/-- What init found and what it leaves behind: the radio's model, the frames that
arrived meanwhile, raw, and what takes the TNC back out of KISS mode. -/
structure InitOutcome where
  radio : Option String := none
  frames : List (List UInt8) := []
  exitKiss : List (List UInt8)
deriving DecidableEq, Repr

/-- Get the command parser to answer, and say whether it took leaving KISS
mode. -/
def probe : Talk Bool := do
  match ← command "BT" with
  | some _ => pure false
  | none =>
    sendRaw KISS_RETURN
    sleep AFTER_KISS_RETURN
    match ← command "BT" with
    | some _ => pure true
    | none => throw (.connect "the TNC doesn't answer TH-D7x commands, in or out of KISS mode")

/-- KISS mode on `band`, and silence on this link as the proof of it. -/
def enterKiss (band : UInt8) : Talk Unit := do
  let answer ← command ("TN 2," ++ toString band)
  if answer.any (fun reply => "TN".toList.isPrefixOf reply.toList) then
    match ← commandWithin "BT" KISS_CHECK_WAIT with
    | some _ =>
      throw (.connect
        ("the radio took KISS mode, but not on this link: set Menu > Configuration > " ++
          "Interface > KISS (983) to this interface (Bluetooth or USB)"))
    | none => pure ()
  else
    throw (.connect ("the TNC didn't accept KISS mode (TN 2," ++ toString band ++ "): " ++
      answer.getD "no reply"))

def radioId (reply : String) : String := Text.trim ((stripStart "ID " reply).getD reply)

/-- Leaving KISS turns the TNC off; put back APRS if that's what it was. -/
def exitSteps (prevMode : Option UInt8) (band : UInt8) : List (List UInt8) :=
  KISS_RETURN :: if prevMode = some 1 then [bytes ("TN 1," ++ toString band ++ "\r")] else []

/-- After a KISS exit `TN` reports off, so what the probe saw is the mode to
restore. -/
def initThD7x : Talk InitOutcome := do
  let wasKiss ← probe
  let radio ← command "ID"
  let tn ← command "TN"
  let found := tn.bind parseTn
  let band := (found.map Prod.snd).getD 0
  let prevMode := if wasKiss then some 2 else found.map Prod.fst
  enterKiss band
  let link ← get
  pure ⟨radio.map radioId, link.radio.frames, exitSteps prevMode band⟩

/-- Put the TNC on the link into KISS mode. -/
def init : TncModel → Talk InitOutcome
  | .generic | .tdH9 => pure { exitKiss := [KISS_RETURN] }
  | .thD7x => initThD7x

/-- A link with bytes to hand out before its own: the frames init read off the
stream. -/
structure Prefixed where
  front : List UInt8
  pos : Nat
  inner : List Read
deriving DecidableEq, Repr

namespace Prefixed

def new (inner : List Read) (frames : List (List UInt8)) : Prefixed :=
  ⟨frames.flatMap writeFrame, 0, inner⟩

def pollRead (p : Prefixed) (room : Nat) : Read × Prefixed :=
  if p.pos < p.front.length then
    let n := min (p.front.length - p.pos) room
    (.ok ((p.front.drop p.pos).take n),
      if p.pos + n = p.front.length then { p with front := [], pos := 0 }
      else { p with pos := p.pos + n })
  else
    match p.inner with
    | [] => (.ok [], p)
    | r :: inner => (r, { p with inner })

/-- What a KISS reader's reads return, one after the other. -/
def reads (p : Prefixed) : List Read :=
  if p.pos < p.front.length then (p.pollRead READ_BUF).1 :: (p.pollRead READ_BUF).2.reads
  else p.inner
termination_by p.front.length - p.pos
decreasing_by
  rename_i h
  simp only [pollRead, if_pos h]
  have hb : 0 < READ_BUF := by decide
  split
  · simp only [List.length_nil]
    omega
  · simp only
    omega

end Prefixed

/-- What a connector returns: the link to read frames from, and what takes the
TNC out of KISS mode again. -/
structure Opened where
  link : Prefixed
  exitKiss : List (List UInt8)
deriving DecidableEq, Repr

/-- The last step of a connect: what init has read goes in front of what the
stream still brings. -/
def opened (inner : List Read) (out : InitOutcome) : Opened :=
  ⟨.new inner out.frames, out.exitKiss⟩

end KissTncBridge.TncInit
