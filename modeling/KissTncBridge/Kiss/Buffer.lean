import KissTncBridge.Kiss.Frame

namespace KissTncBridge.Kiss

structure KissReassemblyBuffer where
  buf : List UInt8
  maxSize : Nat
  inFrame : Bool
deriving DecidableEq, Repr

/-- What the scan of `drain_frames` carries from one byte to the next. -/
structure Scan where
  frames : List (List UInt8)
  frameStart : Option Nat
  lastConsumed : Nat
deriving DecidableEq, Repr

namespace KissReassemblyBuffer

def new (maxSize : Nat) : KissReassemblyBuffer := ⟨[], maxSize, false⟩

/-- A push that does not fit empties the buffer. -/
def push (b : KissReassemblyBuffer) (data : List UInt8) :
    Except String Unit × KissReassemblyBuffer :=
  if b.buf.length + data.length > b.maxSize then
    (.error "reassembly buffer overflow", { b with buf := [], inFrame := false })
  else (.ok (), { b with buf := b.buf ++ data })

/-- One byte of the scan. -/
def scan (buf : List UInt8) (s : Scan) (i : Nat) : Scan :=
  if buf[i]? = some FEND then
    { frames := match s.frameStart with
        | some start =>
          if i > start then s.frames ++ [(buf.drop start).take (i - start)] else s.frames
        | none => s.frames
      frameStart := some (i + 1)
      lastConsumed := i + 1 }
  else s

/-- Extract all complete frames: the raw bytes between FEND delimiters. A
trailing partial frame stays in the buffer. -/
def drainFrames (b : KissReassemblyBuffer) : List (List UInt8) × KissReassemblyBuffer :=
  let s := (List.range b.buf.length).foldl (scan b.buf) ⟨[], if b.inFrame then some 0 else none, 0⟩
  (s.frames, { b with
    buf := if s.lastConsumed > 0 then b.buf.drop s.lastConsumed else b.buf
    inFrame := b.inFrame || decide (s.lastConsumed > 0) || s.frameStart.isSome })

end KissReassemblyBuffer
end KissTncBridge.Kiss
