import KissTncBridge.Kiss.Buffer

namespace KissTncBridge.Wire
open Kiss

/-- A frame longer than this is a protocol error. -/
def MAX_FRAME_BYTES : Nat := 8192

/-- How much one read brings at most. -/
def READ_BUF : Nat := 2048

inductive ReadError where
  | io (why : String)
  | linkClosed
  | kissFrame (why : String)
deriving DecidableEq, Repr

/-- What one read of the stream returns; a stream that is at its end returns
no bytes. -/
abbrev Read := Except String (List UInt8)

/-- `pending` are frames that were complete but not asked for yet. -/
structure KissReader where
  reassembly : KissReassemblyBuffer
  pending : List (List UInt8)
deriving DecidableEq, Repr

namespace KissReader

def withMaxFrame (maxFrame : Nat) : KissReader := ⟨.new maxFrame, []⟩

def new : KissReader := withMaxFrame MAX_FRAME_BYTES

/-- The next complete frame, still stuffed, from a stream that returns `reads`
one after the other. -/
def readFrame (r : KissReader) (reads : List Read) :
    Except ReadError (List UInt8) × KissReader × List Read :=
  match r.pending, reads with
  | f :: rest, reads => (.ok f, { r with pending := rest }, reads)
  | [], [] => (.error .linkClosed, r, [])
  | [], .error e :: reads => (.error (.io e), r, reads)
  | [], .ok [] :: reads => (.error .linkClosed, r, reads)
  | [], .ok (b :: bs) :: reads =>
    match r.reassembly.push (b :: bs) with
    | (.error e, buffer) => (.error (.kissFrame e), { r with reassembly := buffer }, reads)
    | (.ok _, buffer) =>
      let (frames, buffer) := buffer.drainFrames
      readFrame ⟨buffer, frames⟩ reads

/-- A frame that is returned was waiting, or was read. -/
theorem readFrame_ok {r : KissReader} {reads : List Read}
    (h : r.readFrame reads = (.ok f, r', reads')) :
    reads'.length < reads.length ∨ (reads' = reads ∧ r.pending = f :: r'.pending) := by
  fun_induction readFrame r reads with
  | case1 r f rest reads =>
    cases h
    exact .inr ⟨rfl, by assumption⟩
  | case6 r _ b bs reads _ buffer frames _ hp hd ih =>
    left
    rcases ih h with hr | ⟨rfl, _⟩
    · exact Nat.lt_succ_of_lt hr
    · exact Nat.lt_succ_self _
  | _ => cases h

/-- The frames read until the stream fails, and why it did. -/
def readAll (r : KissReader) (reads : List Read) : List (List UInt8) × ReadError :=
  match _ : r.readFrame reads with
  | (.error e, _, _) => ([], e)
  | (.ok f, r', reads') => let (fs, e) := readAll r' reads'; (f :: fs, e)
termination_by (reads.length, r.pending.length)
decreasing_by
  rename_i h
  rcases readFrame_ok h with hr | ⟨rfl, hp⟩
  · exact Prod.Lex.left _ _ hr
  · exact Prod.Lex.right _ (by rw [hp]; exact Nat.lt_succ_self _)

end KissReader

/-- One frame on the wire, given as the raw bytes between FENDs. -/
def writeFrame (raw : List UInt8) : List UInt8 := FEND :: raw ++ [FEND]

end KissTncBridge.Wire
