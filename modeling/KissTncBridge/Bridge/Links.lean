import KissTncBridge.Bridge.Run

namespace KissTncBridge.Bridge
open Conf Lib

def TNC_QUEUE : Nat := 64

/-- A bridge with the queue that the reader and writer tasks of all its links
share. Each message is kept with the link it came from, which the source does
not have. -/
structure Links where
  run : Run
  queue : List (Nat × TncEvent) := []

/-- The tasks of a link go on until they end by themselves: an abort or a
dropped sender reaches them at any later time. -/
inductive LinksEvent where
  | reads (link generation : Nat) (frame : Frame)
  | fails (link generation : Nat) (error : Error)
  | takes (now : Now)
  | turn (e : Event)

namespace Links

/-- A message of one of the link's tasks, which waits while the queue is full. -/
def send (s : Links) (link generation : Nat) (ev : TncEvent) : Option Links :=
  if .spawnLink link generation ∈ s.run.out ∧ s.queue.length < TNC_QUEUE then
    some { s with queue := s.queue ++ [(link, ev)] }
  else none

def step (s : Links) : LinksEvent → Option Links
  | .reads link generation frame => s.send link generation (.frame generation frame)
  | .fails link generation error => s.send link generation (.closed generation error)
  | .takes now =>
    match s.queue with
    | [] => none
    | (_, ev) :: rest => (s.run.step (.tnc now ev)).map (fun run => ⟨run, rest⟩)
  | .turn (.tnc _ _) => none
  | .turn e => (s.run.step e).map (fun run => { s with run := run })

end Links
end KissTncBridge.Bridge
