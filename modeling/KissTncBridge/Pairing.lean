import KissTncBridge.Lib.Runs

namespace KissTncBridge.Pairing

/-- Steps queued for the requester's connection. -/
def STEPS : Nat := 8

/-- Replies queued for the pairing's questions. -/
def REPLIES : Nat := 4

inductive PairingStep where
  | searching
  | pairing (name : Option String)
  | confirm (passkey : String)
  | enterPin
  | enterPasskey
  | showPin (pin : String)
  | showPasskey (passkey : String)
  | authorize
deriving DecidableEq, Repr

/-- A reply to a step that needs one. -/
structure Reply where
  accept : Option Bool := none
  pin : Option String := none
  passkey : Option UInt32 := none
deriving DecidableEq, Repr

inductive ReqError where
  | rejected
  | canceled
deriving DecidableEq, Repr

/-- What the agent can be asked for that a person answers. -/
inductive Question where
  | confirm (passkey : UInt32)
  | pin
  | passkey
  | authorize
deriving DecidableEq, Repr

inductive Answer where
  | ok
  | pin (pin : String)
  | passkey (passkey : UInt32)
deriving DecidableEq, Repr

namespace Question

def step : Question → PairingStep
  | .confirm key => .confirm (String.ofList ((Nat.toDigits 10 key.toNat).leftpad 6 '0'))
  | .pin => .enterPin
  | .passkey => .enterPasskey
  | .authorize => .authorize

/-- What its callback makes of the reply it got. -/
def answer : Question → Reply → Except ReqError Answer
  | .confirm _, r | .authorize, r => if r.accept = some true then .ok .ok else .error .rejected
  | .pin, r => (r.pin.map Answer.pin).elim (.error .rejected) .ok
  | .passkey, r => (r.passkey.map Answer.passkey).elim (.error .rejected) .ok

end Question

/-- How far `ask` is with a question: it waits for room to send its step, for its turn
at the replies, or for a reply. `number` counts the steps sent before its own. -/
inductive Stage where
  | sending
  | waiting (number : Nat)
  | receiving (number : Nat)
deriving DecidableEq, Repr

def Stage.number : Stage → Option Nat
  | sending => none
  | waiting n | receiving n => some n

def Stage.isReceiving : Stage → Bool
  | receiving _ => true
  | _ => false

structure Ask where
  question : Question
  stage : Stage
deriving DecidableEq, Repr

/-- A reply, and how many steps had been sent to the requester when it was given. -/
structure Given where
  reply : Reply
  after : Nat
deriving DecidableEq, Repr

inductive Phase where
  | waiting
  | running
  | ended
deriving DecidableEq, Repr

/-- A pairing and its requester. A step goes through the channel and the task that
forwards it (`hand`) to the requester's connection; a reply goes through the commands
the daemon has not yet handled to the channel that the questions share. -/
structure State where
  phase : Phase := .waiting
  steps : List PairingStep := []
  hand : Option PairingStep := none
  shown : List PairingStep := []
  asks : List Ask := []
  inFlight : List Given := []
  replies : List Given := []
  returned : List (Ask × Given) := []
deriving DecidableEq, Repr

inductive Event where
  | start
  | tell (step : PairingStep)
  | ask (question : Question)
  | send (i : Nat)
  | take
  | forward
  | lock (i : Nat)
  | reply (reply : Reply)
  | handle
  | recv (i : Nat)
  | cancel (i : Nat)
  | finish
deriving DecidableEq, Repr

namespace State

/-- All steps, in the order sent. -/
def line (s : State) : List PairingStep := s.shown ++ (s.hand.toList ++ s.steps)

/-- Replies that no question has got. -/
def outstanding (s : State) : List Given := s.replies ++ s.inFlight

/-- One step of the pairing, its questions and its requester. A question can be
cancelled, or time out, at any point. -/
def step (s : State) : Event → Option State
  | .start => if s.phase = .waiting then some { s with phase := .running } else none
  | .tell st =>
    if s.phase = .running then
      some (if s.steps.length < STEPS then { s with steps := s.steps ++ [st] } else s)
    else none
  | .ask question =>
    if s.phase = .running then some { s with asks := s.asks ++ [⟨question, .sending⟩] } else none
  | .send i =>
    match s.asks[i]? with
    | some ⟨question, .sending⟩ =>
      if s.steps.length < STEPS then
        some { s with
          steps := s.steps ++ [question.step]
          asks := s.asks.set i ⟨question, .waiting s.line.length⟩ }
      else none
    | _ => none
  | .take =>
    match s.hand, s.steps with
    | none, st :: steps => some { s with hand := some st, steps := steps }
    | _, _ => none
  | .forward => s.hand.map fun st => { s with shown := s.shown ++ [st], hand := none }
  | .lock i =>
    match s.asks[i]? with
    | some ⟨question, .waiting n⟩ =>
      if s.asks.any (fun a => a.stage.isReceiving) then none
      else some { s with asks := s.asks.set i ⟨question, .receiving n⟩ }
    | _ => none
  | .reply r => some { s with inFlight := s.inFlight ++ [⟨r, s.shown.length⟩] }
  | .handle =>
    match s.inFlight with
    | [] => none
    | r :: inFlight =>
      if s.phase = .running then
        if s.replies.length < REPLIES then
          some { s with inFlight := inFlight, replies := s.replies ++ [r] }
        else none
      else some { s with inFlight := inFlight }
  | .recv i =>
    match s.asks[i]?, s.replies with
    | some ⟨question, .receiving n⟩, r :: replies =>
      some { s with
        asks := s.asks.eraseIdx i
        replies := replies
        returned := s.returned ++ [(⟨question, .receiving n⟩, r)] }
    | _, _ => none
  | .cancel i => if i < s.asks.length then some { s with asks := s.asks.eraseIdx i } else none
  | .finish =>
    if s.phase = .running then some { s with phase := .ended, asks := [], replies := [] } else none

end State

end KissTncBridge.Pairing
