import KissTncBridge.Bridge.Run

namespace KissTncBridge.Bridge
open Conf Lib

/-- A bridge's task: the select loop, until it is told to shut down or has no app
port left, and the teardown after it. -/
structure Main where
  run : Run
  stopped : Bool := false

inductive MainEvent where
  | turn (e : Event)
  | shutdown (now : Now)
  | appsGone (now : Now)

namespace Main

def start (id : String) (connector : Connector) (settings : TncSettings) (now : Now) : Main :=
  { run := Run.start id connector settings now }

def step (m : Main) (e : MainEvent) : Option Main :=
  if m.stopped then none
  else match e with
    | .turn e => (m.run.step e).map (fun run => { m with run := run })
    | .shutdown now => some ⟨m.run.disconnect now, true⟩
    | .appsGone now => if m.run.appReady then some ⟨m.run.disconnect now, true⟩ else none

end Main
end KissTncBridge.Bridge
