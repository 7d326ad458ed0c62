import KissTncBridge.Config.State
import KissTncBridge.Config.Values
import KissTncBridge.Dnssd.Avahi

namespace KissTncBridge.Dnssd
open Announce Conf

namespace Text

/-- Split at the last `" ("`. -/
def rsplitParen : List Char → Option (List Char × List Char)
  | [] => none
  | c :: cs =>
    match rsplitParen cs with
    | some (base, n) => some (c :: base, n)
    | none =>
      match c, cs with
      | ' ', '(' :: n => some ([], n)
      | _, _ => none

end Text

/-- The name to try after a collision: "TH-D75", "TH-D75 (2)", "TH-D75 (3)". The
number wraps at 32 bits, as it does without overflow checks. -/
def nextName (name : String) : String :=
  let cs := name.toList
  let counted :=
    if cs.getLast? = some ')' then
      (Text.rsplitParen cs.dropLast).bind
        (fun p => (Parse.number 10 UInt32.size p.2).map (fun n => (p.1, n)))
    else none
  match counted with
  | some (base, n) => String.ofList base ++ " (" ++ toString ((n + 1) % UInt32.size) ++ ")"
  | none => name ++ " (2)"

/-- Two services with one name would collide in Avahi if their interfaces and
protocols overlap. -/
def overlaps (s t : Service) : Bool :=
  (s.iface == t.iface || s.iface == .any || t.iface == .any) &&
    (s.proto == t.proto || s.proto == .any || t.proto == .any)

/-- A bridge's services, minus any that would collide with one already taken. -/
def distinct (services : Std.TreeMap String Service) : List Service :=
  services.toList.foldl
    (fun out p => if out.any (fun t => overlaps t p.2) then out else out ++ [p.2]) []

/-- A bridge that may announce. `name` says which watch channel holds its effective
public name. -/
structure BridgeAnn where
  configured : String
  name : Nat
  services : Std.TreeMap String Service := ∅
  group : Option GroupId := none

/-- What the supervisor tells the announcer. -/
inductive Cmd where
  | bridge (id configured : String) (name : Nat)
  | forget (id : String)
  | up (bridge port : String) (service : Service)
  | down (bridge port : String)
deriving DecidableEq, Repr

/-- A `publish` that `sync` waits for: what it was called with, and how many tries
are left after it. -/
structure Publishing where
  id : String
  tries : Nat
  group : Option GroupId
  name : String
  services : List Service
deriving DecidableEq, Repr

/-- The announcer, with what it shares: Avahi, the names in the watch channels and
the state store. `todo` are the bridges still to be synced once a `publish` is
over. -/
structure Announcer where
  backend : Avahi := {}
  names : Nat → String
  state : State
  bridges : Std.TreeMap String BridgeAnn := ∅
  available : Bool
  doing : Option Publishing := none
  todo : List String := []

namespace Announcer

def insert (a : Announcer) (id : String) (b : BridgeAnn) : Announcer :=
  { a with bridges := a.bridges.insert id b }

def withdraw (a : Announcer) (g : Option GroupId) : Announcer :=
  match g with
  | some g => { a with backend := a.backend.free g }
  | none => a

/-- One round of `sync`, up to the `publish`. -/
def attempt (a : Announcer) (id : String) : Nat → Announcer
  | 0 => a
  | tries + 1 =>
    match a.bridges[id]? with
    | none => a
    | some b =>
      let services := distinct b.services
      let a := a.insert id { b with group := none }
      if services.isEmpty then a.withdraw b.group
      else { a with doing := some ⟨id, tries, b.group, a.names b.name, services⟩ }

/-- Make Avahi's view of one bridge match ours. A rename after a collision
republishes, which may collide again; a handful of tries covers any LAN. -/
def sync (a : Announcer) (id : String) : Announcer := if a.available then a.attempt id 20 else a

def syncAll (a : Announcer) : List String → Announcer
  | [] => a
  | id :: ids =>
    let a := a.sync id
    if a.doing.isSome then { a with todo := ids } else a.syncAll ids

/-- The `publish` is over, and so is the `sync` it was for. -/
def synced (a : Announcer) : Announcer := { a with todo := [] }.syncAll a.todo

/-- Move a bridge to its next name, remember it, and tell its BLE ports. -/
def adjustName (a : Announcer) (id : String) (written : Bool) : Option Announcer := do
  let b ← a.bridges[id]?
  let next := nextName (a.names b.name)
  some { a with
    state := if written then a.state.setAdjustedPublicName id b.configured next else a.state
    names := Function.update a.names b.name next }

/-- The `publish` comes back. -/
def published (a : Announcer) (p : Publishing) (calls : Calls) (written : Bool) : Announcer :=
  let (res, backend) := a.backend.publish p.group p.name p.services calls
  let a := { a with backend := backend, doing := none }
  match res with
  | .ok g =>
    match a.bridges[p.id]? with
    | some b => (a.insert p.id { b with group := some g }).synced
    | none => a.synced
  | .error .collision =>
    match a.adjustName p.id written with
    | some a =>
      let a := a.attempt p.id p.tries
      if a.doing.isSome then a else a.synced
    | none => a.synced
  | .error (.unavailable _) => { a with available := false }.synced
  | .error (.other _) => a.synced

def onCmd (a : Announcer) : Cmd → Announcer
  | .bridge id configured name =>
    match a.bridges[id]? with
    | some b => (a.insert id { b with configured := configured, name := name }).sync id
    | none => a.insert id { configured := configured, name := name }
  | .forget id =>
    { a with bridges := a.bridges.erase id }.withdraw ((a.bridges[id]?).bind BridgeAnn.group)
  | .up bridge port service =>
    match a.bridges[bridge]? with
    | none => a
    | some b =>
      let a := a.insert bridge { b with services := b.services.insert port service }
      if b.services[port]? ≠ some service then a.sync bridge else a
  | .down bridge port =>
    match a.bridges[bridge]? with
    | none => a
    | some b =>
      let a := a.insert bridge { b with services := b.services.erase port }
      if (b.services[port]?).isSome then a.sync bridge else a

/-- The bridge that has a group. -/
def bridgeFor (a : Announcer) (g : GroupId) : Option String :=
  (a.bridges.toList.find? (fun p => p.2.group == some g)).map Prod.fst

def onEvent (a : Announcer) (written : Bool) : Event → Announcer
  | .established _ | .failure .. => a
  | .collision g =>
    match a.bridgeFor g with
    | some id =>
      match a.adjustName id written with
      | some a => a.sync id
      | none => a
    | none => a
  | .serverUp =>
    -- Only what isn't announced: a repeated "up" mustn't make established
    -- groups register again.
    let ids := (a.bridges.toList.filter (fun p => p.2.group.isNone)).map Prod.fst
    { a with available := true }.syncAll ids
  | .serverDown =>
    let groups := a.bridges.toList.map (fun p => p.2.group)
    { groups.foldl withdraw a with
      bridges := a.bridges.map (fun _ b => { b with group := none })
      available := false }

end Announcer

/-- What happens to the announcer: it takes a command or an event, Avahi answers a
`publish`, the supervisor puts a name in a watch channel, or Avahi exits. -/
inductive AnnouncerEvent where
  | cmd (c : Cmd)
  | event (ev : Event) (written : Bool)
  | published (calls : Calls) (written : Bool)
  | named (name : Nat) (value : String)
  | exits
deriving DecidableEq, Repr

namespace Announcer

def new (available : Bool) (state : State) (names : Nat → String) : Announcer :=
  { names := names, state := state, available := available }

/-- Commands and events are taken one at a time. A name can be put at any time, also
while a `publish` is under way. -/
def step (a : Announcer) : AnnouncerEvent → Option Announcer
  | .cmd c => if a.doing.isSome then none else some (a.onCmd c)
  | .event ev written => if a.doing.isSome then none else some (a.onEvent written ev)
  | .published calls written => a.doing.map (fun p => a.published p calls written)
  | .named name value => some { a with names := Function.update a.names name value }
  | .exits => some { a with backend := { a.backend with groups := fun _ => none } }

end Announcer
end KissTncBridge.Dnssd
