import Mathlib.Logic.Function.Basic
import KissTncBridge.Announce

namespace KissTncBridge.Dnssd
open Announce

/-- The object path of an Avahi entry group, known by a number that is never used
twice. -/
abbrev GroupId := Nat

/-- What the backend reports. -/
inductive Event where
  | established (g : GroupId)
  | collision (g : GroupId)
  | failure (g : GroupId) (why : String)
  | serverUp
  | serverDown
deriving DecidableEq, Repr

inductive PublishError where
  | collision
  | unavailable (why : String)
  | other (why : String)
deriving DecidableEq, Repr

/-- An entry group as Avahi holds it. `registration` is set once it is committed
and tells the groups that were ever committed apart, also under one path. -/
structure Group where
  entries : List (String × Service) := []
  registration : Option Nat := none
deriving DecidableEq, Repr

/-- The name the group registers. -/
def Group.name (g : Group) : String := (g.entries.head?).elim "" Prod.fst

/-- Avahi: the groups that are alive, the next path, and how many groups were ever
committed. -/
structure Avahi where
  groups : GroupId → Option Group := fun _ => none
  nextPath : GroupId := 0
  registrations : Nat := 0

/-- How Avahi answers the calls of one `publish`: `none` is success. The first is
`Reset` for a group that is there and `EntryGroupNew` else. -/
structure Calls where
  first : Option PublishError := none
  addService : List (Option PublishError) := []
  commit : Option PublishError := none
deriving DecidableEq, Repr

namespace Avahi

def set (a : Avahi) (g : GroupId) (group : Option Group) : Avahi :=
  { a with groups := Function.update a.groups g group }

def free (a : Avahi) (g : GroupId) : Avahi := a.set g none

/-- Make the group ready to be filled. A group that Avahi does not have can't be
reset. -/
def openGroup (a : Avahi) (group : Option GroupId) (first : Option PublishError) :
    Except PublishError GroupId × Avahi :=
  match group with
  | some g =>
    match a.groups g, first with
    | some _, none => (.ok g, a.set g (some {}))
    | _, some e => (.error e, a)
    | none, none => (.error (.other "no such entry group"), a)
  | none =>
    match first with
    | none => (.ok a.nextPath, { a.set a.nextPath (some {}) with nextPath := a.nextPath + 1 })
    | some e => (.error e, a)

/-- Add the services one after the other; the group is freed if one is refused. -/
def addServices (a : Avahi) (g : GroupId) (name : String) :
    List Service → List (Option PublishError) → Except PublishError Unit × Avahi
  | [], _ => (.ok (), a)
  | s :: services, answers =>
    match answers.headD none with
    | some e => (.error e, a.free g)
    | none =>
      let group := (a.groups g).map (fun group =>
        { group with entries := group.entries ++ [(name, s)] })
      (a.set g group).addServices g name services answers.tail

def commit (a : Avahi) (g : GroupId) (answer : Option PublishError) :
    Except PublishError GroupId × Avahi :=
  match answer with
  | some e => (.error e, a.free g)
  | none =>
    let group := (a.groups g).map (fun group =>
      { group with registration := some a.registrations })
    (.ok g, { a.set g group with registrations := a.registrations + 1 })

/-- Publish `services` under `name` in `group` (a new group if `none`), replacing
whatever the group held. -/
def publish (a : Avahi) (group : Option GroupId) (name : String) (services : List Service)
    (calls : Calls) : Except PublishError GroupId × Avahi :=
  match a.openGroup group calls.first with
  | (.error e, a) => (.error e, a)
  | (.ok g, a) =>
    match a.addServices g name services calls.addService with
    | (.error e, a) => (.error e, a)
    | (.ok _, a) => a.commit g calls.commit

end Avahi
end KissTncBridge.Dnssd
