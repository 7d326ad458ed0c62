import KissTncBridge.Lib.Files

namespace KissTncBridge.Conf
open Lib

/-- A file that is written whole, and the one next to it that is written first. -/
inductive FileName (κ : Type) where
  | file (k : κ)
  | tmp (k : κ)
deriving DecidableEq

def FileName.isFile : FileName κ → Bool
  | file _ => true
  | tmp _ => false

/-- How far `write_atomic` is with a file. -/
inductive Writing where
  | idle
  | writing (i : Nat) (bytes rest : List UInt8)
  | synced (bytes : List UInt8)
  | renamed (bytes : List UInt8)
deriving DecidableEq

/-- The daemon's files. `last` is what each was last for certain, and `since` what was
begun to be written over it since; the source does not keep them. -/
structure Files (κ : Type) where
  disk : Volume (FileName κ)
  doing : κ → Writing := fun _ => .idle
  last : κ → Option (List UInt8)
  since : κ → List (List UInt8) := fun _ => []

/-- What `write_atomic` does next for a file, or what happens to it. A write takes as many
bytes as it likes, and the directory is not synced if that fails. -/
inductive FileStep (κ : Type) where
  | create (k : κ) (bytes : List UInt8)
  | write (k : κ) (n : Nat)
  | syncAll (k : κ)
  | rename (k : κ)
  | syncDir (k : κ) (synced : Bool)
  | fail (k : κ)
  | exits
  | powerCut (version : Nat) (torn : Nat → List UInt8)

def FileStep.begins [DecidableEq κ] (k : κ) : FileStep κ → Bool
  | create j _ => j = k
  | _ => false

namespace Files

/-- The files as they are found when the daemon starts. -/
def found (disk : Volume (FileName κ)) : Files κ :=
  { disk := disk, last := fun k => disk.read disk.now (.file k) }

variable [DecidableEq κ]

def step (s : Files κ) : FileStep κ → Option (Files κ)
  | .create k bytes =>
    match s.doing k with
    | .idle => some { s with
        disk := (s.disk.create (.tmp k)).2
        doing := Function.update s.doing k (.writing (s.disk.create (.tmp k)).1 bytes bytes)
        since := Function.update s.since k (s.since k ++ [bytes]) }
    | _ => none
  | .write k n =>
    match s.doing k with
    | .writing i bytes rest => some { s with
        disk := s.disk.append i (rest.take n)
        doing := Function.update s.doing k (.writing i bytes (rest.drop n)) }
    | _ => none
  | .syncAll k =>
    match s.doing k with
    | .writing i bytes [] => some { s with
        disk := s.disk.sync i
        doing := Function.update s.doing k (.synced bytes) }
    | _ => none
  | .rename k =>
    match s.doing k with
    | .synced bytes => (s.disk.rename (.tmp k) (.file k)).map fun disk => { s with
        disk := disk
        doing := Function.update s.doing k (.renamed bytes) }
    | _ => none
  | .syncDir k true =>
    match s.doing k with
    | .renamed bytes => some { s with
        disk := s.disk.syncDir
        doing := Function.update s.doing k .idle
        last := Function.update s.last k (some bytes)
        since := Function.update s.since k [] }
    | _ => none
  | .syncDir k false =>
    match s.doing k with
    | .renamed _ => some { s with doing := Function.update s.doing k .idle }
    | _ => none
  | .fail k =>
    match s.doing k with
    | .writing .. | .synced _ => some { s with doing := Function.update s.doing k .idle }
    | _ => none
  | .exits => some { s with doing := fun _ => .idle }
  | .powerCut version torn => (s.disk.versions[version]?).map fun v => { s with
      disk := s.disk.powerCut v torn
      doing := fun _ => .idle }

end Files

end KissTncBridge.Conf
