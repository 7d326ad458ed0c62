import KissTncBridge.Lib.Entries

namespace KissTncBridge.Lib

/-- A way to write values of one type as another's that can be read back. -/
structure Codec (α ν : Type) where
  write : α → ν
  read : ν → Option α
  read_write : ∀ a, read (write a) = some a

/-- A type with a value that stands for nothing. -/
class HasNull (ν : Type) where
  null : ν
  isNull : ν → Bool
  isNull_null : isNull null = true

open HasNull

namespace Codec

/-- A codec that never writes null. -/
class Solid {α ν : Type} [HasNull ν] (c : Codec α ν) : Prop where
  solid : ∀ a, isNull (c.write a) = false

variable {α β ν : Type}

/-- A value as it is. -/
def plain : Codec ν ν := ⟨fun v => v, some, fun _ => rfl⟩

def comp (c : Codec α β) (d : Codec β ν) : Codec α ν where
  write a := d.write (c.write a)
  read v := (d.read v).bind c.read
  read_write a := by rw [d.read_write, Option.bind_some, c.read_write]

theorem mapM_write (c : Codec α ν) (as : List α) : (as.map c.write).mapM c.read = some as := by
  induction as with
  | nil => rfl
  | cons a as ih => rw [List.map_cons, List.mapM_cons, c.read_write, ih]; rfl

def list (c : Codec α ν) : Codec (List α) (List ν) where
  write as := as.map c.write
  read vs := vs.mapM c.read
  read_write := c.mapM_write

/-- An enumeration, each of its values by a name of its own. -/
def names [DecidableEq ν] (name : α → ν) (all : List (ν × α))
    (h : ∀ a, Entries.get (name a) all = some a) : Codec α ν where
  write := name
  read v := Entries.get v all
  read_write := h

/-- A value or null. -/
def nullable [HasNull ν] (c : Codec α ν) [Solid c] : Codec (Option α) ν where
  write a := (a.map c.write).getD null
  read v := if isNull v then some none else (c.read v).map some
  read_write a := by
    cases a with
    | none => exact if_pos isNull_null
    | some a =>
      show (if isNull (c.write a) then some none else (c.read (c.write a)).map some) = some (some a)
      rw [Solid.solid a, c.read_write]
      rfl

end Codec

namespace Record

variable {κ α β ν : Type} [DecidableEq κ] {k k' : κ} {es : List (κ × ν)}

/-- A field's entry. -/
def field (k : κ) (c : Codec α ν) (a : α) : κ × ν := (k, c.write a)

/-- The entry of a field that may be left out. -/
def given (k : κ) (c : Codec α ν) (a : Option α) : List (κ × ν) := a.toList.map (field k c)

/-- Read a field that has to be there. -/
def need (k : κ) (c : Codec α ν) (es : List (κ × ν)) : Option α := (Entries.get k es).bind c.read

/-- Read a field that can be left out or null. -/
def maybe [HasNull ν] (k : κ) (c : Codec α ν) (es : List (κ × ν)) : Option (Option α) :=
  match Entries.get k es with
  | none => some none
  | some v => if isNull v then some none else (c.read v).map some

/-- Read a field that has a default. -/
def default (k : κ) (c : Codec α ν) (a : α) (es : List (κ × ν)) : Option α :=
  match Entries.get k es with
  | none => some a
  | some v => c.read v

/-- Read what the value of one field says how to read. -/
def tagged (k : κ) (c : Codec κ ν) (readers : List (κ × (List (κ × ν) → Option α)))
    (es : List (κ × ν)) : Option α :=
  (need k c es).bind fun name => (Entries.get name readers).bind fun read => read es

theorem tagged_eq {c : Codec κ ν} {readers : List (κ × (List (κ × ν) → Option α))} {name : κ}
    {read : List (κ × ν) → Option α} (hn : need k c es = some name)
    (hr : Entries.get name readers = some read) : tagged k c readers es = read es := by
  rw [tagged, hn, Option.bind_some, hr, Option.bind_some]

@[simp] theorem get_nil : Entries.get k ([] : List (κ × ν)) = none := rfl

@[simp] theorem get_field_self (c : Codec α ν) (a : α) :
    Entries.get k (field k c a :: es) = some (c.write a) := if_pos rfl

@[simp] theorem get_field_ne (h : k' ≠ k) (c : Codec α ν) (a : α) :
    Entries.get k (field k' c a :: es) = Entries.get k es :=
  if_neg h

@[simp] theorem get_given_ne (h : k' ≠ k) (c : Codec α ν) (a : Option α) :
    Entries.get k (given k' c a ++ es) = Entries.get k es := by
  cases a with
  | none => rfl
  | some a => exact if_neg h

@[simp] theorem get_given_last (h : k' ≠ k) (c : Codec α ν) (a : Option α) :
    Entries.get k (given k' c a) = none := by
  rw [← List.append_nil (given k' c a), get_given_ne h]
  rfl

theorem get_given_self (c : Codec α ν) (a : Option α) (hr : Entries.get k es = none) :
    Entries.get k (given k c a ++ es) = a.map c.write := by
  cases a with
  | none => exact hr
  | some a => exact if_pos rfl

@[simp] theorem need_field_self (c : Codec α ν) (a : α) :
    need k c (field k c a :: es) = some a := by
  rw [need, get_field_self, Option.bind_some, c.read_write]

@[simp] theorem need_field_ne (h : k' ≠ k) (c : Codec α ν) (d : Codec β ν) (b : β) :
    need k c (field k' d b :: es) = need k c es := by
  rw [need, need, get_field_ne h]

@[simp] theorem need_given_ne (h : k' ≠ k) (c : Codec α ν) (d : Codec β ν) (b : Option β) :
    need k c (given k' d b ++ es) = need k c es := by
  rw [need, need, get_given_ne h]

@[simp] theorem default_field_self (c : Codec α ν) (a d : α) :
    default k c d (field k c a :: es) = some a := by
  rw [default, get_field_self]
  exact c.read_write a

@[simp] theorem default_field_ne (h : k' ≠ k) (c : Codec α ν) (a : α) (d : Codec β ν) (b : β) :
    default k c a (field k' d b :: es) = default k c a es := by
  rw [default, default, get_field_ne h]

@[simp] theorem default_given_ne (h : k' ≠ k) (c : Codec α ν) (a : α) (d : Codec β ν)
    (b : Option β) : default k c a (given k' d b ++ es) = default k c a es := by
  rw [default, default, get_given_ne h]

variable [HasNull ν]

@[simp] theorem maybe_field_ne (h : k' ≠ k) (c : Codec α ν) (d : Codec β ν) (b : β) :
    maybe k c (field k' d b :: es) = maybe k c es := by
  rw [maybe, maybe, get_field_ne h]

@[simp] theorem maybe_given_ne (h : k' ≠ k) (c : Codec α ν) (d : Codec β ν) (b : Option β) :
    maybe k c (given k' d b ++ es) = maybe k c es := by
  rw [maybe, maybe, get_given_ne h]

/-- What is never written as null is read back, and so is that it was left out. -/
@[simp] theorem maybe_given_self (c : Codec α ν) [c.Solid] (a : Option α)
    (hr : Entries.get k es = none) : maybe k c (given k c a ++ es) = some a := by
  cases a with
  | none =>
    show maybe k c es = some none
    rw [maybe, hr]
  | some a =>
    show maybe k c (field k c a :: es) = some (some a)
    rw [maybe, get_field_self]
    dsimp only
    rw [Codec.Solid.solid a, c.read_write]
    rfl

@[simp] theorem maybe_given_last (c : Codec α ν) [c.Solid] (a : Option α) :
    maybe k c (given k c a) = some a := by
  rw [← List.append_nil (given k c a), maybe_given_self c a rfl]

end Record

end KissTncBridge.Lib
