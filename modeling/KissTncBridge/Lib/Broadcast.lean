import Mathlib

namespace KissTncBridge.Lib

/-- What a receiver of a broadcast channel gets: a message, or how many it missed. -/
inductive Received (α : Type) where
  | message (a : α)
  | lagged (missed : Nat)
deriving DecidableEq, Repr

/-- How many messages it stands for. -/
def Received.size : Received α → Nat
  | .message _ => 1
  | .lagged missed => missed

/-- The next receive on a channel that keeps the last `capacity` messages, by a receiver
that is at `next`: what it gets and where it then is. With nothing new it waits. -/
def recv (capacity : Nat) (sent : List α) (next : Nat) : Option (Received α × Nat) :=
  if capacity < sent.length - next then
    some (.lagged (sent.length - capacity - next), sent.length - capacity)
  else sent[next]?.map (fun a => (.message a, next + 1))

/-- What was got accounts for the messages from `i` up to `j`: each once, in order, or
in a count of missed ones. -/
def Accounts (sent : List α) (i : Nat) : List (Received α) → Nat → Prop
  | [], j => i = j
  | .message a :: got, j => sent[i]? = some a ∧ Accounts sent (i + 1) got j
  | .lagged missed :: got, j => Accounts sent (i + missed) got j

def total (got : List (Received α)) : Nat := (got.map Received.size).sum

theorem recv_spec {capacity next n : Nat} {sent : List α} {got : Received α}
    (h : recv capacity sent next = some (got, n)) :
    Accounts sent next [got] n ∧ n = next + got.size ∧ 0 < got.size ∧ n ≤ sent.length := by
  unfold recv at h
  split at h
  · rename_i hlag
    obtain ⟨rfl, rfl⟩ := Prod.mk.inj (Option.some.inj h)
    have hto : next + (sent.length - capacity - next) = sent.length - capacity := by omega
    exact ⟨hto, hto.symm, by simp only [Received.size]; omega, by omega⟩
  · obtain ⟨a, ha, hgot⟩ := Option.map_eq_some_iff.mp h
    obtain ⟨rfl, rfl⟩ := Prod.mk.inj hgot
    obtain ⟨hlt, -⟩ := List.getElem?_eq_some_iff.mp ha
    exact ⟨⟨ha, rfl⟩, rfl, Nat.one_pos, hlt⟩

/-- A receiver that fell behind goes on with messages that are still kept. -/
theorem recv_lagged {capacity next missed n : Nat} {sent : List α} (hc : 0 < capacity)
    (h : recv capacity sent next = some (.lagged missed, n)) : n < sent.length := by
  unfold recv at h
  split at h
  · obtain ⟨-, rfl⟩ := Prod.mk.inj (Option.some.inj h)
    omega
  · obtain ⟨a, -, hgot⟩ := Option.map_eq_some_iff.mp h
    obtain ⟨hgot, -⟩ := Prod.mk.inj hgot
    cases hgot

theorem Accounts.append {sent : List α} {i j k : Nat} {got more : List (Received α)}
    (h : Accounts sent i got j)
    (hm : Accounts sent j more k) : Accounts sent i (got ++ more) k := by
  induction got generalizing i with
  | nil =>
    obtain rfl : i = j := h
    exact hm
  | cons g got ih =>
    cases g with
    | message a => exact ⟨h.1, ih h.2⟩
    | lagged missed => exact ih h

/-- More messages do not change what was accounted for. -/
theorem Accounts.sent_more {sent : List α} {i j : Nat} {got : List (Received α)}
    (h : Accounts sent i got j) (more : List α) : Accounts (sent ++ more) i got j := by
  induction got generalizing i with
  | nil => exact h
  | cons g got ih =>
    cases g with
    | message a =>
      obtain ⟨hlt, -⟩ := List.getElem?_eq_some_iff.mp h.1
      exact ⟨(List.getElem?_append_left hlt).trans h.1, ih h.2⟩
    | lagged missed => exact ih h

theorem Accounts.total_eq {sent : List α} {i j : Nat} {got : List (Received α)}
    (h : Accounts sent i got j) : i + total got = j := by
  induction got generalizing i with
  | nil => exact h
  | cons g got ih =>
    cases g with
    | message a =>
      have hrest := ih h.2
      simp only [total, List.map_cons, List.sum_cons, Received.size] at hrest ⊢
      omega
    | lagged missed =>
      have hrest := ih h
      simp only [total, List.map_cons, List.sum_cons, Received.size] at hrest ⊢
      omega

@[simp] theorem total_append (got more : List (Received α)) :
    total (got ++ more) = total got + total more := by
  simp [total]

end KissTncBridge.Lib
