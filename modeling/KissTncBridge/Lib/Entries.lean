import Mathlib.Data.List.Basic

namespace KissTncBridge.Lib.Entries

variable {κ α β : Type} [DecidableEq κ]

/-- A map as a list of its entries, in the order they were first set. -/
def get (k : κ) : List (κ × α) → Option α
  | [] => none
  | e :: es => if e.1 = k then some e.2 else get k es

/-- Set a key's value: in place, or behind the others. -/
def insert (k : κ) (a : α) : List (κ × α) → List (κ × α)
  | [] => [(k, a)]
  | e :: es => if e.1 = k then (k, a) :: es else e :: insert k a es

def remove (k : κ) (es : List (κ × α)) : List (κ × α) := es.filter (fun e => e.1 ≠ k)

theorem mem_of_get {k : κ} {es : List (κ × α)} (h : get k es = some a) : (k, a) ∈ es := by
  induction es with
  | nil => cases h
  | cons e es ih =>
    by_cases he : e.1 = k
    · rw [get, if_pos he] at h
      obtain rfl := Option.some.inj h
      subst he
      exact List.mem_cons_self ..
    · rw [get, if_neg he] at h
      exact List.mem_cons_of_mem _ (ih h)

@[simp] theorem get_insert_self (k : κ) (a : α) (es : List (κ × α)) :
    get k (insert k a es) = some a := by
  induction es with
  | nil => simp [insert, get]
  | cons e es ih =>
    by_cases he : e.1 = k
    · simp [insert, get, he]
    · simp [insert, get, he, ih]

theorem get_insert_ne {k k' : κ} (h : k' ≠ k) (a : α) (es : List (κ × α)) :
    get k' (insert k a es) = get k' es := by
  induction es with
  | nil => simp [insert, get, h.symm]
  | cons e es ih =>
    by_cases he : e.1 = k
    · simp [insert, get, he, h.symm]
    · simp [insert, get, he, ih]

@[simp] theorem insert_insert (k : κ) (a b : α) (es : List (κ × α)) :
    insert k b (insert k a es) = insert k b es := by
  induction es with
  | nil => simp [insert]
  | cons e es ih =>
    by_cases he : e.1 = k
    · simp [insert, he]
    · simp [insert, he, ih]

@[simp] theorem get_remove_self (k : κ) (es : List (κ × α)) : get k (remove k es) = none := by
  induction es with
  | nil => rfl
  | cons e es ih =>
    rw [remove] at ih ⊢
    by_cases he : e.1 = k
    · rwa [List.filter_cons_of_neg (by simpa using he)]
    · rw [List.filter_cons_of_pos (by simpa using he), get, if_neg he, ih]

theorem get_remove_ne {k k' : κ} (h : k' ≠ k) (es : List (κ × α)) :
    get k' (remove k es) = get k' es := by
  induction es with
  | nil => rfl
  | cons e es ih =>
    rw [remove] at ih ⊢
    by_cases he : e.1 = k
    · rw [List.filter_cons_of_neg (by simpa using he), ih, get,
        if_neg (fun hk => h (hk.symm.trans he))]
    · rw [List.filter_cons_of_pos (by simpa using he), get, get, ih]

/-- The keys after an insertion are the ones before and the new one. -/
theorem all_keys_insert (p : κ → Bool) (k : κ) (a : α) (es : List (κ × α)) (hk : p k = true) :
    (insert k a es).all (fun e => p e.1) = es.all (fun e => p e.1) := by
  induction es with
  | nil => simp [insert, hk]
  | cons e es ih =>
    by_cases he : e.1 = k
    · simp [insert, he, hk]
    · simp [insert, he, ih]

theorem get_map (f : α → β) (k : κ) (es : List (κ × α)) :
    get k (es.map (fun e => (e.1, f e.2))) = (get k es).map f := by
  induction es with
  | nil => rfl
  | cons e es ih =>
    rw [List.map_cons, get, get, ih]
    split <;> rfl

end KissTncBridge.Lib.Entries
