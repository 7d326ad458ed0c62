import Mathlib.Data.List.Basic

namespace KissTncBridge.Lib

/-- Split in pieces of `n`, the last of which may be shorter. -/
def chunksOf (n : Nat) : List α → List (List α)
  | [] => []
  | x :: xs => (x :: xs.take (n - 1)) :: chunksOf n (xs.drop (n - 1))
termination_by l => l.length
decreasing_by simp only [List.length_drop, List.length_cons]; omega

@[simp] theorem chunksOf_nil (n : Nat) : chunksOf n ([] : List α) = [] := by
  simp [chunksOf]

theorem chunksOf_cons (n : Nat) (x : α) (xs : List α) :
    chunksOf n (x :: xs) = (x :: xs.take (n - 1)) :: chunksOf n (xs.drop (n - 1)) := by
  rw [chunksOf]

@[simp] theorem flatten_chunksOf (n : Nat) (l : List α) : (chunksOf n l).flatten = l := by
  induction l using chunksOf.induct n with
  | case1 => simp
  | case2 x xs ih => simp [chunksOf_cons, ih]

end KissTncBridge.Lib
