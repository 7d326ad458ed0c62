import Mathlib.Data.List.Basic

namespace KissTncBridge.Lib

/-- The nonempty runs of a stream that have a delimiter on both sides, in
order. -/
def bounded [BEq α] (d : α) (s : List α) : List (List α) :=
  ((s.splitOn d).tail.dropLast).filter (fun run => !run.isEmpty)

/-- The nonempty runs that end in a delimiter, the first of them open at the
start. -/
def ended [BEq α] (d : α) (s : List α) : List (List α) :=
  ((s.splitOn d).dropLast).filter (fun run => !run.isEmpty)

/-- What follows the last delimiter; everything, if there is none. -/
def unfinished [BEq α] (d : α) (s : List α) : List α := (s.splitOn d).getLastD []

/-- A stream with a delimiter in it has a first and a last one. -/
theorem first_delimiter {s : List α} (h : d ∈ s) : ∃ x y, s = x ++ d :: y ∧ d ∉ x := by
  induction s with
  | nil => cases h
  | cons a s ih =>
    by_cases ha : d = a
    · exact ⟨[], s, by rw [ha]; rfl, List.not_mem_nil⟩
    · obtain ⟨x, y, rfl, hx⟩ := ih ((List.mem_cons.mp h).resolve_left ha)
      refine ⟨a :: x, y, rfl, ?_⟩
      simp [ha, hx]

theorem last_delimiter {s : List α} (h : d ∈ s) : ∃ x y, s = x ++ d :: y ∧ d ∉ y := by
  obtain ⟨x, y, hs, hx⟩ := first_delimiter (List.mem_reverse.mpr h)
  refine ⟨y.reverse, x.reverse, ?_, by simpa using hx⟩
  rw [← List.reverse_inj, hs]
  simp

theorem length_of_splitOn [BEq α] {s : List α} (h : run ∈ s.splitOn d) :
    run.length ≤ s.length := by
  induction s generalizing run with
  | nil =>
    rw [List.splitOn_nil, List.mem_singleton] at h
    exact Nat.le_of_eq (congrArg List.length h)
  | cons a s ih =>
    rw [List.splitOn_cons_eq_if_modifyHead] at h
    split at h
    · rcases List.mem_cons.mp h with rfl | h
      · exact Nat.zero_le _
      · exact Nat.le_succ_of_le (ih h)
    · obtain ⟨p, ps, hp⟩ := List.exists_cons_of_ne_nil (List.splitOn_ne_nil d s)
      rw [hp, List.modifyHead_cons] at h
      rw [hp] at ih
      rcases List.mem_cons.mp h with rfl | h
      · exact Nat.succ_le_succ (ih (List.mem_cons_self ..))
      · exact Nat.le_succ_of_le (ih (List.mem_cons_of_mem _ h))

/-- No run is longer than the stream. -/
theorem length_ended [BEq α] {d : α} (h : run ∈ ended d s) : run.length ≤ s.length :=
  length_of_splitOn (List.dropLast_subset _ (List.mem_filter.mp h).1)

theorem length_bounded [BEq α] {d : α} (h : run ∈ bounded d s) : run.length ≤ s.length :=
  length_of_splitOn (List.mem_of_mem_tail (List.dropLast_subset _ (List.mem_filter.mp h).1))

section
variable [BEq α] [LawfulBEq α] {d : α}

@[simp] theorem ended_free (h : d ∉ s) : ended d s = [] := by
  simp [ended, List.splitOn_eq_singleton h]

@[simp] theorem bounded_free (h : d ∉ s) : bounded d s = [] := by
  simp [bounded, List.splitOn_eq_singleton h]

@[simp] theorem unfinished_free (h : d ∉ s) : unfinished d s = s := by
  simp [unfinished, List.splitOn_eq_singleton h]

/-- Past a delimiter every run is bounded on the left. -/
theorem bounded_append_cons (x y : List α) :
    bounded d (x ++ d :: y) = bounded d (x ++ [d]) ++ ended d y := by
  have hx := List.splitOn_ne_nil d x
  have hy := List.splitOn_ne_nil d y
  simp only [bounded, ended, List.splitOn_append_cons_self, List.splitOn_nil,
    List.tail_append_of_ne_nil hx, List.dropLast_concat, List.dropLast_append_of_ne_nil hy,
    List.filter_append]

theorem ended_append_cons (x y : List α) :
    ended d (x ++ d :: y) = ended d (x ++ [d]) ++ ended d y := by
  simp only [ended, List.splitOn_append_cons_self, List.splitOn_nil, List.dropLast_concat,
    List.dropLast_append_of_ne_nil (List.splitOn_ne_nil d y), List.filter_append]

@[simp] theorem unfinished_append_cons (x y : List α) :
    unfinished d (x ++ d :: y) = unfinished d y := by
  have hy := List.splitOn_ne_nil d y
  rw [unfinished, unfinished, List.splitOn_append_cons_self, List.getLastD_eq_getLast?,
    List.getLastD_eq_getLast?, List.getLast?_append_of_ne_nil _ hy]

/-- A delimiter ends the run before it. -/
theorem ended_snoc (x : List α) :
    ended d (x ++ [d]) = ended d x ++
      (if (unfinished d x).isEmpty then [] else [unfinished d x]) := by
  have hx := List.splitOn_ne_nil d x
  have hs : (x.splitOn d).dropLast ++ [unfinished d x] = x.splitOn d := by
    rw [unfinished, List.getLastD_eq_getLast?, List.getLast?_eq_some_getLast hx]
    exact List.dropLast_append_getLast hx
  have he : (x ++ [d]).splitOn d = x.splitOn d ++ [[]] := by
    rw [List.splitOn_append_cons_self, List.splitOn_nil]
  rw [ended, he, List.dropLast_concat]
  nth_rewrite 1 [← hs]
  rw [List.filter_append, ended]
  congr 1
  rw [List.filter_singleton]
  cases (unfinished d x).isEmpty <;> rfl

theorem bounded_snoc (h : d ∈ x) :
    bounded d (x ++ [d]) = bounded d x ++
      (if (unfinished d x).isEmpty then [] else [unfinished d x]) := by
  obtain ⟨a, b, rfl, hb⟩ := last_delimiter h
  have he : a ++ d :: b ++ [d] = a ++ d :: (b ++ [d]) := by simp
  rw [he, bounded_append_cons, bounded_append_cons a b, ended_snoc, unfinished_append_cons,
    List.append_assoc]

theorem bounded_snoc_free (h : d ∉ x) : bounded d (x ++ [d]) = [] := by
  simp [bounded, List.splitOn_append_cons_self, List.splitOn_eq_singleton h]

/-- A run that does not end yet is no run. -/
theorem bounded_append_free (hy : d ∉ y) (h : d ∈ x) : bounded d (x ++ y) = bounded d x := by
  obtain ⟨a, b, rfl, hb⟩ := last_delimiter h
  have he : a ++ d :: b ++ y = a ++ d :: (b ++ y) := by simp
  have hby : d ∉ b ++ y := by simp [hb, hy]
  rw [he, bounded_append_cons, bounded_append_cons a b, ended_free hby, ended_free hb]

/-- More of the stream only adds runs. -/
theorem bounded_prefix (a b : List α) : ∃ more, bounded d (a ++ b) = bounded d a ++ more := by
  by_cases h : d ∈ a
  · obtain ⟨x, y, rfl, hy⟩ := last_delimiter h
    have he : x ++ d :: y ++ b = x ++ d :: (y ++ b) := by simp
    refine ⟨ended d (y ++ b), ?_⟩
    rw [he, bounded_append_cons, bounded_append_cons x y, ended_free hy, List.append_nil]
  · exact ⟨bounded d (a ++ b), by rw [bounded_free h, List.nil_append]⟩

/-- What runs there are in two parts of a stream are runs of the whole. -/
theorem bounded_append (a b : List α) :
    (bounded d a ++ bounded d b).Sublist (bounded d (a ++ b)) := by
  by_cases h : d ∈ b
  · obtain ⟨x, y, rfl, hx⟩ := first_delimiter h
    obtain ⟨more, hm⟩ := bounded_prefix (d := d) a (x ++ [d])
    have he : a ++ (x ++ d :: y) = a ++ x ++ d :: y := by simp
    rw [bounded_append_cons x y, bounded_snoc_free hx, List.nil_append, he,
      bounded_append_cons (a ++ x) y, List.append_assoc a x [d], hm]
    exact (List.sublist_append_left _ _).append_right _
  · obtain ⟨more, hm⟩ := bounded_prefix (d := d) a b
    rw [bounded_free h, List.append_nil, hm]
    exact List.sublist_append_left _ _

/-- The stream up to and with its last delimiter, and the rest. -/
theorem length_unfinished (s : List α) : (unfinished d s).length ≤ s.length := by
  by_cases h : d ∈ s
  · obtain ⟨x, y, rfl, hy⟩ := last_delimiter h
    rw [unfinished_append_cons, unfinished_free hy]
    simp only [List.length_append, List.length_cons]
    omega
  · exact Nat.le_of_eq (congrArg _ (unfinished_free h))

theorem drop_unfinished (s : List α) :
    s.drop (s.length - (unfinished d s).length) = unfinished d s := by
  by_cases h : d ∈ s
  · obtain ⟨x, y, rfl, hy⟩ := last_delimiter h
    have hl : (x ++ d :: y).length - y.length = (x ++ [d]).length := by
      simp only [List.length_append, List.length_cons, List.length_nil]
      omega
    have he : x ++ d :: y = (x ++ [d]) ++ y := by simp
    rw [unfinished_append_cons, unfinished_free hy, hl, he, List.drop_left]
  · rw [unfinished_free h, Nat.sub_self, List.drop_zero]

theorem unfinished_snoc (h : a ≠ d) (s : List α) :
    unfinished d (s ++ [a]) = unfinished d s ++ [a] := by
  by_cases hs : d ∈ s
  · obtain ⟨x, y, rfl, hy⟩ := last_delimiter hs
    have he : x ++ d :: y ++ [a] = x ++ d :: (y ++ [a]) := by simp
    have hya : d ∉ y ++ [a] := by simp [hy, Ne.symm h]
    rw [he, unfinished_append_cons, unfinished_append_cons, unfinished_free hya, unfinished_free hy]
  · have hsa : d ∉ s ++ [a] := by simp [hs, Ne.symm h]
    rw [unfinished_free hsa, unfinished_free hs]

theorem ended_snoc_ne (h : a ≠ d) (s : List α) : ended d (s ++ [a]) = ended d s := by
  by_cases hs : d ∈ s
  · obtain ⟨x, y, rfl, hy⟩ := last_delimiter hs
    have he : x ++ d :: y ++ [a] = x ++ d :: (y ++ [a]) := by simp
    have hya : d ∉ y ++ [a] := by simp [hy, Ne.symm h]
    rw [he, ended_append_cons, ended_append_cons x y, ended_free hya, ended_free hy]
  · rw [ended_free hs, ended_free (by simp [hs, Ne.symm h])]

theorem bounded_snoc_ne (h : a ≠ d) (s : List α) : bounded d (s ++ [a]) = bounded d s := by
  by_cases hs : d ∈ s
  · exact bounded_append_free (by simp [Ne.symm h]) hs
  · rw [bounded_free hs, bounded_free (by simp [hs, Ne.symm h])]

theorem not_mem_of_splitOn {s : List α} (h : run ∈ s.splitOn d) : d ∉ run := by
  induction s generalizing run with
  | nil =>
    rw [List.splitOn_nil, List.mem_singleton] at h
    rw [h]
    exact List.not_mem_nil
  | cons a s ih =>
    rw [List.splitOn_cons_eq_if_modifyHead] at h
    split at h
    · rcases List.mem_cons.mp h with rfl | h
      · exact List.not_mem_nil
      · exact ih h
    · rename_i ha
      obtain ⟨p, ps, hp⟩ := List.exists_cons_of_ne_nil (List.splitOn_ne_nil d s)
      rw [hp, List.modifyHead_cons] at h
      rw [hp] at ih
      rcases List.mem_cons.mp h with rfl | h
      · intro hm
        rcases List.mem_cons.mp hm with rfl | hm
        · exact ha (beq_self_eq_true _)
        · exact ih (List.mem_cons_self ..) hm
      · exact ih (List.mem_cons_of_mem _ h)

/-- A run that more of the stream ends began after the last delimiter before. -/
theorem length_new_bounded (h : run ∈ bounded d (s ++ t)) :
    run ∈ bounded d s ∨ run.length ≤ (unfinished d s).length + t.length := by
  by_cases hs : d ∈ s
  · obtain ⟨x, y, rfl, hy⟩ := last_delimiter hs
    have he : x ++ d :: y ++ t = x ++ d :: (y ++ t) := by simp
    rw [he, bounded_append_cons, List.mem_append] at h
    rw [bounded_append_cons, ended_free hy, List.append_nil, unfinished_append_cons,
      unfinished_free hy, ← List.length_append]
    exact h.imp_right length_ended
  · rw [unfinished_free hs, ← List.length_append]
    exact .inr (length_bounded h)

/-- A run holds no delimiter and is not empty. -/
theorem mem_ended (h : run ∈ ended d s) : run ≠ [] ∧ d ∉ run := by
  obtain ⟨hm, hn⟩ := List.mem_filter.mp h
  exact ⟨by simpa using hn, not_mem_of_splitOn (List.dropLast_subset _ hm)⟩

theorem mem_bounded (h : run ∈ bounded d s) : run ≠ [] ∧ d ∉ run := by
  obtain ⟨hm, hn⟩ := List.mem_filter.mp h
  exact ⟨by simpa using hn, not_mem_of_splitOn (List.mem_of_mem_tail (List.dropLast_subset _ hm))⟩

end
end KissTncBridge.Lib
