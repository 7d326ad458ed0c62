import Mathlib.Logic.Function.Basic

namespace KissTncBridge.Lib

/-- The file under each name, known by its number. -/
abbrev Directory (ν : Type) := ν → Option Nat

/-- A directory on a disk that writes late. `past` are the directories it was since it was
last synced, any of which a power cut can bring back. A file's bytes only survive one for
certain while it is `stored`. -/
structure Volume (ν : Type) where
  now : Directory ν := fun _ => none
  past : List (Directory ν) := []
  bytes : Nat → List UInt8 := fun _ => []
  stored : Nat → Bool := fun _ => false
  files : Nat := 0

namespace Volume

variable {ν : Type}

def versions (d : Volume ν) : List (Directory ν) := d.now :: d.past

/-- What a directory has under a name. -/
def read (d : Volume ν) (v : Directory ν) (n : ν) : Option (List UInt8) := (v n).map d.bytes

def fill (d : Volume ν) (i : Nat) (bytes : List UInt8) : Volume ν :=
  { d with bytes := Function.update d.bytes i bytes, stored := Function.update d.stored i false }

/-- The directory with a new file. -/
def opened [DecidableEq ν] (d : Volume ν) (n : ν) : Volume ν :=
  { d with
    now := Function.update d.now n (some d.files)
    past := d.versions
    files := d.files + 1 }

/-- Open an empty file for writing; one that has the name is emptied. -/
def create [DecidableEq ν] (d : Volume ν) (n : ν) : Nat × Volume ν :=
  match d.now n with
  | some i => (i, d.fill i [])
  | none => (d.files, (d.opened n).fill d.files [])

def append (d : Volume ν) (i : Nat) (more : List UInt8) : Volume ν := d.fill i (d.bytes i ++ more)

def sync (d : Volume ν) (i : Nat) : Volume ν := { d with stored := Function.update d.stored i true }

/-- The directory where file `i` has gone from name `a` to name `b`. -/
def moved [DecidableEq ν] (d : Volume ν) (a b : ν) (i : Nat) : Volume ν :=
  { d with
    now := Function.update (Function.update d.now a none) b (some i)
    past := d.versions }

def rename [DecidableEq ν] (d : Volume ν) (a b : ν) : Option (Volume ν) :=
  (d.now a).map (d.moved a b)

def syncDir (d : Volume ν) : Volume ν := { d with past := [] }

/-- What is found after a power cut. `torn` is what files that weren't stored read as. -/
def powerCut (d : Volume ν) (v : Directory ν) (torn : Nat → List UInt8) : Volume ν :=
  { d with
    now := v
    past := []
    bytes := fun i => if d.stored i then d.bytes i else torn i
    stored := fun _ => true }

/-- Whatever a power cut brings back, each of the `kept` names reads as something that is
`fit` for it, no file has two names, and a file that can be written has no kept name. -/
structure Whole (kept : ν → Prop) (fit : ν → Option (List UInt8) → Prop) (d : Volume ν) : Prop where
  fit : ∀ v ∈ d.versions, ∀ n, kept n → fit n (d.read v n)
  stored : ∀ v ∈ d.versions, ∀ n i, kept n → v n = some i → d.stored i = true
  made : ∀ v ∈ d.versions, ∀ n i, v n = some i → i < d.files
  apart : ∀ v ∈ d.versions, ∀ m n i, v m = some i → v n = some i → m = n
  loose : ∀ v ∈ d.versions, ∀ m n i, ¬ kept m → kept n → d.now m = some i → v n ≠ some i

variable {kept : ν → Prop} {fit fit' : ν → Option (List UInt8) → Prop} {d : Volume ν}
    {v : Directory ν} {i : Nat} {m n : ν}

@[simp] theorem now_fill : (d.fill i bs).now = d.now := rfl

@[simp] theorem versions_fill : (d.fill i bs).versions = d.versions := rfl

@[simp] theorem now_mem : d.now ∈ d.versions := List.mem_cons_self ..

theorem read_fill (h : v n ≠ some i) : (d.fill i bs).read v n = d.read v n := by
  unfold read fill
  cases hv : v n with
  | none => rfl
  | some j =>
    have hj : j ≠ i := by
      rintro rfl
      exact h hv
    simp [hj]

theorem stored_fill (h : j ≠ i) : (d.fill i bs).stored j = d.stored j := by
  simp [fill, h]

theorem read_some (h : v n = some i) : d.read v n = some (d.bytes i) := by
  simp [read, h]

/-- A file that no kept name has, whatever a power cut brings back. -/
def Loose (kept : ν → Prop) (d : Volume ν) (i : Nat) : Prop :=
  ∀ v ∈ d.versions, ∀ n, kept n → v n ≠ some i

theorem Whole.of_name (h : Whole kept fit d) (hm : ¬ kept m) (hi : d.now m = some i) :
    Loose kept d i :=
  fun v hv n hn => h.loose v hv m n i hm hn hi

theorem Whole.fits (h : Whole kept fit d) (hf : ∀ n x, kept n → fit n x → fit' n x) :
    Whole kept fit' d :=
  ⟨fun v hv n hn => hf n _ hn (h.fit v hv n hn), h.stored, h.made, h.apart, h.loose⟩

theorem Whole.fill (h : Whole kept fit d) (hi : Loose kept d i) : Whole kept fit (d.fill i bs) where
  fit v hv n hn := by
    rw [read_fill (hi v hv n hn)]
    exact h.fit v hv n hn
  stored v hv n j hn hj := by
    have hne : j ≠ i := by
      rintro rfl
      exact hi v hv n hn hj
    rw [stored_fill hne]
    exact h.stored v hv n j hn hj
  made := h.made
  apart := h.apart
  loose := h.loose

theorem update_cases [DecidableEq ν] {x : Option Nat} (h : Function.update v n x m = some i) :
    m = n ∧ x = some i ∨ m ≠ n ∧ v m = some i := by
  by_cases hm : m = n
  · subst hm
    rw [Function.update_self] at h
    exact .inl ⟨rfl, h⟩
  · rw [Function.update_of_ne hm] at h
    exact .inr ⟨hm, h⟩

theorem opened_cases [DecidableEq ν] (h : (d.opened n).now m = some i) :
    m = n ∧ i = d.files ∨ m ≠ n ∧ d.now m = some i := by
  rcases update_cases h with ⟨hm, hi⟩ | hm
  · exact .inl ⟨hm, (Option.some.inj hi).symm⟩
  · exact .inr hm

theorem opened_ne [DecidableEq ν] (h : m ≠ n) : (d.opened n).now m = d.now m :=
  Function.update_of_ne h ..

theorem Whole.opened [DecidableEq ν] (h : Whole kept fit d) (hn : ¬ kept n) :
    Whole kept fit (d.opened n) := by
  have hkept : ∀ {m}, kept m → m ≠ n := by
    rintro m hm rfl
    exact hn hm
  have hnow := h.made d.now now_mem
  refine ⟨?_, ?_, ?_, ?_, ?_⟩
  · intro v hv m hm
    rcases List.mem_cons.mp hv with rfl | hv
    · have hf := h.fit d.now now_mem m hm
      unfold read at hf ⊢
      rwa [opened_ne (hkept hm)]
    · exact h.fit v hv m hm
  · intro v hv m i hm hi
    rcases List.mem_cons.mp hv with rfl | hv
    · rw [opened_ne (hkept hm)] at hi
      exact h.stored d.now now_mem m i hm hi
    · exact h.stored v hv m i hm hi
  · intro v hv m i hi
    rcases List.mem_cons.mp hv with rfl | hv
    · rcases opened_cases hi with ⟨-, rfl⟩ | ⟨-, hi⟩
      · exact Nat.lt_succ_self _
      · exact Nat.lt_succ_of_lt (hnow m i hi)
    · exact Nat.lt_succ_of_lt (h.made v hv m i hi)
  · intro v hv a b i ha hb
    rcases List.mem_cons.mp hv with rfl | hv
    · rcases opened_cases ha with ⟨han, hi⟩ | ⟨-, ha⟩
      · rcases opened_cases hb with ⟨hbn, -⟩ | ⟨-, hb⟩
        · exact han.trans hbn.symm
        · exact absurd (hnow b i hb) (by omega)
      · rcases opened_cases hb with ⟨-, hi⟩ | ⟨-, hb⟩
        · exact absurd (hnow a i ha) (by omega)
        · exact h.apart d.now now_mem a b i ha hb
    · exact h.apart v hv a b i ha hb
  · intro v hv a b i ha hb hi hj
    rcases List.mem_cons.mp hv with rfl | hv
    · rcases opened_cases hj with ⟨hbn, -⟩ | ⟨-, hj⟩
      · exact hkept hb hbn
      · rcases opened_cases hi with ⟨-, hi⟩ | ⟨-, hi⟩
        · exact absurd (hnow b i hj) (by omega)
        · exact h.loose d.now now_mem a b i ha hb hi hj
    · rcases opened_cases hi with ⟨-, hi⟩ | ⟨-, hi⟩
      · exact absurd (h.made v hv b i hj) (by omega)
      · exact h.loose v hv a b i ha hb hi hj

theorem Whole.create [DecidableEq ν] (h : Whole kept fit d) (hn : ¬ kept n) :
    Whole kept fit (d.create n).2 := by
  unfold Volume.create
  split
  · rename_i i hi
    exact h.fill (h.of_name hn hi)
  · exact (h.opened hn).fill ((h.opened hn).of_name hn (Function.update_self ..))

theorem Whole.append (h : Whole kept fit d) (hi : Loose kept d i) :
    Whole kept fit (d.append i more) := h.fill hi

theorem Whole.sync (h : Whole kept fit d) : Whole kept fit (d.sync i) where
  fit := h.fit
  stored v hv n j hn hj := by
    by_cases hji : j = i
    · simp [Volume.sync, hji]
    · simp only [Volume.sync, Function.update_of_ne hji]
      exact h.stored v hv n j hn hj
  made := h.made
  apart := h.apart
  loose := h.loose

theorem moved_cases [DecidableEq ν] (h : (d.moved m n i).now a = some j) :
    a = n ∧ j = i ∨ a ≠ m ∧ a ≠ n ∧ d.now a = some j := by
  rcases update_cases h with ⟨ha, hj⟩ | ⟨han, ha⟩
  · exact .inl ⟨ha, (Option.some.inj hj).symm⟩
  · rcases update_cases ha with ⟨-, hj⟩ | ⟨ham, ha⟩
    · cases hj
    · exact .inr ⟨ham, han, ha⟩

theorem moved_ne [DecidableEq ν] (hm : a ≠ m) (hn : a ≠ n) : (d.moved m n i).now a = d.now a :=
  (Function.update_of_ne hn ..).trans (Function.update_of_ne hm ..)

/-- A file that is stored, and fit for a kept name, takes the name. -/
theorem Whole.moved [DecidableEq ν] (h : Whole kept fit d) (hm : ¬ kept m) (hn : kept n)
    (hi : d.now m = some i)
    (hs : d.stored i = true) (hf : fit n (some (d.bytes i))) : Whole kept fit (d.moved m n i) := by
  refine ⟨?_, ?_, ?_, ?_, ?_⟩
  · intro v hv a ha
    rcases List.mem_cons.mp hv with rfl | hv
    · by_cases han : a = n
      · subst han
        have hself : (d.moved m a i).now a = some i := Function.update_self ..
        rw [read_some hself]
        exact hf
      · have ham : a ≠ m := by
          rintro rfl
          exact hm ha
        have hfa := h.fit d.now now_mem a ha
        unfold read at hfa ⊢
        rwa [moved_ne ham han]
    · exact h.fit v hv a ha
  · intro v hv a j ha hj
    rcases List.mem_cons.mp hv with rfl | hv
    · rcases moved_cases hj with ⟨-, rfl⟩ | ⟨-, -, hj⟩
      · exact hs
      · exact h.stored d.now now_mem a j ha hj
    · exact h.stored v hv a j ha hj
  · intro v hv a j hj
    rcases List.mem_cons.mp hv with rfl | hv
    · rcases moved_cases hj with ⟨-, rfl⟩ | ⟨-, -, hj⟩
      · exact h.made d.now now_mem m j hi
      · exact h.made d.now now_mem a j hj
    · exact h.made v hv a j hj
  · intro v hv a b j ha hb
    rcases List.mem_cons.mp hv with rfl | hv
    · rcases moved_cases ha with ⟨han, hj⟩ | ⟨ham, -, ha'⟩
      · rcases moved_cases hb with ⟨hbn, -⟩ | ⟨hbm, -, hb'⟩
        · exact han.trans hbn.symm
        · subst hj
          exact absurd (h.apart d.now now_mem b m j hb' hi) hbm
      · rcases moved_cases hb with ⟨-, hj⟩ | ⟨-, -, hb'⟩
        · subst hj
          exact absurd (h.apart d.now now_mem a m j ha' hi) ham
        · exact h.apart d.now now_mem a b j ha' hb'
    · exact h.apart v hv a b j ha hb
  · intro v hv a b j ha hb hj hbj
    rcases moved_cases hj with ⟨rfl, -⟩ | ⟨ham, -, hj'⟩
    · exact ha hn
    · rcases List.mem_cons.mp hv with rfl | hv
      · rcases moved_cases hbj with ⟨-, rfl⟩ | ⟨-, -, hbj'⟩
        · exact absurd (h.apart d.now now_mem a m j hj' hi) ham
        · exact h.loose d.now now_mem a b j ha hb hj' hbj'
      · exact h.loose v hv a b j ha hb hj' hbj

/-- Once the directory is synced only what it is now counts. -/
theorem Whole.syncDir (h : Whole kept fit d) (hf : ∀ n, kept n → fit' n (d.read d.now n)) :
    Whole kept fit' d.syncDir := by
  have hone : ∀ v ∈ d.syncDir.versions, v = d.now := fun v hv => List.mem_singleton.mp hv
  refine ⟨fun v hv n hn => ?_, fun v hv => ?_, fun v hv => ?_, fun v hv => ?_, fun v hv => ?_⟩
  · rw [hone v hv]
    exact hf n hn
  · rw [hone v hv]
    exact h.stored d.now now_mem
  · rw [hone v hv]
    exact h.made d.now now_mem
  · rw [hone v hv]
    exact h.apart d.now now_mem
  · rw [hone v hv]
    exact h.loose d.now now_mem

theorem Whole.powerCut (h : Whole kept fit d) (hv : v ∈ d.versions) :
    Whole kept fit (d.powerCut v torn) := by
  have hone : ∀ w ∈ (d.powerCut v torn).versions, w = v := fun w hw => List.mem_singleton.mp hw
  refine ⟨fun w hw n hn => ?_, fun w hw n i hn hi => rfl, fun w hw n i hi => ?_,
    fun w hw m n i hm hn => ?_, ?_⟩
  · obtain rfl := hone w hw
    have hf := h.fit w hv n hn
    unfold read at hf ⊢
    cases hi : w n with
    | none =>
      rw [hi] at hf
      exact hf
    | some i =>
      rw [hi] at hf
      have hs := h.stored w hv n i hn hi
      simpa [Volume.powerCut, hs] using hf
  · obtain rfl := hone w hw
    exact h.made w hv n i hi
  · obtain rfl := hone w hw
    exact h.apart w hv m n i hm hn
  · intro w hw m n i hm hn hi hj
    obtain rfl := hone w hw
    obtain rfl := h.apart w hv m n i hi hj
    exact hm hn

/-- A directory as it is found: all of it is on the disk, and no file has two names. -/
structure Found (d : Volume ν) : Prop where
  synced : d.past = []
  stored : ∀ n i, d.now n = some i → d.stored i = true
  made : ∀ n i, d.now n = some i → i < d.files
  apart : ∀ m n i, d.now m = some i → d.now n = some i → m = n

theorem Found.whole (h : Found d) (hf : ∀ n, kept n → fit n (d.read d.now n)) :
    Whole kept fit d := by
  have hone : ∀ v ∈ d.versions, v = d.now := by
    intro v hv
    rw [versions, h.synced] at hv
    exact List.mem_singleton.mp hv
  refine ⟨fun v hv n hn => ?_, fun v hv n i _ hi => ?_, fun v hv n i hi => ?_,
    fun v hv m n i hm hn => ?_, ?_⟩
  · obtain rfl := hone v hv
    exact hf n hn
  · obtain rfl := hone v hv
    exact h.stored n i hi
  · obtain rfl := hone v hv
    exact h.made n i hi
  · obtain rfl := hone v hv
    exact h.apart m n i hm hn
  · intro v hv m n i hm hn hi hj
    obtain rfl := hone v hv
    obtain rfl := h.apart m n i hi hj
    exact hm hn

end Volume

end KissTncBridge.Lib
