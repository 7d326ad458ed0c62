import KissTncBridge.Config.WriteAtomic
import KissTncBridge.Lib.Runs

namespace KissTncBridge.Proofs.WholeFiles
open Conf Lib

variable {κ : Type} {d : Volume (FileName κ)} {s t u : Files κ} {e : FileStep κ} {j k : κ}
    {w : Writing}
  {es fs : List (FileStep κ)} {i : Nat} {b : List UInt8}

/-- What a file may read as: what it was last, or all of what was begun to be written
since. -/
def MayRead (s : Files κ) : FileName κ → Option (List UInt8) → Prop
  | .file k, x => x = s.last k ∨ ∃ b ∈ s.since k, x = some b
  | .tmp _, _ => True

def At (s : Files κ) (k : κ) : Writing → Prop
  | .idle => True
  | .writing i bytes rest => s.disk.now (.tmp k) = some i ∧ s.disk.bytes i ++ rest = bytes ∧
      bytes ∈ s.since k
  | .synced bytes =>
    ∃ i, s.disk.now (.tmp k) = some i ∧ s.disk.stored i = true ∧ s.disk.bytes i = bytes ∧
      bytes ∈ s.since k
  | .renamed bytes => s.disk.read s.disk.now (.file k) = some bytes

structure Safe (s : Files κ) : Prop where
  whole : s.disk.Whole (fun n => n.isFile = true) (MayRead s)
  doing : ∀ k, At s k (s.doing k)

theorem safe_found (hd : d.Found) : Safe (Files.found d) := by
  refine ⟨hd.whole ?_, fun _ => trivial⟩
  rintro (k | k) -
  · exact .inl rfl
  · trivial

def Stays (s t : Files κ) (n : FileName κ) : Prop :=
  t.disk.now n = s.disk.now n ∧
    ∀ i, s.disk.now n = some i → t.disk.bytes i = s.disk.bytes i ∧
      (s.disk.stored i = true → t.disk.stored i = true)

theorem read_stays (h : Stays s t n) : t.disk.read t.disk.now n = s.disk.read s.disk.now n := by
  unfold Volume.read
  rw [h.1]
  cases hn : s.disk.now n with
  | none => rfl
  | some i =>
    rw [Option.map_some, Option.map_some, (h.2 i hn).1]

theorem stays_refl (hd : t.disk = s.disk) : Stays s t n := by
  refine ⟨by rw [hd], fun i hi => ?_⟩
  rw [hd]
  exact ⟨rfl, id⟩

theorem At.stays (h : At s k w) (hfile : Stays s t (.file k)) (htmp : Stays s t (.tmp k))
    (hs : t.since k = s.since k) : At t k w := by
  cases w with
  | idle => trivial
  | writing i bytes rest =>
    obtain ⟨hi, hb, hm⟩ := h
    refine ⟨htmp.1.trans hi, ?_, hs ▸ hm⟩
    rw [(htmp.2 i hi).1]
    exact hb
  | synced bytes =>
    obtain ⟨i, hi, hst, hb, hm⟩ := h
    exact ⟨i, htmp.1.trans hi, (htmp.2 i hi).2 hst, (htmp.2 i hi).1.trans hb, hs ▸ hm⟩
  | renamed bytes => exact (read_stays hfile).trans h

theorem stays_fill (h : Safe s) (hi : s.disk.now m = some i) (hn : n ≠ m)
    (ht : t.disk = s.disk.fill i bs) : Stays s t n := by
  refine ⟨by rw [ht]; rfl, fun j hj => ?_⟩
  have hne : j ≠ i := by
    rintro rfl
    exact hn (h.whole.apart _ Volume.now_mem n m j hj hi)
  rw [ht]
  simp [Volume.fill, hne]

variable [DecidableEq κ]

/-- A step for one file leaves the others as they are. -/
theorem Safe.at (h : Safe s) (hd : t.doing = Function.update s.doing k w) (hk : At t k w)
    (hn : ∀ n, n ≠ .tmp k → n ≠ .file k → Stays s t n) (hs : ∀ j, j ≠ k → t.since j = s.since j) :
    ∀ j, At t j (t.doing j) := by
  intro j
  by_cases hj : j = k
  · subst hj
    rw [hd, Function.update_self]
    exact hk
  · rw [hd, Function.update_of_ne hj]
    exact (h.doing j).stays (hn _ (by simp) (by simpa using hj))
      (hn _ (by simpa using hj) (by simp)) (hs j hj)

theorem stays_create (h : Safe s) (hn : n ≠ m) (ht : t.disk = (s.disk.create m).2) :
    Stays s t n := by
  unfold Volume.create at ht
  split at ht
  · rename_i i hi
    exact stays_fill h hi hn ht
  · refine ⟨?_, fun j hj => ?_⟩
    · rw [ht]
      exact Volume.opened_ne hn
    · have hlt := h.whole.made _ Volume.now_mem n j hj
      have hne : j ≠ s.disk.files := Nat.ne_of_lt hlt
      rw [ht]
      simp [Volume.fill, Volume.opened, hne]

theorem created (d : Volume (FileName κ)) (n : FileName κ) :
    (d.create n).2.now n = some (d.create n).1 ∧ (d.create n).2.bytes (d.create n).1 = [] := by
  unfold Volume.create
  split
  · rename_i i hi
    simp [Volume.fill, hi]
  · simp [Volume.fill, Volume.opened]

theorem Safe.create (h : Safe s) (hs : s.step (.create k b) = some t) : Safe t := by
  unfold Files.step at hs
  dsimp only at hs
  split at hs
  · obtain rfl := Option.some.inj hs
    obtain ⟨hnow, hempty⟩ := created s.disk (.tmp k)
    refine ⟨(h.whole.create (by simp [FileName.isFile])).fits ?_, h.at rfl ⟨hnow, ?_, ?_⟩ ?_ ?_⟩
    · rintro (j | j) x - hx
      · by_cases hj : j = k
        · subst hj
          rcases hx with hx | ⟨c, hc, hx⟩
          · exact .inl hx
          · exact .inr ⟨c, by simp [hc], hx⟩
        · simpa [MayRead, hj] using hx
      · trivial
    · simp [hempty]
    · simp
    · intro n htmp _
      exact stays_create h htmp rfl
    · intro j hj
      exact Function.update_of_ne hj ..
  · cases hs

theorem Safe.write (h : Safe s) (hs : s.step (.write k n) = some t) : Safe t := by
  unfold Files.step at hs
  dsimp only at hs
  split at hs
  · rename_i i bytes rest hdo
    obtain rfl := Option.some.inj hs
    have hat := h.doing k
    rw [hdo] at hat
    obtain ⟨hi, hb, hm⟩ := hat
    refine ⟨h.whole.append (h.whole.of_name (by simp [FileName.isFile]) hi),
      h.at rfl ⟨hi, ?_, hm⟩ ?_ (fun _ _ => rfl)⟩
    · simp [Volume.append, Volume.fill, hb]
    · intro m htmp _
      exact stays_fill h hi htmp rfl
  · cases hs

theorem Safe.syncAll (h : Safe s) (hs : s.step (.syncAll k) = some t) : Safe t := by
  unfold Files.step at hs
  dsimp only at hs
  split at hs
  · rename_i i bytes hdo
    obtain rfl := Option.some.inj hs
    have hat := h.doing k
    rw [hdo] at hat
    obtain ⟨hi, hb, hm⟩ := hat
    rw [List.append_nil] at hb
    refine ⟨h.whole.sync, h.at rfl ⟨i, hi, Function.update_self .., hb, hm⟩ ?_ (fun _ _ => rfl)⟩
    intro m _ _
    refine ⟨rfl, fun j _ => ⟨rfl, fun hj => ?_⟩⟩
    by_cases hji : j = i
    · simp [Volume.sync, hji]
    · simpa [Volume.sync, hji] using hj
  · cases hs

theorem Safe.rename (h : Safe s) (hs : s.step (.rename k) = some t) : Safe t := by
  unfold Files.step at hs
  dsimp only at hs
  split at hs
  · rename_i bytes hdo
    have hat := h.doing k
    rw [hdo] at hat
    obtain ⟨i, hi, hst, hb, hm⟩ := hat
    rw [Volume.rename, hi] at hs
    obtain rfl := Option.some.inj hs
    have hfit : MayRead s (.file k) (some (s.disk.bytes i)) := .inr ⟨bytes, hm, by rw [hb]⟩
    have hself : (s.disk.moved (.tmp k) (.file k) i).now (.file k) = some i :=
      Function.update_self ..
    refine ⟨h.whole.moved (by simp [FileName.isFile]) rfl hi hst hfit,
      h.at rfl ?_ ?_ (fun _ _ => rfl)⟩
    · exact (Volume.read_some hself).trans (congrArg some hb)
    · intro n htmp hfile
      exact ⟨Volume.moved_ne htmp hfile, fun j _ => ⟨rfl, id⟩⟩
  · cases hs

theorem Safe.syncDir (h : Safe s) (hs : s.step (.syncDir k true) = some t) : Safe t := by
  unfold Files.step at hs
  dsimp only at hs
  split at hs
  · rename_i bytes hdo
    obtain rfl := Option.some.inj hs
    have hat := h.doing k
    rw [hdo] at hat
    refine ⟨h.whole.syncDir ?_, h.at rfl trivial (fun n _ _ => ⟨rfl, fun _ _ => ⟨rfl, id⟩⟩) ?_⟩
    · rintro (j | j) hn
      · by_cases hj : j = k
        · subst hj
          refine .inl (Eq.trans hat ?_)
          simp
        · have hold := h.whole.fit _ Volume.now_mem (.file j) hn
          simpa [MayRead, hj] using hold
      · trivial
    · intro j hj
      exact Function.update_of_ne hj ..
  · cases hs

/-- A write is given up, or done but for the directory. -/
theorem Safe.leave (h : Safe s) : Safe { s with doing := Function.update s.doing k .idle } :=
  ⟨h.whole, h.at rfl trivial (fun _ _ _ => stays_refl rfl) (fun _ _ => rfl)⟩

theorem Safe.step (h : Safe s) (hs : s.step e = some t) : Safe t := by
  cases e with
  | create k b => exact h.create hs
  | write k n => exact h.write hs
  | syncAll k => exact h.syncAll hs
  | rename k => exact h.rename hs
  | syncDir k synced =>
    cases synced with
    | true => exact h.syncDir hs
    | false =>
      unfold Files.step at hs
      dsimp only at hs
      split at hs
      · obtain rfl := Option.some.inj hs
        exact h.leave
      · cases hs
  | fail k =>
    unfold Files.step at hs
    dsimp only at hs
    split at hs
    · obtain rfl := Option.some.inj hs
      exact h.leave
    · obtain rfl := Option.some.inj hs
      exact h.leave
    · cases hs
  | exits =>
    obtain rfl := Option.some.inj hs
    exact ⟨h.whole, fun _ => trivial⟩
  | powerCut n torn =>
    obtain ⟨v, hv, rfl⟩ := Option.map_eq_some_iff.mp hs
    exact ⟨h.whole.powerCut (List.mem_of_getElem? hv), fun _ => trivial⟩

theorem runs_safe (hd : d.Found) (h : Runs Files.step (.found d) es s) : Safe s :=
  h.invariant (safe_found hd) (fun _ _ _ hi _ hs => hi.step hs)

/-- A file always reads as what it was last known to be, or as all of what was begun to be
written over it since: however the writes of different files interleave, whatever fails,
and whatever a power cut brings back. And once a write has renamed its file, that is what
is read. -/
theorem files_read_whole (hd : d.Found) (h : Runs Files.step (.found d) es s) :
    (∀ v ∈ s.disk.versions, ∀ k, s.disk.read v (.file k) = s.last k ∨ ∃ b ∈ s.since k,
      s.disk.read v (.file k) = some b) ∧
    ∀ k b, s.doing k = .renamed b → s.disk.read s.disk.now (.file k) = some b := by
  have hsafe := runs_safe hd h
  refine ⟨fun v hv k => hsafe.whole.fit v hv (.file k) rfl, fun k b hb => ?_⟩
  have hat := hsafe.doing k
  rwa [hb] at hat

/-- A first file is written; then, with a second on its way, the power is cut. -/
def cutShort : List (FileStep Nat) :=
  [.create 0 [1, 2], .write 0 1, .write 0 5, .syncAll 0, .rename 0, .syncDir 0 true,
    .create 0 [3, 4], .write 0 1, .create 1 [9], .write 1 1, .syncAll 1, .rename 1,
      .powerCut 2 (fun _ => [7])]

def emptyDisk : Volume (FileName Nat) := {}

theorem emptyDisk_found : emptyDisk.Found :=
  ⟨rfl, fun _ _ h => (nomatch h), fun _ _ h => (nomatch h), fun _ _ _ h => (nomatch h)⟩

theorem files_read_whole_cutShort : ∃ s, Runs Files.step (.found emptyDisk) cutShort s ∧
    s.disk.read s.disk.now (.tmp 0) = some [7] ∧ s.since 0 = [[3, 4]] ∧
    (s.disk.read s.disk.now (.file 0) = s.last 0 ∨ ∃ b ∈ s.since 0,
      s.disk.read s.disk.now (.file 0) = some b) := by
  have hrun : Runs Files.step (.found emptyDisk) cutShort _ := runs_of_foldlM rfl
  exact ⟨_, hrun, rfl, rfl, (files_read_whole emptyDisk_found hrun).1 _ Volume.now_mem 0⟩

/-- A file that is not being written, and is known to be on the disk. -/
structure Settled (s : Files κ) (k : κ) (b : List UInt8) : Prop where
  idle : s.doing k = .idle
  last : s.last k = some b
  since : s.since k = []

omit [DecidableEq κ] in
theorem Settled.keep (h : Settled s k b) (hd : t.doing k = s.doing k) (hl : t.last k = s.last k)
    (hs : t.since k = s.since k) : Settled t k b :=
  ⟨hd.trans h.idle, hl.trans h.last, hs.trans h.since⟩

/-- What is done for another file. -/
theorem Settled.other (h : Settled s k b) (hj : s.doing j ≠ .idle)
    (hd : t.doing = Function.update s.doing j w)
    (hl : k ≠ j → t.last k = s.last k) (hs : k ≠ j → t.since k = s.since k) : Settled t k b := by
  have hne : k ≠ j := by
    rintro rfl
    exact hj h.idle
  refine h.keep ?_ (hl hne) (hs hne)
  rw [hd, Function.update_of_ne hne]

theorem Settled.step (h : Settled s k b) (he : e.begins k = false) (hs : s.step e = some t) :
    Settled t k b := by
  unfold Files.step at hs
  cases e with
  | create j c =>
    have hne : k ≠ j := by
      rintro rfl
      simp [FileStep.begins] at he
    dsimp only at hs
    split at hs
    · obtain rfl := Option.some.inj hs
      exact h.keep (Function.update_of_ne hne ..) rfl (Function.update_of_ne hne ..)
    · cases hs
  | write j n =>
    dsimp only at hs
    split at hs
    · rename_i hdo
      obtain rfl := Option.some.inj hs
      exact h.other (by simp [hdo]) rfl (fun _ => rfl) (fun _ => rfl)
    · cases hs
  | syncAll j =>
    dsimp only at hs
    split at hs
    · rename_i hdo
      obtain rfl := Option.some.inj hs
      exact h.other (by simp [hdo]) rfl (fun _ => rfl) (fun _ => rfl)
    · cases hs
  | rename j =>
    dsimp only at hs
    split at hs
    · rename_i hdo
      obtain ⟨disk, -, rfl⟩ := Option.map_eq_some_iff.mp hs
      exact h.other (by simp [hdo]) rfl (fun _ => rfl) (fun _ => rfl)
    · cases hs
  | syncDir j synced =>
    cases synced with
    | true =>
      dsimp only at hs
      split at hs
      · rename_i hdo
        obtain rfl := Option.some.inj hs
        exact h.other (by simp [hdo]) rfl (fun hne => Function.update_of_ne hne ..)
          (fun hne => Function.update_of_ne hne ..)
      · cases hs
    | false =>
      dsimp only at hs
      split at hs
      · rename_i hdo
        obtain rfl := Option.some.inj hs
        exact h.other (by simp [hdo]) rfl (fun _ => rfl) (fun _ => rfl)
      · cases hs
  | fail j =>
    dsimp only at hs
    split at hs
    · rename_i hdo
      obtain rfl := Option.some.inj hs
      exact h.other (by simp [hdo]) rfl (fun _ => rfl) (fun _ => rfl)
    · rename_i hdo
      obtain rfl := Option.some.inj hs
      exact h.other (by simp [hdo]) rfl (fun _ => rfl) (fun _ => rfl)
    · cases hs
  | exits =>
    obtain rfl := Option.some.inj hs
    exact h.keep h.idle.symm rfl rfl
  | powerCut n torn =>
    obtain ⟨v, -, rfl⟩ := Option.map_eq_some_iff.mp hs
    exact h.keep h.idle.symm rfl rfl

theorem settled_synced (hw : s.doing k = .renamed b) (hs : s.step (.syncDir k true) = some t) :
    Settled t k b := by
  simp only [Files.step, hw] at hs
  obtain rfl := Option.some.inj hs
  exact ⟨Function.update_self .., Function.update_self .., Function.update_self ..⟩

theorem settled_run (h : Settled s k b) (hr : Runs Files.step s fs t)
    (hf : ∀ e ∈ fs, e.begins k = false) : Settled t k b := by
  induction hr with
  | start => exact h
  | next _ _ hs ih =>
    have hbefore := ih (fun e he => hf e (List.mem_append_left _ he))
    exact hbefore.step (hf _ (by simp)) hs

/-- What a write has put in place with the directory synced is what the file reads as,
also after any power cut, until another write of it is begun. -/
theorem written_stays (hd : d.Found) (h : Runs Files.step (.found d) es s)
    (hw : s.doing k = .renamed b)
    (hs : s.step (.syncDir k true) = some t) (hr : Runs Files.step t fs u)
    (hf : ∀ e ∈ fs, e.begins k = false) :
    ∀ v ∈ u.disk.versions, u.disk.read v (.file k) = some b := by
  have hsafe : Safe u := hr.invariant ((runs_safe hd h).step hs) (fun _ _ _ hi _ he => hi.step he)
  obtain ⟨-, hlast, hsince⟩ := settled_run (settled_synced hw hs) hr hf
  intro v hv
  rcases hsafe.whole.fit v hv (.file k) rfl with he | ⟨c, hc, -⟩
  · exact he.trans hlast
  · rw [hsince] at hc
    cases hc

def cutAfter : List (FileStep Nat) := [.create 1 [9], .powerCut 1 (fun _ => [7])]

theorem written_stays_cut : ∃ s, Runs Files.step (.found emptyDisk) (cutShort.take 5) s ∧ ∃ t,
    s.step (.syncDir 0 true) = some t ∧ ∃ u, Runs Files.step t cutAfter u ∧
    u.disk.read u.disk.now (.file 0) = some [1, 2] := by
  have hrun : Runs Files.step (.found emptyDisk) (cutShort.take 5) _ := runs_of_foldlM rfl
  exact ⟨_, hrun, _, rfl, _, runs_of_foldlM rfl,
    written_stays emptyDisk_found hrun rfl rfl (runs_of_foldlM rfl : Runs Files.step _ cutAfter _)
      (by decide) _ Volume.now_mem⟩

end KissTncBridge.Proofs.WholeFiles
