import KissTncBridge.Lib.Maps
import KissTncBridge.Supervisor.Announcing

namespace KissTncBridge.Proofs.AnnounceSide
open Lib Supervisor Announce Announcing

variable {a : Announcer} {w : Side} {k : String × String} {b p : String}

theorem knows_eq (a : Announcer) (b : String) : a.knows b = (a.bridges[b]?).isSome :=
  Std.TreeMap.contains_eq_isSome_getElem?

theorem slot_modify (a : Announcer) (n : String) (f : BridgeAnn → BridgeAnn) :
    (a.modify n f).bridges[b]? = if n = b then (a.bridges[b]?).map f else a.bridges[b]? := by
  unfold Announcer.modify
  split
  · rename_i ann ha
    split
    · rename_i he
      subst he
      rw [getElem?_insert_self, ha]
      rfl
    · rename_i he
      exact getElem?_insert_ne he ..
  · rename_i ha
    split
    · rename_i he
      subst he
      rw [ha]
      rfl
    · rfl

theorem knows_modify (a : Announcer) (n : String) (f : BridgeAnn → BridgeAnn) :
    (a.modify n f).knows b = a.knows b := by
  rw [knows_eq, knows_eq, slot_modify]
  split <;> simp

theorem slot_bridge (a : Announcer) (n c : String) :
    (a.onCmd (.bridge n c)).bridges[b]? = if n = b then
      some ⟨c, ((a.bridges[b]?).map BridgeAnn.services).getD ∅⟩ else a.bridges[b]? := by
  unfold Announcer.onCmd
  by_cases he : n = b
  · subst he
    rw [if_pos rfl]
    dsimp only
    split
    · rename_i ann ha
      rw [getElem?_insert_self, ha]
      rfl
    · rename_i ha
      rw [getElem?_insert_self, ha]
      rfl
  · rw [if_neg he]
    dsimp only
    split <;> exact getElem?_insert_ne he ..

theorem slot_forget (a : Announcer) (n : String) :
    (a.onCmd (.forget n)).bridges[b]? = if n = b then none else a.bridges[b]? := by
  rw [Announcer.onCmd]
  split
  · rename_i he
    subst he
    exact getElem?_erase_self ..
  · rename_i he
    exact getElem?_erase_ne he ..

/-- A bridge is known from the command that registers it to the one that
withdraws it. -/
theorem knows_onCmd (a : Announcer) (c : Cmd) : (a.onCmd c).knows b = match c with
    | .bridge n _ => n == b || a.knows b
    | .forget n => n != b && a.knows b
    | _ => a.knows b := by
  cases c with
  | bridge n c =>
    rw [knows_eq, slot_bridge, knows_eq]
    by_cases he : n = b <;> simp [he]
  | forget n =>
    rw [knows_eq, slot_forget, knows_eq]
    by_cases he : n = b <;> simp [he]
  | up n q s => exact knows_modify ..
  | down n q => exact knows_modify ..

theorem service_modify (a : Announcer) (n : String) (f : BridgeAnn → BridgeAnn) :
    (a.modify n f).service b p = if n = b then
      (a.bridges[b]?).bind (fun ann => (f ann).services[p]?) else a.service b p := by
  unfold Announcer.service
  rw [slot_modify]
  split
  · rw [Option.bind_map]
    rfl
  · rfl

/-- What a command does to one port's service. -/
theorem service_onCmd (a : Announcer) (c : Cmd) : (a.onCmd c).service b p = match c with
    | .bridge _ _ => a.service b p
    | .forget n => if n = b then none else a.service b p
    | .up n q s => if n = b ∧ q = p ∧ a.knows b = true then some s else a.service b p
    | .down n q => if n = b ∧ q = p then none else a.service b p := by
  cases c with
  | bridge n c =>
    dsimp only
    unfold Announcer.service
    rw [slot_bridge]
    split
    · cases a.bridges[b]? with
      | none => simp
      | some ann => simp
    · rfl
  | forget n =>
    dsimp only
    unfold Announcer.service
    rw [slot_forget]
    split <;> rfl
  | up n q s =>
    dsimp only
    unfold Announcer.onCmd
    rw [service_modify, knows_eq]
    by_cases hn : n = b
    · by_cases hq : q = p
      · subst hq
        cases ha : a.bridges[b]? <;> simp [hn, Announcer.service, ha]
      · cases ha : a.bridges[b]? <;> simp [hn, hq, Announcer.service, ha, getElem?_insert_ne hq]
    · simp [hn]
  | down n q =>
    dsimp only
    unfold Announcer.onCmd
    rw [service_modify]
    by_cases hn : n = b
    · by_cases hq : q = p
      · subst hq
        cases ha : a.bridges[b]? <;> simp [hn]
      · cases ha : a.bridges[b]? <;> simp [hn, hq, Announcer.service, ha, getElem?_erase_ne hq]
    · simp [hn]

def heard (cs : List Cmd) : Announcer := cs.foldl Announcer.onCmd .new

theorem heard_snoc (cs : List Cmd) (c : Cmd) : heard (cs ++ [c]) = (heard cs).onCmd c := by
  rw [heard, List.foldl_append]
  rfl

def Knows (w : Side) (b : String) : Prop := (heard w.sent).knows b = true

def Lists (w : Side) (k : String × String) : Prop := ((heard w.sent).service k.1 k.2).isSome = true

def Own (k : String × String) (c : Cmd) : Prop := (∃ s, c = .up k.1 k.2 s) ∨ c = .down k.1 k.2

def isUp : Cmd → Bool
  | .up .. => true
  | _ => false

/-- What holds of a port that is followed: its bridge is known, and once the task
has read the port's state, what it has in hand or has sent last is about that
state. -/
structure Told (w : Side) (k : String × String) : Prop where
  knows : Knows w k.1
  own : ∀ c, (w.follow k).hand = some c → Own k c
  held : (w.follow k).unseen = false → ∀ c, (w.follow k).hand = some c →
    isUp c = (w.server k).isListening
  read : (w.follow k).unseen = false → (w.follow k).hand = none →
    (Lists w k ↔ (w.server k).isListening = true)

structure Untold (w : Side) (k : String × String) : Prop where
  idle : w.follow k = {}
  unlisted : ¬ Lists w k

/-- A task just spawned has all to tell. -/
theorem Untold.begin (h : Untold w k) (hk : Knows w k.1) : Told w k := by
  obtain ⟨hi, _⟩ := h
  refine ⟨hk, ?_, ?_, ?_⟩ <;> rw [hi] <;> intros <;> contradiction

theorem Told.of_same (h : Told w k) (hs : w'.sent = w.sent) (hf : w'.follow k = w.follow k)
    (hst : w'.server k = w.server k) : Told w' k := by
  obtain ⟨hk, ho, hh, hr⟩ := h
  unfold Knows at hk
  unfold Lists at hr
  rw [← hf] at ho hh hr
  rw [← hst] at hh hr
  rw [← hs] at hk hr
  exact ⟨hk, ho, hh, hr⟩

theorem Untold.of_same (h : Untold w k) (hs : w'.sent = w.sent) (hf : w'.follow k = w.follow k) :
    Untold w' k := by
  obtain ⟨hi, hl⟩ := h
  unfold Lists at hl
  rw [← hs] at hl
  exact ⟨hf.trans hi, hl⟩

/-- What the daemon does, with every aborted task's command dropped. -/
def done (w : Side) (e : Effect) : Side := w.effect (fun _ => false) e

/-- An effect that matters to a port that is followed. -/
def Touches (k : String × String) : Effect → Prop
  | .announce (.down b p) | .startPort b p _ => (b, p) = k
  | .announce (.forget b) => b = k.1
  | _ => False

theorem knows_push (w : Side) (c : Cmd) :
    Knows (w.push c) b ↔ ((heard w.sent).onCmd c).knows b = true := by
  rw [Knows, Side.push, heard_snoc]

theorem lists_push (w : Side) (c : Cmd) :
    Lists (w.push c) k ↔ (((heard w.sent).onCmd c).service k.1 k.2).isSome = true := by
  rw [Lists, Side.push, heard_snoc]

theorem knows_done (he : e ≠ .announce (.forget b)) (h : Knows w b) : Knows (done w e) b := by
  cases e with
  | announce c =>
    cases c with
    | bridge n c =>
      refine (knows_push ..).mpr ?_
      rw [knows_onCmd]
      simp [Knows] at h
      simp [cmdOf, h]
    | down n q =>
      refine (knows_push ..).mpr ?_
      rw [knows_onCmd]
      exact h
    | forget n =>
      refine (knows_push ..).mpr ?_
      rw [knows_onCmd]
      have hn : n ≠ b := fun hn => he (hn ▸ rfl)
      simpa [cmdOf, hn, Knows] using h
  | _ => exact h

theorem knows_bridge (w : Side) (b c : String) : Knows (done w (.announce (.bridge b c))) b := by
  refine (knows_push ..).mpr ?_
  rw [knows_onCmd]
  simp [cmdOf]

theorem lists_aside (h : ¬ Touches k e) (w : Side) : Lists (done w e) k ↔ Lists w k := by
  cases e with
  | announce c =>
    cases c with
    | bridge n c =>
      refine (lists_push ..).trans ?_
      rw [service_onCmd]
      rfl
    | down n q =>
      refine (lists_push ..).trans ?_
      have hk : ¬(n = k.1 ∧ q = k.2) := fun hk => h (Prod.ext hk.1 hk.2)
      rw [service_onCmd]
      dsimp only
      rw [if_neg hk]
      rfl
    | forget n =>
      refine (lists_push ..).trans ?_
      rw [service_onCmd]
      have hn : n ≠ k.1 := h
      dsimp only [cmdOf]
      rw [if_neg hn]
      rfl
  | _ => rfl

theorem not_lists_done (h : ¬ Lists w k) (e : Effect) : ¬ Lists (done w e) k := by
  by_cases ht : Touches k e
  · cases e with
    | announce c =>
      cases c with
      | bridge n c => cases ht
      | down n q =>
        refine fun hl => absurd ((lists_push ..).mp hl) ?_
        rw [service_onCmd]
        dsimp only
        rw [if_pos ⟨congrArg Prod.fst ht, congrArg Prod.snd ht⟩]
        simp
      | forget n =>
        refine fun hl => absurd ((lists_push ..).mp hl) ?_
        rw [service_onCmd]
        have hn : n = k.1 := ht
        dsimp only [cmdOf]
        rw [if_pos hn]
        simp
    | startPort n q rp => exact h
    | _ => cases ht
  · rwa [lists_aside ht]

theorem follow_aside (h : ¬ Touches k e) (w : Side) : (done w e).follow k = w.follow k := by
  cases e with
  | announce c =>
    cases c with
    | down n q => exact Function.update_of_ne (fun hk => h hk.symm) ..
    | _ => rfl
  | _ => rfl

theorem server_aside (h : ¬ Touches k e) (w : Side) : (done w e).server k = w.server k := by
  cases e with
  | announce c => cases c <;> rfl
  | startPort n q rp => exact Function.update_of_ne (fun hk => h hk.symm) ..
  | _ => rfl

theorem Told.aside (h : Told w k) (ht : ¬ Touches k e) : Told (done w e) k := by
  have hf : e ≠ .announce (.forget k.1) := fun he => ht (he ▸ rfl)
  refine ⟨knows_done hf h.knows, ?_, ?_, ?_⟩
  · rw [follow_aside ht]
    exact h.own
  · rw [follow_aside ht, server_aside ht]
    exact h.held
  · rw [follow_aside ht, server_aside ht, lists_aside ht]
    exact h.read

/-- Nothing the daemon does announces a port. -/
theorem Untold.done (h : Untold w k) (e : Effect) : Untold (done w e) k := by
  refine ⟨?_, not_lists_done h.unlisted e⟩
  by_cases ht : Touches k e
  · cases e with
    | announce c =>
      cases c with
      | down n q =>
        subst ht
        exact Function.update_self ..
      | _ => exact h.idle
    | _ => exact h.idle
  · rw [follow_aside ht]
    exact h.idle

theorem untold_down (w : Side) (b p : String) :
    Untold (AnnounceSide.done w (.announce (.down b p))) (b, p) := by
  refine ⟨Function.update_self .., ?_⟩
  refine fun hl => absurd ((lists_push ..).mp hl) ?_
  rw [service_onCmd]
  simp

end KissTncBridge.Proofs.AnnounceSide
