import Mathlib.Data.List.Nodup
import KissTncBridge.Config.Validate

namespace KissTncBridge.Proofs.ValidConfig
open Conf

/-- A config that validation finds no error in. Errors never depend on the
host. -/
def Valid (cfg : Config) : Prop := (validate cfg none).errors = []

instance (cfg : Config) : Decidable (Valid cfg) := inferInstanceAs (Decidable (_ = _))

theorem seenBefore_none [DecidableEq κ] {key : α → κ} {seen : List α} {a : α}
    (h : seenBefore (fun x => some (key x)) seen a = none) : key a ∉ seen.map key := by
  simp only [seenBefore, List.find?_eq_none] at h
  intro hm
  obtain ⟨s, hs, he⟩ := List.mem_map.mp hm
  exact h s hs (by simp [he])

theorem walk_mem {f : List α → α → List β} (h : walk f seen l = []) (hm : a ∈ l) :
    ∃ before, f before a = [] := by
  induction l generalizing seen with
  | nil => cases hm
  | cons b l ih =>
    obtain ⟨hb, hl⟩ := List.append_eq_nil_iff.mp h
    rcases List.mem_cons.mp hm with rfl | hm
    · exact ⟨seen, hb⟩
    · exact ih hl hm

/-- A walk that reports every key it has seen before and reports nothing has
seen distinct keys. -/
theorem walk_nodup {key : α → κ} {f : List α → α → List β}
    (hf : ∀ seen a, f seen a = [] → key a ∉ seen.map key) (h : walk f seen l = []) :
    (l.map key).Nodup ∧ ∀ a ∈ l, key a ∉ seen.map key := by
  induction l generalizing seen with
  | nil => exact ⟨List.nodup_nil, fun _ hm => by cases hm⟩
  | cons b l ih =>
    obtain ⟨hb, hl⟩ := List.append_eq_nil_iff.mp h
    obtain ⟨hn, hd⟩ := ih hl
    refine ⟨?_, ?_⟩
    · rw [List.map_cons, List.nodup_cons]
      refine ⟨fun hm => ?_, hn⟩
      obtain ⟨a, ha, he⟩ := List.mem_map.mp hm
      exact hd a ha (he ▸ List.mem_cons_self ..)
    · intro a hm
      rcases List.mem_cons.mp hm with rfl | hm
      · exact hf seen _ hb
      · exact fun hs => hd a hm (List.mem_cons_of_mem _ hs)

theorem bridgeErrors_id (h : bridgeErrors seen b = []) : b.id ∉ seen.map Bridge.id := by
  simp only [bridgeErrors, List.append_eq_nil_iff] at h
  refine seenBefore_none ?_
  cases hs : seenBefore (fun x => some x.id) seen b with
  | none => rfl
  | some first =>
    rw [hs] at h
    cases h.1.1.1.1

theorem portErrors_id (h : portErrors b seen p = []) : p.id ∉ seen.map Port.id := by
  refine seenBefore_none ?_
  cases hs : seenBefore (fun x => some x.id) seen p with
  | none => rfl
  | some first =>
    rw [portErrors, hs] at h
    cases h

theorem adapterErrors_id (h : adapterErrors seen a = []) : a.id ∉ seen.map Adapter.id := by
  simp only [adapterErrors, List.append_eq_nil_iff] at h
  refine seenBefore_none ?_
  cases hs : seenBefore (fun x => some x.id) seen a with
  | none => rfl
  | some first =>
    rw [hs] at h
    cases h.1

theorem tncErrors_id (h : tncErrors seen t = []) : t.id ∉ seen.map Tnc.id := by
  simp only [tncErrors, List.append_eq_nil_iff] at h
  refine seenBefore_none ?_
  cases hs : seenBefore (fun x => some x.id) seen t with
  | none => rfl
  | some first =>
    rw [hs] at h
    cases h.1.1.1

theorem bridgeErrors_ports (h : bridgeErrors seen b = []) : (b.ports.map Port.id).Nodup := by
  simp only [bridgeErrors, List.append_eq_nil_iff] at h
  exact (walk_nodup (fun _ _ => portErrors_id) h.1.1.2).1

theorem bridgeErrors_tnc (h : bridgeErrors seen b = []) (he : b.enabled = true) :
    ∃ p, b.tncPorts = [p] := by
  simp only [bridgeErrors, List.append_eq_nil_iff] at h
  have hl : b.tncPorts.length = 1 := by
    by_contra hn
    have := h.1.2
    rw [if_pos ⟨he, hn⟩] at this
    cases this
  exact List.length_eq_one_iff.mp hl

theorem Valid.bridges (h : Valid cfg) : walk bridgeErrors [] cfg.bridges = [] := by
  simp only [Valid, validate, List.append_eq_nil_iff] at h
  exact h.1.2

theorem Valid.bridge_ids (h : Valid cfg) : (cfg.bridges.map Bridge.id).Nodup :=
  (walk_nodup (fun _ _ => bridgeErrors_id) h.bridges).1

theorem Valid.port_ids (h : Valid cfg) (hb : b ∈ cfg.bridges) : (b.ports.map Port.id).Nodup := by
  obtain ⟨_, hn⟩ := walk_mem h.bridges hb
  exact bridgeErrors_ports hn

/-- An enabled bridge has exactly one TNC port. -/
theorem Valid.tnc_port (h : Valid cfg) (hb : b ∈ cfg.bridges) (he : b.enabled = true) :
    ∃ p, b.tncPorts = [p] := by
  obtain ⟨_, hn⟩ := walk_mem h.bridges hb
  exact bridgeErrors_tnc hn he

theorem Valid.adapter_ids (h : Valid cfg) : (cfg.adapters.map Adapter.id).Nodup := by
  simp only [Valid, validate, List.append_eq_nil_iff] at h
  exact (walk_nodup (fun _ _ => adapterErrors_id) h.1.1.1).1

theorem Valid.tnc_ids (h : Valid cfg) : (cfg.tncs.map Tnc.id).Nodup := by
  simp only [Valid, validate, List.append_eq_nil_iff] at h
  exact (walk_nodup (fun _ _ => tncErrors_id) h.1.1.2).1

theorem mem_appPorts (b : Bridge) : p ∈ b.appPorts ↔ p ∈ b.ports ∧ p.role = .app := by
  simp only [Bridge.appPorts, List.mem_filter, beq_iff_eq]

theorem mem_tncPorts (b : Bridge) : p ∈ b.tncPorts ↔ p ∈ b.ports ∧ p.role = .tnc := by
  simp only [Bridge.tncPorts, List.mem_filter, beq_iff_eq]

/-- Objects with distinct ids are found by them. -/
theorem find_of_mem [DecidableEq κ] {key : α → κ} {l : List α} (hd : (l.map key).Nodup)
    (hm : a ∈ l) : l.find? (fun x => key x == key a) = some a := by
  induction l with
  | nil => cases hm
  | cons b l ih =>
    rw [List.map_cons, List.nodup_cons] at hd
    rcases List.mem_cons.mp hm with rfl | hm
    · simp
    · rw [List.find?_cons_of_neg _, ih hd.2 hm]
      simp only [beq_iff_eq]
      intro he
      exact hd.1 (he ▸ List.mem_map_of_mem hm)

theorem Valid.find_bridge (h : Valid cfg) (hb : b ∈ cfg.bridges) (hid : bid = b.id) :
    cfg.bridges.find? (fun x => x.id == bid) = some b := by
  subst hid
  exact find_of_mem h.bridge_ids hb

theorem Valid.find_port (h : Valid cfg) (hb : b ∈ cfg.bridges) (hp : p ∈ b.ports)
    (hid : pid = p.id) : b.ports.find? (fun x => x.id == pid) = some p := by
  subst hid
  exact find_of_mem (h.port_ids hb) hp

end KissTncBridge.Proofs.ValidConfig
