import KissTncBridge.Control.Commands
import KissTncBridge.Proofs.PortNames

namespace KissTncBridge.Proofs.EditSteps
open Conf Control DocumentReads Lib PortNames Supervisor Toml

variable {doc doc' : Table} {w : World} {defn : Json}

theorem bind_ok {x : Except ε α} {g : α → Except ε β} (h : x.bind g = .ok b) :
    ∃ a, x = .ok a ∧ g a = .ok b := by
  cases x with
  | error e => cases h
  | ok a => exact ⟨a, rfl, h⟩

theorem map_ok {x : Except ε α} {g : α → β} (h : x.map g = .ok b) : ∃ a, x = .ok a ∧ g a = b := by
  cases x with
  | error e => cases h
  | ok a => exact ⟨a, rfl, Except.ok.inj h⟩

theorem editable_ok (h : editable doc w kind oid = .ok t) :
    w.staticSource kind oid = none ∧ Doc.table doc kind oid = some t := by
  rw [editable] at h
  split at h
  · cases h
  · rename_i hs
    refine ⟨hs, ?_⟩
    cases ht : Doc.table doc kind oid with
    | none => rw [ht] at h; cases h
    | some t' =>
      rw [ht] at h
      rw [Except.ok.inj h]

theorem newBridgeId_ok (h : newBridgeId doc w asked = .ok bid) : bid ∉ bridgeIds doc w := by
  cases asked with
  | none =>
    obtain rfl := Except.ok.inj h
    obtain ⟨n, hn, hfree, -⟩ := lowestFree_spec (bridgeIds doc w) "ktbr"
    rw [nextBridgeId, hn]
    exact hfree
  | some a =>
    rw [newBridgeId] at h
    split at h
    · cases h
    · rename_i hc
      obtain rfl := Except.ok.inj h
      simpa using hc

theorem checkBridgeName_ok (h : checkBridgeName doc w name except = .ok ()) :
    name ∉ World.staticBridgeNames w := by
  rw [checkBridgeName] at h
  split at h
  · cases h
  · rename_i hc
    simpa using hc

theorem createBridge_ok (h : createBridge doc w defn = .ok (bid, doc')) :
    ∃ name t, strKey defn "name" = some name ∧ bid ∉ bridgeIds doc w ∧
      name ∉ World.staticBridgeNames w ∧ jsonToTable defn = .ok t ∧
      doc' = Doc.put doc .bridge bid (namePorts (newBridge bid t)) := by
  rw [createBridge] at h
  cases hn : strKey defn "name" with
  | none => rw [hn] at h; cases h
  | some name =>
    rw [hn] at h
    obtain ⟨_, ha, h⟩ := bind_ok h
    obtain rfl := Except.ok.inj ha
    obtain ⟨bid', hid, h⟩ := bind_ok h
    obtain ⟨_, hname, h⟩ := bind_ok h
    obtain ⟨t, ht, h⟩ := bind_ok h
    obtain ⟨rfl, rfl⟩ := Prod.mk.inj (Except.ok.inj h)
    exact ⟨name, t, rfl, newBridgeId_ok hid, checkBridgeName_ok hname, ht, rfl⟩

theorem updateBridge_ok (h : updateBridge doc w bid defn = .ok doc') :
    ∃ name t told, strKey defn "name" = some name ∧ w.staticSource .bridge bid = none ∧
      Doc.table doc .bridge bid = some told ∧
      name ∉ World.staticBridgeNames w ∧ jsonToTable defn = .ok t ∧
      doc' = Doc.put doc .bridge bid (namePorts (Entries.insert "id" (value bid) t)) := by
  rw [updateBridge] at h
  obtain ⟨told, he, h⟩ := bind_ok h
  obtain ⟨hs, ht⟩ := editable_ok he
  split at h
  · cases h
  · cases hn : strKey defn "name" with
    | none => rw [hn] at h; cases h
    | some name =>
      rw [hn] at h
      obtain ⟨_, ha, h⟩ := bind_ok h
      obtain rfl := Except.ok.inj ha
      obtain ⟨_, hname, h⟩ := bind_ok h
      obtain ⟨t, htab, h⟩ := bind_ok h
      exact ⟨name, t, told, rfl, hs, ht, checkBridgeName_ok hname, htab, (Except.ok.inj h).symm⟩

theorem deleteBridge_ok (h : deleteBridge doc w bid = .ok doc') :
    ∃ t, Doc.table doc .bridge bid = some t ∧ doc' = Doc.remove doc .bridge bid := by
  rw [deleteBridge] at h
  obtain ⟨t, he, h⟩ := bind_ok h
  exact ⟨t, (editable_ok he).2, (Except.ok.inj h).symm⟩

theorem cloneBridge_ok (h : cloneBridge toml reads doc w source newId name = .ok (bid, doc')) :
    ∃ t, cloneSource toml reads doc w source = .ok t ∧ bid ∉ bridgeIds doc w ∧
      name ∉ World.staticBridgeNames w ∧
      doc' = Doc.put doc .bridge bid (namePorts (copiedBridge bid name t)) := by
  rw [cloneBridge] at h
  obtain ⟨t, ht, h⟩ := bind_ok h
  obtain ⟨bid', hid, h⟩ := bind_ok h
  obtain ⟨_, hname, h⟩ := bind_ok h
  obtain ⟨rfl, rfl⟩ := Prod.mk.inj (Except.ok.inj h)
  exact ⟨t, ht, newBridgeId_ok hid, checkBridgeName_ok hname, rfl⟩

theorem createObject_ok (h : createObject doc w kind defn = .ok (oid, doc')) :
    ∃ t, strKey defn "id" = some oid ∧ oid ∉ idsOf doc w kind ∧ jsonToTable defn = .ok t ∧
      doc' = Doc.put doc kind oid t := by
  rw [createObject] at h
  cases hid : strKey defn "id" with
  | none => rw [hid] at h; cases h
  | some a =>
    rw [hid] at h
    obtain ⟨_, ha, h⟩ := bind_ok h
    obtain rfl := Except.ok.inj ha
    simp only at h
    split at h
    · cases h
    · rename_i hc
      obtain ⟨t, ht, h⟩ := bind_ok h
      obtain ⟨rfl, rfl⟩ := Prod.mk.inj (Except.ok.inj h)
      exact ⟨t, rfl, by simpa using hc, ht, rfl⟩

theorem checkPort_ok (h : checkPort complaint defn = .ok p) : jsonPort defn = some p := by
  rw [checkPort] at h
  split at h
  · rename_i hp
    rw [hp, Except.ok.inj h]
  · cases h

theorem addPort_ok (h : addPort complaint doc w bridge defn = .ok (made, doc')) :
    ∃ p t pt, jsonPort defn = some p ∧ Doc.table doc .bridge bridge = some t ∧
    jsonToTable defn = .ok pt ∧
      doc' = Doc.modify doc .bridge bridge
        (fun _ => namePorts (setPorts (portsOf t ++ [pt]) t)) := by
  rw [addPort] at h
  obtain ⟨p, hp, h⟩ := bind_ok h
  obtain ⟨t, he, h⟩ := bind_ok h
  split at h
  · cases h
  · obtain ⟨pt, hpt, h⟩ := bind_ok h
    exact ⟨p, t, pt, checkPort_ok hp, (editable_ok he).2, hpt,
      (Prod.mk.inj (Except.ok.inj h)).2.symm⟩

theorem updatePort_ok (h : updatePort complaint doc w bridge port defn = .ok doc') :
    ∃ p t j pt, jsonPort defn = some p ∧ Doc.table doc .bridge bridge = some t ∧
    portIndex t port = some j ∧ jsonToTable defn = .ok pt ∧
      doc' = Doc.modify doc .bridge bridge
        (setPorts ((portsOf t).set j (Entries.insert "id" (value port) pt))) := by
  rw [updatePort] at h
  obtain ⟨p, hp, h⟩ := bind_ok h
  obtain ⟨t, he, h⟩ := bind_ok h
  cases hj : portIndex t port with
  | none => simp only [hj] at h; cases h
  | some j =>
    simp only [hj] at h
    obtain ⟨pt, hpt, h⟩ := bind_ok h
    exact ⟨p, t, j, pt, checkPort_ok hp, (editable_ok he).2, hj, hpt, (Except.ok.inj h).symm⟩

theorem removePort_ok (h : removePort doc w bridge port = .ok doc') :
    ∃ t j, Doc.table doc .bridge bridge = some t ∧ portIndex t port = some j ∧
      doc' = Doc.modify doc .bridge bridge (setPorts ((portsOf t).eraseIdx j)) := by
  rw [removePort] at h
  obtain ⟨t, he, h⟩ := bind_ok h
  cases hj : portIndex t port with
  | none => simp only [hj] at h; cases h
  | some j =>
    simp only [hj] at h
    exact ⟨t, j, (editable_ok he).2, hj, (Except.ok.inj h).symm⟩

theorem deleteObject_ok (h : deleteObject doc w kind oid = .ok doc') :
    ∃ t, Doc.table doc kind oid = some t ∧ doc' = Doc.remove doc kind oid := by
  rw [deleteObject] at h
  obtain ⟨t, he, h⟩ := bind_ok h
  simp only at h
  split at h
  · exact ⟨t, (editable_ok he).2, (Except.ok.inj h).symm⟩
  · cases h

/-- The definition is replaced; under another id, which is free, the references
follow. -/
theorem updateObject_ok (h : updateObject doc w kind oid defn = .ok (made, doc')) :
    ∃ t, w.staticSource kind oid = none ∧
      (doc' = Doc.put doc kind oid (Entries.insert "id" (value oid) t) ∨
        ∃ oid' refs, oid' ∉ idsOf doc w kind ∧
          doc' = List.foldl (fun doc (r : Reference) => setReference doc r.path oid')
            (Doc.modify doc kind oid (fun _ => Entries.insert "id" (value oid') t)) refs) := by
  rw [updateObject] at h
  obtain ⟨_, he, h⟩ := bind_ok h
  obtain ⟨hs, -⟩ := editable_ok he
  simp only at h
  split at h
  · cases h
  · rename_i hfree
    obtain ⟨t, -, h⟩ := bind_ok h
    split at h
    · rename_i hsame
      obtain ⟨-, rfl⟩ := Prod.mk.inj (Except.ok.inj h)
      rw [beq_iff_eq.mp hsame]
      exact ⟨t, hs, .inl rfl⟩
    · rename_i hnew
      obtain ⟨-, rfl⟩ := Prod.mk.inj (Except.ok.inj h)
      refine ⟨t, hs, .inr ⟨_, _, ?_, rfl⟩⟩
      simp only [Bool.and_eq_true, bne_iff_ne, ne_eq, List.contains_iff_mem, not_and] at hfree
      exact hfree (by simpa using hnew)

section
variable {toml : TomlLib Table}

/-- One object is removed, or replaced by what the text defines. -/
theorem putObject_ok (h : putObject toml doc w kind oid text rev = .ok (made, doc')) :
    w.staticSource kind oid = none ∧
      ((Text.trim text).isEmpty = true ∧ doc' = Doc.remove doc kind oid ∨
        (Text.trim text).isEmpty = false ∧ ∃ t, parseObject toml kind text = .ok t ∧
          doc' = Doc.put doc kind oid (Entries.insert "id" (value oid) t)) := by
  rw [putObject] at h
  split at h
  · cases h
  · rename_i hs
    refine ⟨hs, ?_⟩
    split at h
    · cases h
    · split at h
      · rename_i hblank
        exact .inl ⟨hblank, (Prod.mk.inj (Except.ok.inj h)).2.symm⟩
      · rename_i hblank
        split at h
        · cases h
        · rename_i t ht
          split at h
          · cases h
          · exact .inr ⟨by simpa using hblank, t, ht, (Prod.mk.inj (Except.ok.inj h)).2.symm⟩

theorem replaceAll_ok {store : DynamicStore Table}
    (h : configPut toml store w none none text rev = .ok (made, doc')) :
    replaceText toml text = .ok doc' := by
  rw [configPut] at h
  split at h
  · cases h
  · split at h
    · cases h
    · rename_i hdoc
      rw [hdoc, (Prod.mk.inj (Except.ok.inj h)).2]

end

end KissTncBridge.Proofs.EditSteps
