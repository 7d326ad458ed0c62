import KissTncBridge.Proofs.BridgeSteps

namespace KissTncBridge.Proofs.OutGrows
open Bridge Conf Lib BridgeSteps

variable {r r' : Run} {now : Now}

def Grows (r r' : Run) : Prop := r.out <+: r'.out

theorem Grows.of_eq (h : r'.out = r.out) : Grows r r' :=
  ⟨[], (List.append_nil _).trans h.symm⟩

theorem Grows.refl (r : Run) : Grows r r := .of_eq rfl

theorem Grows.trans (h : Grows r r') (h' : Grows r' r'') : Grows r r'' := List.IsPrefix.trans h h'

theorem Grows.of_append {more : List Out} (h : Grows r r') (ho : r''.out = r'.out ++ more) :
    Grows r r'' := by
  refine h.trans ?_
  unfold Grows
  rw [ho]
  exact List.prefix_append ..

theorem Grows.startConnect (h : Grows r r') : Grows r (r'.startConnect now) := by
  have ho : (r'.startConnect now).out = r'.out ++ [.spawnConnect r'.link (r'.generation + 1)] := by
    unfold Run.startConnect
    dsimp only
    split <;> rfl
  exact h.of_append ho

theorem Grows.startWait (h : Grows r r') : Grows r (r'.startWait now kind why) := by
  cases kind <;> exact h

theorem Grows.release (h : Grows r r') : Grows r r'.release := by
  unfold Run.release
  split
  · exact h.of_append rfl
  · exact h.of_append rfl
  · exact h
  · exact h

theorem Grows.close (h : Grows r r') : Grows r (r'.close now) := h.release

theorem Grows.letGo (h : Grows r r') : Grows r (r'.letGo now) := by
  unfold Run.letGo
  split
  · exact h.close
  · exact h

theorem Grows.queuePending (h : Grows r r') : Grows r (r'.queuePending now f src) := by
  refine h.trans (.of_eq ?_)
  simp only [Run.queuePending]
  split <;> rfl

theorem Grows.uplink (h : Grows r r') : Grows r (r'.uplink now f src) := by
  unfold Run.uplink
  split
  · split
    · exact h.of_append rfl
    · exact h
  · split
    · exact h
    · exact h.queuePending.startConnect
  · exact h.queuePending
  · exact h.queuePending

theorem Grows.uplinkPending (h : Grows r r') : Grows r (Run.uplinkPending now r' p) := by
  unfold Run.uplinkPending
  split
  · exact h
  · exact h.uplink

theorem Grows.drain (h : Grows r r') (ps : List (Nat × Frame × Option SessionId)) :
    Grows r (ps.foldl (Run.uplinkPending now) r') := by
  induction ps generalizing r' with
  | nil => exact h
  | cons p ps ih => exact ih h.uplinkPending

theorem onApp_grows (ev : AppEvent) (r : Run) : Grows r (r.onApp now ev) := by
  cases ev with
  | sessionOpened sid tx kick =>
    simp only [Run.onApp]
    split
    · exact .startConnect (.of_eq rfl)
    · exact .of_eq rfl
  | sessionClosed sid =>
    simp only [Run.onApp]
    split
    · exact .letGo (.of_eq rfl)
    · exact .of_eq rfl
  | frame sid f =>
    simp only [Run.onApp]
    split
    · exact .of_eq rfl
    · split
      · exact .of_eq rfl
      · exact (Grows.refl r).uplink

theorem applySettings_grows (new : TncSettings) (r : Run) : Grows r (r.applySettings now new) := by
  simp only [Run.applySettings]
  split
  · exact .of_eq rfl
  · split
    · split
      · exact .startConnect (.of_eq rfl)
      · exact .of_eq rfl
    · split
      · exact .letGo (.of_eq rfl)
      · exact .of_eq rfl
    · exact .of_eq rfl

theorem onCmd_grows (cmd : BridgeCmd) (r : Run) : Grows r (r.onCmd now cmd) := by
  cases cmd with
  | settings new => exact applySettings_grows new r
  | connector c =>
    have hclose : Grows r { r.close now with connector := c, attempt := 0 } :=
      (Grows.refl r).release
    simp only [Run.onCmd]
    split
    · exact hclose.startConnect
    · exact hclose
  | hold hold =>
    simp only [Run.onCmd]
    split
    · split
      · exact .startConnect (.of_eq rfl)
      · exact .of_eq rfl
    · split
      · exact .close (.of_eq rfl)
      · exact .of_eq rfl
  | kick sid =>
    simp only [Run.onCmd]
    split
    · exact (Grows.refl r).of_append rfl
    · exact .refl r
  | snapshot => exact (Grows.refl r).of_append rfl

theorem Grows.offer (h : Grows r r') : Grows r (Run.offer f r' sid) := by
  unfold Run.offer
  split
  · exact h
  · dsimp only
    split
    · exact h.of_append rfl
    · exact h.of_append rfl

theorem Grows.offers (h : Grows r r') {f : Frame} {ids : List SessionId} :
    Grows r (ids.foldl (Run.offer f) r') := by
  induction ids generalizing r' with
  | nil => exact h
  | cons sid ids ih => exact ih h.offer

theorem onTnc_grows (ev : TncEvent) (r : Run) : Grows r (r.onTnc now ev) := by
  cases ev with
  | frame g f =>
    simp only [Run.onTnc]
    split
    · exact .refl r
    · have hcount : Grows r { r with counters :=
          { r.counters with framesDown := r.counters.framesDown + 1 } } := .of_eq rfl
      exact hcount.offers
  | closed g e =>
    simp only [Run.onTnc]
    split
    · split
      · exact .refl r
      · split <;> exact .of_eq rfl
    · exact .refl r

theorem Grows.onLink (h : Grows r r') (ev : LinkEvent) : Grows r (r'.onLink now ev) := by
  cases ev with
  | connected res =>
    cases res with
    | ok steps =>
      have hup : Grows r { r'.linkUp now steps with pending := [] } := h.of_append rfl
      simp only [Run.onLink]
      split
      · exact (hup.drain _).close
      · exact hup.drain _
    | error e =>
      simp only [Run.onLink]
      split
      · exact h
      · split
        · exact .startWait h
        · exact .startWait h
        · exact h
  | backoffOver =>
    simp only [Run.onLink]
    split
    · exact .startConnect h
    · exact h

theorem connectDone_grows (r : Run) : Grows r r.connectDone := by
  unfold Run.connectDone
  split
  · exact (Grows.refl r).of_append rfl
  · exact .refl r

theorem step_grows (hs : r.step e = some r') : Grows r r' := by
  cases step_turn hs with
  | app _ => exact onApp_grows _ r
  | tnc => exact onTnc_grows _ r
  | cmd => exact onCmd_grows _ r
  | connected _ => exact (connectDone_grows r).onLink _
  | backoffOver _ => exact (Grows.refl r).onLink _
  | idle _ =>
    simp only [Run.onIdle]
    split
    · exact .close (.of_eq rfl)
    · exact .of_eq rfl
  | takes _ _ => exact .of_eq rfl
  | gone _ => exact .of_eq rfl
  | writer _ => exact .of_eq rfl
  | slot => exact .refl r

end KissTncBridge.Proofs.OutGrows
