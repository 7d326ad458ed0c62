import Mathlib.Data.List.Chain
import KissTncBridge.Bridge.Apps
import KissTncBridge.Proofs.Reassembly
import KissTncBridge.Proofs.UplinkOrder

namespace KissTncBridge.Proofs.NoReturn
open Bridge Conf Lib Kiss Wire Coherence FrameFlow UplinkOrder Reassembly

variable {a a' : Apps} {r r' : Run}

def uplinkBytes (link : Nat) (out : List Out) : List UInt8 :=
  (handedTo link out).flatMap writeFrame

/-- Something was read between two FENDs, and nothing else. -/
def Whole (f : Frame) : Prop := f ≠ [] ∧ FEND ∉ f

def Harmless (f : Frame) : Prop := Whole f ∧ f.head? ≠ some CMD_RETURN

theorem drain_whole {b : KissReassemblyBuffer} (h : f ∈ b.drainFrames.1) : Whole f := by
  rw [drainFrames_eq] at h
  dsimp only at h
  split at h
  · exact mem_ended h
  · exact mem_bounded h

/-- Every frame between an app's bytes and the link is one that was read, and
behind the policy no return. -/
structure Clean (a : Apps) : Prop where
  coherent : Coherent a.run
  readers : ∀ t ∈ a.readers, ∀ f ∈ t.reader.pending, Whole f
  queue : ∀ sid f, .frame sid f ∈ a.queue → Whole f
  waiting : ∀ f ∈ waitingFrames a.run, Harmless f
  handed : ∀ p ∈ FrameFlow.handed a.run.out, Harmless p.2

theorem passed_harmless (hw : ∀ n sid f, e = .app n (.frame sid f) → Whole f)
    (h : f ∈ passed r e) : Harmless f := by
  unfold passed at h
  split at h
  · rename_i n sid g
    split at h
    · rename_i hc
      rw [List.mem_singleton] at h
      subst h
      refine ⟨hw n sid f rfl, ?_⟩
      intro hr
      have hv := hc.2
      cases f with
      | nil => cases hr
      | cons cmd rest =>
        have hcmd : cmd = CMD_RETURN := Option.some.inj hr
        simp [filterAppFrame, hcmd] at hv
    · cases h
  · cases h

/-- A turn of the bridge moves frames on, and lets none in but what the policy
passes. -/
theorem Clean.turn (h : Clean a) (hw : ∀ n sid f, e = .app n (.frame sid f) → Whole f)
    {rest : List AppEvent} (hq : ∀ ev ∈ rest, ev ∈ a.queue) (hs : a.run.step e = some r') :
    Clean { a with run := r', queue := rest } := by
  obtain ⟨up, ho, hsub⟩ := (step_moves h.coherent hs).hands
  have hmem : ∀ f ∈ up.map Prod.snd ++ waitingFrames r', Harmless f := by
    intro f hf
    rcases List.mem_append.mp (hsub.subset hf) with hf | hf
    · exact h.waiting f hf
    · exact passed_harmless hw hf
  refine ⟨step_coherent h.coherent hs, h.readers, fun sid f hm => h.queue sid f (hq _ hm), ?_, ?_⟩
  · intro f hf
    exact hmem f (List.mem_append_right _ hf)
  · intro p hp
    rw [ho] at hp
    rcases List.mem_append.mp hp with hp | hp
    · exact h.handed p hp
    · exact hmem p.2 (List.mem_append_left _ (List.mem_map_of_mem hp))

theorem Clean.send (h : Clean a) (hw : ∀ sid f, ev = .frame sid f → Whole f)
    (hs : a.send ev = some a') : Clean a' := by
  unfold Apps.send at hs
  split at hs
  · cases hs
    refine ⟨h.coherent, h.readers, ?_, h.waiting, h.handed⟩
    intro sid f hm
    rcases List.mem_append.mp hm with hm | hm
    · exact h.queue sid f hm
    · exact hw sid f (List.mem_singleton.mp hm).symm
  · cases hs

theorem read_whole {t t' : AppReader} (hs : t.read data = some t') (hf : f ∈ t'.reader.pending) :
    Whole f := by
  unfold AppReader.read at hs
  split at hs
  · cases hs
  · split at hs
    · cases hs
      cases hf
    · cases hs
      exact drain_whole hf

theorem Clean.setReader (h : Clean a) (ht : ∀ f ∈ t.reader.pending, Whole f) :
    Clean { a with readers := a.readers.set task t } := by
  refine ⟨h.coherent, ?_, h.queue, h.waiting, h.handed⟩
  intro u hu
  rcases List.mem_or_eq_of_mem_set hu with hu | rfl
  · exact h.readers u hu
  · exact ht

theorem step_clean (h : Clean a) (hs : a.step e = some a') : Clean a' := by
  cases e with
  | connects sid =>
    cases hs
    refine ⟨h.coherent, ?_, h.queue, h.waiting, h.handed⟩
    intro t ht
    rcases List.mem_append.mp ht with ht | ht
    · exact h.readers t ht
    · cases List.mem_singleton.mp ht
      intro f hf
      unfold AppReader.new at hf
      cases hp : sid.peer <;> rw [hp] at hf <;> cases hf
  | reads task data =>
    simp only [Apps.step, Option.bind_eq_bind, Option.bind_eq_some_iff] at hs
    obtain ⟨t, _, t', ht, hs⟩ := hs
    cases hs
    exact h.setReader (fun f hf => read_whole ht hf)
  | sends task =>
    simp only [Apps.step, Option.bind_eq_bind, Option.bind_eq_some_iff] at hs
    obtain ⟨t, ht, hs⟩ := hs
    have hall := h.readers t (List.mem_of_getElem? ht)
    split at hs
    · cases hs
    · rename_i f rest hp
      split at hs
      · cases hs
      · rw [hp] at hall
        refine Clean.send (h.setReader ?_) ?_ hs
        · exact fun g hg => hall g (List.mem_cons_of_mem _ hg)
        · intro sid g hg
          cases hg
          exact hall f (List.mem_cons_self ..)
  | ends task =>
    simp only [Apps.step, Option.bind_eq_bind, Option.bind_eq_some_iff] at hs
    obtain ⟨t, ht, hs⟩ := hs
    cases hs
    exact h.setReader (h.readers t (List.mem_of_getElem? ht))
  | opened sid tx kick => exact h.send (fun _ _ he => by cases he) hs
  | closed sid => exact h.send (fun _ _ he => by cases he) hs
  | takes n =>
    simp only [Apps.step] at hs
    split at hs
    · cases hs
    · rename_i ev rest hq
      obtain ⟨run, hr, hs⟩ := Option.map_eq_some_iff.mp hs
      cases hs
      refine h.turn ?_ ?_ hr
      · intro m sid f he
        cases he
        exact h.queue sid f (hq ▸ List.mem_cons_self ..)
      · intro ev' hm
        exact hq ▸ List.mem_cons_of_mem _ hm
  | turn e =>
    cases e with
    | app n ev => cases hs
    | _ =>
      simp only [Apps.step, Option.map_eq_some_iff] at hs
      obtain ⟨run, hr, rfl⟩ := hs
      exact h.turn (fun _ _ _ he => by cases he) (fun _ hm => hm) hr

theorem start_clean (bid : String) (c : Connector) (s : TncSettings) (now : Now) :
    Clean (Apps.start bid c s now) := by
  refine ⟨start_coherent bid c s, ?_, ?_, ?_, ?_⟩
  · intro t ht
    cases ht
  · intro sid f hm
    cases hm
  · intro f hf
    simp only [Apps.start, Run.start, Run.new, Run.startConnect, Run.setState] at hf
    split at hf <;> cases hf
  · intro p hp
    simp only [Apps.start, Run.start, Run.new, Run.startConnect, Run.setState] at hp
    split at hp <;> cases hp

theorem reachable_clean (h : Runs Apps.step (Apps.start bid c s now) es a) : Clean a :=
  h.invariant (start_clean bid c s now) (fun _ _ _ hi _ hs => step_clean hi hs)

def Apart (x y : UInt8) : Prop := ¬ (x = FEND ∧ y = CMD_RETURN)

theorem apart_fend (x : UInt8) : Apart x FEND := by
  rintro ⟨-, hy⟩
  exact absurd hy (by decide)

theorem free_apart (h : FEND ∉ f) : List.IsChain Apart f := by
  induction f with
  | nil => exact .nil
  | cons x f ih =>
    rw [List.mem_cons, not_or] at h
    refine List.isChain_cons.mpr ⟨?_, ih h.2⟩
    rintro y - ⟨hx, -⟩
    exact h.1 hx.symm

theorem writeFrame_apart (h : Harmless f) : List.IsChain Apart (writeFrame f) := by
  obtain ⟨⟨hn, hd⟩, hr⟩ := h
  refine List.isChain_cons.mpr ⟨?_, ?_⟩
  · rintro y hy ⟨-, rfl⟩
    obtain ⟨x, rest, rfl⟩ := List.exists_cons_of_ne_nil hn
    exact hr hy
  · refine List.isChain_append.mpr ⟨free_apart hd, .singleton _, ?_⟩
    intro x _ y hy
    cases hy
    exact apart_fend x

theorem wires_apart (fs : List Frame) (h : ∀ f ∈ fs, Harmless f) :
    List.IsChain Apart (fs.flatMap writeFrame) := by
  induction fs with
  | nil => exact .nil
  | cons f fs ih =>
    rw [List.flatMap_cons]
    refine List.isChain_append.mpr ⟨writeFrame_apart (h f (List.mem_cons_self ..)),
      ih (fun g hg => h g (List.mem_cons_of_mem _ hg)), ?_⟩
    intro x _ y hy
    cases fs with
    | nil => cases hy
    | cons g fs =>
      cases hy
      exact apart_fend x

/-- Whatever bytes the apps send, however they are split and whatever else
happens, what a link's writer has sent of them never holds a FEND with a
return command after it. -/
theorem no_app_return (h : Runs Apps.step (Apps.start bid c s now) es a) (link : Nat)
    (written : List UInt8) (hw : written <+: uplinkBytes link a.run.out) :
    ¬ [FEND, CMD_RETURN] <:+: written := by
  intro hin
  have hall : ∀ f ∈ handedTo link a.run.out, Harmless f := by
    intro f hf
    obtain ⟨p, hp, rfl⟩ := List.mem_map.mp ((handedTo_sublist link a.run.out).subset hf)
    exact (reachable_clean h).handed p hp
  have hc := List.IsChain.infix (wires_apart _ hall) (hin.trans hw.isInfix)
  have hpair := (List.isChain_cons.mp hc).1 CMD_RETURN rfl
  exact hpair ⟨rfl, rfl⟩

def sampleReturn : List AppsEvent :=
  [.connects (BridgeSteps.sampleSession 40001),
    .opened (BridgeSteps.sampleSession 40001) (.empty 64) 0,
   .takes ⟨0, 0⟩, .turn (.link ⟨1, 1⟩ (.connected (.ok []))),
   .reads 0 [0xC0, 0xFF, 0xC0, 0x00, 0x41, 0xC0], .sends 0, .sends 0, .takes ⟨2, 2⟩, .takes ⟨3, 3⟩]

theorem no_app_return_sample :
    ∃ a, Runs Apps.step ⟨BridgeSteps.sampleRun .onDemand, [], []⟩ sampleReturn a ∧
      uplinkBytes 1 a.run.out = [0xC0, 0x00, 0x41, 0xC0] ∧
      ¬ [FEND, CMD_RETURN] <:+: uplinkBytes 1 a.run.out := by
  have h : Runs Apps.step ⟨BridgeSteps.sampleRun .onDemand, [], []⟩ sampleReturn _ :=
    .next (.next (.next (.next (.next (.next (.next (.next (.next .start trivial rfl) trivial rfl)
      trivial rfl) trivial rfl) trivial rfl) trivial rfl) trivial rfl) trivial rfl) trivial rfl
  exact ⟨_, h, by decide, no_app_return h 1 _ List.prefix_rfl⟩

end KissTncBridge.Proofs.NoReturn
