import KissTncBridge.Lib.Lists
import KissTncBridge.Lib.Registry
import KissTncBridge.Lib.Runs
import KissTncBridge.Supervisor.Bluetooth

namespace KissTncBridge.Proofs.BluetoothJobs
open Bluetooth Lib Supervisor

variable {s t : State} {e : Event} {i : Nat} {j b : Job}

def isScan (j : Job) : Bool := j.work.isScan && j.phase.listed

def isPairing (j : Job) : Bool := !j.work.isScan && j.phase.listed

def holds (j : Job) : Bool := j.phase.holds

/-- What reached a task came from the request that started it. -/
structure Own (j : Job) : Prop where
  stopped : ∀ q, j.stoppedBy = some q → q = j.source
  replied : ∀ r ∈ j.replies, r.1 = j.source

/-- The lock is with the one task that has it, each table names the tasks that are in it,
and tasks are reached by their own requester only. -/
structure Good (s : State) : Prop where
  busy : Registry holds (fun _ => ()) s.jobs (fun _ => s.busy)
  scans : Registry isScan Job.source s.jobs s.scans
  pairings : Registry isPairing Job.source s.jobs s.pairings
  own : ∀ j ∈ s.jobs, Own j
  handing : ∀ h, s.handing = some h → ∃ j, s.jobs[h.job]? = some j ∧ h.named = j.source

theorem good_start : Good {} where
  busy := .nil
  scans := .nil
  pairings := .nil
  own := fun _ h => nomatch h
  handing := fun _ h => nomatch h

theorem own_set {jobs : List Job} (h : ∀ j ∈ jobs, Own j) (hj : Own b) :
    ∀ j ∈ jobs.set i b, Own j := by
  intro k hk
  rcases List.mem_or_eq_of_mem_set hk with hk | rfl
  · exact h k hk
  · exact hj

/-- A reply on its way still goes to a task of the same requester. -/
theorem handing_set {h : Handing} (hex : ∃ j, s.jobs[h.job]? = some j ∧ h.named = j.source)
    (hi : s.jobs[i]? = some j) (hsource : b.source = j.source) :
    ∃ j, (s.jobs.set i b)[h.job]? = some j ∧ h.named = j.source := by
  obtain ⟨k, hk, hnamed⟩ := hex
  by_cases he : i = h.job
  · subst he
    obtain rfl := Option.some.inj (hi.symm.trans hk)
    exact ⟨b, by
      rw [List.getElem?_set_self (List.getElem?_eq_some_iff.mp hi).1], hnamed.trans hsource.symm⟩
  · exact ⟨k, by rw [List.getElem?_set_ne he, hk], hnamed⟩

/-- A task changes in nothing that the lock and the tables go by. -/
theorem Good.setJob (h : Good s) (hi : s.jobs[i]? = some j) (hw : b.work = j.work)
    (hs : b.source = j.source)
    (hh : b.phase.holds = j.phase.holds) (hl : b.phase.listed = j.phase.listed) (ho : Own b) :
    Good (s.setJob i b) where
  busy := h.busy.set hi hh rfl
  scans := h.scans.set hi (by rw [isScan, isScan, hw, hl]) hs
  pairings := h.pairings.set hi (by rw [isPairing, isPairing, hw, hl]) hs
  own := own_set h.own ho
  handing := fun x hx => handing_set (h.handing x hx) hi hs

theorem Good.reply (h : Good s) (ticket : Nat) (res : Except ApiError Unit) :
    Good (s.reply ticket res) :=
  ⟨h.busy, h.scans, h.pairings, h.own, h.handing⟩

theorem Good.take (h : Good s) (n : Nat) : Good { s with taken := n } :=
  ⟨h.busy, h.scans, h.pairings, h.own, h.handing⟩

theorem Good.spawn (h : Good s) (ticket : Nat) (source : Requester) (work : Work) :
    Good (s.spawn ticket source work) where
  busy := h.busy.append rfl
  scans := h.scans.append (by cases work <;> rfl)
  pairings := h.pairings.append (by cases work <;> rfl)
  own j hj := by
    rcases List.mem_append.mp hj with hj | hj
    · exact h.own j hj
    · obtain rfl := List.mem_singleton.mp hj
      exact ⟨(fun _ hq => nomatch hq), (fun _ hr => nomatch hr)⟩
  handing x hx := by
    obtain ⟨j, hj, hnamed⟩ := h.handing x hx
    exact ⟨j, by
      rw [State.spawn, List.getElem?_append_left (List.getElem?_eq_some_iff.mp hj).1, hj], hnamed⟩

/-- The job in a table under a name is one that the name started. -/
theorem Good.scan_source (h : Good s) (hk : s.scans k = some i) :
    ∃ j, s.jobs[i]? = some j ∧ j.source = k := by
  obtain ⟨j, hj, -, hsource⟩ := (h.scans k i).mp hk
  exact ⟨j, hj, hsource⟩

theorem Good.pairing_source (h : Good s) (hk : s.pairings k = some i) :
    ∃ j, s.jobs[i]? = some j ∧ j.source = k := by
  obtain ⟨j, hj, -, hsource⟩ := (h.pairings k i).mp hk
  exact ⟨j, hj, hsource⟩

theorem modify_eq_set {l : List α} {f : α → α} (ha : l[i]? = some a) :
    l.modify i f = l.set i (f a) := by
  apply List.ext_getElem?
  intro k
  rw [List.getElem?_modify, List.getElem?_set]
  by_cases he : i = k
  · subst he
    obtain ⟨hlt, rfl⟩ := List.getElem?_eq_some_iff.mp ha
    simp [hlt]
  · simp [he]

theorem Good.onCommand (h : Good s) (source : Requester) (c : Command) :
    Good (s.onCommand source c) := by
  have ht := h.take (s.taken + 1)
  cases c with
  | scan target =>
    cases target with
    | error e => exact ht.reply _ _
    | ok _ => exact ht.spawn _ _ _
  | pair target =>
    cases target with
    | error e => exact ht.reply _ _
    | ok tnc => exact ht.spawn _ _ _
  | unpair res => exact ht.reply _ _
  | scanStop request =>
    unfold State.onCommand
    dsimp only
    split
    · rename_i i hi
      obtain ⟨j, hj, hsource⟩ := h.scan_source hi
      refine Good.reply ?_ _ _
      rw [modify_eq_set hj]
      have ho := h.own j (List.mem_of_getElem? hj)
      refine ht.setJob hj rfl rfl rfl rfl ⟨fun q hq => ?_, ho.replied⟩
      exact (Option.some.inj hq).symm.trans hsource.symm
    · exact ht.reply _ _
  | pairReply request reply =>
    unfold State.onCommand
    dsimp only
    split
    · rename_i i hi
      obtain ⟨j, hj, hsource⟩ := h.pairing_source hi
      refine ⟨h.busy, h.scans, h.pairings, h.own, fun x hx => ?_⟩
      obtain rfl := Option.some.inj hx
      exact ⟨j, hj, hsource.symm⟩
    · exact ht.reply _ _

theorem update_unit (f : Unit → α) (a : α) : Function.update f () a = fun _ => a := by
  funext u
  exact Function.update_self ..

/-- Before it has the lock a task holds nothing, so it is free for the one that finds it so. -/
theorem Good.lock (h : Good s) (hi : s.jobs[i]? = some j) (hp : j.phase = .spawned)
    (hf : s.busy = none) : Good { s.setJob i { j with phase := .locked } with busy := some i } where
  busy := by
    have hn : holds j = false := by rw [holds, hp]; rfl
    rw [← update_unit (fun _ => s.busy) (some i)]
    exact h.busy.enter hi hn rfl hf
  scans := h.scans.set hi (by rw [isScan, isScan, hp]; rfl) rfl
  pairings := h.pairings.set hi (by rw [isPairing, isPairing, hp]; rfl) rfl
  own := own_set h.own (by
    have ho := h.own j (List.mem_of_getElem? hi)
    exact ⟨ho.stopped, ho.replied⟩)
  handing := fun x hx => handing_set (h.handing x hx) hi rfl

theorem Good.unlock (h : Good s) (hi : s.jobs[i]? = some j) (hp : j.phase = .answered) :
    Good { s.setJob i { j with phase := .gone } with busy := none } where
  busy := by
    have hl : holds j = true := by rw [holds, hp]; rfl
    rw [← update_unit (fun _ => s.busy) none]
    exact h.busy.leave hi hl rfl
  scans := h.scans.set hi (by rw [isScan, isScan, hp]; rfl) rfl
  pairings := h.pairings.set hi (by rw [isPairing, isPairing, hp]; rfl) rfl
  own := own_set h.own (by
    have ho := h.own j (List.mem_of_getElem? hi)
    exact ⟨ho.stopped, ho.replied⟩)
  handing := fun x hx => handing_set (h.handing x hx) hi rfl

theorem listed_holds {p : Phase} (h : p.listed = true) : p.holds = true := by
  cases p with
  | running | ended _ => rfl
  | _ => cases h

/-- While a task has the lock and is in no table, no table has an entry. -/
theorem Good.unlisted (h : Good s) (hi : s.jobs[i]? = some j) (hh : j.phase.holds = true)
    (hl : j.phase.listed = false) (k : Requester) : s.scans k = none ∧ s.pairings k = none := by
  have hother : ∀ (i' : Nat) (j' : Job), s.jobs[i']? = some j' →
      j'.phase.listed = true → False := by
    intro i' j' hj' hlist
    obtain rfl := h.busy.unique hi hj' hh (listed_holds hlist) rfl
    obtain rfl := Option.some.inj (hi.symm.trans hj')
    rw [hl] at hlist
    cases hlist
  constructor
  · refine Option.eq_none_iff_forall_not_mem.mpr (fun i' hi' => ?_)
    obtain ⟨j', hj', hlive, -⟩ := (h.scans k i').mp hi'
    exact hother i' j' hj' (Bool.and_eq_true_iff.mp hlive).2
  · refine Option.eq_none_iff_forall_not_mem.mpr (fun i' hi' => ?_)
    obtain ⟨j', hj', hlive, -⟩ := (h.pairings k i').mp hi'
    exact hother i' j' hj' (Bool.and_eq_true_iff.mp hlive).2

theorem Good.register (h : Good s) (hi : s.jobs[i]? = some j) (hp : j.phase = .locked) :
    Good ((s.setJob i { j with phase := .running }).list j (some i)) := by
  have hfree := h.unlisted hi (by rw [hp]; rfl) (by rw [hp]; rfl) j.source
  have ho := h.own j (List.mem_of_getElem? hi)
  have hown := own_set (i := i) h.own (b := { j with phase := .running }) ⟨ho.stopped, ho.replied⟩
  have hbusy :=
    h.busy.set hi (b := { j with phase := .running }) (by rw [holds, holds, hp]; rfl) rfl
  unfold State.list
  cases hw : j.work.isScan with
  | true =>
    refine ⟨hbusy, ?_, ?_, hown, fun x hx => handing_set (h.handing x hx) hi rfl⟩
    · exact h.scans.enter hi (by rw [isScan, hp, hw]; rfl) (by rw [isScan, hw]; rfl) hfree.1
    · exact h.pairings.set hi (by rw [isPairing, isPairing, hw]; rfl) rfl
  | false =>
    refine ⟨hbusy, ?_, ?_, hown, fun x hx => handing_set (h.handing x hx) hi rfl⟩
    · exact h.scans.set hi (by rw [isScan, isScan, hw]; rfl) rfl
    · exact h.pairings.enter hi (by rw [isPairing, hp, hw]; rfl)
        (by rw [isPairing, hw]; rfl) hfree.2

theorem Good.unregister (h : Good s) (hi : s.jobs[i]? = some j) (hp : j.phase = .ended res) :
    Good ((s.setJob i { j with phase := .over res }).list j none) := by
  have ho := h.own j (List.mem_of_getElem? hi)
  have hown := own_set (i := i) h.own (b := { j with phase := .over res }) ⟨ho.stopped, ho.replied⟩
  have hbusy :=
    h.busy.set hi (b := { j with phase := .over res }) (by rw [holds, holds, hp]; rfl) rfl
  unfold State.list
  cases hw : j.work.isScan with
  | true =>
    refine ⟨hbusy, ?_, ?_, hown, fun x hx => handing_set (h.handing x hx) hi rfl⟩
    · exact h.scans.leave hi (by rw [isScan, hp, hw]; rfl) (by rw [isScan, hw]; rfl)
    · exact h.pairings.set hi (by rw [isPairing, isPairing, hw]; rfl) rfl
  | false =>
    refine ⟨hbusy, ?_, ?_, hown, fun x hx => handing_set (h.handing x hx) hi rfl⟩
    · exact h.scans.set hi (by rw [isScan, isScan, hw]; rfl) rfl
    · exact h.pairings.leave hi (by rw [isPairing, hp, hw]; rfl) (by rw [isPairing, hw]; rfl)

theorem own_of (h : Good s) (hi : s.jobs[i]? = some j) : Own j := h.own j (List.mem_of_getElem? hi)

theorem Good.hand (h : Good s) (hs : s.step .hand = some t) : Good t := by
  obtain ⟨x, hx, hs⟩ := Option.bind_eq_some_iff.mp hs
  obtain ⟨j, hj, hs⟩ := Option.bind_eq_some_iff.mp hs
  obtain ⟨j', hj', hnamed⟩ := h.handing x hx
  obtain rfl := Option.some.inj (hj.symm.trans hj')
  have hclear : Good { s with handing := none } :=
    ⟨h.busy, h.scans, h.pairings, h.own, fun y hy => nomatch hy⟩
  dsimp only at hs
  split at hs
  · split at hs
    · obtain rfl := Option.some.inj hs
      refine Good.reply ?_ _ _
      refine hclear.setJob hj rfl rfl rfl rfl ⟨(own_of h hj).stopped, fun r hr => ?_⟩
      rcases List.mem_append.mp hr with hr | hr
      · exact (own_of h hj).replied r hr
      · obtain rfl := List.mem_singleton.mp hr
        exact hnamed
    · cases hs
  · obtain rfl := Option.some.inj hs
    exact hclear.reply _ _

theorem Good.next (h : Good s) (hs : s.step e = some t) : Good t := by
  cases e with
  | command source c =>
    obtain ⟨-, hs⟩ := Option.ite_none_left_eq_some.mp hs
    obtain rfl := Option.some.inj hs
    exact h.onCommand source c
  | hand => exact h.hand hs
  | tryLock i =>
    obtain ⟨j, hj, hs⟩ := Option.bind_eq_some_iff.mp hs
    split at hs
    · rename_i hp
      split at hs
      · obtain rfl := Option.some.inj hs
        have ho := own_of h hj
        refine Good.reply ?_ _ _
        exact h.setJob hj rfl rfl (by rw [hp]; rfl) (by rw [hp]; rfl) ⟨ho.stopped, ho.replied⟩
      · rename_i hfree
        obtain rfl := Option.some.inj hs
        exact h.lock hj hp (Option.not_isSome_iff_eq_none.mp hfree)
    · cases hs
  | register i =>
    obtain ⟨j, hj, hs⟩ := Option.bind_eq_some_iff.mp hs
    split at hs
    · rename_i hp
      obtain rfl := Option.some.inj hs
      exact h.register hj hp
    · cases hs
  | takeReply i =>
    obtain ⟨j, hj, hs⟩ := Option.bind_eq_some_iff.mp hs
    split at hs
    · rename_i r replies hp hreplies
      obtain rfl := Option.some.inj hs
      have ho := own_of h hj
      refine h.setJob hj rfl rfl rfl rfl ⟨ho.stopped, fun r' hr => ho.replied r' ?_⟩
      rw [hreplies]
      exact List.mem_cons_of_mem _ hr
    · cases hs
  | requesterGone i =>
    obtain ⟨j, hj, hs⟩ := Option.bind_eq_some_iff.mp hs
    split at hs
    · obtain rfl := Option.some.inj hs
      exact h.setJob hj rfl rfl rfl rfl
        ⟨fun q hq => (Option.some.inj hq).symm, (own_of h hj).replied⟩
    · cases hs
  | finish i res =>
    obtain ⟨j, hj, hs⟩ := Option.bind_eq_some_iff.mp hs
    split at hs
    · rename_i hp
      obtain rfl := Option.some.inj hs
      have ho := own_of h hj
      exact h.setJob hj rfl rfl (by rw [hp]; rfl) (by rw [hp]; rfl) ⟨ho.stopped, ho.replied⟩
    · cases hs
  | unregister i =>
    obtain ⟨j, hj, hs⟩ := Option.bind_eq_some_iff.mp hs
    split at hs
    · rename_i hp
      obtain rfl := Option.some.inj hs
      exact h.unregister hj hp
    · cases hs
  | answer i =>
    obtain ⟨j, hj, hs⟩ := Option.bind_eq_some_iff.mp hs
    split at hs
    · rename_i hp
      obtain rfl := Option.some.inj hs
      have ho := own_of h hj
      refine Good.reply ?_ _ _
      exact h.setJob hj rfl rfl (by rw [hp]; rfl) (by rw [hp]; rfl) ⟨ho.stopped, ho.replied⟩
    · cases hs
  | unlock i =>
    obtain ⟨j, hj, hs⟩ := Option.bind_eq_some_iff.mp hs
    split at hs
    · rename_i hp
      obtain rfl := Option.some.inj hs
      exact h.unlock hj hp
    · cases hs

theorem runs_good (h : Runs State.step {} es s) : Good s :=
  h.invariant good_start (fun _ _ _ hg _ hs => hg.next hs)

/-- Scans and pairings run one at a time: at most one task holds the lock, a task that is
in its table is that one, the tables hold nothing else, and a task is only ever stopped or
answered under the connection and the request that started it. -/
theorem one_at_a_time (h : Runs State.step {} es s) :
    (∀ (i j : Nat) (a b : Job), s.jobs[i]? = some a → s.jobs[j]? = some b → a.phase.holds = true →
      b.phase.holds = true → i = j) ∧
    (∀ k i, s.scans k = some i ↔ ∃ j : Job, s.jobs[i]? = some j ∧ isScan j = true ∧ j.source = k) ∧
    (∀ k i, s.pairings k = some i ↔ ∃ j : Job, s.jobs[i]? = some j ∧ isPairing j = true ∧
      j.source = k) ∧ ∀ j ∈ s.jobs, Own j := by
  have hg := runs_good h
  exact ⟨fun i j a b ha hb hla hlb => hg.busy.unique ha hb hla hlb rfl, hg.scans,
    hg.pairings, hg.own⟩

/-- One connection scans, and another's pairing is turned away. -/
def refused : List Event :=
  [.command ⟨1, 7⟩ (.scan (.ok ())), .command ⟨2, 7⟩ (.pair (.ok none)), .tryLock 0,
    .register 0, .tryLock 1]

theorem one_at_a_time_refused :
    ∃ s, Runs State.step {} refused s ∧ s.busy = some 0 ∧ s.scans ⟨1, 7⟩ = some 0 ∧
    ∀ (i j : Nat) (a b : Job), s.jobs[i]? = some a → s.jobs[j]? = some b → a.phase.holds = true →
    b.phase.holds = true → i = j := by
  have hrun : Runs State.step {} refused _ := runs_of_foldlM rfl
  exact ⟨_, hrun, rfl, rfl, (one_at_a_time hrun).1⟩

def unanswered (j : Job) : List Nat := if j.phase.isAnswered then [] else [j.ticket]

/-- The commands taken and not answered: those of tasks under way, and the one whose reply
is on its way into a pairing. -/
def outstanding (s : State) : List Nat :=
  s.jobs.flatMap unanswered ++ s.handing.toList.map Handing.ticket

def Accounted (s : State) : Prop :=
  (s.answers.map Prod.fst ++ outstanding s).Perm (List.range s.taken)

/-- A command is taken, and answered at once or left to a task. -/
theorem Accounted.take (h : Accounted s) (ht : t.taken = s.taken + 1)
    (hp : (t.answers.map Prod.fst ++ outstanding t).Perm
      (s.answers.map Prod.fst ++ outstanding s ++ [s.taken])) : Accounted t := by
  rw [Accounted, ht, List.range_succ]
  exact hp.trans (h.append_right _)

theorem Accounted.same (h : Accounted s) (ht : t.taken = s.taken)
    (hp : (t.answers.map Prod.fst ++ outstanding t).Perm
      (s.answers.map Prod.fst ++ outstanding s)) : Accounted t := by
  rw [Accounted, ht]
  exact hp.trans h

/-- A task changes, and goes on owing its answer or not owing one. -/
theorem Accounted.setJob (h : Accounted s) (hi : s.jobs[i]? = some j) (hj : t.jobs = s.jobs.set i b)
    (hu : unanswered b = unanswered j) (ht : t.taken = s.taken) (hh : t.handing = s.handing)
    (ha : t.answers = s.answers) : Accounted t := by
  refine h.same ht ?_
  rw [ha, outstanding, outstanding, hj, hh]
  have hswap := flatMap_set_perm (f := unanswered) hi b
  rw [hu] at hswap
  exact (((List.perm_append_left_iff _).mp hswap).append_right _).append_left _

/-- A task gives its answer. -/
theorem Accounted.settle (h : Accounted s) (hi : s.jobs[i]? = some j)
    (hu : unanswered j = [j.ticket]) (hu' : unanswered b = []) (res : Except ApiError Unit) :
    Accounted ((s.setJob i b).reply j.ticket res) := by
  refine h.same rfl ?_
  have hswap := flatMap_set_perm (f := unanswered) hi b
  rw [hu, hu', List.nil_append] at hswap
  have hjobs : (s.jobs.flatMap unanswered).Perm
    ([j.ticket] ++ (s.jobs.set i b).flatMap unanswered) := hswap.symm
  show ((s.answers ++ [(j.ticket, res)]).map Prod.fst ++
    ((s.jobs.set i b).flatMap unanswered ++ _)).Perm _
  rw [List.map_append, List.map_singleton, List.append_assoc]
  refine List.Perm.append_left _ ?_
  rw [← List.append_assoc]
  exact (hjobs.append_right _).symm

theorem Accounted.answerNow (h : Accounted s) (res : Except ApiError Unit) :
    Accounted ({ s with taken := s.taken + 1 }.reply s.taken res) := by
  refine h.take rfl ?_
  show ((s.answers ++ [(s.taken, res)]).map Prod.fst ++ outstanding s).Perm _
  rw [List.map_append, List.map_singleton, List.append_assoc, List.append_assoc]
  exact List.Perm.append_left _ List.perm_append_comm

theorem Accounted.spawn (h : Accounted s) (source : Requester) (work : Work) :
    Accounted ({ s with taken := s.taken + 1 }.spawn s.taken source work) := by
  refine h.take rfl ?_
  show (s.answers.map Prod.fst ++
    ((s.jobs ++ [_]).flatMap unanswered ++ s.handing.toList.map Handing.ticket)).Perm
    (s.answers.map Prod.fst ++
      (s.jobs.flatMap unanswered ++ s.handing.toList.map Handing.ticket) ++ [s.taken])
  rw [List.flatMap_append, List.append_assoc, List.append_assoc, List.append_assoc]
  exact List.Perm.append_left _ (List.Perm.append_left _ List.perm_append_comm)

theorem Accounted.onCommand (h : Accounted s) (hn : s.handing = none) (source : Requester)
    (c : Command) : Accounted (s.onCommand source c) := by
  cases c with
  | scan target =>
    cases target with
    | error e => exact h.answerNow _
    | ok _ => exact h.spawn _ _
  | pair target =>
    cases target with
    | error e => exact h.answerNow _
    | ok tnc => exact h.spawn _ _
  | unpair res => exact h.answerNow _
  | scanStop request =>
    unfold State.onCommand
    dsimp only
    split
    · rename_i i hi
      have hjobs : Accounted { s with
          jobs := s.jobs.modify i
              (fun j => { j with stoppedBy := some ⟨source.conn, request⟩ }) } := by
        cases hj : s.jobs[i]? with
        | none =>
          rw [List.modify_eq_self (List.getElem?_eq_none_iff.mp hj)]
          exact h
        | some j =>
          rw [modify_eq_set hj]
          exact h.setJob hj rfl rfl rfl rfl rfl
      exact hjobs.answerNow _
    · exact h.answerNow _
  | pairReply request reply =>
    unfold State.onCommand
    dsimp only
    split
    · rename_i i hi
      refine h.take rfl ?_
      rw [outstanding, outstanding, hn, ← List.append_assoc, ← List.append_assoc]
      simp
    · exact h.answerNow _

theorem Accounted.hand (h : Accounted s) (hs : s.step .hand = some t) : Accounted t := by
  obtain ⟨x, hx, hs⟩ := Option.bind_eq_some_iff.mp hs
  obtain ⟨j, hj, hs⟩ := Option.bind_eq_some_iff.mp hs
  have hanswer : ∀ res, Accounted ({ s with handing := none }.reply x.ticket res) := by
    intro res
    refine h.same rfl ?_
    show ((s.answers ++ [(x.ticket, res)]).map Prod.fst ++ (s.jobs.flatMap unanswered ++ [])).Perm _
    rw [outstanding, hx, List.map_append, List.append_nil, List.append_assoc]
    exact List.Perm.append_left _ List.perm_append_comm
  dsimp only at hs
  split at hs
  · split at hs
    · obtain rfl := Option.some.inj hs
      exact (hanswer (.ok ())).setJob (i := x.job) hj rfl rfl rfl rfl rfl
    · cases hs
  · obtain rfl := Option.some.inj hs
    exact hanswer _

theorem unanswered_of (h : j.phase.isAnswered = false) : unanswered j = [j.ticket] := by
  rw [unanswered, h]
  rfl

theorem Accounted.next (h : Accounted s) (hs : s.step e = some t) : Accounted t := by
  cases e with
  | command source c =>
    obtain ⟨hn, hs⟩ := Option.ite_none_left_eq_some.mp hs
    obtain rfl := Option.some.inj hs
    exact h.onCommand (Option.not_isSome_iff_eq_none.mp hn) source c
  | hand => exact h.hand hs
  | tryLock i =>
    obtain ⟨j, hj, hs⟩ := Option.bind_eq_some_iff.mp hs
    split at hs
    · rename_i hp
      have hu := unanswered_of (j := j) (by rw [hp]; rfl)
      split at hs
      · obtain rfl := Option.some.inj hs
        exact h.settle hj hu rfl _
      · obtain rfl := Option.some.inj hs
        exact h.setJob (b := { j with phase := .locked }) hj rfl hu.symm rfl rfl rfl
    · cases hs
  | register i =>
    obtain ⟨j, hj, hs⟩ := Option.bind_eq_some_iff.mp hs
    split at hs
    · rename_i hp
      obtain rfl := Option.some.inj hs
      have hu := unanswered_of (j := j) (by rw [hp]; rfl)
      refine h.setJob (b := { j with phase := .running }) hj ?_ hu.symm ?_ ?_ ?_
      all_goals
        unfold State.list
        split <;> rfl
    · cases hs
  | takeReply i =>
    obtain ⟨j, hj, hs⟩ := Option.bind_eq_some_iff.mp hs
    split at hs
    · obtain rfl := Option.some.inj hs
      exact h.setJob hj rfl rfl rfl rfl rfl
    · cases hs
  | requesterGone i =>
    obtain ⟨j, hj, hs⟩ := Option.bind_eq_some_iff.mp hs
    split at hs
    · obtain rfl := Option.some.inj hs
      exact h.setJob hj rfl rfl rfl rfl rfl
    · cases hs
  | finish i res =>
    obtain ⟨j, hj, hs⟩ := Option.bind_eq_some_iff.mp hs
    split at hs
    · rename_i hp
      obtain rfl := Option.some.inj hs
      have hu := unanswered_of (j := j) (by rw [hp]; rfl)
      exact h.setJob (b := { j with phase := .ended res }) hj rfl hu.symm rfl rfl rfl
    · cases hs
  | unregister i =>
    obtain ⟨j, hj, hs⟩ := Option.bind_eq_some_iff.mp hs
    split at hs
    · rename_i res hp
      obtain rfl := Option.some.inj hs
      have hu := unanswered_of (j := j) (by rw [hp]; rfl)
      refine h.setJob (b := { j with phase := .over res }) hj ?_ hu.symm ?_ ?_ ?_
      all_goals
        unfold State.list
        split <;> rfl
    · cases hs
  | answer i =>
    obtain ⟨j, hj, hs⟩ := Option.bind_eq_some_iff.mp hs
    split at hs
    · rename_i hp
      obtain rfl := Option.some.inj hs
      exact h.settle hj (unanswered_of (by rw [hp]; rfl)) rfl _
    · cases hs
  | unlock i =>
    obtain ⟨j, hj, hs⟩ := Option.bind_eq_some_iff.mp hs
    split at hs
    · rename_i hp
      obtain rfl := Option.some.inj hs
      have hu : unanswered j = [] := by rw [unanswered, hp]; rfl
      exact h.setJob (b := { j with phase := .gone }) hj rfl hu.symm rfl rfl rfl
    · cases hs

/-- Every command the daemon took is answered exactly once, or still outstanding exactly
once: the answers and what is outstanding are, together, the commands taken. -/
theorem answered_once (h : Runs State.step {} es s) : Accounted s :=
  h.invariant (List.Perm.refl _) (fun _ _ _ ha _ hs => ha.next hs)

def stopped : List Event :=
  refused ++ [.command ⟨2, 8⟩ (.scanStop 7), .command ⟨1, 8⟩ (.scanStop 7), .finish 0 (.ok ())]

theorem answered_once_stopped :
    ∃ s, Runs State.step {} stopped s ∧ s.answers.map Prod.fst = [1, 2, 3] ∧ Accounted s := by
  have hrun : Runs State.step {} stopped _ := runs_of_foldlM rfl
  exact ⟨_, hrun, rfl, answered_once hrun⟩

end KissTncBridge.Proofs.BluetoothJobs
