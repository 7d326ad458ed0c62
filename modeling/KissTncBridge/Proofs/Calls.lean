import KissTncBridge.Ctl.Session
import KissTncBridge.Proofs.WireFormat

namespace KissTncBridge.Proofs.Calls
open Control Ctl Lib Protocol
open Server (Asked Serving respond parse lineId)

variable {serde : Serde} {s t : Session} {e : SessionStep}

def line (a : Asked) : Json := Request.json ⟨VERSION, a.id, a.command⟩

def isSubscribe : Protocol.Command → Bool
  | .subscribe _ => true
  | _ => false

/-- A request for the daemon itself, and not for the connection's reader. -/
def plain (a : Asked) : Bool := !isSubscribe a.command

def answered : Message → List UInt64
  | .response r => r.id.toList
  | .event _ => []

def lineAnswered (serde : Serde) (l : Json) : List UInt64 :=
  match message serde.complaint l with
  | .ok m => answered m
  | .error _ => []

theorem lineAnswered_response (r : Response) : lineAnswered serde r.json = r.id.toList := by
  rw [lineAnswered, WireFormat.message_response]
  rfl

theorem lineAnswered_event (m : EventMessage) : lineAnswered serde m.json = [] := by
  rw [lineAnswered, WireFormat.message_event]
  rfl

/-- What the reader does with a request of the client: it can be too long, a `subscribe` is
answered, and everything else is handed on. -/
theorem onLine_cases (serde : Serde) (v : Serving) (n : Nat) (a : Asked) :
    (v.onLine serde.complaint n (line a) =
      { v with holding := some Server.tooLong, last := true }) ∨
    (∃ r topics, isSubscribe a.command = true ∧ r.id = some a.id ∧
      v.onLine serde.complaint n (line a) = { v with subscribed := topics, holding := some r }) ∨
    (isSubscribe a.command = false ∧ v.onLine serde.complaint n (line a) =
        { v with queue := v.queue ++ [a] }) := by
  have hparse : parse serde.complaint (.ok (line a)) = .ok ⟨VERSION, a.id, a.command⟩ :=
    WireFormat.parse_json _ _ _
  unfold Serving.onLine
  split
  · exact .inl rfl
  · rw [hparse]
    obtain ⟨id, c⟩ := a
    cases c with
    | subscribe topics => exact .inr (.inl ⟨_, _, rfl, rfl, rfl⟩)
    | _ => exact .inr (.inr ⟨rfl, rfl⟩)

theorem read_cases (serde : Serde) (a : Asked) (rest : List Json) (hl : s.serving.last = false)
    (hh : s.serving.holding = none) :
    (s.onLine serde (line a) rest =
      { s with serving := { s.serving with holding := some Server.tooLong, last := true } }) ∨
    (∃ r topics, isSubscribe a.command = true ∧ r.id = some a.id ∧
        s.onLine serde (line a) rest = { s with
      serving := { s.serving with subscribed := topics, holding := some r }, up := rest,
        answers := s.answers ++ [(a, r)] }) ∨
    (isSubscribe a.command = false ∧ s.onLine serde (line a) rest = { s with
      serving := { s.serving with queue := s.serving.queue ++ [a] }, up := rest }) := by
  have hparse : parse serde.complaint (.ok (line a)) = .ok ⟨VERSION, a.id, a.command⟩ :=
    WireFormat.parse_json _ _ _
  unfold Session.onLine
  rcases onLine_cases serde s.serving (serde.length (line a) + 1) a with
    h | ⟨r, topics, hs, hr, h⟩ | ⟨hs, h⟩
  · refine .inl ?_
    rw [h]
    rfl
  · refine .inr (.inl ⟨r, topics, hs, hr, ?_⟩)
    rw [h, hparse]
    simp [hl, Except.toOption]
  · refine .inr (.inr ⟨hs, ?_⟩)
    rw [h, hparse]
    simp [hl, hh, Except.toOption]

/-- Where the requests are: read in the order they were sent, the commands taken in that
order, and each of those read queued, worked on or answered. -/
structure Flow (s : Session) (read unread : List Asked) : Prop where
  sent : s.client.sent = read ++ unread
  up : s.up = unread.map line
  order : read.filter plain = s.taken ++ s.serving.queue
  shared : read.Perm (s.serving.queue ++ s.serving.working ++ s.answers.map Prod.fst)

variable {read unread : List Asked}

theorem Flow.same (h : Flow s read unread) (hc : t.client.sent = s.client.sent) (hu : t.up = s.up)
    (hq : t.serving.queue = s.serving.queue) (hw : t.serving.working = s.serving.working)
    (ht : t.taken = s.taken) (ha : t.answers = s.answers) : Flow t read unread where
  sent := hc.trans h.sent
  up := hu.trans h.up
  order := by rw [h.order, ht, hq]
  shared := by
    rw [hq, hw, ha]
    exact h.shared

theorem giveBack_sent (c : Client) (res : Except CtlError Json) :
    (c.giveBack res).sent = c.sent := by
  unfold Client.giveBack
  split <;> rfl

theorem onLine_sent (c : Client) (l : Json) : (c.onLine serde.complaint l).sent = c.sent := by
  unfold Client.onLine
  split
  · exact giveBack_sent c _
  · rfl
  · dsimp only
    split
    · exact giveBack_sent _ _
    · rfl

theorem Flow.send (h : Flow s read unread) (hc : t.client.sent = s.client.sent ++ [a])
    (hu : t.up = s.up ++ [line a])
    (hv : t.serving = s.serving) (ht : t.taken = s.taken) (ha : t.answers = s.answers) :
    Flow t read (unread ++ [a]) where
  sent := by rw [hc, h.sent, List.append_assoc]
  up := by rw [hu, h.up, List.map_append, List.map_singleton]
  order := by rw [h.order, ht, hv]
  shared := by
    rw [hv, ha]
    exact h.shared

theorem Flow.onLine (h : Flow s read unread) (hu : s.up = l :: rest) (hl : s.serving.last = false)
    (hh : s.serving.holding = none) :
    ∃ read' unread', Flow (s.onLine serde l rest) read' unread' := by
  have hup := h.up
  rw [hu] at hup
  cases unread with
  | nil => cases hup
  | cons a unread =>
    obtain ⟨rfl, rfl⟩ := List.cons.inj hup
    have hsent : s.client.sent = (read ++ [a]) ++ unread := by
      rw [h.sent, List.append_assoc, List.singleton_append]
    rcases read_cases serde a (unread.map line) hl hh with
      hr | ⟨r, topics, hsub, -, hr⟩ | ⟨hsub, hr⟩
    · rw [hr]
      exact ⟨read, a :: unread, h.same rfl rfl rfl rfl rfl rfl⟩
    · rw [hr]
      refine ⟨read ++ [a], unread, hsent, rfl, ?_, ?_⟩
      · have hnone : [a].filter plain = [] := by simp [plain, hsub]
        rw [List.filter_append, hnone, List.append_nil]
        exact h.order
      · show (read ++ [a]).Perm (_ ++ (s.answers ++ [(a, r)]).map Prod.fst)
        rw [List.map_append, List.map_singleton, ← List.append_assoc]
        exact h.shared.append_right _
    · rw [hr]
      refine ⟨read ++ [a], unread, hsent, rfl, ?_, ?_⟩
      · have hone : [a].filter plain = [a] := by simp [plain, hsub]
        rw [List.filter_append, hone, h.order, List.append_assoc]
      · show (read ++ [a]).Perm
          (s.serving.queue ++ [a] ++ s.serving.working ++ s.answers.map Prod.fst)
        have hmove : (s.serving.queue ++ s.serving.working ++ s.answers.map Prod.fst ++ [a]).Perm
            (s.serving.queue ++ [a] ++ s.serving.working ++ s.answers.map Prod.fst) := by
          rw [List.append_assoc, List.append_assoc, List.append_assoc, List.append_assoc]
          refine List.Perm.append_left _ ?_
          rw [← List.append_assoc]
          exact List.perm_append_comm
        exact (h.shared.append_right [a]).trans hmove

theorem Flow.take (h : Flow s read unread) (hq : s.serving.queue = a :: queue) :
    Flow { s with
      serving := { s.serving with queue := queue, working := s.serving.working ++ [a] }
      taken := s.taken ++ [a] } read unread where
  sent := h.sent
  up := h.up
  order := by rw [h.order, hq, List.append_assoc, List.singleton_append]
  shared := by
    show read.Perm (queue ++ (s.serving.working ++ [a]) ++ s.answers.map Prod.fst)
    have hmove : (a :: queue ++ s.serving.working).Perm (queue ++ (s.serving.working ++ [a])) := by
      rw [← List.append_assoc]
      exact (List.perm_append_singleton a (queue ++ s.serving.working)).symm
    have hs := h.shared
    rw [hq] at hs
    exact hs.trans (hmove.append_right _)

theorem Flow.answer (h : Flow s read unread) (ha : s.serving.working[i]? = some a) (r : Response) :
    Flow { s with
      serving := { s.serving with
        working := s.serving.working.eraseIdx i, replies := s.serving.replies ++ [r] }
      answers := s.answers ++ [(a, r)] } read unread where
  sent := h.sent
  up := h.up
  order := h.order
  shared := by
    show read.Perm
      (s.serving.queue ++ s.serving.working.eraseIdx i ++ (s.answers ++ [(a, r)]).map Prod.fst)
    obtain ⟨hi, rfl⟩ := List.getElem?_eq_some_iff.mp ha
    have hmove : s.serving.working.Perm (s.serving.working.eraseIdx i ++ [s.serving.working[i]]) :=
      ((List.getElem_cons_eraseIdx_perm hi).symm).trans (List.perm_append_singleton _ _).symm
    refine h.shared.trans ?_
    rw [List.map_append, List.map_singleton, List.append_assoc, List.append_assoc]
    refine List.Perm.append_left _ ((hmove.append_right _).trans ?_)
    rw [List.append_assoc]
    exact List.Perm.append_left _ List.perm_append_comm

theorem Flow.next (h : Flow s read unread) (hs : s.step serde e = some t) :
    ∃ read' unread', Flow t read' unread' := by
  cases e with
  | send c =>
    obtain rfl := Option.some.inj hs
    exact ⟨_, _, h.send (a := ⟨s.client.nextId, c⟩) rfl rfl rfl rfl rfl⟩
  | call c =>
    obtain rfl := Option.some.inj hs
    exact ⟨_, _, h.send (a := ⟨s.client.nextId, c⟩) rfl rfl rfl rfl rfl⟩
  | read =>
    obtain ⟨hg, hs⟩ := Option.ite_none_left_eq_some.mp hs
    split at hs
    · cases hs
    · rename_i l rest hu
      obtain rfl := Option.some.inj hs
      simp only [not_or, Bool.not_eq_true] at hg
      exact h.onLine hu hg.2.1 (Option.isNone_iff_eq_none.mp (Option.isSome_eq_false_iff.mp hg.2.2))
  | queue =>
    obtain ⟨-, hs⟩ := Option.ite_none_left_eq_some.mp hs
    obtain ⟨r, -, rfl⟩ := Option.map_eq_some_iff.mp hs
    exact ⟨_, _, h.same rfl rfl rfl rfl rfl rfl⟩
  | take =>
    dsimp only [Session.step] at hs
    split at hs
    · cases hs
    · rename_i a queue hq
      obtain rfl := Option.some.inj hs
      exact ⟨_, _, h.take hq⟩
  | answer i res =>
    obtain ⟨a, ha, rfl⟩ := Option.map_eq_some_iff.mp hs
    exact ⟨_, _, h.answer ha _⟩
  | reply i =>
    obtain ⟨-, hs⟩ := Option.ite_none_left_eq_some.mp hs
    obtain ⟨r, -, rfl⟩ := Option.map_eq_some_iff.mp hs
    exact ⟨_, _, h.same rfl rfl rfl rfl rfl rfl⟩
  | event m =>
    obtain ⟨-, hs⟩ := Option.ite_none_left_eq_some.mp hs
    obtain rfl := Option.some.inj hs
    split
    · exact ⟨_, _, h.same rfl rfl rfl rfl rfl rfl⟩
    · exact ⟨_, _, h⟩
  | write =>
    obtain ⟨-, hs⟩ := Option.ite_none_left_eq_some.mp hs
    split at hs
    · cases hs
    · obtain rfl := Option.some.inj hs
      exact ⟨_, _, h.same rfl rfl rfl rfl rfl rfl⟩
  | next =>
    dsimp only [Session.step] at hs
    split at hs
    · obtain rfl := Option.some.inj hs
      exact ⟨_, _, h.same (onLine_sent ..) rfl rfl rfl rfl rfl⟩
    · obtain ⟨-, hs⟩ := Option.ite_none_right_eq_some.mp hs
      obtain rfl := Option.some.inj hs
      exact ⟨_, _, h.same (giveBack_sent ..) rfl rfl rfl rfl rfl⟩
  | close =>
    obtain rfl := Option.some.inj hs
    exact ⟨_, _, h.same rfl rfl rfl rfl rfl rfl⟩

def ids (rs : List Response) : List UInt64 := rs.flatMap (fun r => r.id.toList)

def lineIds (serde : Serde) (ls : List Json) : List UInt64 := ls.flatMap (lineAnswered serde)

def unqueued (v : Serving) : List Response := v.holding.toList ++ v.replies

/-- The requests whose answers are somewhere between the daemon and the client, or with
the client. -/
def underway (serde : Serde) (s : Session) : List UInt64 :=
  ids (unqueued s.serving) ++ lineIds serde (s.serving.outbox ++ s.down) ++
    s.client.received.flatMap answered

def Given (answers : List (Asked × Response)) (r : Response) : Prop :=
  r.id = none ∨ ∃ a, (a, r) ∈ answers

theorem Given.more (h : Given answers r) (more : List (Asked × Response)) :
    Given (answers ++ more) r := by
  rcases h with h | ⟨a, h⟩
  · exact .inl h
  · exact .inr ⟨a, List.mem_append_left _ h⟩

def Sent (answers : List (Asked × Response)) (l : Json) : Prop :=
  (∃ m, l = EventMessage.json m) ∨ ∃ r, l = Response.json r ∧ Given answers r

theorem Sent.more (h : Sent answers l) (more : List (Asked × Response)) :
    Sent (answers ++ more) l := by
  rcases h with h | ⟨r, hl, h⟩
  · exact .inl h
  · exact .inr ⟨r, hl, h.more more⟩

def Returned (s : Session) (p : UInt64 × Except CtlError Json) : Prop :=
  (s.closed = true ∧ p.2 = .error .closed) ∨
  ∃ a r, (a, r) ∈ s.answers ∧ a.id = p.1 ∧ p.2 = result (WireFormat.seenResponse r)

/-- Every answer is at one place on its way to the client, and the calls returned the
answers to their own requests. -/
structure Answers (serde : Serde) (s : Session) : Prop where
  once : (s.answers.map (fun p => p.1.id)).Perm (underway serde s)
  own : ∀ p ∈ s.answers, p.2.id = some p.1.id
  held : ∀ r ∈ unqueued s.serving, Given s.answers r
  lines : ∀ l ∈ s.serving.outbox ++ s.down, Sent s.answers l
  returned : ∀ p ∈ s.client.returned, Returned s p

theorem answers_start : Answers serde {} where
  once := .refl _
  own := fun _ h => nomatch h
  held := fun _ h => nomatch h
  lines := fun _ h => nomatch h
  returned := fun _ h => nomatch h

theorem Returned.more (h : Returned s p) (hc : s.closed = true → t.closed = true)
    (ha : ∃ more, t.answers = s.answers ++ more) : Returned t p := by
  obtain ⟨more, ha⟩ := ha
  rcases h with ⟨h, hp⟩ | ⟨a, r, hm, hid, hp⟩
  · exact .inl ⟨hc h, hp⟩
  · exact .inr ⟨a, r, by rw [ha]; exact List.mem_append_left _ hm, hid, hp⟩

/-- Nothing changes that the answers are about, but for the place of a line. -/
theorem Answers.same (h : Answers serde s) (ha : t.answers = s.answers)
    (hv : unqueued t.serving = unqueued s.serving)
    (hl : (s.serving.outbox ++ s.down).Perm (t.serving.outbox ++ t.down))
    (hm : t.client.received = s.client.received)
    (hr : t.client.returned = s.client.returned) (hc : s.closed = true → t.closed = true) :
    Answers serde t where
  once := by
    rw [ha]
    refine h.once.trans ?_
    unfold underway
    rw [hv, hm]
    exact ((hl.flatMap_right _).append_left _).append_right _
  own := by
    rw [ha]
    exact h.own
  held := by
    rw [ha, hv]
    exact h.held
  lines := by
    intro l hmem
    rw [ha]
    exact h.lines l (hl.mem_iff.mpr hmem)
  returned := by
    intro p hp
    rw [hr] at hp
    exact (h.returned p hp).more hc ⟨[], by rw [ha, List.append_nil]⟩

theorem ids_append (rs qs : List Response) : ids (rs ++ qs) = ids rs ++ ids qs :=
  List.flatMap_append

theorem lineIds_append (ls ks : List Json) :
    lineIds serde (ls ++ ks) = lineIds serde ls ++ lineIds serde ks :=
  List.flatMap_append

/-- A response is given, and held. -/
theorem Answers.give (h : Answers serde s) (hid : r.id = some a.id)
    (hheld : (unqueued t.serving).Perm (unqueued s.serving ++ [r]))
    (ho : t.serving.outbox = s.serving.outbox) (hd : t.down = s.down) (hc : t.client = s.client)
    (hcl : t.closed = s.closed) (ha : t.answers = s.answers ++ [(a, r)]) : Answers serde t where
  once := by
    have hids : (ids (unqueued t.serving)).Perm (ids (unqueued s.serving) ++ [a.id]) := by
      have hr : ids [r] = [a.id] := by simp [ids, hid]
      rw [← hr, ← ids_append]
      exact hheld.flatMap_right _
    have hu : (underway serde s ++ [a.id]).Perm (underway serde t) := by
      refine List.Perm.trans ?_ ((hids.symm.append_right _).append_right _)
      unfold underway
      rw [ho, hd, hc, List.append_assoc, List.append_assoc, List.append_assoc, List.append_assoc]
      refine List.Perm.append_left _ ?_
      rw [← List.append_assoc]
      exact List.perm_append_comm
    rw [ha, List.map_append, List.map_singleton]
    exact (h.once.append_right _).trans hu
  own := by
    intro p hp
    rw [ha] at hp
    rcases List.mem_append.mp hp with hp | hp
    · exact h.own p hp
    · obtain rfl := List.mem_singleton.mp hp
      exact hid
  held := by
    intro q hq
    rw [ha]
    rcases List.mem_append.mp (hheld.mem_iff.mp hq) with hq | hq
    · exact (h.held q hq).more _
    · obtain rfl := List.mem_singleton.mp hq
      exact .inr ⟨a, List.mem_append_right _ (List.mem_singleton_self _)⟩
  lines := by
    intro l hl
    rw [ho, hd] at hl
    rw [ha]
    exact (h.lines l hl).more _
  returned := by
    intro p hp
    rw [hc] at hp
    exact (h.returned p hp).more (by rw [hcl]; exact id) ⟨_, ha⟩

/-- A line is queued: a held response, or an event. -/
theorem Answers.push (h : Answers serde s) (rs : List Response)
    (hheld : (unqueued s.serving).Perm (rs ++ unqueued t.serving))
    (hl : lineAnswered serde l = ids rs) (hs : Sent s.answers l)
    (ho : t.serving.outbox = s.serving.outbox ++ [l])
    (hd : t.down = s.down) (hc : t.client = s.client) (hcl : t.closed = s.closed)
    (ha : t.answers = s.answers) : Answers serde t where
  once := by
    have hids : (ids (unqueued s.serving)).Perm (ids rs ++ ids (unqueued t.serving)) := by
      rw [← ids_append]
      exact hheld.flatMap_right _
    have hlines : lineIds serde (t.serving.outbox ++ t.down) =
        lineIds serde s.serving.outbox ++ ids rs ++ lineIds serde s.down := by
      have hone : lineIds serde [l] = ids rs := by rw [← hl, lineIds, List.flatMap_singleton]
      rw [ho, hd, lineIds_append, lineIds_append, hone]
    have hsplit : underway serde s = ids (unqueued s.serving) ++
      (lineIds serde s.serving.outbox ++ lineIds serde s.down) ++
        s.client.received.flatMap answered := by
      rw [underway, lineIds_append]
    have hgoal : underway serde t = ids (unqueued t.serving) ++
      (lineIds serde s.serving.outbox ++ ids rs ++ lineIds serde s.down) ++
        s.client.received.flatMap answered := by
      rw [underway, hlines, hc]
    rw [ha]
    refine h.once.trans ?_
    rw [hsplit, hgoal]
    refine List.Perm.append_right _ ((hids.append_right _).trans ?_)
    rw [List.append_assoc (lineIds serde s.serving.outbox), List.append_assoc]
    refine List.Perm.trans List.perm_append_comm ?_
    rw [List.append_assoc, List.append_assoc]
    refine List.Perm.append_left _ (List.Perm.append_left _ ?_)
    exact List.perm_append_comm
  own := by
    rw [ha]
    exact h.own
  held := by
    intro q hq
    rw [ha]
    exact h.held q (hheld.mem_iff.mpr (List.mem_append_right _ hq))
  lines := by
    intro k hk
    rw [ho, hd, List.append_assoc] at hk
    rw [ha]
    rcases List.mem_append.mp hk with hk | hk
    · exact h.lines k (List.mem_append_left _ hk)
    · rcases List.mem_append.mp hk with hk | hk
      · obtain rfl := List.mem_singleton.mp hk
        exact hs
      · exact h.lines k (List.mem_append_right _ hk)
  returned := by
    intro p hp
    rw [hc] at hp
    exact (h.returned p hp).more (by rw [hcl]; exact id) ⟨[], by rw [ha, List.append_nil]⟩

theorem giveBack_received (c : Client) (res : Except CtlError Json) :
    (c.giveBack res).received = c.received := by
  unfold Client.giveBack
  split <;> rfl

theorem giveBack_returned {c : Client} (hp : p ∈ (c.giveBack res).returned) :
    p ∈ c.returned ∨ ∃ id, c.waiting = some id ∧ p = (id, res) := by
  unfold Client.giveBack at hp
  split at hp
  · rename_i id hid
    rcases List.mem_append.mp hp with hp | hp
    · exact .inl hp
    · exact .inr ⟨id, hid, List.mem_singleton.mp hp⟩
  · exact .inl hp

theorem event_received (c : Client) (m : EventMessage) :
    c.onLine serde.complaint m.json = { c with received := c.received ++ [.event m] } := by
  rw [Client.onLine, WireFormat.message_event]

theorem response_received (c : Client) (r : Response) :
    (c.onLine serde.complaint r.json).received = c.received ++
      [.response (WireFormat.seenResponse r)] := by
  rw [Client.onLine, WireFormat.message_response]
  dsimp only
  split
  · rw [giveBack_received]
  · rfl

/-- What a call returns on a response is that response's result, under its number. -/
theorem response_returned {c : Client} {r : Response}
    (hp : p ∈ (c.onLine serde.complaint r.json).returned) :
    p ∈ c.returned ∨ r.id = some p.1 ∧ p.2 = result (WireFormat.seenResponse r) := by
  rw [Client.onLine, WireFormat.message_response] at hp
  dsimp only at hp
  split at hp
  · rename_i hw
    rcases giveBack_returned hp with hp | ⟨id, hid, rfl⟩
    · exact .inl hp
    · exact .inr ⟨hw.2.trans hid, rfl⟩
  · exact .inl hp

/-- The client reads a line. -/
theorem Answers.receive (h : Answers serde s) (hd : s.down = l :: down) :
    Answers serde { s with client := s.client.onLine serde.complaint l, down := down } := by
  have hsent : Sent s.answers l := h.lines l (by rw [hd]; simp)
  have hlines : ∀ k ∈ s.serving.outbox ++ down, Sent s.answers k := by
    intro k hk
    refine h.lines k ?_
    rw [hd]
    rcases List.mem_append.mp hk with hk | hk
    · exact List.mem_append_left _ hk
    · exact List.mem_append_right _ (List.mem_cons_of_mem _ hk)
  have hunder : underway serde s = ids (unqueued s.serving) ++ (lineIds serde s.serving.outbox ++
      (lineAnswered serde l ++ lineIds serde down)) ++ s.client.received.flatMap answered := by
    rw [underway, hd, lineIds_append]
    rfl
  have hmove :
    (underway serde s).Perm (ids (unqueued s.serving) ++ lineIds serde (s.serving.outbox ++ down) ++
      (s.client.received.flatMap answered ++ lineAnswered serde l)) := by
    rw [hunder, lineIds_append]
    simp only [List.append_assoc]
    refine List.Perm.append_left _ (List.Perm.append_left _ ?_)
    exact List.perm_append_comm.trans (.of_eq (List.append_assoc ..))
  rcases hsent with ⟨m, rfl⟩ | ⟨r, rfl, hgiven⟩
  · rw [event_received]
    refine ⟨h.once.trans (hmove.trans ?_), h.own, h.held, hlines,
      fun p hp => (h.returned p hp).more id ⟨[], by simp⟩⟩
    rw [lineAnswered_event, List.append_nil]
    refine List.Perm.append_left _ ?_
    rw [List.flatMap_append]
    exact .of_eq (List.append_nil _).symm
  · refine ⟨h.once.trans (hmove.trans ?_), h.own, h.held, hlines, fun p hp => ?_⟩
    · rw [lineAnswered_response]
      refine List.Perm.append_left _ ?_
      rw [response_received, List.flatMap_append, List.flatMap_singleton]
      rfl
    · rcases response_returned hp with hp | ⟨hid, hres⟩
      · exact (h.returned p hp).more id ⟨[], by simp⟩
      · rcases hgiven with hn | ⟨a, hm⟩
        · rw [hn] at hid
          cases hid
        · have ha := h.own (a, r) hm
          exact .inr ⟨a, r, hm, Option.some.inj (ha.symm.trans hid), hres⟩

theorem respond_id (id : UInt64) (res : Option (Except ApiError Json)) :
    (respond id res).id = some id := by
  cases res with
  | none => rfl
  | some res =>
    cases res with
    | _ => rfl

theorem Answers.onLine (h : Answers serde s) (a : Asked) (rest : List Json)
    (hl : s.serving.last = false)
    (hh : s.serving.holding = none) : Answers serde (s.onLine serde (line a) rest) := by
  have hun : unqueued s.serving = s.serving.replies := by rw [unqueued, hh]; rfl
  rcases read_cases serde a rest hl hh with hr | ⟨r, topics, -, hid, hr⟩ | ⟨-, hr⟩
  · rw [hr]
    refine ⟨h.once.trans ?_, h.own, ?_, h.lines, h.returned⟩
    · unfold underway
      rw [hun]
      exact .refl _
    · intro q hq
      rcases List.mem_cons.mp hq with rfl | hq
      · exact .inl rfl
      · exact h.held q (by rw [hun]; exact hq)
  · rw [hr]
    refine h.give (a := a) (r := r) hid ?_ rfl rfl rfl rfl rfl
    rw [hun]
    exact (List.perm_append_singleton r _).symm
  · rw [hr]
    exact h.same rfl rfl (.refl _) rfl rfl id

theorem Answers.next (h : Answers serde s) (hf : Flow s read unread)
    (hs : s.step serde e = some t) : Answers serde t := by
  cases e with
  | send c =>
    obtain rfl := Option.some.inj hs
    exact h.same rfl rfl (.refl _) rfl rfl id
  | call c =>
    obtain rfl := Option.some.inj hs
    exact h.same rfl rfl (.refl _) rfl rfl id
  | read =>
    obtain ⟨hg, hs⟩ := Option.ite_none_left_eq_some.mp hs
    split at hs
    · cases hs
    · rename_i l rest hu
      obtain rfl := Option.some.inj hs
      simp only [not_or, Bool.not_eq_true] at hg
      have hup := hf.up
      rw [hu] at hup
      cases unread with
      | nil => cases hup
      | cons a unread =>
        obtain ⟨rfl, -⟩ := List.cons.inj hup
        exact h.onLine a rest hg.2.1
          (Option.isNone_iff_eq_none.mp (Option.isSome_eq_false_iff.mp hg.2.2))
  | queue =>
    obtain ⟨-, hs⟩ := Option.ite_none_left_eq_some.mp hs
    obtain ⟨r, hr, rfl⟩ := Option.map_eq_some_iff.mp hs
    have hheld : unqueued s.serving = [r] ++ s.serving.replies := by rw [unqueued, hr]; rfl
    have hgiven := h.held r (by rw [hheld]; exact List.mem_cons_self ..)
    refine h.push (l := r.json) [r] (.of_eq hheld) ?_ (.inr ⟨r, rfl, hgiven⟩) rfl rfl rfl rfl rfl
    rw [lineAnswered_response, ids, List.flatMap_singleton]
  | take =>
    dsimp only [Session.step] at hs
    split at hs
    · cases hs
    · obtain rfl := Option.some.inj hs
      exact h.same rfl rfl (.refl _) rfl rfl id
  | answer i res =>
    obtain ⟨a, ha, rfl⟩ := Option.map_eq_some_iff.mp hs
    refine h.give (a := a) (r := respond a.id res) (respond_id a.id res) ?_ rfl rfl rfl rfl rfl
    exact .of_eq (List.append_assoc ..).symm
  | reply i =>
    obtain ⟨-, hs⟩ := Option.ite_none_left_eq_some.mp hs
    obtain ⟨r, hr, rfl⟩ := Option.map_eq_some_iff.mp hs
    obtain ⟨hi, rfl⟩ := List.getElem?_eq_some_iff.mp hr
    have hgiven := h.held s.serving.replies[i] (List.mem_append_right _ (List.getElem_mem hi))
    refine h.push (l := s.serving.replies[i].json) [s.serving.replies[i]] ?_ ?_
      (.inr ⟨_, rfl, hgiven⟩) rfl rfl rfl rfl rfl
    · have hp := (List.getElem_cons_eraseIdx_perm hi).symm
      exact (hp.append_left _).trans List.perm_middle
    · rw [lineAnswered_response, ids, List.flatMap_singleton]
  | event m =>
    obtain ⟨-, hs⟩ := Option.ite_none_left_eq_some.mp hs
    obtain rfl := Option.some.inj hs
    split
    · exact h.push (l := m.json) [] (.refl _) (lineAnswered_event m)
        (.inl ⟨m, rfl⟩) rfl rfl rfl rfl rfl
    · exact h
  | write =>
    obtain ⟨-, hs⟩ := Option.ite_none_left_eq_some.mp hs
    split at hs
    · cases hs
    · rename_i l outbox ho
      obtain rfl := Option.some.inj hs
      refine h.same rfl rfl ?_ rfl rfl id
      show (s.serving.outbox ++ s.down).Perm (outbox ++ (s.down ++ [l]))
      rw [ho, ← List.append_assoc]
      exact (List.perm_append_singleton l (outbox ++ s.down)).symm
  | next =>
    dsimp only [Session.step] at hs
    split at hs
    · rename_i l down hd
      obtain rfl := Option.some.inj hs
      exact h.receive hd
    · obtain ⟨hc, hs⟩ := Option.ite_none_right_eq_some.mp hs
      obtain rfl := Option.some.inj hs
      refine ⟨?_, h.own, h.held, h.lines, fun p hp => ?_⟩
      · refine h.once.trans (.of_eq ?_)
        unfold underway
        rw [giveBack_received]
      · rcases giveBack_returned hp with hp | ⟨id, -, rfl⟩
        · exact (h.returned p hp).more (fun hc => hc) ⟨[], (List.append_nil _).symm⟩
        · exact .inl ⟨hc, rfl⟩
  | close =>
    obtain rfl := Option.some.inj hs
    exact h.same rfl rfl (.refl _) rfl rfl (fun _ => rfl)

structure Numbered (c : Client) : Prop where
  ids : c.sent.map Asked.id = (List.range c.sent.length).map (fun k => UInt64.ofNat (k + 1))
  next : c.nextId = UInt64.ofNat (c.sent.length + 1)
  waits : ∀ id, c.waiting = some id → id ∈ c.sent.map Asked.id
  returned : ∀ p ∈ c.returned, p.1 ∈ c.sent.map Asked.id
  once : c.sent.length < UInt64.size → (c.returned.map Prod.fst).Nodup ∧ ∀ id, c.waiting = some id →
    id ∉ c.returned.map Prod.fst

/-- The numbers of fewer than 2^64 requests are different. -/
theorem numbers_nodup {n : Nat} (h : n < UInt64.size) :
    ((List.range n).map (fun k => UInt64.ofNat (k + 1))).Nodup := by
  refine List.Nodup.map_on ?_ List.nodup_range
  intro i hi j hj he
  rw [List.mem_range] at hi hj
  have hn := congrArg UInt64.toNat he
  rw [UInt64.toNat_ofNat_of_lt' (by omega), UInt64.toNat_ofNat_of_lt' (by omega)] at hn
  omega

theorem fresh_number {n : Nat} (h : n + 1 < UInt64.size) :
    UInt64.ofNat (n + 1) ∉ (List.range n).map (fun k => UInt64.ofNat (k + 1)) := by
  intro hm
  obtain ⟨k, hk, he⟩ := List.mem_map.mp hm
  rw [List.mem_range] at hk
  have hn := congrArg UInt64.toNat he
  rw [UInt64.toNat_ofNat_of_lt' (by omega), UInt64.toNat_ofNat_of_lt' h] at hn
  omega

theorem numbered_start : Numbered {} where
  ids := rfl
  next := rfl
  waits := fun _ h => nomatch h
  returned := fun _ h => nomatch h
  once := fun _ => ⟨List.nodup_nil, fun _ h => nomatch h⟩

/-- A request is sent, and the call for it may wait. -/
theorem Numbered.sent {c d : Client} (h : Numbered c) (hs : d.sent = c.sent ++ [⟨c.nextId, a⟩])
    (hn : d.nextId = c.nextId + 1) (hw : d.waiting = none ∨ d.waiting = some c.nextId)
    (hr : d.returned = c.returned) : Numbered d := by
  have hlen : d.sent.length = c.sent.length + 1 := by
    rw [hs, List.length_append, List.length_singleton]
  have hids : d.sent.map Asked.id = c.sent.map Asked.id ++ [c.nextId] := by
    rw [hs, List.map_append]; rfl
  refine ⟨?_, ?_, ?_, ?_, ?_⟩
  · rw [hids, hlen, h.ids, h.next, List.range_succ, List.map_append]
    rfl
  · rw [hn, h.next, hlen, UInt64.ofNat_add (c.sent.length + 1) 1]
    rfl
  · intro id hid
    rcases hw with hw | hw
    · rw [hw] at hid
      cases hid
    · rw [hw] at hid
      obtain rfl := Option.some.inj hid
      rw [hids]
      exact List.mem_append_right _ (List.mem_singleton_self _)
  · intro p hp
    rw [hr] at hp
    rw [hids]
    exact List.mem_append_left _ (h.returned p hp)
  · intro hlt
    rw [hlen] at hlt
    refine ⟨by rw [hr]; exact (h.once (by omega)).1, fun id hid hm => ?_⟩
    rcases hw with hw | hw
    · rw [hw] at hid
      cases hid
    · rw [hw] at hid
      obtain rfl := Option.some.inj hid
      rw [hr] at hm
      obtain ⟨p, hp, he⟩ := List.mem_map.mp hm
      have hin := h.returned p hp
      rw [he, h.ids, h.next] at hin
      exact fresh_number hlt hin

theorem Numbered.giveBack {c : Client} (h : Numbered c) (res : Except CtlError Json) :
    Numbered (c.giveBack res) := by
  unfold Client.giveBack
  split
  · rename_i id hid
    refine ⟨h.ids, h.next, (fun _ hw => nomatch hw), fun p hp => ?_,
      fun hlt => ⟨?_, (fun _ hw => nomatch hw)⟩⟩
    · rcases List.mem_append.mp hp with hp | hp
      · exact h.returned p hp
      · obtain rfl := List.mem_singleton.mp hp
        exact h.waits id hid
    · show ((c.returned ++ [(id, res)]).map Prod.fst).Nodup
      rw [List.map_append, List.map_singleton]
      obtain ⟨hnodup, hnot⟩ := h.once hlt
      refine List.nodup_append.mpr ⟨hnodup, List.nodup_singleton _, fun x hx y hy he => ?_⟩
      have hx' : x = id := he.trans (List.mem_singleton.mp hy)
      rw [hx'] at hx
      exact hnot id hid hx
  · exact h

theorem Numbered.received {c : Client} (h : Numbered c) (ms : List Message) :
    Numbered { c with received := ms } :=
  ⟨h.ids, h.next, h.waits, h.returned, h.once⟩

theorem Numbered.onLine {c : Client} (h : Numbered c) (l : Json) :
    Numbered (c.onLine serde.complaint l) := by
  unfold Client.onLine
  split
  · exact h.giveBack _
  · exact h.received _
  · dsimp only
    split
    · exact (h.received _).giveBack _
    · exact h.received _

theorem Numbered.step (h : Numbered s.client) (hs : s.step serde e = some t) :
    Numbered t.client := by
  cases e with
  | send c =>
    obtain rfl := Option.some.inj hs
    exact h.sent rfl rfl (.inl rfl) rfl
  | call c =>
    obtain rfl := Option.some.inj hs
    exact h.sent rfl rfl (.inr rfl) rfl
  | read =>
    obtain ⟨-, hs⟩ := Option.ite_none_left_eq_some.mp hs
    split at hs
    · cases hs
    · obtain rfl := Option.some.inj hs
      unfold Session.onLine
      dsimp only
      split
      · exact h
      · exact h
  | queue =>
    obtain ⟨-, hs⟩ := Option.ite_none_left_eq_some.mp hs
    obtain ⟨r, -, rfl⟩ := Option.map_eq_some_iff.mp hs
    exact h
  | take =>
    dsimp only [Session.step] at hs
    split at hs
    · cases hs
    · obtain rfl := Option.some.inj hs
      exact h
  | answer i res =>
    obtain ⟨a, -, rfl⟩ := Option.map_eq_some_iff.mp hs
    exact h
  | reply i =>
    obtain ⟨-, hs⟩ := Option.ite_none_left_eq_some.mp hs
    obtain ⟨r, -, rfl⟩ := Option.map_eq_some_iff.mp hs
    exact h
  | event m =>
    obtain ⟨-, hs⟩ := Option.ite_none_left_eq_some.mp hs
    obtain rfl := Option.some.inj hs
    split <;> exact h
  | write =>
    obtain ⟨-, hs⟩ := Option.ite_none_left_eq_some.mp hs
    split at hs
    · cases hs
    · obtain rfl := Option.some.inj hs
      exact h
  | next =>
    dsimp only [Session.step] at hs
    split at hs
    · obtain rfl := Option.some.inj hs
      exact h.onLine _
    · obtain ⟨-, hs⟩ := Option.ite_none_right_eq_some.mp hs
      obtain rfl := Option.some.inj hs
      exact h.giveBack _
  | close =>
    obtain rfl := Option.some.inj hs
    exact h

structure Good (serde : Serde) (s : Session) : Prop where
  flow : ∃ read unread, Flow s read unread
  answers : Answers serde s
  numbered : Numbered s.client

theorem flow_start : Flow {} [] [] where
  sent := rfl
  up := rfl
  order := rfl
  shared := .refl _

theorem runs_good (h : Runs (Session.step serde) {} es s) : Good serde s := by
  refine h.invariant ⟨⟨[], [], flow_start⟩, answers_start, numbered_start⟩ ?_
  intro t e u hg _ hs
  obtain ⟨read, unread, hf⟩ := hg.flow
  exact ⟨hf.next hs, hg.answers.next hf hs, hg.numbered.step hs⟩

theorem lineId_line (l : List Asked) :
    (l.map line).flatMap (fun l => (lineId l).toList) = l.map Asked.id := by
  induction l with
  | nil => rfl
  | cons a l ih =>
    rw [List.map_cons, List.flatMap_cons, ih]
    rw [line, WireFormat.lineId_json]
    rfl

theorem Good.sent_nodup (h : Good serde s) (hn : s.client.sent.length < UInt64.size) :
    (s.client.sent.map Asked.id).Nodup := by
  rw [h.numbered.ids]
  exact numbers_nodup hn

/-- The daemon takes the commands of a connection in the order the client sent them. -/
theorem taken_in_order (h : Runs (Session.step serde) {} es s) :
    (s.taken ++ s.serving.queue) <+: s.client.sent.filter plain := by
  obtain ⟨read, unread, hf⟩ := (runs_good h).flow
  rw [hf.sent, List.filter_append, hf.order]
  exact List.prefix_append _ _

/-- A call that is answered before the request sent first, and after an event. -/
def answeredCall : List SessionStep :=
  [.send .tncModels, .call .status, .read, .read, .take, .take, .event ⟨VERSION, .lagged 3⟩,
    .answer 1 (some (.ok .null)), .answer 0 (some (.ok (.boolean true))), .reply 0, .reply 0,
      .write, .write, .write, .next, .next]

def plainSerde : Serde := ⟨fun _ => 40, fun _ => "unreadable"⟩

theorem taken_in_order_two :
    ∃ s, Runs (Session.step plainSerde) {} answeredCall s ∧ s.taken.map Asked.id = [1, 2] ∧
    (s.taken ++ s.serving.queue) <+: s.client.sent.filter plain := by
  have hrun : Runs (Session.step plainSerde) {} answeredCall _ := runs_of_foldlM rfl
  exact ⟨_, hrun, rfl, taken_in_order hrun⟩

/-- Each request of the client is at one place, and its answer is given once: it is not
read yet, queued for the daemon, worked on, or its one response is on the way or with the
client. -/
theorem each_request_once (h : Runs (Session.step serde) {} es s)
    (hn : s.client.sent.length < UInt64.size) : (s.client.sent.map Asked.id).Nodup ∧
    (s.client.sent.map Asked.id).Perm (s.up.flatMap (fun l => (lineId l).toList) ++
      (s.serving.queue ++ s.serving.working).map Asked.id ++ underway serde s) := by
  have hg := runs_good h
  obtain ⟨read, unread, hf⟩ := hg.flow
  refine ⟨hg.sent_nodup hn, ?_⟩
  have hread : (read.map Asked.id).Perm
      ((s.serving.queue ++ s.serving.working).map Asked.id ++ underway serde s) := by
    refine (hf.shared.map Asked.id).trans ?_
    rw [List.map_append, List.map_map]
    exact hg.answers.once.append_left _
  rw [hf.sent, hf.up, lineId_line, List.map_append, List.append_assoc]
  exact (hread.append_right _).trans List.perm_append_comm

theorem each_request_once_two : ∃ s, Runs (Session.step plainSerde) {} answeredCall s ∧
    s.client.received.flatMap answered = [2] ∧ (s.client.sent.map Asked.id).Nodup := by
  have hrun : Runs (Session.step plainSerde) {} answeredCall _ := runs_of_foldlM rfl
  exact ⟨_, hrun, rfl, (each_request_once hrun (by decide)).1⟩

/-- What a call returns is what the daemon answered to the request that this call sent, or
that the connection was closed; and it returns once. -/
theorem calls_answered (h : Runs (Session.step serde) {} es s)
    (hn : s.client.sent.length < UInt64.size) : (s.client.returned.map Prod.fst).Nodup ∧
    ∀ p ∈ s.client.returned, ∃ a ∈ s.client.sent,
      a.id = p.1 ∧ (∀ b ∈ s.client.sent, b.id = p.1 → b = a) ∧
      ((s.closed = true ∧ p.2 = .error .closed) ∨ ∃ r,
        (a, r) ∈ s.answers ∧ p.2 = result (WireFormat.seenResponse r)) := by
  have hg := runs_good h
  obtain ⟨read, unread, hf⟩ := hg.flow
  refine ⟨(hg.numbered.once hn).1, fun p hp => ?_⟩
  obtain ⟨a, ha, hid⟩ := List.mem_map.mp (hg.numbered.returned p hp)
  have honly : ∀ b ∈ s.client.sent, b.id = p.1 → b = a := by
    intro b hb he
    exact List.inj_on_of_nodup_map (hg.sent_nodup hn) hb ha (he.trans hid.symm)
  refine ⟨a, ha, hid, honly, ?_⟩
  rcases hg.answers.returned p hp with hc | ⟨b, r, hm, hb, hres⟩
  · exact .inl hc
  · have hsent : b ∈ s.client.sent := by
      rw [hf.sent]
      exact List.mem_append_left _
        (hf.shared.mem_iff.mpr (List.mem_append_right _ (List.mem_map_of_mem hm)))
    rw [honly b hsent hb] at hm
    exact .inr ⟨r, hm, hres⟩

theorem calls_answered_two : ∃ s, Runs (Session.step plainSerde) {} answeredCall s ∧
    s.client.returned.map Prod.fst = [2] ∧ (s.client.returned.map Prod.fst).Nodup := by
  have hrun : Runs (Session.step plainSerde) {} answeredCall _ := runs_of_foldlM rfl
  exact ⟨_, hrun, rfl, (calls_answered hrun (by decide)).1⟩

end KissTncBridge.Proofs.Calls
