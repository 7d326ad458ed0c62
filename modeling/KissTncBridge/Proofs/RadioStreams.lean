import KissTncBridge.Bridge.Downlink
import KissTncBridge.Lib.Queues
import KissTncBridge.Proofs.AppStreams
import KissTncBridge.Proofs.StaleLinks

namespace KissTncBridge.Proofs.RadioStreams
open Bridge Conf Lib Kiss Wire Reassembly StaleLinks AppStreams Queues

variable {d d' : Downlink} {e : DownlinkEvent} {es : List DownlinkEvent}

def bytesFrom (link : Nat) : DownlinkEvent → List UInt8
  | .reads l data => if l = link then data else []
  | _ => []

def frameIn : Nat × TncEvent → Option (Nat × Frame)
  | (link, .frame _ f) => some (link, f)
  | (_, .closed ..) => none

def sentDown (d : Downlink) : DownlinkEvent → List (Nat × Frame)
  | .sends link =>
      (((d.readers.lookup link).bind LinkReader.next).bind (fun p => frameIn (link, p.1))).toList
  | _ => []

def takenDown (d : Downlink) : DownlinkEvent → List (Nat × Frame)
  | .takes _ => (d.links.queue.head?.bind frameIn).toList
  | _ => []

def queuedDown (d : Downlink) : List (Nat × Frame) := d.links.queue.filterMap frameIn

/-- A frame of a link as it is offered to a session, and whether the session's queue had
room for it. -/
structure Offer where
  link : Nat
  frame : Frame
  fits : Bool

/-- The frame that the bridge takes and doesn't ignore. -/
def heard (d : Downlink) : DownlinkEvent → Option (Nat × Frame)
  | .takes _ =>
    match d.links.queue.head? with
    | some (link, .frame generation f) =>
      if generation = d.links.run.generation then some (link, f) else none
    | _ => none
  | _ => none

def offered (d : Downlink) (p : Nat × Frame) : List (Nat × Offer) :=
  d.links.run.sessions.entries.map (fun s => (s.2.kick, ⟨p.1, p.2, (s.2.tx.trySend p.2).isSome⟩))

def offers (d : Downlink) (e : DownlinkEvent) : List (Nat × Offer) :=
  (heard d e).toList.flatMap (offered d)

def kept (os : List (Nat × Offer)) : List (Nat × Frame) :=
  os.filterMap (fun p => if p.2.fits then some (p.1, p.2.frame) else none)

def took (d : Downlink) : DownlinkEvent → List (Nat × Frame)
  | .turn (.sessionTakes sid) =>
    ((d.links.run.sessions.lookup sid).bind
      (fun s => s.tx.queue.head?.map (fun f => (s.kick, f)))).toList
  | .drains i => ((d.left[i]?).bind (fun p => p.2.head?.map (fun f => (p.1, f)))).toList
  | _ => []

theorem kept_append (a b : List (Nat × Offer)) : kept (a ++ b) = kept a ++ kept b :=
  List.filterMap_append ..

theorem under_kept (k : Nat) (os : List (Nat × Offer)) :
    under k (kept os) = ((under k os).filter Offer.fits).map Offer.frame := by
  induction os with
  | nil => rfl
  | cons p os ih =>
    rw [← List.singleton_append, kept_append, under_append, under_append, List.filter_append,
      List.map_append, ih]
    congr 1
    obtain ⟨j, o⟩ := p
    cases hf : o.fits with
    | true => by_cases hj : j = k <;> simp [kept, under_cons, hf, hj]
    | false => by_cases hj : j = k <;> simp [kept, under_cons, hf, hj]

inductive LinkAdvance : List UInt8 → List Frame → Option LinkReader → Option LinkReader → Prop where
  | same : LinkAdvance [] [] t t
  | starts : LinkAdvance [] [] none (some { generation := g })
  | reads : t.read data = some t' → LinkAdvance data [] (some t) (some t')
  | sends : t.reader.pending = f :: rest → t'.reader = { t.reader with pending := rest } →
      LinkAdvance [] [f] (some t) (some t')
  | aside : t'.reader = t.reader → LinkAdvance [] [] (some t) (some t')

def Stands (bytes : List UInt8) (frames : List Frame) : Option LinkReader → Prop
  | none => bytes = [] ∧ frames = []
  | some t => Reads bytes frames t.reader

theorem link_read {t t' : LinkReader} (h : Reads bytes frames t.reader)
    (hr : t.read data = some t') : Reads (bytes ++ data) frames t'.reader := by
  unfold LinkReader.read at hr
  split at hr
  · cases hr
  · rename_i hc
    have hp : t.reader.pending = [] := by
      simp only [not_or, not_not] at hc
      exact hc.2.1
    split at hr
    · rename_i hb
      obtain rfl := Option.some.inj hr
      exact h.overflows hp hb
    · rename_i hb
      obtain rfl := Option.some.inj hr
      exact h.fits hp hb

theorem Stands.advance (h : Stands bytes frames t) (ha : LinkAdvance b f t t') :
    Stands (bytes ++ b) (frames ++ f) t' := by
  cases ha with
  | same => simpa using h
  | starts =>
    obtain ⟨rfl, rfl⟩ := h
    exact new_reads MAX_FRAME_BYTES
  | reads hr =>
    rw [List.append_nil]
    exact link_read h hr
  | sends hp ht =>
    rw [List.append_nil, Stands, ht]
    exact Reads.sends h hp
  | aside ht =>
    rw [List.append_nil, List.append_nil, Stands, ht]
    exact h

theorem Stands.whole (h : Stands bytes frames t) : frames.Sublist (bounded FEND bytes) := by
  cases t with
  | none =>
    obtain ⟨-, rfl⟩ := h
    exact List.nil_sublist _
  | some t => exact Reads.whole h

def queues (d : Downlink) : Queues SessionId Frame where
  live := fun sid => (d.links.run.sessions.lookup sid).map (fun s => (s.kick, s.tx.queue))
  left := d.left
  opened := d.opened

@[simp] theorem queues_live (d : Downlink) (sid : SessionId) :
    (queues d).live sid = (d.links.run.sessions.lookup sid).map (fun s => (s.kick, s.tx.queue)) :=
  rfl

def Own (d : Downlink) : Prop :=
  ∀ a b s t, d.links.run.sessions.lookup a = some s → d.links.run.sessions.lookup b = some t →
    s.kick = t.kick → a = b

theorem own_of_fifo (h : Fifo added taken (queues d)) : Own d := by
  intro a b s t ha hb hk
  refine h.own a b s.kick s.tx.queue t.tx.queue ?_ ?_
  · simp [queues, ha]
  · simp [queues, hb, hk]

/-- What is offered under a session's token is offered to that session. -/
theorem offered_under (h : Own d) (hl : d.links.run.sessions.lookup sid = some s)
    (p : Nat × Frame) : under s.kick (offered d p) = [⟨p.1, p.2, (s.tx.trySend p.2).isSome⟩] := by
  have hmem : (⟨sid, s⟩ : Sigma fun _ : SessionId => Session) ∈ d.links.run.sessions.entries :=
    AList.mem_lookup_iff.mp hl
  have hone := under_filterMap (fun c : Sigma fun _ : SessionId => Session => c.2.kick)
    (fun c => some (⟨p.1, p.2, (c.2.tx.trySend p.2).isSome⟩ : Offer))
        d.links.run.sessions.nodupKeys.nodup hmem (by
      rintro ⟨sid', s'⟩ hm hk
      have hl' : d.links.run.sessions.lookup sid' = some s' := AList.mem_lookup_iff.mpr hm
      obtain rfl := h sid' sid s' s hl' hl hk
      rw [Option.some.inj (hl'.symm.trans hl)])
  simpa [offered] using hone

/-- A step that does nothing to the sessions' queues. -/
theorem same_queues (hs : ∀ sid, (queues d').live sid = (queues d).live sid) (hl : d'.left = d.left)
    (ho : d'.opened = d.opened) : (queues d).Step [] [] (queues d') := by
  have he : queues d' = queues d := Queues.ext (funext hs) hl ho
  rw [he]
  exact .same

theorem same_run (hr : d'.links.run = d.links.run) (hl : d'.left = d.left)
    (ho : d'.opened = d.opened) : (queues d).Step [] [] (queues d') :=
  same_queues (fun sid => by simp only [queues, hr]) hl ho

/-- A frame is offered to every registered session. -/
theorem heard_queues (h : Own d) (f : Frame) (link : Nat) (hs : ∀ sid,
      d'.links.run.sessions.lookup sid = (d.links.run.sessions.lookup sid).map (deliver f))
    (hl : d'.left = d.left) (ho : d'.opened = d.opened) :
    (queues d).Step (kept (offered d (link, f))) [] (queues d') := by
  have he : queues d' = (queues d).put (kept (offered d (link, f))) := by
    refine Queues.ext (funext (fun sid => ?_)) hl ho
    simp only [put, queues_live, hs sid]
    cases hx : d.links.run.sessions.lookup sid with
    | none => rfl
    | some s =>
      have hu : under s.kick (kept (offered d (link, f))) = if (s.tx.trySend f).isSome then [f]
          else [] := by
        rw [under_kept, offered_under h hx]
        cases (s.tx.trySend f).isSome <;> simp
      simp only [Option.map_some, deliver, hu]
      cases ht : s.tx.trySend f with
      | none => simp
      | some tx => simp [(Chan.trySend_some ht).1]
  rw [he]
  refine .puts ?_
  rintro ⟨k, g⟩ hm
  obtain ⟨⟨k', o⟩, ho, hk⟩ := List.mem_filterMap.mp hm
  obtain ⟨⟨sid, s⟩, hm, hs⟩ := List.mem_map.mp ho
  obtain ⟨rfl, -⟩ := Prod.mk.inj hs
  have hl' : d.links.run.sessions.lookup sid = some s := AList.mem_lookup_iff.mpr hm
  refine ⟨sid, s.tx.queue, ?_⟩
  split at hk
  · cases hk
    simp [queues, hl']
  · cases hk

theorem opened_queues (sid : SessionId) (token seq since cap : Nat) (alive : Bool)
    (hs : d'.links.run.sessions =
      d.links.run.sessions.insert sid ⟨⟨[], cap, alive⟩, token, seq, since⟩)
    (hk : token = d.opened + 1) (hl : d'.left = d.left ++ d.leaving sid) (ho : d'.opened = token) :
    (queues d).Step [] [] (queues d') := by
  have he : queues d' = ⟨Function.update (queues d).live sid (some ((queues d).opened + 1, [])),
      (queues d).left ++ ((queues d).live sid).toList, (queues d).opened + 1⟩ := by
    refine Queues.ext (funext (fun other => ?_)) hl (ho.trans hk)
    rw [queues_live, hs]
    dsimp only
    by_cases hn : other = sid
    · subst hn
      rw [AList.lookup_insert, Function.update_self, hk]
      rfl
    · rw [AList.lookup_insert_ne hn, Function.update_of_ne hn]
      rfl
  rw [he]
  exact .opens sid

theorem closed_queues (sid : SessionId)
    (hs : d'.links.run.sessions = d.links.run.sessions.erase sid)
    (hl : d'.left = d.left ++ d.leaving sid) (ho : d'.opened = d.opened) :
    (queues d).Step [] [] (queues d') := by
  have he : queues d' = ⟨Function.update (queues d).live sid none,
      (queues d).left ++ ((queues d).live sid).toList, (queues d).opened⟩ := by
    refine Queues.ext (funext (fun other => ?_)) hl ho
    rw [queues_live, hs]
    dsimp only
    by_cases hn : other = sid
    · subst hn
      rw [AList.lookup_erase, Function.update_self]
      rfl
    · rw [AList.lookup_erase_ne hn, Function.update_of_ne hn]
      rfl
  rw [he]
  exact .closes sid

theorem recv_some {c c' : Chan α} (h : c.recv = some (x, c')) : c.queue = x :: c'.queue := by
  unfold Chan.recv at h
  split at h
  · cases h
  · rename_i hq
    cases h
    exact hq

/-- A session's task takes a frame from its queue. -/
theorem takes_queues (hs : d.links.run.step (.sessionTakes sid) = some d'.links.run)
    (hl : d'.left = d.left) (ho : d'.opened = d.opened) :
    (queues d).Step [] (took d (.turn (.sessionTakes sid))) (queues d') := by
  simp only [Run.step, Option.bind_eq_bind, Option.bind_eq_some_iff] at hs
  obtain ⟨x, hx, ⟨f, tx⟩, hr, hs⟩ := hs
  have hrun := (Option.some.inj hs).symm
  have hf := recv_some hr
  have htook : took d (.turn (.sessionTakes sid)) = [(x.kick, f)] := by simp [took, hx, hf]
  have he : queues d' =
      { queues d with live := Function.update (queues d).live sid (some (x.kick, tx.queue)) } := by
    refine Queues.ext (funext (fun other => ?_)) hl ho
    rw [queues_live, hrun]
    dsimp only
    by_cases hn : other = sid
    · subst hn
      rw [lookup_replace_self _ (AList.lookup_isSome.mp (by rw [hx]; rfl)), Function.update_self]
      rfl
    · rw [lookup_replace_ne hn, Function.update_of_ne hn]
      rfl
  rw [he, htook]
  exact .takes (by rw [queues_live, hx, Option.map_some, hf])

/-- A turn of the bridge that opens and closes no session, and takes no frame. -/
theorem turn_queues {e : Event} (hc : SessionChange d.links.run d'.links.run e)
    (hl : d'.left = d.left)
    (ho : d'.opened = d.opened) (hopen : ∀ n sid tx kick, e ≠ .app n (.sessionOpened sid tx kick))
    (hclose : ∀ n sid, e ≠ .app n (.sessionClosed sid)) (htake : ∀ sid, e ≠ .sessionTakes sid) :
    (queues d).Step [] [] (queues d') := by
  refine same_queues (fun other => ?_) hl ho
  cases hc with
  | same hs => rw [queues_live, queues_live, hs]
  | opened => exact absurd rfl (hopen _ _ _ _)
  | closed => exact absurd rfl (hclose _ _)
  | takes => exact absurd rfl (htake _)
  | @gone sid s hx hs =>
    rw [queues_live, queues_live, hs]
    by_cases hn : other = sid
    · subst hn
      rw [lookup_replace_self _ (AList.lookup_isSome.mp (by rw [hx]; rfl)), hx]
      rfl
    · rw [lookup_replace_ne hn]

structure Steps (d : Downlink) (e : DownlinkEvent) (d' : Downlink) : Prop where
  tasks : ∀ link, LinkAdvance (bytesFrom link e) (under link (sentDown d e)) (d.readers.lookup link)
    (d'.readers.lookup link)
  queue : queuedDown d ++ sentDown d e = takenDown d e ++ queuedDown d'
  sessions : Own d → (queues d).Step (kept (offers d e)) (took d e) (queues d')

theorem replaced_reader {readers : AList (fun _ : Nat => LinkReader)} {t : LinkReader}
    (ht : readers.lookup l = some t) (link : Nat) :
    (readers.replace l t').lookup link = if l = link then some t' else readers.lookup link := by
  split
  · rename_i he
    subst he
    exact lookup_replace_self _ (AList.lookup_isSome.mp (by rw [ht]; rfl))
  · rename_i hne
    exact lookup_replace_ne (fun he => hne he.symm) _

/-- One task reads, fails or sends, and nothing else happens. -/
theorem task_steps {t : LinkReader} (ht : d.readers.lookup l = some t)
    (ha : LinkAdvance (bytesFrom l e) (under l (sentDown d e)) (some t) (some t'))
    (hb : ∀ link, l ≠ link → bytesFrom link e = [] ∧ under link (sentDown d e) = [])
    (hq : queuedDown d ++ sentDown d e = takenDown d e ++ queuedDown d')
    (hr : d'.readers = d.readers.replace l t')
    (hs : Own d → (queues d).Step (kept (offers d e)) (took d e) (queues d')) : Steps d e d' := by
  refine ⟨fun link => ?_, hq, hs⟩
  rw [hr, replaced_reader ht]
  split
  · rename_i he
    subst he
    rw [ht]
    exact ha
  · rename_i hne
    obtain ⟨hbytes, hframes⟩ := hb link hne
    rw [hbytes, hframes]
    exact .same

theorem next_cases {t t' : LinkReader} (h : t.next = some (ev, t')) :
    (∃ f rest, t.reader.pending = f :: rest ∧ ev = .frame t.generation f ∧
      t'.reader = { t.reader with pending := rest }) ∨
    ∃ err, ev = .closed t.generation err ∧ t'.reader = t.reader := by
  unfold LinkReader.next at h
  split at h
  · rename_i f rest hp
    obtain ⟨rfl, rfl⟩ := Prod.mk.inj (Option.some.inj h)
    exact .inl ⟨f, rest, hp, rfl, rfl⟩
  · rename_i err _ _
    split at h
    · cases h
    · obtain ⟨rfl, rfl⟩ := Prod.mk.inj (Option.some.inj h)
      exact .inr ⟨err, rfl, rfl⟩
  · cases h

theorem sends_steps (hs : d.step (.sends l) = some d') : Steps d (.sends l) d' := by
  simp only [Downlink.step, Option.bind_eq_bind, Option.bind_eq_some_iff] at hs
  obtain ⟨t, ht, ⟨ev, t'⟩, hnext, links, hsend, hs⟩ := hs
  obtain rfl := Option.some.inj hs
  obtain ⟨hrun, hqueue, -⟩ := send_step hsend
  have hsent : sentDown d (.sends l) = (frameIn (l, ev)).toList := by simp [sentDown, ht, hnext]
  have hqs : (queues d).Step [] []
      (queues { d with links := links, readers := d.readers.replace l t' }) :=
    same_run hrun rfl rfl
  have hq : queuedDown d ++ sentDown d (.sends l) =
      [] ++ queuedDown { d with links := links, readers := d.readers.replace l t' } := by
    rw [hsent, queuedDown, queuedDown, hqueue, List.filterMap_append, List.nil_append]
    cases hf : frameIn (l, ev) with
    | none => simp [hf]
    | some p => simp [hf]
  rcases next_cases hnext with ⟨f, rest, hp, rfl, hr⟩ | ⟨err, rfl, hr⟩
  · have hone : sentDown d (.sends l) = [(l, f)] := hsent
    refine task_steps ht ?_ (fun link hne => ⟨rfl, ?_⟩) hq rfl (fun _ => hqs)
    · rw [hone, under_cons_self]
      exact .sends hp hr
    · rw [hone, under_cons_ne hne]
      rfl
  · have hnone : sentDown d (.sends l) = [] := hsent
    refine task_steps ht ?_ (fun link _ => ⟨rfl, by rw [hnone]; rfl⟩) hq rfl (fun _ => hqs)
    rw [hnone]
    exact .aside hr

theorem turn_some {e : Event} (hs : d.step (.turn e) = some d') :
    ∃ links, d.links.step (.turn e) = some links ∧
    d' = { d with links := links } ∧ (∀ n sid tx kick, e ≠ .app n (.sessionOpened sid tx kick)) ∧
    ∀ n sid, e ≠ .app n (.sessionClosed sid) := by
  cases e with
  | app n ev =>
    cases ev with
    | sessionOpened => cases hs
    | sessionClosed => cases hs
    | frame =>
      simp only [Downlink.step, Option.map_eq_some_iff] at hs
      obtain ⟨links, hl, rfl⟩ := hs
      exact ⟨links, hl, rfl, (fun _ _ _ _ h => nomatch h), (fun _ _ h => nomatch h)⟩
  | _ =>
    simp only [Downlink.step, Option.map_eq_some_iff] at hs
    obtain ⟨links, hl, rfl⟩ := hs
    exact ⟨links, hl, rfl, (fun _ _ _ _ h => nomatch h), (fun _ _ h => nomatch h)⟩

theorem app_step {now : Now} {ev : AppEvent} {s s' : Links}
    (h : s.step (.turn (.app now ev)) = some s') :
    s'.run = s.run.onApp now ev ∧ s'.queue = s.queue := by
  obtain ⟨hr, hq, -⟩ := turn_step h
  simp only [Run.step] at hr
  split at hr
  · exact ⟨(Option.some.inj hr).symm, hq⟩
  · cases hr

/-- Steps that leave the readers and the queue of the links as they are. -/
theorem aside_steps (hb : ∀ link, bytesFrom link e = []) (hsent : sentDown d e = [])
    (htaken : takenDown d e = [])
    (hr : d'.readers = d.readers) (hq : d'.links.queue = d.links.queue)
    (hs : Own d → (queues d).Step (kept (offers d e)) (took d e) (queues d')) : Steps d e d' := by
  refine ⟨fun link => ?_, ?_, hs⟩
  · rw [hb, hsent, hr]
    exact .same
  · rw [hsent, htaken, queuedDown, queuedDown, hq, List.append_nil, List.nil_append]

theorem takes_steps (hs : d.step (.takes n) = some d') : Steps d (.takes n) d' := by
  obtain ⟨links, hl, rfl⟩ := Option.map_eq_some_iff.mp hs
  obtain ⟨l, ev, hq, hr⟩ := takes_step hl
  refine ⟨fun _ => .same, ?_, fun hown => ?_⟩
  · simp only [queuedDown, sentDown, takenDown, hq, List.append_nil, List.head?_cons,
      Option.bind_some, List.filterMap_cons]
    cases frameIn (l, ev) <;> rfl
  · cases ev with
    | closed g err =>
      have hnone : offers d (.takes n) = [] := by simp [offers, heard, hq]
      rw [hnone]
      refine same_queues (fun sid => ?_) rfl rfl
      rw [queues_live, queues_live]
      dsimp only
      rw [hr, onClosed_sessions]
    | frame g f =>
      by_cases hg : g = d.links.run.generation
      · have hone : offers d (.takes n) = offered d (l, f) := by simp [offers, heard, hq, hg]
        rw [hone]
        subst hg
        exact heard_queues hown f l (fun sid => by rw [hr]; exact (onTnc_frame f).2 sid) rfl rfl
      · have hnone : offers d (.takes n) = [] := by simp [offers, heard, hq, hg]
        rw [hnone]
        refine same_run ?_ rfl rfl
        dsimp only
        rw [hr]
        simp only [Run.onTnc, ne_eq, hg, not_false_eq_true, if_true]

theorem step_steps (hs : d.step e = some d') : Steps d e d' := by
  cases e with
  | spawns l g =>
    simp only [Downlink.step] at hs
    split at hs
    · rename_i hc
      obtain rfl := Option.some.inj hs
      refine ⟨fun link => ?_,
        by simp [queuedDown, sentDown, takenDown], fun _ => same_run rfl rfl rfl⟩
      dsimp only
      by_cases he : link = l
      · subst he
        rw [AList.lookup_insert, Option.isNone_iff_eq_none.mp hc.2]
        exact .starts
      · rw [AList.lookup_insert_ne he]
        exact .same
    · cases hs
  | reads l data =>
    simp only [Downlink.step, Option.bind_eq_bind, Option.bind_eq_some_iff] at hs
    obtain ⟨t, ht, t', hr, hs⟩ := hs
    obtain rfl := Option.some.inj hs
    refine task_steps ht ?_ (fun link hne => ⟨if_neg hne, rfl⟩)
      (by simp [queuedDown, sentDown, takenDown]) rfl
      (fun _ => same_run rfl rfl rfl)
    rw [bytesFrom, if_pos rfl]
    exact .reads hr
  | fails l why =>
    simp only [Downlink.step, Option.bind_eq_bind, Option.bind_eq_some_iff] at hs
    obtain ⟨t, ht, t', hr, hs⟩ := hs
    obtain rfl := Option.some.inj hs
    refine task_steps ht (.aside ?_) (fun link hne => ⟨rfl, rfl⟩)
      (by simp [queuedDown, sentDown, takenDown]) rfl
      (fun _ => same_run rfl rfl rfl)
    unfold LinkReader.fail at hr
    split at hr
    · cases hr
    · rw [← Option.some.inj hr]
  | sends l => exact sends_steps hs
  | writerFails l g err =>
    obtain ⟨links, hl, rfl⟩ := Option.map_eq_some_iff.mp hs
    obtain ⟨hrun, hqueue, -⟩ := send_step hl
    refine ⟨fun _ => .same, ?_, fun _ => same_run hrun rfl rfl⟩
    simp [queuedDown, sentDown, takenDown, hqueue, frameIn]
  | opens n sid =>
    obtain ⟨links, hl, rfl⟩ := Option.map_eq_some_iff.mp hs
    obtain ⟨hr, hq⟩ := app_step hl
    refine aside_steps (fun _ => rfl) rfl rfl rfl hq (fun _ => ?_)
    refine opened_queues sid (d.opened + 1) (d.links.run.nextSeq + 1) n.system
      KissTncBridge.Port.SESSION_QUEUE true ?_ rfl rfl rfl
    dsimp only
    rw [hr, opened_sessions]
    rfl
  | closes n sid =>
    obtain ⟨links, hl, rfl⟩ := Option.map_eq_some_iff.mp hs
    obtain ⟨hr, hq⟩ := app_step hl
    refine aside_steps (fun _ => rfl) rfl rfl rfl hq (fun _ => closed_queues sid ?_ rfl rfl)
    dsimp only
    rw [hr, closed_sessions]
  | drains i =>
    simp only [Downlink.step, Option.bind_eq_bind, Option.bind_eq_some_iff] at hs
    obtain ⟨⟨k, queue⟩, hi, hs⟩ := hs
    cases queue with
    | nil => cases hs
    | cons f rest =>
      obtain rfl := Option.some.inj hs
      have htook : took d (.drains i) = [(k, f)] := by simp [took, hi]
      refine aside_steps (fun _ => rfl) rfl rfl rfl rfl (fun _ => ?_)
      rw [htook]
      exact .drains hi
  | takes n => exact takes_steps hs
  | turn e =>
    obtain ⟨links, hl, rfl, hopen, hclose⟩ := turn_some hs
    obtain ⟨hr, hq, htnc⟩ := turn_step hl
    refine aside_steps (fun _ => rfl) rfl rfl rfl hq (fun _ => ?_)
    have hoffers : offers d (.turn e) = [] := rfl
    rw [hoffers]
    cases e with
    | sessionTakes sid => exact takes_queues hr rfl rfl
    | _ =>
      exact turn_queues (step_sessions hr (fun n g f => htnc n (.frame g f))) rfl rfl hopen hclose
        (fun _ h => nomatch h)

variable {bid : String} {c : Connector} {s : TncSettings} {now : Now} {start : Downlink}

def Offer.origin (o : Offer) : Nat × Frame := (o.link, o.frame)

theorem heard_taken (h : heard d e = some p) : takenDown d e = [p] := by
  unfold heard at h
  split at h
  · split at h
    · rename_i hq
      split at h
      · obtain rfl := Option.some.inj h
        simp [takenDown, hq, frameIn]
      · cases h
    · cases h
  · cases h

/-- A session is offered no frame but the one that was taken. -/
theorem offers_taken (hown : Own d) (k : Nat) :
    ((under k (offers d e)).map Offer.origin).Sublist (takenDown d e) := by
  cases hh : heard d e with
  | none =>
    have hnone : offers d e = [] := by simp [offers, hh]
    rw [hnone]
    exact List.nil_sublist _
  | some p =>
    have hone : offers d e = offered d p := by simp [offers, hh]
    rw [hone, heard_taken hh]
    by_cases hk : ∃ sid x, d.links.run.sessions.lookup sid = some x ∧ x.kick = k
    · obtain ⟨sid, x, hx, rfl⟩ := hk
      rw [offered_under hown hx]
      exact List.Sublist.refl _
    · have hnone : under k (offered d p) = [] := by
        refine under_none (fun q hq he => hk ?_)
        obtain ⟨⟨sid, x⟩, hm, rfl⟩ := List.mem_map.mp hq
        exact ⟨sid, x, AList.mem_lookup_iff.mpr hm, he⟩
      rw [hnone]
      exact List.nil_sublist _

structure Flows (start : Downlink) (es : List DownlinkEvent) (d : Downlink) : Prop where
  tasks : ∀ link,
    Stands (es.flatMap (bytesFrom link)) (under link (along Downlink.step sentDown start es))
    (d.readers.lookup link)
  queue : along Downlink.step sentDown start es = along Downlink.step takenDown start es ++
    queuedDown d
  sessions : Fifo (kept (along Downlink.step offers start es))
    (along Downlink.step took start es) (queues d)
  offers : ∀ k, ((under k (along Downlink.step offers start es)).map Offer.origin).Sublist
    (along Downlink.step takenDown start es)

theorem start_flows (bid : String) (c : Connector) (s : TncSettings) (now : Now) :
    Flows (Downlink.start bid c s now) [] (Downlink.start bid c s now) := by
  refine ⟨fun _ => ⟨rfl, rfl⟩, rfl, ?_, fun _ => List.nil_sublist _⟩
  have hnone : (Run.start bid c s now).sessions = ∅ := by
    unfold Run.start
    dsimp only
    split
    · exact (BridgeSteps.startConnect_keeps _).sessions
    · rfl
  have he : queues (Downlink.start bid c s now) = ⟨fun _ => none, [], 0⟩ := by
    refine Queues.ext (funext (fun sid => ?_)) rfl rfl
    show ((Run.start bid c s now).sessions.lookup sid).map _ = none
    rw [hnone]
    rfl
  rw [he]
  exact none_fifo

theorem Flows.next (h : Flows start es d) (hr : Runs Downlink.step start es d)
    (hs : d.step e = some d') : Flows start (es ++ [e]) d' := by
  have hstep := step_steps hs
  have hown := own_of_fifo h.sessions
  refine ⟨fun link => ?_, ?_, ?_, fun k => ?_⟩
  · rw [along_next hr hs, List.flatMap_append, List.flatMap_singleton, under_append]
    exact (h.tasks link).advance (hstep.tasks link)
  · rw [along_next hr hs, along_next hr hs, h.queue, List.append_assoc, hstep.queue,
      List.append_assoc]
  · rw [along_next hr hs, along_next hr hs, kept_append]
    exact h.sessions.step (hstep.sessions hown)
  · rw [along_next hr hs, along_next hr hs, under_append, List.map_append]
    exact (h.offers k).append (offers_taken hown k)

theorem run_flows (h : Runs Downlink.step (Downlink.start bid c s now) es d) :
    Flows (Downlink.start bid c s now) es d := by
  induction h with
  | start => exact start_flows bid c s now
  | next hr _ hs ih => exact ih.next hr hs

def offersTo (start : Downlink) (es : List DownlinkEvent) (k : Nat) : List Offer :=
  under k (along Downlink.step offers start es)

def gotBy (start : Downlink) (es : List DownlinkEvent) (k : Nat) : List Frame :=
  under k (along Downlink.step took start es)

theorem under_origin (link : Nat) (os : List Offer) :
    under link (os.map Offer.origin) = (os.filter (fun o => o.link = link)).map Offer.frame := by
  simp [under, Offer.origin, List.filter_map, Function.comp_def]
  rfl

theorem Flows.from_link (h : Flows start es d) (k link : Nat) :
    (((offersTo start es k).filter (fun o => o.link = link)).map Offer.frame).Sublist
      (bounded FEND (es.flatMap (bytesFrom link))) := by
  have htaken : (under link (along Downlink.step takenDown start es)).Sublist
      (under link (along Downlink.step sentDown start es)) := by
    rw [h.queue]
    exact under_sublist (List.sublist_append_left ..)
  rw [← under_origin]
  exact ((under_sublist (h.offers k)).trans htaken).trans (h.tasks link).whole

theorem flatten_pieces (mtu : Nat) (f : Frame) (peer : Peer) :
    (pieces mtu f peer).flatten = writeFrame f := by
  cases peer with
  | tcp _ => simp [pieces]
  | ble _ => simp [pieces]

/-- What an app is sent of the TNC's bytes. Every session is offered whole frames of the
links, those of one link in the order in which the TNC sent them and none twice, whatever
links come and go and however their bytes arrive. Its task takes those that its queue had
room for, in order and without a gap; and from the bytes that it sends, in whatever pieces,
the app reads just these frames. -/
theorem sessions_get_radio_frames
    (h : Runs Downlink.step (Downlink.start bid c s now) es d) (k : Nat) :
    (∀ link, (((offersTo (Downlink.start bid c s now) es k).filter (fun o => o.link = link)).map
      Offer.frame).Sublist (bounded FEND (es.flatMap (bytesFrom link)))) ∧
    gotBy (Downlink.start bid c s now) es k <+:
      ((offersTo (Downlink.start bid c s now) es k).filter Offer.fits).map Offer.frame ∧
    (∀ sid x, d.links.run.sessions.lookup sid = some x → x.kick = k →
      ((offersTo (Downlink.start bid c s now) es k).filter Offer.fits).map Offer.frame =
        gotBy (Downlink.start bid c s now) es k ++ x.tx.queue) ∧
    ∀ mtu peer, bounded FEND
      ((gotBy (Downlink.start bid c s now) es k).flatMap (fun f => (pieces mtu f peer).flatten)) =
      gotBy (Downlink.start bid c s now) es k := by
  have hflow := run_flows h
  have hprefix : gotBy (Downlink.start bid c s now) es k <+:
      ((offersTo (Downlink.start bid c s now) es k).filter Offer.fits).map Offer.frame := by
    rw [offersTo, ← under_kept]
    exact hflow.sessions.front k
  refine ⟨hflow.from_link k, hprefix, fun sid x hx hk => ?_, fun mtu peer => ?_⟩
  · rw [offersTo, ← under_kept]
    refine hflow.sessions.holds k x.tx.queue (.inl ⟨sid, ?_⟩)
    rw [queues_live, hx, Option.map_some, hk]
  · have hwhole : ∀ f ∈ gotBy (Downlink.start bid c s now) es k, f ≠ [] ∧ FEND ∉ f := by
      intro f hf
      obtain ⟨o, ho, rfl⟩ := List.mem_map.mp (List.IsPrefix.subset hprefix hf)
      have hmem := (hflow.from_link k o.link).subset
        (List.mem_map_of_mem (List.mem_filter.mpr ⟨(List.mem_filter.mp ho).1, by simp⟩))
      exact mem_bounded hmem
    simp only [flatten_pieces]
    exact bounded_wires _ hwhole

def sampleReception : List DownlinkEvent :=
  [.opens ⟨0, 0⟩ (BridgeSteps.sampleSession 40001), .turn (.link ⟨1, 1⟩ (.connected (.ok []))),
    .spawns 1 1,
   .reads 1 [0xC0, 0x00], .reads 1 [0x41, 0xC0], .sends 1, .takes ⟨2, 2⟩,
   .turn (.sessionTakes (BridgeSteps.sampleSession 40001))]

def sampleBridge : Downlink :=
  .start "ktbr0" (.tcp "tnc.local" 8001) BridgeSteps.sampleSettings ⟨0, 0⟩

theorem sessions_get_radio_frames_one :
    ∃ d, Runs Downlink.step sampleBridge sampleReception d ∧ gotBy sampleBridge sampleReception 1 =
      [[0x00, 0x41]] ∧
      bounded FEND ((gotBy sampleBridge sampleReception 1).flatMap
        (fun f => (pieces 3 f (.ble ⟨0⟩)).flatten)) = [[0x00, 0x41]] := by
  have h : Runs Downlink.step sampleBridge sampleReception _ := runs_of_foldlM rfl
  have hgot : gotBy sampleBridge sampleReception 1 = [[0x00, 0x41]] := by decide
  refine ⟨_, h, hgot, ?_⟩
  exact ((sessions_get_radio_frames h 1).2.2.2 3 (.ble ⟨0⟩)).trans hgot

end KissTncBridge.Proofs.RadioStreams
