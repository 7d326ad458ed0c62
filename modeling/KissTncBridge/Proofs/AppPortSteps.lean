import KissTncBridge.Supervisor.AppPorts

namespace KissTncBridge.Proofs.AppPortSteps
open Lib Conf Bridge Reconcile KissTncBridge.Port Supervisor Supervisor.AppPorts

variable {s s' : Sys} {net : IpNetLib}

theorem send_spec (h : s.send k ev = some s') :
    s.queue.length < APP_QUEUE ∧ s' = { s with queue := s.queue ++ [⟨k, ev⟩] } := by
  unfold Sys.send at h
  split at h
  · rename_i hl
    exact ⟨hl, (Option.some.inj h).symm⟩
  · cases h

theorem sendCmd_spec (h : s.sendCmd c = some s') :
    s.cmds.length < CMD_QUEUE ∧ s' = { s with cmds := s.cmds ++ [c] } := by
  unfold Sys.sendCmd at h
  split at h
  · rename_i hl
    exact ⟨hl, (Option.some.inj h).symm⟩
  · cases h

/-- What the bridge's task does in one step, with what made it possible. -/
inductive BridgeTurn (s : Sys) : BridgeStep → Sys → Prop where
  | takes : s.queue = m :: queue → s.run.step (.app now m.event) = some run →
      BridgeTurn s (.takes now) { s with run := run, queue := queue }
  | takesCmd : s.cmds = c :: cmds → s.run.step (.cmd now c) = some run →
      BridgeTurn s (.takesCmd now) { s with
        run := run
        cmds := cmds
        reload := if c = .snapshot ∧ s.reload = .asked then .answered s.run.snapshot s.seen
          else s.reload }
  | turn : (∀ now ev, e ≠ .app now ev) → (∀ now c, e ≠ .cmd now c) → s.run.step e = some run →
      BridgeTurn s (.turn e) { s with run := run }
  | frame : s.queue.length < APP_QUEUE →
      BridgeTurn s (.frame k sid f) { s with queue := s.queue ++ [⟨k, .frame sid f⟩] }
  | command : c ≠ .snapshot → s.cmds.length < CMD_QUEUE →
      BridgeTurn s (.command c) { s with cmds := s.cmds ++ [c] }

theorem bridge_turn (h : s.bridgeStep e = some s') : BridgeTurn s e s' := by
  cases e with
  | takes now =>
    simp only [Sys.bridgeStep] at h
    split at h
    · cases h
    · rename_i m queue hq
      obtain ⟨run, hr, rfl⟩ := Option.map_eq_some_iff.mp h
      exact .takes hq hr
  | takesCmd now =>
    simp only [Sys.bridgeStep] at h
    split at h
    · cases h
    · rename_i c cmds hq
      obtain ⟨run, hr, rfl⟩ := Option.map_eq_some_iff.mp h
      exact .takesCmd hq hr
  | turn e =>
    cases e with
    | app now ev => cases h
    | cmd now c => cases h
    | _ =>
      simp only [Sys.bridgeStep] at h
      obtain ⟨run, hr, rfl⟩ := Option.map_eq_some_iff.mp h
      exact .turn nofun nofun hr
  | frame k sid f =>
    obtain ⟨hl, rfl⟩ := send_spec h
    exact .frame hl
  | command c =>
    simp only [Sys.bridgeStep] at h
    split at h
    · cases h
    · rename_i hc
      obtain ⟨hl, rfl⟩ := sendCmd_spec h
      exact .command hc hl

inductive TcpTurn (net : IpNetLib) (s : Sys) : TcpStep → Sys → Prop where
  | starts {pid : String} {listen : Listen} : (∀ p ∈ s.tcp, p.portId = pid → p.shutdown = true) →
      TcpTurn net s (.starts pid listen announce live)
        { s with tcp := s.tcp ++ [⟨pid, listen, announce, live, 0, none, false⟩] }
  | stops {p : TcpServerPort} : s.tcp[server]? = some p →
      TcpTurn net s (.stops server) { s with tcp := s.tcp.set server { p with shutdown := true } }
  | accepts {p : TcpServerPort} : s.tcp[server]? = some p → p.taken = none →
      TcpTurn net s (.accepts server peer)
        { s with tcp := s.tcp.set server { p with taken := some (peer, p.live) } }
  | admits {p : TcpServerPort} : s.tcp[server]? = some p → p.taken = some (peer, live) →
      p.admits net peer live = true →
      TcpTurn net s (.admits server) { s with
        tcp := s.tcp.set server { p with taken := none, sessions := p.sessions + 1 }
        sessions := s.sessions ++ [⟨server, ⟨p.portId, .tcp peer⟩, .opening⟩] }
  | refuses {p : TcpServerPort} : s.tcp[server]? = some p → p.taken = some (peer, live) →
      p.admits net peer live = false →
      TcpTurn net s (.admits server) { s with tcp := s.tcp.set server { p with taken := none } }
  | opens {t : TcpSession} : s.sessions[task]? = some t → t.phase = .opening →
      s.queue.length < APP_QUEUE → TcpTurn net s (.opens task) { s with
        sessions := s.sessions.set task { t with phase := .serving }
        queue := s.queue ++ [⟨(Owner.tcp task).token,
          .sessionOpened t.id (.empty SESSION_QUEUE) (Owner.tcp task).token⟩] }
  | breaks {t : TcpSession} : s.sessions[task]? = some t → t.phase = .serving →
      TcpTurn net s
        (.breaks task) { s with sessions := s.sessions.set task { t with phase := .leaving } }
  | uncounts {t : TcpSession} {p : TcpServerPort} : s.sessions[task]? = some t →
      s.tcp[t.server]? = some p → t.phase = .leaving →
      TcpTurn net s (.uncounts task) { s with
        sessions := s.sessions.set task { t with phase := .closing }
        tcp := s.tcp.set t.server { p with sessions := p.sessions - 1 } }
  | closes {t : TcpSession} : s.sessions[task]? = some t → t.phase = .closing →
      s.queue.length < APP_QUEUE →
      TcpTurn net s (.closes task) { s with
        sessions := s.sessions.set task { t with phase := .done }
        queue := s.queue ++ [⟨(Owner.tcp task).token, .sessionClosed t.id⟩] }

theorem tcp_turn (h : s.tcpStep net e = some s') : TcpTurn net s e s' := by
  cases e with
  | starts pid listen announce live =>
    simp only [Sys.tcpStep] at h
    split at h
    · cases h
    · rename_i hn
      cases h
      refine .starts (fun p hp hid => ?_)
      cases hd : p.shutdown with
      | true => rfl
      | false => exact absurd (List.any_eq_true.mpr ⟨p, hp, by simp [hid, hd]⟩) hn
  | stops server =>
    obtain ⟨p, hp, h⟩ := Option.bind_eq_some_iff.mp h
    cases h
    exact .stops hp
  | accepts server peer =>
    obtain ⟨p, hp, h⟩ := Option.bind_eq_some_iff.mp h
    obtain ⟨p', hp', h⟩ := Option.bind_eq_some_iff.mp h
    cases h
    unfold TcpServerPort.accept at hp'
    split at hp'
    · cases hp'
    · rename_i hn
      cases hp'
      exact .accepts hp (by simpa using hn)
  | admits server =>
    obtain ⟨p, hp, h⟩ := Option.bind_eq_some_iff.mp h
    obtain ⟨⟨peer, live⟩, ht, h⟩ := Option.bind_eq_some_iff.mp h
    dsimp only at h
    split at h
    · rename_i ha
      cases h
      exact .admits hp ht ha
    · rename_i ha
      cases h
      exact .refuses hp ht (by simpa using ha)
  | opens task =>
    obtain ⟨t, ht, h⟩ := Option.bind_eq_some_iff.mp h
    split at h
    · rename_i hph
      obtain ⟨hl, rfl⟩ := send_spec h
      exact .opens ht hph hl
    · cases h
  | breaks task =>
    obtain ⟨t, ht, h⟩ := Option.bind_eq_some_iff.mp h
    split at h
    · rename_i hph
      cases h
      exact .breaks ht hph
    · cases h
  | uncounts task =>
    obtain ⟨t, ht, h⟩ := Option.bind_eq_some_iff.mp h
    obtain ⟨p, hp, h⟩ := Option.bind_eq_some_iff.mp h
    split at h
    · rename_i hph
      cases h
      exact .uncounts ht hp hph
    · cases h
  | closes task =>
    obtain ⟨t, ht, h⟩ := Option.bind_eq_some_iff.mp h
    split at h
    · rename_i hph
      obtain ⟨hl, rfl⟩ := send_spec h
      exact .closes ht hph hl
    · cases h

inductive BleTurn (s : Sys) : BleStep → Sys → Prop where
  | starts {pid : String} :
      BleTurn s (.starts pid limit) { s with ble := s.ble ++ [⟨pid, limit, ∅, 0, .waiting, false⟩] }
  | stops {p : BleServerPort} : s.ble[server]? = some p →
      BleTurn s (.stops server) { s with ble := s.ble.set server { p with shutdown := true } }
  | limits {p : BleServerPort} : s.ble[server]? = some p → p.doing = .waiting →
      BleTurn s (.limits server limit)
        { s with ble := s.ble.set server { p with maxClients := limit } }
  | attaches {p p' : BleServerPort} : s.ble[server]? = some p → p.attach addr = some p' →
      BleTurn s (.attaches server addr) { s with ble := s.ble.set server p' }
  | opens {p : BleServerPort} : s.ble[server]? = some p → p.doing = .opening addr generation →
      s.queue.length < APP_QUEUE →
      BleTurn s (.opens server) { s with
        ble := s.ble.set server { p with doing := .waiting }
        queue := s.queue ++ [⟨(Owner.ble server generation).token,
          .sessionOpened (p.sessionId addr) (.empty SESSION_QUEUE)
            (Owner.ble server generation).token⟩] }
  | reports {p p' : BleServerPort} : s.ble[server]? = some p → p.report addr generation = some p' →
      BleTurn s (.reports server addr generation) { s with ble := s.ble.set server p' }
  | closes {p : BleServerPort} : s.ble[server]? = some p → p.doing = .closing addr generation →
      s.queue.length < APP_QUEUE →
      BleTurn s (.closes server) { s with
        ble := s.ble.set server { p with doing := .waiting }
        queue := s.queue ++
          [⟨(Owner.ble server generation).token, .sessionClosed (p.sessionId addr)⟩] }
  | exits {p p' : BleServerPort} : s.ble[server]? = some p → p.exit = some p' →
      BleTurn s (.exits server) { s with ble := s.ble.set server p' }
  | leaves {p : BleServerPort} : s.ble[server]? = some p → p.doing = .leaving →
      p.clients.lookup addr = some generation → s.queue.length < APP_QUEUE →
      BleTurn s (.leaves server addr) { s with
        ble := s.ble.set server { p with clients := p.clients.erase addr }
        queue := s.queue ++
          [⟨(Owner.ble server generation).token, .sessionClosed (p.sessionId addr)⟩] }

theorem ble_turn (h : s.bleStep e = some s') : BleTurn s e s' := by
  cases e with
  | starts pid limit =>
    simp only [Sys.bleStep] at h
    split at h
    · cases h
    · cases h
      exact .starts
  | stops server =>
    obtain ⟨p, hp, h⟩ := Option.bind_eq_some_iff.mp h
    cases h
    exact .stops hp
  | limits server limit =>
    obtain ⟨p, hp, h⟩ := Option.bind_eq_some_iff.mp h
    split at h
    · rename_i hd
      cases h
      exact .limits hp hd
    · cases h
  | attaches server addr =>
    obtain ⟨p, hp, h⟩ := Option.bind_eq_some_iff.mp h
    obtain ⟨p', hp', h⟩ := Option.bind_eq_some_iff.mp h
    cases h
    exact .attaches hp hp'
  | opens server =>
    obtain ⟨p, hp, h⟩ := Option.bind_eq_some_iff.mp h
    split at h
    · rename_i addr generation hd
      obtain ⟨hl, rfl⟩ := send_spec h
      exact .opens hp hd hl
    · cases h
  | reports server addr generation =>
    obtain ⟨p, hp, h⟩ := Option.bind_eq_some_iff.mp h
    obtain ⟨p', hp', h⟩ := Option.bind_eq_some_iff.mp h
    cases h
    exact .reports hp hp'
  | closes server =>
    obtain ⟨p, hp, h⟩ := Option.bind_eq_some_iff.mp h
    split at h
    · rename_i addr generation hd
      obtain ⟨hl, rfl⟩ := send_spec h
      exact .closes hp hd hl
    · cases h
  | exits server =>
    obtain ⟨p, hp, h⟩ := Option.bind_eq_some_iff.mp h
    obtain ⟨p', hp', h⟩ := Option.bind_eq_some_iff.mp h
    cases h
    exact .exits hp hp'
  | leaves server addr =>
    obtain ⟨p, hp, h⟩ := Option.bind_eq_some_iff.mp h
    split at h
    · rename_i generation hd hg
      obtain ⟨hl, rfl⟩ := send_spec h
      exact .leaves hp hd hg hl
    · cases h

inductive ReloadTurn (net : IpNetLib) (s : Sys) : ReloadStep → Sys → Prop where
  | asks : s.reload = .idle → s.cmds.length < CMD_QUEUE →
      ReloadTurn net s .asks { s with reload := .asked, cmds := s.cmds ++ [.snapshot] }
  | plans {nps : List (Nat × Conf.Port)} : s.reload = .answered snap seen →
      (nps.map Prod.fst).Nodup → ReloadTurn net s (.plans nps)
        { s with reload := .applying seen [] (nps.filterMap (s.update net snap)) }
  | updates {u : Update} {p : TcpServerPort} : s.reload = .applying seen [] (u :: rest) →
      s.tcp[u.server]? = some p →
      ReloadTurn net s .updates { s with
        tcp := s.tcp.set u.server { p with live := u.live, announce := u.announce }
        reload := .applying seen u.kicks rest }
  | kicks : s.reload = .applying seen (sid :: kicks) rest → s.cmds.length < CMD_QUEUE →
      ReloadTurn net s .kicks { s with
        reload := .applying seen kicks rest
        cmds := s.cmds ++ [.kick sid] }
  | applied : s.reload = .applying seen [] [] → ReloadTurn net s .applied { s with reload := .idle }

theorem reload_turn (h : s.reloadStep net e = some s') : ReloadTurn net s e s' := by
  cases e with
  | asks =>
    simp only [Sys.reloadStep] at h
    split at h
    · rename_i hi
      obtain ⟨hl, rfl⟩ := sendCmd_spec h
      exact .asks hi hl
    · cases h
  | plans nps =>
    simp only [Sys.reloadStep] at h
    split at h
    · rename_i snap seen hr
      split at h
      · rename_i hn
        cases h
        exact .plans hr hn
      · cases h
    · cases h
  | updates =>
    simp only [Sys.reloadStep] at h
    split at h
    · rename_i seen u rest hr
      obtain ⟨p, hp, h⟩ := Option.bind_eq_some_iff.mp h
      cases h
      exact .updates hr hp
    · cases h
  | kicks =>
    simp only [Sys.reloadStep] at h
    split at h
    · rename_i seen sid kicks rest hr
      obtain ⟨hl, rfl⟩ := sendCmd_spec h
      exact .kicks hr hl
    · cases h
  | applied =>
    simp only [Sys.reloadStep] at h
    split at h
    · rename_i seen hr
      cases h
      exact .applied hr
    · cases h

end KissTncBridge.Proofs.AppPortSteps
