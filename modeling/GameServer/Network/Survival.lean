import GameServer.Network.Lifetimes

/-! When the process survives. Where it does, the sessions that the tables know or a
player holds are those whose handshake has begun. -/

namespace GameServer

open Lib

theorem ConnectionPc.hasUser_of_started {pc : ConnectionPc} (h : pc.started = true) :
    pc.hasUser = true := by
  cases pc <;> first | rfl | cases h

theorem ConnectionPc.accepted_of_started {pc : ConnectionPc} (h : pc.started = true)
    (hne : pc ≠ .entering) : pc = .accepted := by
  cases pc <;> first | rfl | exact absurd rfl hne | cases h

namespace Lifetimes

/-! ### What a surviving run keeps -/

structure Inv (s : Lifetimes) : Prop where
  tables : s.server.TablesInv
  statistics : s.server.Inv
  running : s.server.update ≠ .crashed
  waiting : ∀ u, (s.connection u).started = false → (s.server.users u).pc = .addPlayer
  finished : ∀ u, s.connection u = .accepted → (s.server.users u).pc = .finished
  /-- the TCP thread is in one handshake at a time -/
  one : ∀ u v, s.connection u = .entering → s.connection v = .entering → u = v
  /-- `Close` comes after the handshake -/
  connected : ∀ u, (s.server.users u).pc ≠ .finished → (s.server.users u).connected = true
  /-- a session whose handshake is over is known to the server or to a player -/
  held : ∀ u, s.connection u = .accepted → s.server.Known u ∨ 0 < s.players u
  players : ∀ u, 0 < s.players u → (s.connection u).started = true
  reads : ∀ c, s.reads c = true → s.connection c = .accepted
  writes : ∀ c, 0 < s.writes c →
    s.connection c = .refusing ∨ s.connection c = .refused ∨ (s.connection c).started = true
  /-- the refusal is still being written -/
  refused : ∀ c, s.connection c = .refused → 0 < s.writes c
  /-- one accept is pending, that of the connection made last -/
  accepts : ∃ c, s.accepts = [c] ∧ s.next = c + 1 ∧ ∀ d, c ≤ d → s.connection d = .made

variable {s s' : Lifetimes}

namespace Inv

theorem started_of_known (hs : s.Inv) {u : SessionRef} (hu : s.server.Known u) :
    (s.connection u).started = true := by
  by_contra hno
  exact hs.tables.added hu (hs.waiting u (Bool.eq_false_iff.mpr hno))

theorem entering_of_underWay (hs : s.Inv) {u : SessionRef} (hu : s.server.UnderWay u) :
    s.connection u = .entering := by
  cases hpc : s.connection u with
  | entering => rfl
  | accepted => exact absurd (hs.finished u hpc) hu.2
  | made | connecting | abandoned | refusing | refused | dropped =>
    exact absurd (hs.waiting u (by rw [hpc]; rfl)) hu.1

/-- A session has its UDP connection from the end of its handshake on. -/
theorem client_iff (hs : s.Inv) {u : SessionRef} (hu : s.server.Listed u) :
    (s.server.users u).udpConnectionClient = none ↔ s.server.UnderWay u := by
  rw [← not_iff_not, ← ne_eq, hs.statistics.client, AsyncServer.UnderWay, not_and, not_not]
  exact ⟨fun h _ => h, fun h => h (hs.statistics.added u hu)⟩

theorem closesFinished (hs : s.Inv) : s.server.ClosesFinished := by
  intro u _ hclient
  by_contra hpc
  exact hpc ((hs.statistics.client u).mp (hclient (hs.connected u hpc)))

/-- The tables hold the sessions that they know, and no others. -/
theorem userHeld_iff (hs : s.Inv) (u : SessionRef) :
    s.UserHeld u ↔ (s.connection u).hasUser = true := by
  have hstarted : (s.connection u).started = true → (s.connection u).hasUser = true :=
    ConnectionPc.hasUser_of_started
  constructor
  · rintro (h | h | h | h | h | h | ⟨i, h⟩ | h | h)
    · rw [h]; rfl
    · rw [h]; rfl
    · rw [h]; rfl
    · rw [h]; rfl
    · exact hstarted (hs.started_of_known (.inr h))
    · exact hstarted (hs.started_of_known (.inl h))
    · exact hstarted (hs.started_of_known (hs.tables.owned i u h).2.1)
    · rw [hs.tables.listed] at h
      exact hstarted (hs.started_of_known (.inl (AsyncServer.mem_users h)))
    · exact hstarted (hs.players u h)
  · intro h
    cases hpc : s.connection u with
    | connecting => exact .inl hpc
    | entering => exact .inr (.inl hpc)
    | refusing => exact .inr (.inr (.inl hpc))
    | abandoned => exact .inr (.inr (.inr (.inl hpc)))
    | accepted =>
      rcases hs.held u hpc with (hu | hu) | hu
      · exact .inr (.inr (.inr (.inr (.inr (.inl hu)))))
      · exact .inr (.inr (.inr (.inr (.inl hu))))
      · exact .inr (.inr (.inr (.inr (.inr (.inr (.inr (.inr hu)))))))
    | made | refused | dropped =>
      rw [hpc] at h
      cases h

theorem connectionHeld_iff (hs : s.Inv) (c : SessionRef) :
    s.ConnectionHeld c ↔
      c ∈ s.accepts ∨ s.connection c = .refused ∨ (s.connection c).hasUser = true := by
  have huser := hs.userHeld_iff c
  constructor
  · rintro (h | h | h | h | h | h | h)
    · exact .inl h
    · exact .inr (.inr (by rw [h]; rfl))
    · exact .inr (.inr (by rw [h]; rfl))
    · exact .inr (.inr (by rw [h]; rfl))
    · exact .inr (.inr (by rw [hs.reads c h]; rfl))
    · rcases hs.writes c h with h | h | h
      · exact .inr (.inr (by rw [h]; rfl))
      · exact .inr (.inl h)
      · exact .inr (.inr (ConnectionPc.hasUser_of_started h))
    · exact .inr (.inr (huser.mp h))
  · rintro (h | h | h)
    · exact .inl h
    · exact .inr (.inr (.inr (.inr (.inr (.inl (hs.refused c h))))))
    · exact .inr (.inr (.inr (.inr (.inr (.inr (huser.mpr h))))))

theorem made_of_accepts (hs : s.Inv) {c : SessionRef} (hc : c ∈ s.accepts) :
    s.connection c = .made ∧ s.accepts = [c] ∧ s.next = c + 1 := by
  obtain ⟨d, haccepts, hnext, hmade⟩ := hs.accepts
  rw [haccepts] at hc
  rw [List.mem_singleton.mp hc]
  exact ⟨hmade d le_rfl, haccepts, hnext⟩

end Inv

/-- What a step may do to a connection without ending its life. -/
def Advances (pc pc' : ConnectionPc) : Prop :=
  pc'.hasUser = pc.hasUser ∧ (pc = .refused ↔ pc' = .refused) ∨
    pc = .made ∧ pc' = .connecting ∨ pc = .refusing ∧ pc' = .refused

/-- Where the invariant holds before and after a step, only a refusal takes a session
away, and that one has no `udp_connection`. -/
theorem not_terminates {e : Event} (hs : s.Inv) (hs' : s'.Inv) (hthrows : ¬ s.Throws e)
    (hadv : ∀ c, Advances (s.connection c) (s'.connection c))
    (haccepts : ∀ c ∈ s.accepts, c ∈ s'.accepts ∨ s'.connection c = .connecting) :
    ¬ Terminates s e s' := by
  rintro (h | h | ⟨u, hheld, hfree, hclient⟩ | ⟨c, hheld, hfree, -⟩)
  · exact hthrows h
  · exact hs'.running h
  · rw [hs.userHeld_iff] at hheld
    rw [hs'.userHeld_iff] at hfree
    rcases hadv u with ⟨hsame, -⟩ | ⟨hmade, -⟩ | ⟨hrefusing, -⟩
    · exact hfree (hsame.trans hheld)
    · rw [hmade] at hheld
      cases hheld
    · rw [hs.statistics.client, hs.waiting u (by rw [hrefusing]; rfl)] at hclient
      cases hclient
  · rw [hs.connectionHeld_iff] at hheld
    rw [hs'.connectionHeld_iff] at hfree
    obtain ⟨hnot, hnotRefused, hnotUser⟩ := by simpa only [not_or] using hfree
    rcases hheld with h | h | h
    · rcases haccepts c h with h | h
      · exact hnot h
      · exact hnotUser (by rw [h]; rfl)
    · rcases hadv c with ⟨-, hiff⟩ | ⟨hmade, -⟩ | ⟨-, hrefused⟩
      · exact hnotRefused (hiff.mp h)
      · rw [h] at hmade
        cases hmade
      · exact hnotRefused hrefused
    · rcases hadv c with ⟨hsame, -⟩ | ⟨-, hconnecting⟩ | ⟨-, hrefused⟩
      · exact hnotUser (hsame.trans h)
      · exact hnotUser (by rw [hconnecting]; rfl)
      · exact hnotRefused hrefused

theorem inv_init (h : s.Init) : s.Inv where
  tables := AsyncServer.tablesInv_init h.server
  statistics := AsyncServer.inv_init h.server.toInit
  running := by simp [h.server.update]
  waiting u _ := h.server.pc u
  finished u hu := by simp [h.connection] at hu
  one u v hu _ := by simp [h.connection] at hu
  connected u _ := h.connected u
  held u hu := by simp [h.connection] at hu
  players u hu := by simp [h.players] at hu
  reads c hc := by simp [h.reads] at hc
  writes c hc := by simp [h.writes] at hc
  refused c hc := by simp [h.connection] at hc
  accepts := ⟨0, h.accepts, h.next, fun d _ => h.connection d⟩

/-! ### The steps of the TCP thread -/

theorem setConnection_of_ne {c d : SessionRef} (pc : ConnectionPc) (h : d ≠ c) :
    (s.setConnection c pc).connection d = s.connection d :=
  Function.update_of_ne h ..

@[simp] theorem setConnection_self (c : SessionRef) (pc : ConnectionPc) :
    (s.setConnection c pc).connection c = pc :=
  Function.update_self ..

/-- What holds of the connection that moves on and of all others holds of all. -/
theorem forall_setConnection {c : SessionRef} {pc : ConnectionPc}
    {P : SessionRef → ConnectionPc → Prop} (hc : P c pc) (hs : ∀ u, u ≠ c → P u (s.connection u))
    (u : SessionRef) : P u ((s.setConnection c pc).connection u) :=
  (Function.forall_update_iff s.connection P).mpr ⟨hc, hs⟩ u

/-- A connection without a session goes on to something that is no session either, or to
the handshake of one. -/
theorem inv_moved {c next : SessionRef} {pc : ConnectionPc} {accepts : List SessionRef}
    (hs : s.Inv) (hold : (s.connection c).started = false) (hnew : pc ≠ .accepted)
    (hentering : pc = .entering → ∀ u, s.connection u ≠ .entering)
    (hwrites : 0 < s.writes c → pc = .refusing ∨ pc = .refused ∨ pc.started = true)
    (hrefused : pc = .refused → 0 < s.writes c)
    (haccepts : ∃ d, accepts = [d] ∧ next = d + 1 ∧
      ∀ x, d ≤ x → (s.setConnection c pc).connection x = .made) :
    Inv { s.setConnection c pc with accepts := accepts, next := next } := by
  have haccepted : s.connection c ≠ .accepted := by
    intro h
    rw [h] at hold
    cases hold
  have hnoPlayers : ¬ 0 < s.players c := by
    intro h
    rw [hs.players c h] at hold
    cases hold
  exact {
    tables := hs.tables
    statistics := hs.statistics
    running := hs.running
    connected := hs.connected
    accepts := haccepts
    waiting := forall_setConnection (P := fun u pc => pc.started = false →
        (s.server.users u).pc = .addPlayer)
      (fun _ => hs.waiting c hold) fun u _ => hs.waiting u
    finished := forall_setConnection (P := fun u pc => pc = .accepted →
        (s.server.users u).pc = .finished)
      (fun h => absurd h hnew) fun u _ => hs.finished u
    one := by
      intro u v hu hv
      dsimp only at hu hv
      rcases eq_or_ne u c with rfl | huc
      · rw [setConnection_self] at hu
        rcases eq_or_ne v u with rfl | hvc
        · rfl
        · rw [setConnection_of_ne pc hvc] at hv
          exact absurd hv (hentering hu v)
      · rw [setConnection_of_ne pc huc] at hu
        rcases eq_or_ne v c with rfl | hvc
        · rw [setConnection_self] at hv
          exact absurd hu (hentering hv u)
        · rw [setConnection_of_ne pc hvc] at hv
          exact hs.one u v hu hv
    held := forall_setConnection (P := fun u pc => pc = .accepted →
        s.server.Known u ∨ 0 < s.players u)
      (fun h => absurd h hnew) fun u _ => hs.held u
    players := forall_setConnection (P := fun u pc => 0 < s.players u → pc.started = true)
      (fun h => absurd h hnoPlayers) fun u _ => hs.players u
    reads := forall_setConnection (P := fun u pc => s.reads u = true → pc = .accepted)
      (fun h => absurd (hs.reads c h) haccepted) fun u _ => hs.reads u
    writes := forall_setConnection (P := fun u pc => 0 < s.writes u →
        pc = .refusing ∨ pc = .refused ∨ pc.started = true)
      hwrites fun u _ => hs.writes u
    refused := forall_setConnection (P := fun u pc => pc = .refused → 0 < s.writes u)
      hrefused fun u _ => hs.refused u }

/-- The connection was made for an accept that is over. -/
theorem accepts_setConnection {c : SessionRef} (pc : ConnectionPc) (hs : s.Inv)
    (hc : s.connection c ≠ .made) : ∃ d, s.accepts = [d] ∧ s.next = d + 1 ∧
      ∀ x, d ≤ x → (s.setConnection c pc).connection x = .made := by
  obtain ⟨d, haccepts, hnext, hmade⟩ := hs.accepts
  refine ⟨d, haccepts, hnext, fun x hx => ?_⟩
  have hxc : x ≠ c := by
    rintro rfl
    exact hc (hmade x hx)
  rw [setConnection_of_ne pc hxc]
  exact hmade x hx

theorem handleAccept_eq {c : SessionRef} (hs : s.Inv) (hc : c ∈ s.accepts) (result : AcceptResult) :
    s.handleAccept c result = { s.setConnection c result.connection with
      accepts := [c + 1], next := c + 1 + 1 } := by
  obtain ⟨-, haccepts, hnext⟩ := hs.made_of_accepts hc
  unfold handleAccept startAccept setConnection
  rw [haccepts, hnext, List.erase_cons_head, List.nil_append]

theorem inv_accept {c : SessionRef} (hs : s.Inv) (hc : c ∈ s.accepts) :
    (s.handleAccept c .connected).Inv := by
  obtain ⟨d, haccepts, -, hmade⟩ := hs.accepts
  have hcd : c = d := by
    rw [haccepts] at hc
    exact List.mem_singleton.mp hc
  subst hcd
  have hcmade := hmade c le_rfl
  rw [handleAccept_eq hs hc]
  refine inv_moved hs (by rw [hcmade]; rfl) nofun nofun (fun hw => ?_) nofun
    ⟨c + 1, rfl, rfl, fun x hx => ?_⟩
  · have hpc := hs.writes c hw
    simp [hcmade, ConnectionPc.started] at hpc
  · rw [setConnection_of_ne _ (Nat.ne_of_gt hx)]
    exact hmade x (Nat.le_of_succ_le hx)

/-- `Handle_Initial_Connect` comes to its first decision. -/
theorem inv_initialConnect {c : SessionRef} {pc : ConnectionPc} (hs : s.Inv) (hidle : s.Idle)
    (hpc : s.connection c = .connecting) (hnew : pc ≠ .accepted) (hnot : pc ≠ .refused) :
    (s.setConnection c pc).Inv := by
  refine inv_moved hs (by rw [hpc]; rfl) hnew (fun _ u => (hidle u).1) (fun hw => ?_)
    (fun h => absurd h hnot) (accepts_setConnection _ hs (by simp [hpc]))
  have hwpc := hs.writes c hw
  simp [hpc, ConnectionPc.started] at hwpc

/-- The next statement of the handshake. -/
theorem inv_connect {c : SessionRef} {udpId port : UInt16} {t : AsyncServer} (hs : s.Inv)
    (hpc : s.connection c = .entering) (h : s.server.connectStep c udpId port = some t) :
    Inv { s with server := t } := by
  have hframe := AsyncServer.connectStep_frame h
  have hone : ∀ v, s.server.UnderWay v → v = c := fun v hv =>
    hs.one v c (hs.entering_of_underWay hv) hpc
  have hne : ∀ u, s.connection u ≠ .entering → u ≠ c := by
    rintro u hu rfl
    exact hu hpc
  refine { hs with
    tables := AsyncServer.tablesInv_connectStep hs.tables hone h
    statistics := AsyncServer.inv_connectStep hs.statistics h
    running := by rw [hframe.update]; exact hs.running
    waiting := fun u hu => ?_, finished := fun u hu => ?_, connected := fun u hu => ?_
    held := fun u hu => (hs.held u hu).imp_left hframe.known }
  · have huc : u ≠ c := hne u fun hent => by simp [hent, ConnectionPc.started] at hu
    dsimp only
    rw [hframe.users u huc]
    exact hs.waiting u hu
  · have huc : u ≠ c := hne u fun hent => nomatch hent.symm.trans hu
    dsimp only
    rw [hframe.users u huc]
    exact hs.finished u hu
  · rcases eq_or_ne u c with rfl | huc
    · refine hframe.connected.trans (hs.connected u fun hdone => ?_)
      unfold AsyncServer.connectStep at h
      rw [hdone] at h
      cases h
    · dsimp only at hu ⊢
      rw [hframe.users u huc] at hu ⊢
      exact hs.connected u hu

/-- `tmp_socket_ref` is cleared when the session is known, or a player has it. -/
theorem inv_entered {c : SessionRef} (hs : s.Inv) (hC : s.Survives (.entered c))
    (hpc : s.connection c = .entering) (hdone : (s.server.users c).pc = .finished) :
    Inv { s.setConnection c .accepted with reads := Function.update s.reads c true } where
  tables := hs.tables
  statistics := hs.statistics
  running := hs.running
  connected := hs.connected
  accepts := accepts_setConnection _ hs (by simp [hpc])
  waiting := forall_setConnection (P := fun u pc => pc.started = false →
      (s.server.users u).pc = .addPlayer)
    nofun fun u _ => hs.waiting u
  finished := forall_setConnection (P := fun u pc => pc = .accepted →
      (s.server.users u).pc = .finished)
    (fun _ => hdone) fun u _ => hs.finished u
  one := by
    have hnot : ∀ u, (s.setConnection c .accepted).connection u ≠ .entering :=
      forall_setConnection (P := fun _ pc => pc ≠ .entering) nofun
        fun w hw hent => hw (hs.one w c hent hpc)
    exact fun u _ hu => absurd hu (hnot u)
  held := forall_setConnection (P := fun u pc => pc = .accepted →
      s.server.Known u ∨ 0 < s.players u)
    (fun _ => hC) fun u _ => hs.held u
  players := forall_setConnection (P := fun u pc => 0 < s.players u → pc.started = true)
    (fun _ => rfl) fun u _ => hs.players u
  reads := forall_setConnection (P := fun u pc => Function.update s.reads c true u = true →
      pc = .accepted)
    (fun _ => rfl) fun u hu h => hs.reads u (by rwa [Function.update_of_ne hu] at h)
  writes := forall_setConnection (P := fun u pc => 0 < s.writes u →
      pc = .refusing ∨ pc = .refused ∨ pc.started = true)
    (fun _ => .inr (.inr rfl)) fun u _ => hs.writes u
  refused := forall_setConnection (P := fun u pc => pc = .refused → 0 < s.writes u)
    nofun fun u _ => hs.refused u

/-- A session is closed after its handshake. -/
theorem inv_close {u : SessionRef} {t : AsyncServer} (hs : s.Inv) (h : s.server.close u = .ok t) :
    Inv { s with server := t } := by
  have hkeeps := AsyncServer.keeps_close h
  have hsame := AsyncServer.sameTables_close h
  refine { hs with
    tables := hsame.tablesInv hs.tables
    statistics := hkeeps.inv hs.statistics
    running := by rw [AsyncServer.close_update h]; exact hs.running
    waiting := fun v hv => (hkeeps.pc v).trans (hs.waiting v hv)
    finished := fun v hv => (hkeeps.pc v).trans (hs.finished v hv)
    connected := fun v hv => ?_
    held := fun v hv => (hs.held v hv).imp_left (hsame.known v).mpr }
  have hpc : (s.server.users v).pc ≠ .finished := fun hdone => hv ((hkeeps.pc v).trans hdone)
  rcases AsyncServer.close_connected h v with hc | hclient
  · exact hc.trans (hs.connected v hpc)
  · exact absurd ((hs.statistics.client v).mp hclient) hpc

theorem inv_readEnds {c : SessionRef} (hs : s.Inv) :
    Inv { s with reads := Function.update s.reads c false } := by
  refine { hs with reads := ?_ }
  exact (Function.forall_update_iff s.reads fun u read => read = true →
    s.connection u = .accepted).mpr ⟨nofun, fun u _ => hs.reads u⟩

/-- The count of the writes of a connection changes, and a refusal is written on. -/
theorem inv_writes {c : SessionRef} {n : ℕ} (hs : s.Inv)
    (hpc : s.connection c = .refusing ∨ s.connection c = .refused ∨
      (s.connection c).started = true)
    (hrefused : s.connection c = .refused → 0 < n) :
    Inv { s with writes := Function.update s.writes c n } := by
  refine { hs with writes := ?_, refused := ?_ }
  · exact (Function.forall_update_iff s.writes fun u n => 0 < n → s.connection u = .refusing ∨
      s.connection u = .refused ∨ (s.connection u).started = true).mpr
      ⟨fun _ => hpc, fun u _ => hs.writes u⟩
  · exact (Function.forall_update_iff s.writes fun u n => s.connection u = .refused → 0 < n).mpr
      ⟨hrefused, fun u _ => hs.refused u⟩

/-! ### The steps of the main thread -/

theorem inv_update {timedOut : Bool} {t : AsyncServer} (hs : s.Inv)
    (hC : s.Survives (.update timedOut)) (h : s.server.updateStep timedOut = some t) :
    Inv { s with server := t } := by
  have hkeeps := AsyncServer.keeps_updateStep h
  obtain ⟨hremoval, hread⟩ := hC
  refine { hs with
    tables := AsyncServer.tablesInv_updateStep hs.tables hs.closesFinished h
    statistics := hkeeps.inv hs.statistics
    waiting := fun u hu => (hkeeps.pc u).trans (hs.waiting u hu)
    finished := fun u hu => (hkeeps.pc u).trans (hs.finished u hu)
    running := fun hcrash => ?_, connected := fun u hu => ?_, held := fun u hu => ?_ }
  · obtain ⟨u, huses, hnone⟩ := (AsyncServer.updateStep_crashed h).mp hcrash
    have hway := (hs.client_iff (huses.listed)).mp hnone
    rcases huses with ⟨⟨hpc, user, rest, hq, hu⟩, -⟩ | ⟨rest, hpc⟩
    · exact (hremoval user rest u hpc hq hu).1 hway
    · exact hread u rest hpc hway
  · have hpc : (s.server.users u).pc ≠ .finished := fun hdone => hu ((hkeeps.pc u).trans hdone)
    rcases AsyncServer.updateStep_connected h u with hc | hclient
    · exact hc.trans (hs.connected u hpc)
    · exact absurd ((hs.statistics.client u).mp hclient) hpc
  · rcases hs.held u hu with hknown | hplayers
    · rcases AsyncServer.known_updateStep hs.tables h hknown with hknown | ⟨hpc, user, rest, hq, hlook⟩
      · exact .inl hknown
      · exact .inr ((hremoval user rest u hpc hq hlook).2.resolve_right
          fun hent => nomatch hent.symm.trans hu)
    · exact .inr hplayers

/-- The count of the players that have a session changes. -/
theorem inv_players {u : SessionRef} {n : ℕ} (hs : s.Inv)
    (hstarted : (s.connection u).started = true)
    (hheld : s.connection u = .accepted → s.server.Known u ∨ 0 < n) :
    Inv { s with players := Function.update s.players u n } := by
  refine { hs with held := ?_, players := ?_ }
  · exact (Function.forall_update_iff s.players fun v n => s.connection v = .accepted →
      s.server.Known v ∨ 0 < n).mpr ⟨hheld, fun v _ => hs.held v⟩
  · exact (Function.forall_update_iff s.players fun v n => 0 < n →
      (s.connection v).started = true).mpr ⟨fun _ => hstarted, fun v _ => hs.players v⟩

theorem inv_playerDrops {u : SessionRef} (hs : s.Inv) (hC : s.Survives (.playerDrops u))
    (hpos : 0 < s.players u) :
    Inv { s with players := Function.update s.players u (s.players u - 1) } := by
  refine inv_players hs (hs.players u hpos) fun haccepted => ?_
  by_cases hone : s.players u = 1
  · exact .inl ((hC hone).resolve_right fun hent => nomatch hent.symm.trans haccepted)
  · exact .inr (by omega)

/-- A step that survives keeps the invariant. -/
theorem inv_step {e : Event} (hs : s.Inv) (hC : s.Survives e) (h : Step s e s') : s'.Inv := by
  cases e with
  | accept c result =>
    obtain ⟨-, hc, rfl⟩ := h
    rw [show result = .connected from hC]
    exact inv_accept hs hc
  | initialConnect c frame =>
    obtain ⟨hidle, hpc, h⟩ := h
    cases frame with
    | lengthError =>
      subst h
      exact inv_initialConnect hs hidle hpc nofun nofun
    | bodyError => exact absurd rfl hC
    | message message =>
      subst h
      split_ifs
      · exact inv_initialConnect hs hidle hpc nofun nofun
      · exact inv_initialConnect hs hidle hpc nofun nofun
  | connect c udpId port taken =>
    obtain ⟨hpc, ⟨hfails, -⟩ | ⟨-, t, ht, rfl⟩⟩ := h
    · exact absurd hfails hC
    · exact inv_connect hs hpc ht
  | entered c =>
    obtain ⟨hpc, hdone, rfl⟩ := h
    exact inv_entered hs hC hpc hdone
  | refusedReturn c =>
    obtain ⟨hpc, rfl⟩ := h
    exact inv_moved hs (by rw [hpc]; rfl) nofun nofun (fun _ => .inr (.inl rfl)) (fun _ => hC)
      (accepts_setConnection _ hs (by simp [hpc]))
  | update timedOut =>
    obtain ⟨t, ht, rfl⟩ := h
    exact inv_update hs hC ht
  | removePlayer user =>
    subst h
    have hkeeps := AsyncServer.keeps_removePlayer s.server user
    exact { hs with
      tables := AsyncServer.tablesInv_removePlayer hs.tables user
      statistics := hkeeps.inv hs.statistics }
  | close u =>
    obtain ⟨-, -, t, ht, rfl⟩ := h
    exact inv_close hs ht
  | readEnds c =>
    obtain ⟨-, -, rfl⟩ := h
    exact inv_readEnds hs
  | writeStarts c =>
    obtain ⟨hpc, rfl⟩ := h
    exact inv_writes hs hpc fun _ => Nat.succ_pos _
  | writeEnds c =>
    obtain ⟨-, hpos, rfl⟩ := h
    exact inv_writes hs (hs.writes c hpos) fun hrefused => Nat.sub_pos_of_lt (hC hrefused)
  | playerTakes u =>
    obtain ⟨hlive, rfl⟩ := h
    exact inv_players hs (hs.started_of_known (.inl hlive)) fun _ => .inl (.inl hlive)
  | playerDrops u =>
    obtain ⟨hpos, rfl⟩ := h
    exact inv_playerDrops hs hC hpos

theorem advances_refl (pc : ConnectionPc) : Advances pc pc := .inl ⟨rfl, Iff.rfl⟩

theorem advances_setConnection {c : SessionRef} {pc : ConnectionPc}
    (h : Advances (s.connection c) pc) (d : SessionRef) :
    Advances (s.connection d) ((s.setConnection c pc).connection d) :=
  forall_setConnection (P := fun d pc => Advances (s.connection d) pc) h
    (fun _ _ => advances_refl _) d

/-- So it ends no life. -/
theorem not_terminates_of_survives {e : Event} (hs : s.Inv) (hC : s.Survives e)
    (h : Step s e s') : ¬ Terminates s e s' := by
  have hs' := inv_step hs hC h
  cases e with
  | accept c result =>
    obtain ⟨-, hc, rfl⟩ := h
    obtain rfl : result = .connected := hC
    obtain ⟨hmade, haccepts, -⟩ := hs.made_of_accepts hc
    refine not_terminates hs hs' id (fun d => ?_) fun d hd => .inr ?_
    · rw [handleAccept_eq hs hc]
      exact advances_setConnection (.inr (.inl ⟨hmade, rfl⟩)) d
    · rw [haccepts] at hd
      rw [List.mem_singleton.mp hd]
      exact setConnection_self c _
  | initialConnect c frame =>
    obtain ⟨-, hpc, h⟩ := h
    cases frame with
    | lengthError =>
      subst h
      refine not_terminates hs hs' id (advances_setConnection (.inl ?_)) fun _ hd => .inl hd
      simp [hpc, ConnectionPc.hasUser]
    | bodyError => exact absurd rfl hC
    | message message =>
      subst h
      refine not_terminates hs hs' id (advances_setConnection (.inl ?_)) fun _ hd => .inl hd
      split_ifs <;> simp [hpc, ConnectionPc.hasUser]
  | connect c udpId port taken =>
    obtain ⟨-, ⟨hfails, -⟩ | ⟨hbinds, t, -, rfl⟩⟩ := h
    · exact absurd hfails hC
    · exact not_terminates hs hs' hbinds (fun _ => advances_refl _) fun _ hd => .inl hd
  | entered c =>
    obtain ⟨hpc, -, rfl⟩ := h
    refine not_terminates hs hs' id (advances_setConnection (.inl ?_)) fun _ hd => .inl hd
    simp [hpc, ConnectionPc.hasUser]
  | refusedReturn c =>
    obtain ⟨hpc, rfl⟩ := h
    exact not_terminates hs hs' id (advances_setConnection (.inr (.inr ⟨hpc, rfl⟩)))
      fun _ hd => .inl hd
  | update timedOut =>
    obtain ⟨t, -, rfl⟩ := h
    exact not_terminates hs hs' id (fun _ => advances_refl _) fun _ hd => .inl hd
  | removePlayer user =>
    subst h
    exact not_terminates hs hs' id (fun _ => advances_refl _) fun _ hd => .inl hd
  | close u =>
    obtain ⟨-, -, t, -, rfl⟩ := h
    exact not_terminates hs hs' id (fun _ => advances_refl _) fun _ hd => .inl hd
  | readEnds c | writeEnds c =>
    obtain ⟨-, -, rfl⟩ := h
    exact not_terminates hs hs' id (fun _ => advances_refl _) fun _ hd => .inl hd
  | writeStarts c | playerTakes u | playerDrops u =>
    obtain ⟨-, rfl⟩ := h
    exact not_terminates hs hs' id (fun _ => advances_refl _) fun _ hd => .inl hd

/-! ### The steps that end the process -/

/-- A connection without a session has an unjoined thread. -/
theorem destroysConnection_of_free {c : SessionRef} (hs : s.Inv)
    (hpc : (s.connection c).started = false) (hserver : s'.server = s.server)
    (hheld : s.ConnectionHeld c) (hfree : ¬ s'.ConnectionHeld c) :
    ∃ c, DestroysConnection s s' c := by
  refine ⟨c, hheld, hfree, ?_⟩
  rw [hserver]
  refine hs.connected c ?_
  rw [hs.waiting c hpc]
  exact nofun

/-- A session that the tables have forgotten is held by players only. -/
theorem not_userHeld {u : SessionRef} (ht : s'.server.TablesInv)
    (hpc : (s'.connection u).hasUser = false ∨ s'.connection u = .accepted)
    (hknown : ¬ s'.server.Known u) (hplayers : s'.players u = 0) : ¬ s'.UserHeld u := by
  have hno : ∀ pc, s'.connection u = pc → pc.hasUser = true → pc ≠ .accepted → False := by
    rintro pc heq huser hne
    rcases hpc with h | h
    · rw [heq, huser] at h
      cases h
    · exact hne (heq.symm.trans h)
  rintro (h | h | h | h | h | h | ⟨i, h⟩ | h | h)
  · exact hno _ h rfl nofun
  · exact hno _ h rfl nofun
  · exact hno _ h rfl nofun
  · exact hno _ h rfl nofun
  · exact hknown (.inr h)
  · exact hknown (.inl h)
  · exact hknown (ht.owned i u h).2.1
  · rw [ht.listed] at h
    exact hknown (.inl (AsyncServer.mem_users h))
  · omega

/-- Nothing but its own handlers holds a connection that is no session. -/
theorem not_connectionHeld {c : SessionRef} (hs : s.Inv)
    (hpc : (s.connection c).started = false) (hserver : s'.server = s.server)
    (hplayers : s'.players = s.players) (hreads : s'.reads = s.reads) (hwrites : s'.writes c = 0)
    (haccepts : c ∉ s'.accepts) (hpc' : (s'.connection c).hasUser = false) :
    ¬ s'.ConnectionHeld c := by
  have hknown : ¬ s.server.Known c := by
    intro h
    rw [hs.started_of_known h] at hpc
    cases hpc
  have hnone : s.players c = 0 := by
    by_contra h
    rw [hs.players c (Nat.pos_of_ne_zero h)] at hpc
    cases hpc
  have huser : ¬ s'.UserHeld c := by
    refine not_userHeld (hserver ▸ hs.tables) (.inl hpc') ?_ ?_
    · rwa [hserver]
    · rwa [hplayers]
  rintro (h | h | h | h | h | h | h)
  · exact haccepts h
  · simp [h, ConnectionPc.hasUser] at hpc'
  · simp [h, ConnectionPc.hasUser] at hpc'
  · simp [h, ConnectionPc.hasUser] at hpc'
  · rw [hreads] at h
    rw [hs.reads c h] at hpc
    cases hpc
  · omega
  · exact huser h

theorem client_of_finished {u : SessionRef} (hs : s.Inv) (hpc : (s.server.users u).pc = .finished) :
    (s.server.users u).udpConnectionClient ≠ none :=
  (hs.statistics.client u).mpr hpc

/-- A removal that does not survive comes too early, or leaves the session to nobody. -/
theorem terminates_of_removal {timedOut : Bool} {t : AsyncServer} {u : SessionRef} (hs : s.Inv)
    (h : s.server.updateStep timedOut = some t) (hr : s.server.Removes u)
    (hC : ¬ (¬ s.server.UnderWay u ∧ (0 < s.players u ∨ s.connection u = .entering))) :
    Terminates s (.update timedOut) { s with server := t } := by
  have hr' := hr
  obtain ⟨-, user, rest, -, hu⟩ := hr'
  have hknown : s.server.Known u := .inl ⟨user, hu⟩
  by_cases hway : s.server.UnderWay u
  · refine .inr (.inl ((AsyncServer.updateStep_crashed h).mpr ⟨u, ?_, ?_⟩))
    · exact .inl ⟨hr, hs.connected u hway.2⟩
    · exact (hs.client_iff (.inr (.inl ⟨user, hu⟩))).mpr hway
  · obtain ⟨hnone, hent⟩ := not_or.mp fun hkept => hC ⟨hway, hkept⟩
    have hpc := ConnectionPc.accepted_of_started (hs.started_of_known hknown) hent
    have hclient := client_of_finished hs (hs.finished u hpc)
    refine .inr (.inr (.inl ⟨u, (hs.userHeld_iff u).mpr (by rw [hpc]; rfl), ?_, hclient⟩))
    exact not_userHeld (AsyncServer.tablesInv_updateStep hs.tables hs.closesFinished h) (.inr hpc)
      (AsyncServer.removes_updateStep hs.tables hr (fun _ => hclient) h)
      (Nat.eq_zero_of_not_pos hnone)

theorem terminates_of_not_survives {e : Event} (hs : s.Inv) (hC : ¬ s.Survives e)
    (h : Step s e s') : Terminates s e s' := by
  cases e with
  | accept c result =>
    obtain ⟨-, hc, rfl⟩ := h
    obtain ⟨hmade, -, -⟩ := hs.made_of_accepts hc
    have hpc : (s.connection c).started = false := by rw [hmade]; rfl
    cases result with
    | connected => exact absurd rfl hC
    | peerGone => exact .inl trivial
    | failed =>
      refine .inr (.inr (.inr (destroysConnection_of_free hs hpc rfl (.inl hc)
        (not_connectionHeld hs hpc rfl rfl rfl ?_ ?_ ?_))))
      · by_contra hw
        have hwpc := hs.writes c (Nat.pos_of_ne_zero hw)
        simp [hmade, ConnectionPc.started] at hwpc
      · rw [handleAccept_eq hs hc]
        simp
      · rw [handleAccept_eq hs hc]
        simp [AcceptResult.connection, ConnectionPc.hasUser]
  | initialConnect c frame =>
    have hbody : frame = .bodyError := not_not.mp hC
    rw [hbody]
    exact .inl trivial
  | connect c udpId port taken => exact .inl (not_not.mp hC)
  | entered c =>
    obtain ⟨hpc, hdone, rfl⟩ := h
    obtain ⟨hknown, hnone⟩ := not_or.mp hC
    refine .inr (.inr (.inl ⟨c, .inr (.inl hpc), ?_, client_of_finished hs hdone⟩))
    refine not_userHeld hs.tables (.inr ?_) hknown (Nat.eq_zero_of_not_pos hnone)
    exact setConnection_self c _
  | refusedReturn c =>
    obtain ⟨hpc, rfl⟩ := h
    have hnot : (s.connection c).started = false := by rw [hpc]; rfl
    refine .inr (.inr (.inr (destroysConnection_of_free hs hnot rfl (.inr (.inr (.inr (.inl hpc))))
      (not_connectionHeld hs hnot rfl rfl rfl (Nat.eq_zero_of_not_pos hC) ?_ ?_))))
    · intro hc
      have hmade := (hs.made_of_accepts hc).1
      simp [hpc] at hmade
    · rw [setConnection_self]
      rfl
  | writeEnds c =>
    obtain ⟨-, hpos, rfl⟩ := h
    obtain ⟨hpc, hlast⟩ := Classical.not_imp.mp hC
    have hnot : (s.connection c).started = false := by rw [hpc]; rfl
    have hheld : s.ConnectionHeld c := (hs.connectionHeld_iff c).mpr (.inr (.inl hpc))
    refine .inr (.inr (.inr (destroysConnection_of_free hs hnot rfl hheld
      (not_connectionHeld hs hnot rfl rfl rfl ?_ ?_ ?_))))
    · simp only [Function.update_self]
      omega
    · intro hc
      have hmade := (hs.made_of_accepts hc).1
      simp [hpc] at hmade
    · simp [hpc, ConnectionPc.hasUser]
  | update timedOut =>
    obtain ⟨t, ht, rfl⟩ := h
    rcases not_and_or.mp hC with hremoval | hread
    · simp only [not_forall] at hremoval
      obtain ⟨user, rest, u, hpc, hq, hu, hno⟩ := hremoval
      exact terminates_of_removal hs ht ⟨hpc, user, rest, hq, hu⟩ hno
    · simp only [not_forall, not_not] at hread
      obtain ⟨u, rest, hpc, hway⟩ := hread
      have huses : s.server.UsesClient u := .inr ⟨rest, hpc⟩
      refine .inr (.inl ((AsyncServer.updateStep_crashed ht).mpr ⟨u, huses, ?_⟩))
      exact (hs.client_iff (huses.listed)).mpr hway
  | playerDrops u =>
    obtain ⟨hpos, rfl⟩ := h
    obtain ⟨hone, hkept⟩ := Classical.not_imp.mp hC
    obtain ⟨hknown, hent⟩ := not_or.mp hkept
    have hpc := ConnectionPc.accepted_of_started (hs.players u hpos) hent
    refine .inr (.inr (.inl ⟨u, (hs.userHeld_iff u).mpr (by rw [hpc]; rfl), ?_,
      client_of_finished hs (hs.finished u hpc)⟩))
    refine not_userHeld hs.tables (.inr hpc) hknown ?_
    simp [hone]
  | removePlayer user | close u | readEnds c | writeStarts c | playerTakes u =>
    exact absurd trivial hC

/-- A run that survives keeps the invariant, and what follows from it. -/
theorem exec_survives_iff {P : Lifetimes → Prop} (hP : ∀ s, s.Inv → P s)
    {tr : List (Lifetimes × Event)} (h : system.Exec tr s) :
    ((∀ x ∈ visited tr s, P x) ∧ ∀ x ∈ steps tr s, ¬ Terminates x.1 x.2.1 x.2.2) ↔
      ∀ x ∈ tr, Survives x.1 x.2 := by
  rw [← forall_steps_iff Survives tr s]
  exact h.safe_steps_iff Inv P (fun s e s' => ¬ Terminates s e s') (fun s e _ => Survives s e)
    (fun _ => inv_init) hP (fun _ _ _ hs hC hst => inv_step hs hC hst)
    fun s e s' hs hst => ⟨fun hno => by_contra fun hC => hno (terminates_of_not_survives hs hC hst),
      fun hC => not_terminates_of_survives hs hC hst⟩

/-- The process survives a run exactly when every step finds what it needs: a client that
stays until its first frame is read, a free port, a handshake that is over before `Update`
uses its session, and someone who keeps the session that is given up. -/
theorem survives_iff (tr : List (Lifetimes × Event)) (s : Lifetimes) (h : system.Exec tr s) :
    (∀ x ∈ steps tr s, ¬ Terminates x.1 x.2.1 x.2.2) ↔ ∀ x ∈ tr, Survives x.1 x.2 := by
  rw [← exec_survives_iff (P := fun _ => True) (fun _ _ => trivial) h]
  exact ⟨fun hlives => ⟨fun _ _ => trivial, hlives⟩, fun hlives => hlives.2⟩

/-! ### A client that comes and leaves -/

def startState : Lifetimes :=
  ⟨AsyncServer.lettersServer, fun _ => .made, [0], 1, fun _ => false, fun _ => 0, fun _ => 0⟩

theorem startState_init : startState.Init :=
  ⟨AsyncServer.lettersServer_init, fun _ => rfl, fun _ => rfl, rfl, rfl, fun _ => rfl, fun _ => rfl,
    fun _ => rfl⟩

/-- The server after `n` statements of the handshake of session 0. -/
def handshakeServer : ℕ → AsyncServer
  | 0 => AsyncServer.lettersServer
  | n + 1 => ((handshakeServer n).connectStep 0 5 51000).getD (handshakeServer n)

theorem handshakeServer_step (n : ℕ) (hn : n < 5) :
    (handshakeServer n).connectStep 0 5 51000 = some (handshakeServer (n + 1)) := by
  interval_cases n <;> rfl

/-- No session has a UDP connection before the last statement. -/
theorem handshakeServer_free (n : ℕ) (hn : n < 5) (u : SessionRef) :
    ((handshakeServer n).users u).udpConnectionClient = none := by
  rcases eq_or_ne u 0 with rfl | hu
  · interval_cases n <;> rfl
  · induction n with
    | zero => rfl
    | succ n ih =>
      have hframe := AsyncServer.connectStep_frame (handshakeServer_step n (by omega))
      rw [hframe.users u hu]
      exact ih (by omega)

/-- The client has sent its first frame. -/
def enteringState (n : ℕ) : Lifetimes :=
  { (startState.handleAccept 0 .connected).setConnection 0 .entering with
    server := handshakeServer n }

theorem accepted_idle : (startState.handleAccept 0 .connected).Idle := by
  intro c
  rcases eq_or_ne c 0 with rfl | hc
  · exact ⟨nofun, nofun⟩
  · rw [show (startState.handleAccept 0 .connected).connection c = .made from
      Function.update_of_ne hc ..]
    exact ⟨nofun, nofun⟩

theorem enteringState_exec (n : ℕ) (hn : n ≤ 5) :
    ∃ tr, system.Exec tr (enteringState n) ∧ ∀ x ∈ tr, Survives x.1 x.2 := by
  induction n with
  | zero =>
    have h0 : system.Exec [] startState := .nil startState_init
    have h1 := h0.next (.accept 0 .connected) _
      ⟨fun _ => ⟨nofun, nofun⟩, List.mem_singleton.mpr rfl, rfl⟩
    have h2 := h1.next (.initialConnect 0 (.message [0xff, 0x01, 0x01])) _
      ⟨accepted_idle, rfl, rfl⟩
    refine ⟨_, h2, ?_⟩
    simp only [List.nil_append, List.cons_append, List.forall_mem_cons]
    exact ⟨rfl, nofun, List.forall_mem_nil _⟩
  | succ n ih =>
    obtain ⟨tr, h, hC⟩ := ih (by omega)
    have hbinds : ¬ (handshakeServer n).BindFails 0 51000 false := by
      rintro ⟨-, htaken | ⟨u, hu, -⟩⟩
      · cases htaken
      · rw [handshakeServer_free n (by omega)] at hu
        cases hu
    refine ⟨_, h.next (.connect 0 5 51000 false) _
      ⟨rfl, .inr ⟨hbinds, _, handshakeServer_step n (by omega), rfl⟩⟩, ?_⟩
    exact (forall_trace_snoc Survives tr _ _).mpr ⟨hC, hbinds⟩

def enteredState : Lifetimes :=
  { (enteringState 5).setConnection 0 .accepted with
    reads := Function.update (enteringState 5).reads 0 true }

theorem enteredState_exec : ∃ tr, system.Exec tr enteredState ∧ ∀ x ∈ tr, Survives x.1 x.2 := by
  obtain ⟨tr, h, hC⟩ := enteringState_exec 5 le_rfl
  refine ⟨_, h.next (.entered 0) enteredState ⟨rfl, rfl, rfl⟩, ?_⟩
  exact (forall_trace_snoc Survives tr _ _).mpr ⟨hC, .inl (.inr (List.mem_singleton.mpr rfl))⟩

/-- The removal of a session that no player holds ends the process. -/
theorem leaving_terminates : ∃ tr s, system.Exec tr s ∧ ¬ ∀ x ∈ steps tr s,
    ¬ Terminates x.1 x.2.1 x.2.2 := by
  obtain ⟨tr, h, -⟩ := enteredState_exec
  have h1 := h.next (.update false) _ ⟨_, rfl, rfl⟩
  have h2 := h1.next (.removePlayer (AsyncServer.letters 0)) _ rfl
  have h3 := h2.next (.update false) _ ⟨_, rfl, rfl⟩
  have h4 := h3.next (.update false) _ ⟨_, rfl, rfl⟩
  refine ⟨_, _, h4, fun hlives => ?_⟩
  have hall := (survives_iff _ _ h4).mp hlives
  have hlast := hall _ (List.mem_append_right _ List.mem_cons_self)
  have hkept := (hlast.1 _ _ 0 rfl rfl rfl).2
  exact absurd hkept (by decide)

/-! ### The sessions of a server that lives -/

/-- No session is gone that something refers to. -/
structure Kept (s : Lifetimes) : Prop where
  users : ∀ u, s.connection u = .accepted → s.UserHeld u
  /-- a reader locks its weak pointer, and closes the UDP connection -/
  reading : ∀ u, s.reads u = true →
    s.UserHeld u ∧ (s.server.users u).udpConnectionClient ≠ none
  /-- the loop of `Update` uses a session after it has popped the queue -/
  queued : ∀ u ∈ s.server.mQueueUserAdd, s.connection u = .entering ∨
    s.server.mUdpIdMap.lookup (s.server.users u).udpID = some u
  /-- what `Update` comes across has its UDP connection, or is still in its handshake -/
  listed : ∀ u, s.server.Listed u →
    (s.server.users u).udpConnectionClient ≠ none ∨ s.connection u = .entering
  /-- what the tables have forgotten a player holds -/
  forgotten : ∀ u, s.connection u = .accepted → ¬ s.server.Known u → 0 < s.players u
  accepting : s.accepts.length = 1

theorem Inv.kept (hs : s.Inv) : s.Kept := by
  refine ⟨fun u hu => ?_, fun u hu => ?_, fun u hu => ?_, fun u hu => ?_,
    fun u hu hknown => (hs.held u hu).resolve_left hknown, ?_⟩
  · rw [hs.userHeld_iff, hu]
    rfl
  · have hpc := hs.reads u hu
    refine ⟨?_, client_of_finished hs (hs.finished u hpc)⟩
    rw [hs.userHeld_iff, hpc]
    rfl
  · by_cases hpc : s.connection u = .entering
    · exact .inl hpc
    · have hknown : s.server.Known u := .inr hu
      have haccepted := ConnectionPc.accepted_of_started (hs.started_of_known hknown) hpc
      exact .inr (hs.tables.mapped (hs.finished u haccepted) hknown)
  · by_cases hclient : (s.server.users u).udpConnectionClient = none
    · exact .inr (hs.entering_of_underWay ((hs.client_iff hu).mp hclient))
    · exact .inl hclient
  · obtain ⟨c, haccepts, -⟩ := hs.accepts
    rw [haccepts]
    rfl

/-- As long as the process survives it frees no session whose handshake is over, and
goes on accepting. -/
theorem sessions_kept (tr : List (Lifetimes × Event)) (s : Lifetimes) (h : system.Exec tr s)
    (hlives : ∀ x ∈ steps tr s, ¬ Terminates x.1 x.2.1 x.2.2) : ∀ x ∈ visited tr s, x.Kept := by
  have hC := (exec_survives_iff (P := fun _ => True) (fun _ _ => trivial) h).mp
    ⟨fun _ _ => trivial, hlives⟩
  exact ((exec_survives_iff (fun _ => Inv.kept) h).mpr hC).1

/-- A client comes in, and nothing is lost in the states between. -/
theorem entered_kept : ∃ tr s, system.Exec tr s ∧ s.reads 0 = true ∧
    ∀ x ∈ visited tr s, x.Kept := by
  obtain ⟨tr, h, hC⟩ := enteredState_exec
  refine ⟨tr, _, h, rfl, sessions_kept tr _ h ?_⟩
  exact ((exec_survives_iff (P := fun _ => True) (fun _ _ => trivial) h).mpr hC).2

end Lifetimes

end GameServer
