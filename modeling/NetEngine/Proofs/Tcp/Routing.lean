import Mathlib.Data.List.Induction
import NetEngine.Proofs.Tcp.Tracking

/-! # Which Connection a Segment Reaches

    Two ports and a host, its **endpoints**, tell a connection from any other.
    A segment that **bears** those of a connection in use is one of its peer.

    * **Let through**: what is not for the server port, or bears the endpoints of
      the server, goes on to the connections, of which the client comes first.
    * **Collision**: an operation gives the connection of a role the endpoints
      that the other one has already.

    Nothing but a collision makes the endpoints of the connections the same. -/

namespace NetEngine.Tcp

/-! ## Endpoints -/

/-- What tells a connection from any other: our port, the port of the peer, and its host. -/
def Connection.endpoints (c : Connection) : UInt16 × UInt16 × Ipv4Address :=
  (c.localPort, c.remotePort, c.remoteAddr)

namespace Side

variable {role : Role} {heard : Option Segment} {x y : Side}

/-- A connection keeps its endpoints. -/
theorem endpoints_move {out : Option Outgoing} {given : Option Delivery}
    (h : Move role heard x out given y) : y.conn.endpoints = x.conn.endpoints := by
  cases h with
  | take s a arrived receives taken =>
    rw [Connection.conn_of_take taken]
    rfl
  | answerFin s a arrived open_ taken | endByFin s a arrived closing taken =>
    dsimp only
    rw [Connection.conn_of_take taken]
    rfl
  | _ => rfl

theorem endpoints_run {sent : List Outgoing} {handed : List Delivery}
    (h : Run role heard x sent handed y) : y.conn.endpoints = x.conn.endpoints :=
  h.preserves (fun move hx => (endpoints_move move).trans hx) rfl

/-- No run opens a connection. -/
theorem idle_of_run {sent : List Outgoing} {handed : List Delivery}
    (h : Run role heard x sent handed y) (idle : x.conn.state.isAging = false) :
    y.conn.state.isAging = false :=
  h.preserves idle_of_move idle

end Side

namespace Machine

variable {m : Machine} {role : Role} {s : Segment} {remote : Ipv4Address} {op : Operation}

/-- A segment from `remote` is one of the peer of a connection in use. -/
def Bears (m : Machine) (role : Role) (s : Segment) (remote : Ipv4Address) : Prop :=
  (m.conn role).state.isAging ∧ (m.conn role).owns s.dstPort s.srcPort remote

/-- A segment is not kept from the connections by the rules of the server port. -/
def LetsThrough (m : Machine) (s : Segment) (remote : Ipv4Address) : Prop :=
  s.dstPort ≠ m.policy.serverPort ∨ m.Bears .server s remote

theorem endpoints_of_bears (h : m.Bears role s remote) :
    (m.conn role).endpoints = (s.dstPort, s.srcPort, remote) := by
  have howns := h.2
  simp only [Connection.owns, Bool.and_eq_true, decide_eq_true_eq] at howns
  obtain ⟨⟨⟨-, hlocal⟩, hremote⟩, haddr⟩ := howns
  rw [Connection.endpoints, hlocal, hremote, haddr]

/-! ## Where a segment goes -/

/-- What is let through goes to the connection that it belongs to. -/
theorem receive_of_letsThrough (passes : m.LetsThrough s remote) :
    m.receive s remote = (m.mixIn s).receiveOwned s remote := by
  show (m.mixIn s).receiveMixed s remote = _
  unfold receiveMixed
  dsimp only
  rw [policy_mixIn, server_mixIn]
  rcases passes with hport | ⟨haging, howns⟩
  · rw [if_pos hport]
  · have haging' : m.server.state.isAging = true := haging
    have howns' : m.server.owns s.dstPort s.srcPort remote = true := howns
    simp [haging', howns']

/-- Of the connections that a segment may belong to, the client comes first. -/
theorem receiveOwned_of_owns_client (owns : m.client.owns s.dstPort s.srcPort remote) :
    m.receiveOwned s remote = m.receiveFor .client s := by
  have howner : m.owner? s remote = some .client := List.find?_cons_of_pos owns
  unfold receiveOwned
  rw [howner]

theorem receiveOwned_of_owns_server (owns : m.server.owns s.dstPort s.srcPort remote)
    (client : ¬ m.client.owns s.dstPort s.srcPort remote) :
    m.receiveOwned s remote = m.receiveFor .server s := by
  have howner : m.owner? s remote = some .server := by
    have hrest : [Role.server].find? (fun r => (m.conn r).owns s.dstPort s.srcPort remote) =
        some .server := List.find?_cons_of_pos owns
    rw [← hrest]
    exact List.find?_cons_of_neg client
  unfold receiveOwned
  rw [howner]

/-- The client never listens, so that a segment of its peer finds it in use. -/
theorem bears_client (agrees : Side.Agrees .client (m.side .client))
    (owns : m.client.owns s.dstPort s.srcPort remote) : m.Bears .client s remote := by
  refine ⟨?_, owns⟩
  have hentered : m.client.state.isEntered .client := agrees.entered
  have hopen : m.client.state ≠ .closed := by
    simp only [Connection.owns, Bool.and_eq_true, decide_eq_true_eq] at owns
    exact owns.1.1.1
  revert hentered hopen
  show _ → _ → m.client.state.isAging = true
  cases m.client.state <;> decide

/-- A segment of a peer that is let through is taken for its connection, or for the client if it is
one of the peer of the client as well. -/
theorem receive_of_bears (agrees : Side.Agrees .client (m.side .client))
    (bears : m.Bears role s remote) (passes : m.LetsThrough s remote) :
    ∃ first, m.receive s remote = (m.mixIn s).receiveFor first s ∧ m.Bears first s remote ∧
      (first = role ∨ first = .client) := by
  rw [receive_of_letsThrough passes]
  have hsame : (m.mixIn s).client = m.client := conn_mixIn m s .client
  by_cases hclient : m.client.owns s.dstPort s.srcPort remote
  · refine ⟨.client, receiveOwned_of_owns_client ?_, bears_client agrees hclient, .inr rfl⟩
    rw [hsame]
    exact hclient
  · refine ⟨role, ?_, bears, .inl rfl⟩
    cases role with
    | client => exact absurd bears.2 hclient
    | server =>
      apply receiveOwned_of_owns_server
      · rw [server_mixIn]
        exact bears.2
      · rw [hsame]
        exact hclient

/-- The rules of the server port have the last word on a segment that they do not let through: a
SYN opens a server that is not in use, and no other segment changes a connection. -/
theorem receive_of_kept (kept : ¬ m.LetsThrough s remote) :
    if m.server.state.isAging = false ∧ (s.flags.syn && !s.flags.ack) then
      m.receive s remote = (m.mixIn s).acceptSyn s remote
    else
      (m.receive s remote).concerned = false ∧ (m.receive s remote).delivery = .ok none ∧
        ∀ r, (m.receive s remote).machine.side r = m.side r := by
  obtain ⟨hport, hbears⟩ := not_or.mp kept
  have hresult : m.receive s remote = (m.mixIn s).receiveMixed s remote := rfl
  unfold receiveMixed at hresult
  simp only [policy_mixIn, server_mixIn] at hresult
  rw [if_neg hport] at hresult
  by_cases haging : m.server.state.isAging = true
  · -- The server is in use for another peer.
    have howns : ¬ m.server.owns s.dstPort s.srcPort remote := fun h => hbears ⟨haging, h⟩
    rw [haging, if_neg (by decide), if_neg howns] at hresult
    rw [if_neg (by simp [haging]), hresult]
    split
    · exact ⟨rfl, rfl, fun r => (side_congr rfl rfl rfl r).trans (side_mixIn m s r)⟩
    · exact ⟨rfl, rfl, side_mixIn m s⟩
  · have hidle := eq_false_of_ne_true haging
    rw [hidle, if_pos (by decide)] at hresult
    by_cases hopens : (s.flags.syn && !s.flags.ack) = true
    · rw [if_pos hopens] at hresult
      rw [if_pos ⟨hidle, hopens⟩]
      exact hresult
    · rw [if_neg hopens] at hresult
      rw [if_neg fun h => hopens h.2, hresult]
      exact ⟨rfl, rfl, side_mixIn m s⟩

/-! ## How endpoints come to be shared -/

/-- A connection comes to be in use by an operation that tells its endpoints: the application opens
it, or a SYN opens the server. -/
inductive Opens (role : Role) : Operation → UInt16 × UInt16 × Ipv4Address → Prop
  | connect (localPort remotePort : UInt16) (remote : Ipv4Address) :
      Opens role (.connect role localPort remotePort remote true) (localPort, remotePort, remote)
  | accept (s : Segment) (payload : Bytes) (remote : Ipv4Address) (server : role = .server)
      (opens : s.flags.syn && !s.flags.ack) :
      Opens role (.receive s payload remote) (s.dstPort, s.srcPort, remote)

/-- An operation opens one connection at most. -/
theorem Opens.role_unique {r : Role} {ends ends' : UInt16 × UInt16 × Ipv4Address}
    (h : Opens role op ends) (h' : Opens r op ends') : r = role := by
  cases h with
  | connect =>
    cases h'
    rfl
  | accept s payload remote server =>
    cases h' with
    | accept _ _ _ server' => exact server'.trans server.symm

/-- The application tells the endpoints of the connection that it opens. -/
theorem endpoints_connect {localPort remotePort : UInt16} {step : Tcp.Step}
    (h : m.connect role localPort remotePort remote = .ok step) :
    (step.machine.conn role).endpoints = (localPort, remotePort, remote) := by
  unfold connect at h
  dsimp only at h
  split at h
  · cases h
  · cases h
    rw [conn_track, conn_setConn_self]
    rfl

theorem opens_of_connect {r : Role} {localPort remotePort : UInt16} {sent : Bool}
    (idle : (m.conn role).state.isAging = false)
    (aging : ((m.after (.connect r localPort remotePort remote sent)).conn role).state.isAging) :
    Opens role (.connect r localPort remotePort remote sent)
      ((m.after (.connect r localPort remotePort remote sent)).conn role).endpoints := by
  have hkept {n : Machine} (h : n.side role = m.side role) (hn : (n.conn role).state.isAging) :
      False := by
    have hconn : n.conn role = m.conn role := congrArg Side.conn h
    rw [hconn, idle] at hn
    cases hn
  dsimp only [after] at aging ⊢
  by_cases hclosed : (m.conn r).state = .closed
  · obtain ⟨step, hstep, -, -, hother⟩ :=
      opens_connect localPort remotePort remote none hclosed
    rw [hstep] at aging ⊢
    dsimp only at aging ⊢
    by_cases hr : role = r
    · subst hr
      cases sent with
      | false =>
        -- The SYN has not been sent, and the connection is closed again.
        rw [if_neg (by decide)] at aging
        have hreset : ((step.machine.reset role).conn role).state = .closed :=
          congrArg (·.conn.state) (side_reset step.machine role)
        rw [hreset] at aging
        cases aging
      | true =>
        rw [if_pos rfl, endpoints_connect hstep]
        exact .connect localPort remotePort remote
    · -- The other connection stays as it is.
      exfalso
      cases sent
      · exact hkept ((side_reset_of_ne hr).trans (hother role hr)) aging
      · exact hkept (hother role hr) aging
  · have herror : m.connect r localPort remotePort remote = .error .illegal := if_pos hclosed
    rw [herror] at aging
    exact (hkept rfl aging).elim

theorem opens_of_receive {payload : Bytes} (idle : (m.conn role).state.isAging = false)
    (aging : ((m.after (.receive s payload remote)).conn role).state.isAging) :
    Opens role (.receive s payload remote)
      ((m.after (.receive s payload remote)).conn role).endpoints := by
  have hafter : m.after (.receive s payload remote) = (m.receive s remote).machine := rfl
  have hidle {n : Machine} {heard : Option Segment} {sent : List Outgoing}
      {handed : List Delivery} (moves : Side.Run role heard (m.side role) sent handed (n.side role))
      (hn : (n.conn role).state.isAging = true) : False := by
    have : (n.conn role).state.isAging = false := Side.idle_of_run moves idle
    rw [this] at hn
    cases hn
  rw [hafter] at aging ⊢
  rcases receive_cases m s remote with ⟨r, -, -, result⟩ | ⟨-, -, syn, result⟩ | ⟨-, sides, -⟩
  · rw [result] at aging
    have hacts := (reacts_receiveFor (m.mixIn s) r s).congr_left fun r => (side_mixIn m s r).symm
    exact (hidle (hacts.run role) aging).elim
  · rw [result] at aging ⊢
    cases role with
    | client =>
      have hclient : ((m.mixIn s).acceptSyn s remote).machine.conn .client = m.client := by
        unfold acceptSyn
        dsimp only
        rw [conn_track]
        exact conn_mixIn m s .client
      rw [hclient] at aging
      change m.client.state.isAging = false at idle
      rw [idle] at aging
      cases aging
    | server =>
      have hends : (((m.mixIn s).acceptSyn s remote).machine.conn .server).endpoints =
          (s.dstPort, s.srcPort, remote) := by
        unfold acceptSyn
        dsimp only
        rw [conn_track]
        rfl
      rw [hends]
      exact .accept s payload remote rfl syn
  · have hsame := sides role
    have hnil : Side.Run role none (m.side role) [] []
        ((m.receive s remote).machine.side role) := by
      rw [hsame]
      exact .nil _
    exact (hidle hnil aging).elim

/-- A connection that comes to be in use has been opened. -/
theorem opens_after (idle : (m.conn role).state.isAging = false)
    (aging : ((m.after op).conn role).state.isAging) :
    Opens role op ((m.after op).conn role).endpoints := by
  have hrun {heard : Option Segment} {sent : List Outgoing} {handed : List Delivery}
      (moves : Side.Run role heard (m.side role) sent handed ((m.after op).side role)) :
      Opens role op ((m.after op).conn role).endpoints := by
    have hidle : ((m.after op).conn role).state.isAging = false := Side.idle_of_run moves idle
    rw [hidle] at aging
    cases aging
  cases op with
  | connect r localPort remotePort remote sent => exact opens_of_connect idle aging
  | receive s payload remote => exact opens_of_receive idle aging
  | listen port =>
    -- A server that listens is not in use.
    exfalso
    dsimp only [after] at aging
    split at aging
    · rw [idle] at aging
      cases aging
    · rename_i m' h
      cases role with
      | client =>
        have hclient : m'.side .client = m.side .client := (opens_listen none h).2
        have hconn : m'.conn .client = m.conn .client := congrArg Side.conn hclient
        rw [hconn, idle] at aging
        cases aging
      | server =>
        unfold listen at h
        split at h <;> cases h
        cases aging
  | send r source tracked attempts => exact hrun (change_send m role r source tracked attempts)
  | close r => exact hrun ((acts_close m r none).run role)
  | abort r => exact hrun ((acts_abort m r none).run role)
  | tick => exact hrun (run_tick m role)
  | upkeep => exact hrun (run_upkeep m role)

/-! ### Collisions -/

/-- Both connections are in use, and nothing tells them apart. -/
def Shared (m : Machine) : Prop :=
  m.client.state.isAging ∧ m.server.state.isAging ∧ m.client.endpoints = m.server.endpoints

/-- An operation opens a connection with the endpoints of the other one, which is in use. -/
def Collides (m : Machine) (op : Operation) : Prop :=
  ∃ role other, other ≠ role ∧ (m.conn other).state.isAging ∧
    Opens role op (m.conn other).endpoints

/-- A connection in use that is in use after an operation as well keeps its endpoints. -/
theorem endpoints_after (aging : (m.conn role).state.isAging) :
    ((m.after op).conn role).endpoints = (m.conn role).endpoints :=
  Side.endpoints_run (run_after op aging)

theorem collides_of_opened {other : Role} (ne : other ≠ role)
    (idle : (m.conn role).state.isAging = false)
    (aging : ((m.after op).conn role).state.isAging)
    (agingOther : ((m.after op).conn other).state.isAging)
    (same : ((m.after op).conn role).endpoints = ((m.after op).conn other).endpoints) :
    m.Collides op := by
  have hopens := opens_after idle aging
  by_cases hother : (m.conn other).state.isAging = true
  · refine ⟨role, other, ne, hother, ?_⟩
    rw [← endpoints_after hother, ← same]
    exact hopens
  · -- An operation opens one connection only.
    have hopensOther := opens_after (eq_false_of_ne_true hother) agingOther
    exact absurd (hopens.role_unique hopensOther) ne

/-- What an operation makes of two connections that differ in their endpoints. -/
theorem shared_after (shared : (m.after op).Shared) : m.Shared ∨ m.Collides op := by
  obtain ⟨hclient, hserver, hsame⟩ := shared
  by_cases hc : (m.conn .client).state.isAging = true
  · by_cases hs : (m.conn .server).state.isAging = true
    · refine .inl ⟨hc, hs, ?_⟩
      have hends : ((m.after op).conn .client).endpoints = ((m.after op).conn .server).endpoints :=
        hsame
      rw [endpoints_after hc, endpoints_after hs] at hends
      exact hends
    · have hne : Role.client ≠ .server := by decide
      exact .inr (collides_of_opened hne (eq_false_of_ne_true hs) hserver hclient hsame.symm)
  · have hne : Role.server ≠ .client := by decide
    exact .inr (collides_of_opened hne (eq_false_of_ne_true hc) hclient hserver hsame)

/-- **Endpoints are shared only after a collision.** -/
theorem collided_of_shared {start : Machine} (distinct : ¬ start.Shared) (ops : List Operation)
    (shared : (start.run ops).Shared) :
    ∃ before op, before ++ [op] <+: ops ∧ (start.run before).Collides op := by
  induction ops using List.reverseRecOn with
  | nil => exact absurd shared distinct
  | append_singleton ops op ih =>
    rw [run_append] at shared
    rcases shared_after shared with hbefore | hcollides
    · obtain ⟨before, op', hprefix, hcollides⟩ := ih hbefore
      exact ⟨before, op', hprefix.trans (List.prefix_append _ _), hcollides⟩
    · exact ⟨ops, op, List.prefix_refl _, hcollides⟩

theorem not_shared_fresh (policy : Policy) (seed : UInt32) : ¬ (fresh policy seed).Shared := by
  rintro ⟨haging, -⟩
  cases haging

/-- A segment of the peers of two connections is one of two connections that share their
endpoints. -/
theorem shared_of_bears {other : Role} (ne : other ≠ role) (bears : m.Bears role s remote)
    (bearsOther : m.Bears other s remote) : m.Shared := by
  have hends := (endpoints_of_bears bears).trans (endpoints_of_bears bearsOther).symm
  cases role <;> cases other <;>
    first
    | exact absurd rfl ne
    | exact ⟨bears.1, bearsOther.1, hends⟩
    | exact ⟨bearsOther.1, bears.1, hends.symm⟩

end Machine

end NetEngine.Tcp
