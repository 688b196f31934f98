import NetEngine.Engine
import NetEngine.Proofs.Udp.Ephemeral

/-! # Fresh Ports Are Found

    Bindings and connections name six ports at most, and there are many more
    ephemeral ports than that.  So there is always a fresh one, it is found soon,
    and nearly all of them can be had one after the other before one comes twice.

    * **Named**: the ports that can be taken.
    * **Search**: one port, and what is left behind for the next one.
    * **Series**: one port after the other, with nothing else in between. -/

namespace NetEngine

open Udp.PortTable (ephemeral firstFree isTaken freeAhead)

namespace Engine

variable {L : Type} {e e' : Engine L} {p : UInt16} {n : Nat}

/-! ## Named -/

/-- The local ports that bindings and connections name, in use or not. -/
def namedPorts (e : Engine L) : List UInt16 :=
  e.ports.slots.toList.map (·.localPort) ++ Tcp.Role.all.map fun role => (e.tcp.conn role).localPort

theorem length_namedPorts_le (e : Engine L) : e.namedPorts.length ≤ 6 := by
  have hbindings : e.ports.slots.toList.length ≤ 4 := Slots.size_le _
  have hroles : Tcp.Role.all.length = 2 := rfl
  unfold namedPorts
  rw [List.length_append, List.length_map, List.length_map, hroles]
  omega

/-- A port that is not taken is named by no binding, and by no connection in use. -/
theorem isTaken_eq_false_iff : e.ports.isTaken e.tcp.portInUse p = false ↔
    (∀ b ∈ e.ports.slots.toList, b.localPort ≠ p) ∧
      ∀ role, (e.tcp.conn role).state ≠ .closed → (e.tcp.conn role).localPort ≠ p := by
  unfold isTaken Udp.PortTable.inUse Tcp.Machine.portInUse
  simp [Tcp.Role.mem_all]

theorem mem_namedPorts (taken : e.ports.isTaken e.tcp.portInUse p) : p ∈ e.namedPorts := by
  by_contra hunnamed
  unfold namedPorts at hunnamed
  rw [List.mem_append, not_or, List.mem_map, List.mem_map] at hunnamed
  have hfree : e.ports.isTaken e.tcp.portInUse p = false := by
    refine isTaken_eq_false_iff.mpr ⟨fun b hb h => hunnamed.1 ⟨b, hb, h⟩, fun role _ h => ?_⟩
    exact hunnamed.2 ⟨role, role.mem_all, h⟩
  rw [hfree] at taken
  cases taken

/-- Of the places in one round, six at most are not free. -/
theorem le_length_freeAhead (e : Engine L) (round : n ≤ Udp.ephemeralCount) :
    n ≤ (freeAhead (e.ports.isTaken e.tcp.portInUse) n e.ports.cursor).length + 6 :=
  Nat.le_trans (Udp.PortTable.le_length_freeAhead round fun _ => mem_namedPorts)
    (Nat.add_le_add_left (length_namedPorts_le e) _)

/-! ## Search -/

/-- **A search ends after seven ports**, however many it may try. -/
theorem firstFree_of_seven_le (e : Engine L) : ∃ d, ∀ tries, 7 ≤ tries →
    firstFree (e.ports.isTaken e.tcp.portInUse) tries e.ports.cursor = some d := by
  have hseven := le_length_freeAhead e (by decide : 7 ≤ Udp.ephemeralCount)
  have hsome : 0 < (freeAhead (e.ports.isTaken e.tcp.portInUse) 7 e.ports.cursor).length := by
    omega
  obtain ⟨d, found⟩ := Udp.PortTable.exists_firstFree hsome
  exact ⟨d, fun tries more => Udp.PortTable.firstFree_of_le found more⟩

theorem freshPort_eq_some_iff : e.freshPort = some (p, e') ↔
    ∃ d, firstFree (e.ports.isTaken e.tcp.portInUse) Udp.ephemeralCount e.ports.cursor = some d ∧
      p = ephemeral d ∧ e' = { e with ports := { e.ports with cursor := d + 1 } } := by
  unfold freshPort
  rw [Option.map_eq_some_iff]
  constructor
  · rintro ⟨⟨port, ports⟩, found, h⟩
    obtain ⟨d, hd, rfl, rfl⟩ := Udp.PortTable.freshPort_eq_some_iff.mp found
    cases h
    exact ⟨d, hd, rfl, rfl⟩
  · rintro ⟨d, hd, rfl, rfl⟩
    exact ⟨_, Udp.PortTable.freshPort_eq_some_iff.mpr ⟨d, hd, rfl, rfl⟩, rfl⟩

/-! ## Series -/

/-- Ask for `n` ports, one after the other. -/
def freshPorts : (n : Nat) → Engine L → Option (List UInt16 × Engine L)
  | 0, e => some ([], e)
  | n + 1, e => do
    let (port, e) ← e.freshPort
    let (ports, e) ← freshPorts n e
    return (port :: ports, e)

/-- Nothing but the table of ports has a part in it. -/
theorem freshPorts_eq_map (n : Nat) (e : Engine L) :
    e.freshPorts n = (Udp.PortTable.freshPorts e.tcp.portInUse n e.ports).map fun r =>
      (r.1, { e with ports := r.2 }) := by
  induction n generalizing e with
  | zero => rfl
  | succ n ih =>
    unfold freshPorts freshPort Udp.PortTable.freshPorts
    cases e.ports.freshPort e.tcp.portInUse with
    | none => rfl
    | some found =>
      obtain ⟨port, ports⟩ := found
      simp only [Option.map_some, Option.bind_eq_bind, Option.bind_some, ih]
      cases Udp.PortTable.freshPorts e.tcp.portInUse n ports <;> rfl

/-- An ephemeral port that nobody uses. -/
structure Fresh (e : Engine L) (p : UInt16) : Prop where
  ephemeral : 0xc080 ≤ p.toNat ∧ p.toNat ≤ 0xffff
  unbound : ∀ b ∈ e.ports.slots.toList, b.localPort ≠ p
  unconnected : ∀ role, (e.tcp.conn role).state ≠ .closed → (e.tcp.conn role).localPort ≠ p

theorem fresh_of_free {d : Fin Udp.ephemeralCount}
    (free : e.ports.isTaken e.tcp.portInUse (ephemeral d) = false) : e.Fresh (ephemeral d) where
  ephemeral := by
    have hd : d.val < 16256 := d.isLt
    rw [Udp.PortTable.toNat_ephemeral]
    omega
  unbound := (isTaken_eq_false_iff.mp free).1
  unconnected := (isTaken_eq_false_iff.mp free).2

/-- What can be relied on by who asks for ports. -/
structure HandsOutFresh (e : Engine L) : Prop where
  found : ∃ p e', e.freshPort = some (p, e')
  /-- The search is over after seven ports, even if it may go on as long as it likes. -/
  soon : ∃ d, ∀ tries, 7 ≤ tries →
    firstFree (e.ports.isTaken e.tcp.portInUse) tries e.ports.cursor = some d
  fresh : ∀ p e', e.freshPort = some (p, e') → e.Fresh p
  /-- The cursor is left behind the port, and at the first one behind the last. -/
  next : ∀ p e', e.freshPort = some (p, e') →
    (ephemeral e'.ports.cursor).toNat = if p.toNat = 0xffff then 0xc080 else p.toNat + 1
  inside : ∀ p e', e.freshPort = some (p, e') →
    0xc080 ≤ (ephemeral e'.ports.cursor).toNat ∧ (ephemeral e'.ports.cursor).toNat ≤ 0xffff
  /-- Nothing else is changed. -/
  rest : ∀ p e', e.freshPort = some (p, e') →
    e' = { e with ports := { e.ports with cursor := e'.ports.cursor } }
  /-- Ports that are asked for one after the other are all different. -/
  distinct : ∀ n ≤ 16250, ∃ ports e', e.freshPorts n = some (ports, e') ∧ ports.length = n ∧
    ports.Nodup ∧ ∀ p ∈ ports, e.Fresh p

/-- **Fresh ports are handed out**, in any state, and nearly all of them before one comes twice. -/
theorem hands_out_fresh (e : Engine L) : HandsOutFresh e := by
  obtain ⟨d, hsoon⟩ := firstFree_of_seven_le e
  have hfound : e.freshPort =
      some (ephemeral d, { e with ports := { e.ports with cursor := d + 1 } }) :=
    freshPort_eq_some_iff.mpr ⟨d, hsoon _ (by decide), rfl, rfl⟩
  constructor
  case found => exact ⟨_, _, hfound⟩
  case soon => exact ⟨d, hsoon⟩
  case fresh =>
    intro p e' h
    obtain ⟨d, hd, rfl, rfl⟩ := freshPort_eq_some_iff.mp h
    exact fresh_of_free (Udp.PortTable.free_of_firstFree hd)
  case next =>
    intro p e' h
    obtain ⟨d, hd, rfl, rfl⟩ := freshPort_eq_some_iff.mp h
    exact Udp.PortTable.ephemeral_succ d
  case inside =>
    intro p e' _
    have hcursor : e'.ports.cursor.val < 16256 := e'.ports.cursor.isLt
    rw [Udp.PortTable.toNat_ephemeral]
    omega
  case rest =>
    intro p e' h
    obtain ⟨d, hd, rfl, rfl⟩ := freshPort_eq_some_iff.mp h
    rfl
  case distinct =>
    intro n few
    let free := freeAhead (e.ports.isTaken e.tcp.portInUse) Udp.ephemeralCount e.ports.cursor
    -- One round has enough free places.
    have henough : n ≤ free.length := by
      have hround : 16256 ≤ free.length + 6 := le_length_freeAhead e (Nat.le_refl _)
      omega
    obtain ⟨cursor, hports⟩ := Udp.PortTable.freshPorts_eq (Nat.le_refl _) henough
    refine ⟨(free.take n).map ephemeral, { e with ports := { e.ports with cursor := cursor } },
      ?_, ?_, ?_, ?_⟩
    · rw [freshPorts_eq_map, hports]
      rfl
    · rw [List.length_map, List.length_take_of_le henough]
    · have hnodup : free.Nodup := (Udp.PortTable.nodup_ahead (Nat.le_refl _)).filter _
      exact (hnodup.sublist (List.take_sublist n free)).map Udp.PortTable.ephemeral_injective
    · intro p hp
      obtain ⟨d, hd, rfl⟩ := List.mem_map.mp hp
      have hfree := (List.mem_filter.mp (List.mem_of_mem_take hd)).2
      exact fresh_of_free (by simpa using hfree)

end Engine

end NetEngine
