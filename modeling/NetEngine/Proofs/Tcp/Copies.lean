import NetEngine.Proofs.Tcp.Header
import NetEngine.Proofs.Tcp.Refinement

/-! # Copies Have a Header

    A segment whose source was only lent is kept octet for octet and sent again as
    it is.  Nobody looks at the octets before, so that they have to be those of a
    segment: all that is kept has been made of one.

    * **Headed**: what is pending for a role has the octets of a header, or is
      built again.
    * **Sent**: whatever a step sends from such a state has a header. -/

namespace NetEngine.Tcp

/-! ## Segments with a header -/

/-- A copy is not shorter than a header.  What is built again gets one. -/
def Kept.HasHeader : Kept → Prop
  | .copy octets => headerLen ≤ octets.length
  | .generated _ _ _ _ | .control _ _ => True

/-- A segment has a header, as a new one always does. -/
def Outgoing.HasHeader : Outgoing → Prop
  | .fresh _ _ _ => True
  | .copy _ octets => headerLen ≤ octets.length

/-- A segment that is kept for a source has a header. -/
theorem Kept.hasHeader_ofSource (source : Source) (s : Segment) (offset : Nat) :
    (ofSource source s offset).HasHeader := by
  cases source with
  | generator g => trivial
  | lent d =>
    let payload := readInto (List.replicate s.payloadLen 0) (d.supply offset s.payloadLen).bytes
    have hheader : headerLen ≤ s.headerLen := s.headerLen_le
    show headerLen ≤ (s.encode ++ payload).length
    rw [List.length_append, Segment.length_encode]
    omega

/-- A segment that is built again has a header. -/
theorem Kept.hasHeader_rebuild {kept : Kept} (h : kept.HasHeader) (c : Connection) :
    (Machine.rebuild c kept).HasHeader := by
  cases kept with
  | copy octets => exact h
  | generated | control => trivial

namespace Side

variable {role : Role} {heard : Option Segment} {x y : Side}

/-- Whatever is pending has a header. -/
def Headed (p : Multiset Pending) : Prop := ∀ z ∈ p, z.kept.HasHeader

theorem headed_zero : Headed 0 := fun z hz => absurd hz (Multiset.notMem_zero z)

/-- A segment with a header is tracked, or finds no place. -/
theorem Headed.tracks {p p' : Multiset Pending} {z : Pending} (h : Headed p)
    (kept : z.kept.HasHeader) (tracked : Tracks z p p') : Headed p' := by
  rcases tracked with rfl | rfl
  · intro w hw
    rcases Multiset.mem_cons.mp hw with rfl | hmem
    · exact kept
    · exact h w hmem
  · exact h

/-- What has no payload is built again. -/
theorem Headed.tracks_control {p p' : Multiset Pending} {seq seq' : SeqNumber} {flags : Flags}
    (h : Headed p) (tracked : Tracks (.of seq 1 (.control seq' flags)) p p') : Headed p' :=
  h.tracks (z := .of seq 1 (.control seq' flags)) trivial tracked

/-- A move keeps to segments with a header, and sends no other ones. -/
theorem headed_of_move {out : Option Outgoing} {given : Option Delivery}
    (h : Move role heard x out given y) (hx : Headed x.pending) :
    Headed y.pending ∧ ∀ o ∈ out, o.HasHeader := by
  have hfresh {dst : Ipv4Address} {s : Segment} {body : Option Body} :
      ∀ o ∈ some (Outgoing.fresh dst s body), o.HasHeader := by
    rintro o ⟨⟩
    trivial
  have hnothing : ∀ o ∈ (none : Option Outgoing), o.HasHeader := by
    intro o ho
    cases ho
  cases h with
  | resend z mem =>
    refine ⟨hx, ?_⟩
    rintro o ⟨⟩
    exact Kept.hasHeader_rebuild (hx z mem) _
  | piece source offset len open_ tracked =>
    exact ⟨hx.tracks (Kept.hasHeader_ofSource source _ offset) tracked, hfresh⟩
  | finish next closes tracked => exact ⟨headed_zero.tracks_control tracked, hfresh⟩
  | answerFin s a arrived open_ taken fin tracked =>
    exact ⟨hx.tracks_control tracked, hfresh⟩
  | acknowledge s arrived ack later =>
    exact ⟨fun z hz => hx z (Multiset.mem_of_mem_filter hz), hnothing⟩
  | take s a arrived receives taken more =>
    refine ⟨hx, ?_⟩
    split
    · exact hfresh
    · exact hnothing
  | abort | answer | endByFin => exact ⟨headed_zero, hfresh⟩
  | forget | drop => exact ⟨headed_zero, hnothing⟩
  | age | complete | finAcked => exact ⟨hx, hnothing⟩

theorem headed_of_run {sent : List Outgoing} {handed : List Delivery}
    (h : Run role heard x sent handed y) (hx : Headed x.pending) :
    Headed y.pending ∧ ∀ o ∈ sent, o.HasHeader := by
  induction h with
  | nil => exact ⟨hx, fun o ho => absurd ho List.not_mem_nil⟩
  | cons move _ ih =>
    obtain ⟨hy, hout⟩ := headed_of_move move hx
    obtain ⟨hz, hsent⟩ := ih hy
    refine ⟨hz, fun o ho => ?_⟩
    rcases List.mem_append.mp ho with hfirst | hrest
    · exact hout o (Option.mem_toList.mp hfirst)
    · exact hsent o hrest

/-- A connection that is opened tracks its SYN. -/
theorem headed_of_opening {sent : List Outgoing} (h : Opening role heard x sent y)
    (hx : Headed x.pending) : Headed y.pending := by
  cases h with
  | connect localPort remotePort remote age closed tracked => exact hx.tracks_control tracked
  | refused => exact headed_zero
  | listen => exact hx
  | accept s remote seq age server idle arrived tracked =>
    exact headed_zero.tracks_control tracked

end Side

/-! ## The machine -/

namespace Machine

variable {m m' : Machine} {role : Role} {heard : Option Segment}

/-- What is pending on either side has a header. -/
def Headed (m : Machine) : Prop := ∀ role, Side.Headed (m.pool.pendingOf role)

theorem headed_fresh (policy : Policy) (seed : UInt32) : (fresh policy seed).Headed := by
  intro role
  have hpending : (fresh policy seed).pool.pendingOf role = 0 := Pool.pendingOf_empty role
  rw [hpending]
  exact Side.headed_zero

theorem Headed.after (h : m.Headed) (op : Operation) : (m.after op).Headed := by
  intro role
  rcases change_after m role op with ⟨opens, -⟩ | ⟨moves⟩
  · exact Side.headed_of_opening opens (h role)
  · exact (Side.headed_of_run moves (h role)).1

/-- **Whatever is tracked after a run has a header.** -/
theorem headed_run (policy : Policy) (seed : UInt32) (ops : List Operation) :
    ((fresh policy seed).run ops).Headed :=
  run_induction (P := Headed) (headed_fresh policy seed) (fun _ op h => h.after op) ops

theorem Headed.mixIn (h : m.Headed) (s : Segment) : (m.mixIn s).Headed := by
  intro role
  rw [pool_mixIn]
  exact h role

/-! ## What is sent -/

/-- What happens on one side sends segments with a header. -/
theorem headed_of_acts {sent : List Outgoing} {handed : List Delivery}
    (acts : Acts role heard m sent handed m') (h : m.Headed) :
    m'.Headed ∧ ∀ o ∈ sent, o.HasHeader := by
  obtain ⟨hown, hsent⟩ := Side.headed_of_run acts.own (h role)
  refine ⟨fun r => ?_, hsent⟩
  by_cases hr : r = role
  · rw [hr]
    exact hown
  · have hpending : m'.pool.pendingOf r = m.pool.pendingOf r :=
      congrArg Side.pending (acts.other r hr)
    rw [hpending]
    exact h r

/-- The segment of a step has a header if it is one of a run. -/
theorem hasHeader_of_acts {out : Option Outgoing} {handed : List Delivery}
    (acts : Acts role heard m out.toList handed m') (h : m.Headed) : ∀ o ∈ out, o.HasHeader :=
  fun o ho => (headed_of_acts acts h).2 o (Option.mem_toList.mpr ho)

/-- Steps of which each sends segments with a header. -/
theorem headed_steps {α : Type} {step : Machine → α → Step}
    (keep : ∀ m a, m.Headed → (step m a).machine.Headed ∧ ∀ o ∈ (step m a).out, o.HasHeader)
    (h : m.Headed) (l : List α) :
    (steps step m l).1.Headed ∧ ∀ o ∈ (steps step m l).2, o.HasHeader := by
  induction l generalizing m with
  | nil => exact ⟨h, fun o ho => absurd ho List.not_mem_nil⟩
  | cons a l ih =>
    obtain ⟨hfirst, hout⟩ := keep m a h
    obtain ⟨hlast, hothers⟩ := ih hfirst
    refine ⟨hlast, fun o ho => ?_⟩
    rcases List.mem_append.mp ho with hmem | hmem
    · exact hout o (Option.mem_toList.mp hmem)
    · exact hothers o hmem

theorem headed_resend (h : m.Headed) (i : Nat) :
    (m.resend i).machine.Headed ∧ ∀ o ∈ (m.resend i).out, o.HasHeader := by
  cases hrole : m.roleAt i with
  | none =>
    rw [resend_of_roleAt_none hrole]
    refine ⟨h, fun o ho => ?_⟩
    cases ho
  | some role =>
    have hacts : Acts role none m _ [] _ := acts_resend hrole
    exact ⟨(headed_of_acts hacts h).1, hasHeader_of_acts hacts h⟩

theorem headed_reap (h : m.Headed) (role : Role) :
    (m.reap role).machine.Headed ∧ ∀ o ∈ (m.reap role).out, o.HasHeader :=
  have hacts := acts_reap m role none
  ⟨(headed_of_acts hacts h).1, hasHeader_of_acts hacts h⟩

/-- Upkeep sends segments with a header, as often as it resends. -/
theorem hasHeader_upkeep (h : m.Headed) : ∀ o ∈ m.upkeep.2, o.HasHeader := by
  have hresend : m.resendDue.1.Headed ∧ ∀ o ∈ m.resendDue.2, o.HasHeader :=
    headed_steps (fun _ i hm => headed_resend hm i) h _
  have hreap : m.resendDue.1.reapIdle.1.Headed ∧ ∀ o ∈ m.resendDue.1.reapIdle.2, o.HasHeader :=
    headed_steps (fun _ r hm => headed_reap hm r) hresend.1 _
  intro o ho
  rcases List.mem_append.mp ho with hmem | hmem
  · exact hresend.2 o hmem
  · exact hreap.2 o hmem

/-- The answer to a segment has a header. -/
theorem hasHeader_receive (h : m.Headed) (s : Segment) (remote : Ipv4Address) :
    ∀ o ∈ (m.receive s remote).out, o.HasHeader := by
  have howned : ∀ o ∈ ((m.mixIn s).receiveOwned s remote).out, o.HasHeader := by
    unfold receiveOwned
    split
    · exact hasHeader_of_acts (reacts_receiveFor (m.mixIn s) _ s) (h.mixIn s)
    · intro o ho
      cases ho
  show ∀ o ∈ ((m.mixIn s).receiveMixed s remote).out, o.HasHeader
  unfold receiveMixed
  dsimp only
  intro o ho
  split at ho
  · exact howned o ho
  · split at ho
    · split at ho
      · cases ho
        trivial
      · cases ho
    · split at ho
      · exact howned o ho
      · split at ho
        · cases ho
          trivial
        · cases ho

end Machine

end NetEngine.Tcp
