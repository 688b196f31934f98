import NetEngine.Proofs.Link.Pulling

/-! # Frames Are Put Together

    A frame that is to be sent is the headers, and behind them what is missing to its
    length.  The loopback link pulls that, and has the frame as a whole or not at all.

    * **Packets**: what is put together stands behind any front, so that a packet
      can be told without the headers in front of it.
    * **Contents**: where the source hands out a fixed content, the frame is told by
      the lengths alone. -/

namespace NetEngine

namespace Loopback

/-! ## Packets -/

/-- A packet of `len` octets whose first ones are given, if the link can put it together. -/
def packet? (headers : Bytes) (len : Nat) : Option Body → Option Bytes
  | none => if headers.length = len then some headers else none
  | some a => (pull a.source a.offset (len - headers.length)).map (headers ++ ·)

theorem length_of_packet? {headers packet : Bytes} {len : Nat} {body : Option Body}
    (short : headers.length ≤ len) (h : packet? headers len body = some packet) :
    packet.length = len := by
  cases body with
  | none =>
    simp only [packet?] at h
    split at h
    · cases h
      assumption
    · cases h
  | some a =>
    obtain ⟨payload, hpull, rfl⟩ := Option.map_eq_some_iff.mp h
    rw [List.length_append, length_of_pull hpull]
    omega

/-- What stands in front of a packet does not matter to it. -/
theorem assemble_append (front : Bytes) {headers : Bytes} {len : Nat} (body : Option Body)
    (short : headers.length ≤ len) :
    assemble (front ++ headers) (front.length + len) body =
      match (if front.length + len ≤ Ethernet.maxFrame then packet? headers len body else none) with
      | none => .error .badSize
      | some packet => .ok (front ++ packet) := by
  unfold assemble
  by_cases hfits : front.length + len ≤ Ethernet.maxFrame
  · rw [if_pos hfits, if_neg (by rw [List.length_append]; omega)]
    cases body with
    | none =>
      simp only [packet?, List.length_append, Nat.add_left_cancel_iff]
      split <;> rfl
    | some a =>
      have hrest : front.length + len - (front ++ headers).length = len - headers.length := by
        rw [List.length_append]
        omega
      simp only [packet?, hrest]
      cases pull a.source a.offset (len - headers.length) with
      | none => rfl
      | some payload => simp
  · rw [if_neg hfits, if_pos (by omega)]

theorem transmit_append (l : Loopback) (front : Bytes) {headers : Bytes} {len : Nat}
    (checksums : ChecksumSet) (body : Option Body) (short : headers.length ≤ len) :
    l.transmit (front ++ headers) (front.length + len) checksums body =
      match (if front.length + len ≤ Ethernet.maxFrame then packet? headers len body else none) with
      | none => (.error .badSize, l)
      | some packet =>
        (.ok (), { l with sent := l.sent ++ [Offload.fill (front ++ packet) checksums] }) := by
  unfold transmit
  rw [assemble_append front body short]
  cases (if front.length + len ≤ Ethernet.maxFrame then packet? headers len body else none) <;> rfl

variable {headers frame packet content : Bytes} {len : Nat} {body : Option Body}

/-- A frame is put together if its length is possible, and what is missing comes. -/
theorem assemble_eq_ok_iff : assemble headers len body = .ok frame ↔
    headers.length ≤ len ∧ len ≤ 1514 ∧ packet? headers len body = some frame := by
  have hmax : Ethernet.maxFrame = 1514 := rfl
  by_cases hshort : headers.length ≤ len
  · have h := assemble_append [] body hshort
    rw [List.nil_append, List.length_nil, Nat.zero_add] at h
    rw [h]
    by_cases hfits : len ≤ Ethernet.maxFrame
    · rw [if_pos hfits]
      cases packet? headers len body with
      | none => simp
      | some packet => simp [hshort, hmax ▸ hfits]
    · rw [if_neg hfits]
      simp [hmax ▸ hfits]
  · unfold assemble
    rw [if_pos (.inr (Nat.not_le.mp hshort))]
    simp [hshort]

theorem length_of_assemble (assembled : assemble headers len body = .ok frame) :
    frame.length = len := by
  obtain ⟨hshort, -, hpacket⟩ := assemble_eq_ok_iff.mp assembled
  exact length_of_packet? hshort hpacket

/-! ## Contents -/

/-- The headers, and behind them the part of a content that is missing. -/
def intended (headers : Bytes) (len : Nat) (body : Option Body) (content : Bytes) : Bytes :=
  headers ++ body.elim [] fun a => slice content a.offset (len - headers.length)

/-- Nothing is missing, or a content has it. -/
def Covered (headers : Bytes) (len : Nat) (body : Option Body) (content : Bytes) : Prop :=
  len = headers.length ∨
    ∃ a, body = some a ∧ a.offset + len - headers.length ≤ content.length

/-- **What is put together is what was meant**, if the content has all that is missing. -/
theorem packet?_eq_some_iff (holds : ∀ a, body = some a → a.source.Holds content)
    (short : headers.length ≤ len) : packet? headers len body = some packet ↔
      Covered headers len body content ∧ packet = intended headers len body content := by
  unfold Covered intended
  cases body with
  | none =>
    simp only [packet?]
    split
    · simp_all [eq_comm]
    · rename_i hother
      simp [Ne.symm hother]
  | some a =>
    have hreach : len - headers.length = 0 ∨
        a.offset + (len - headers.length) ≤ content.length ↔
          len = headers.length ∨ a.offset + len - headers.length ≤ content.length := by
      omega
    simp only [packet?, Option.map_eq_some_iff, pull_eq_some_iff (holds a rfl), hreach,
      Option.some.injEq, exists_eq_left', Option.elim_some]
    constructor
    · rintro ⟨payload, ⟨hcovered, rfl⟩, rfl⟩
      exact ⟨hcovered, rfl⟩
    · rintro ⟨hcovered, rfl⟩
      exact ⟨_, ⟨hcovered, rfl⟩, rfl⟩

end Loopback

end NetEngine
