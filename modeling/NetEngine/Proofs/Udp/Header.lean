import NetEngine.Udp.Header

/-! # Headers of User Datagrams, Written and Read Back

    * **Sum**: the checksum is the one field of a header that the sender leaves
      open.  The link writes it over whatever stands there.
    * **Reading**: a header that is read bounds its payload, by the length field and
      not by the octets at hand. -/

namespace NetEngine.Udp

/-! ## Reading -/

namespace View

variable {p : View}

theorem check_eq_ok (checked : p.check = .ok ()) :
    headerLen ≤ p.length ∧ headerLen ≤ p.lenField.toNat := by
  unfold check at checked
  repeat' split at checked
  all_goals first | omega | cases checked

theorem check_of_lengths (long : headerLen ≤ p.length) (header : headerLen ≤ p.lenField.toNat) :
    p.check = .ok () := by
  unfold check
  rw [if_neg (by omega), if_neg (by omega)]

end View

namespace Header

variable {p : View} {ip : Ipv4.Header} {mode : Checksum.Mode} {h : Header}

/-- What has been parsed fits the datagram that carries it, and the fields are those of the
header. -/
theorem parse_eq_ok (parsed : parse p ip mode = .ok h) :
    p.check = .ok () ∧ p.lenField.toNat ≤ ip.payloadLen ∧ p.dstPort ≠ 0 ∧
      (mode = .manual → p.verifyChecksum ip.src ip.dst = .ok true) ∧
      h = ⟨p.srcPort, p.dstPort, p.lenField.toNat - headerLen⟩ := by
  obtain ⟨_, hcheck, hrest⟩ := exists_of_bind_eq_ok parsed
  split at hrest
  · cases hrest
  · rename_i hcarried
    split at hrest
    · cases hrest
    · rename_i hport
      -- Both modes come to the same end, if the checksum has not been found wrong.
      obtain ⟨intact, hverify, hheader⟩ : ∃ intact : Bool,
          (mode = .manual → p.verifyChecksum ip.src ip.dst = .ok intact) ∧
            (if ¬ intact then .error PacketError.wrongChecksum
              else .ok ⟨p.srcPort, p.dstPort, p.lenField.toNat - headerLen⟩) = Except.ok h := by
        dsimp only at hrest
        split at hrest
        · obtain ⟨intact, hverify, hheader⟩ := exists_of_bind_eq_ok hrest
          exact ⟨intact, fun _ => hverify, hheader⟩
        · exact ⟨true, fun hmode => absurd hmode ‹_›, hrest⟩
      split at hheader
      · cases hheader
      · rename_i hintact
        rw [Decidable.not_not.mp hintact] at hverify
        cases hheader
        exact ⟨hcheck, Nat.not_lt.mp hcarried, hport, hverify, rfl⟩

/-- A header is parsed if its checksum is correct, or nobody asks. -/
theorem parse_of_intact (checked : p.check = .ok ())
    (carried : p.lenField.toNat ≤ ip.payloadLen) (port : p.dstPort ≠ 0)
    (intact : mode = .manual → p.verifyChecksum ip.src ip.dst = .ok true) :
    parse p ip mode = .ok ⟨p.srcPort, p.dstPort, p.lenField.toNat - headerLen⟩ := by
  unfold parse
  rw [checked]
  show (if p.lenField.toNat > ip.payloadLen then _ else if p.dstPort = 0 then _ else _) = _
  rw [if_neg (Nat.not_lt.mpr carried), if_neg port]
  cases mode with
  | manual =>
    rw [if_pos rfl, intact rfl]
    rfl
  | ignored => rfl

/-! ## Writing -/

/-- The 8 octets of a header with a given checksum field. -/
def encodeSummed (h : Header) (sum : UInt16) : Bytes :=
  ofWord h.srcPort ++ ofWord h.dstPort ++ ofWord (UInt16.ofNat (headerLen + h.payloadLen)) ++
    ofWord sum

section Fields

variable (h : Header) (sum : UInt16) (rest : Bytes)

@[simp] theorem length_encodeSummed : (h.encodeSummed sum).length = headerLen := rfl

theorem putWord_encode (w : UInt16) : putWord (h.encode ++ rest) 6 w = h.encodeSummed w ++ rest :=
  rfl

theorem srcPort_encodeSummed : View.srcPort (h.encodeSummed sum ++ rest) = h.srcPort :=
  word_div_mod _

theorem dstPort_encodeSummed : View.dstPort (h.encodeSummed sum ++ rest) = h.dstPort :=
  word_div_mod _

theorem lenField_encodeSummed :
    View.lenField (h.encodeSummed sum ++ rest) = UInt16.ofNat (headerLen + h.payloadLen) :=
  word_div_mod _

theorem checksum_encodeSummed : View.checksum (h.encodeSummed sum ++ rest) = sum :=
  word_div_mod _

end Fields

end Header

end NetEngine.Udp
