import NetEngine.Bytes

/-! # Payload Sources

    The octets that are sent are not copied into a frame by the sender.  The
    link **pulls** them from a source in pieces while it assembles the frame,
    and may pull the same piece again when a segment is resent.

    - **Supplier**: asked for `room` octets from `offset` on, it writes some
      and tells the length of its whole content.
    - **Source**: a source is lent for one call, or it is a generator that may
      be kept and asked again at any later time. -/

namespace NetEngine

/-- What a source gives for one request. -/
structure Supplied where
  /-- The octets written, from the start of the room offered. -/
  bytes : Bytes
  /-- The length of the whole content. -/
  total : Nat

/-- A supplier of octets. -/
structure Supplier where
  /-- The octets from `offset` on that fit `room`. -/
  supply : (offset room : Nat) → Supplied

namespace Supplier

/-- The length of the whole content, asked for with no room. -/
def size (s : Supplier) : Nat := (s.supply 0 0).total

/-- A source with a given content. -/
def ofBytes (content : Bytes) : Supplier where
  supply offset room := ⟨slice content offset room, content.length⟩

/-- Does a source hand out `content`, and nothing else? -/
def Holds (s : Supplier) (content : Bytes) : Prop :=
  ∀ offset room, s.supply offset room = ⟨slice content offset room, content.length⟩

theorem holds_ofBytes (content : Bytes) : (ofBytes content).Holds content := fun _ _ => rfl

end Supplier

/-- A source as the sender hands it in. -/
inductive Source where
  /-- Lent until the call returns. -/
  | lent (data : Supplier)
  /-- Free to be kept. -/
  | generator (data : Supplier)

namespace Source

/-- The supplier behind a source of either kind. -/
def data : Source → Supplier
  | .lent d => d
  | .generator d => d

/-- The length of the whole content. -/
def size (s : Source) : Nat := s.data.size

end Source

/-- Octets read into a buffer that held `buffer`: the written ones come first, the others stay. -/
def readInto (buffer written : Bytes) : Bytes := overwrite buffer written

end NetEngine
