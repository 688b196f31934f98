import NetEngine.Bytes

/-! # Hexadecimal Text

    Addresses and numbers of unknown protocols are shown in lower-case
    hexadecimal with a fixed number of digits. -/

namespace NetEngine.Text

/-- The digit of a number below sixteen. -/
def hexDigit (n : Nat) : Char :=
  if n < 10 then Char.ofNat (48 + n) else Char.ofNat (87 + n)

/-- Two digits. -/
def hexByte (b : UInt8) : String :=
  String.ofList [hexDigit (b.toNat / 16), hexDigit (b.toNat % 16)]

/-- Four digits. -/
def hexWord (w : UInt16) : String := String.join ((ofWord w).map hexByte)

end NetEngine.Text
