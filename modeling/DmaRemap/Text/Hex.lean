namespace DmaRemap.Text

/-- The digits of `n` in `base`, without a base mark. -/
def digits (base n : Nat) : String :=
  String.ofList (Nat.toDigits base n)

/-- The digits of `n` in `base`, filled with leading zeros to at least `width` places. -/
def paddedDigits (base width n : Nat) : String :=
  let shown := Nat.toDigits base n
  String.ofList (List.replicate (width - shown.length) '0' ++ shown)

/-- Hexadecimal with the mark `0x`. -/
def hex (n : Nat) : String :=
  "0x" ++ digits 16 n

/-- Hexadecimal with the mark `0x`, at least `width` characters long with the mark. -/
def paddedHex (width n : Nat) : String :=
  "0x" ++ paddedDigits 16 (width - 2) n

/-- Binary with the mark `0b`, at least `width` characters long with the mark. -/
def paddedBinary (width n : Nat) : String :=
  "0b" ++ paddedDigits 2 (width - 2) n

/-- A truth value as a digit. -/
def bit (value : Bool) : String :=
  if value then "1" else "0"

end DmaRemap.Text
