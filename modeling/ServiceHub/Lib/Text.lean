import Mathlib.Data.List.Find

/-! # JavaScript strings

A string is the list of its code points; what `length` counts are its UTF-16 code units.
-/

namespace ServiceHub

abbrev Text := List Char

/-- `\s`, which is also what `trim` takes off. -/
def isSpace (c : Char) : Bool :=
  let n := c.toNat
  (9 ≤ n && n ≤ 13) || n == 32 || n == 0xA0 || n == 0x1680 || (0x2000 ≤ n && n ≤ 0x200A) || n == 0x2028
    || n == 0x2029 || n == 0x202F || n == 0x205F || n == 0x3000 || n == 0xFEFF

/-- `text.length`. -/
def codeUnits (text : Text) : Nat := text.length + text.countP fun c => 0x10000 ≤ c.toNat

end ServiceHub
