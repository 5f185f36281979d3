import Mathlib.Algebra.GroupWithZero.Nat
import Mathlib.Tactic.Common

/-! What the programs ask of a string. -/
namespace Clankermux

def isWhitespace (ch : Char) : Bool :=
  [9,10,11,12,13,32,0xA0,0x1680,0x2028,0x2029,0x202F,0x205F,0x3000,0xFEFF].contains ch.toNat ||
    (0x2000 ≤ ch.toNat && ch.toNat ≤ 0x200A)

def trimChars (text : List Char) : List Char :=
  ((text.dropWhile isWhitespace).reverse.dropWhile isWhitespace).reverse

def trim (text : String) : String := String.ofList (trimChars text.toList)

def utf16Length (text : String) : Nat := (text.toList.map (fun ch => if ch.toNat < 0x10000 then 1 else 2)).sum

def withoutReturn (raw : List Char) : List Char := if raw.getLast? = some '\r' then raw.dropLast else raw

end Clankermux
