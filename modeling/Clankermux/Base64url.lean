import Mathlib.Tactic.Common

/-! Bytes as text over the URL-safe alphabet of 64, without padding; reading skips what is
not of the alphabet. -/
namespace Clankermux.Base64url

def digit (n : Nat) : Char :=
  if n < 26 then Char.ofNat (65+n)
  else if n < 52 then Char.ofNat (71+n)
  else if n < 62 then Char.ofNat (n-4)
  else if n = 62 then '-'
  else '_'

def value (ch : Char) : Option Nat :=
  let n := ch.toNat
  if 65 ≤ n ∧ n ≤ 90 then some (n-65)
  else if 97 ≤ n ∧ n ≤ 122 then some (n-71)
  else if 48 ≤ n ∧ n ≤ 57 then some (n+4)
  else if ch = '-' ∨ ch = '+' then some 62
  else if ch = '_' ∨ ch = '/' then some 63
  else none

theorem valueDigit : ∀ n < 64, value (digit n) = some n := by decide

def sextets : List UInt8 → List Nat
  | a::b::c::rest =>
    [a.toNat/4,a.toNat%4*16+b.toNat/16,b.toNat%16*4+c.toNat/64,c.toNat%64] ++ sextets rest
  | [a,b] => [a.toNat/4,a.toNat%4*16+b.toNat/16,b.toNat%16*4]
  | [a] => [a.toNat/4,a.toNat%4*16]
  | [] => []

def octets : List Nat → List UInt8
  | w::x::y::z::rest =>
    [UInt8.ofNat (w*4+x/16),UInt8.ofNat (x%16*16+y/4),UInt8.ofNat (y%4*64+z)] ++ octets rest
  | [w,x,y] => [UInt8.ofNat (w*4+x/16),UInt8.ofNat (x%16*16+y/4)]
  | [w,x] => [UInt8.ofNat (w*4+x/16)]
  | _ => []

def encode (bytes : List UInt8) : List Char := (sextets bytes).map digit

def decode (text : List Char) : List UInt8 := octets (text.filterMap value)

theorem byteBack {n : Nat} {a} (same : n = a.toNat) : UInt8.ofNat n = a := by
  rw [same,UInt8.ofNat_toNat]

theorem octetsSextets (bytes : List UInt8) : octets (sextets bytes) = bytes := by
  fun_induction sextets bytes with
  | case1 a b c rest ih =>
    have first := a.toNat_lt
    have second := b.toNat_lt
    have third := c.toNat_lt
    rw [List.cons_append,List.cons_append,List.cons_append,List.cons_append,List.nil_append,octets,ih,
      byteBack (a := a) (by omega),byteBack (a := b) (by omega),byteBack (a := c) (by omega)]
    rfl
  | case2 a b =>
    have first := a.toNat_lt
    have second := b.toNat_lt
    rw [octets,byteBack (a := a) (by omega),byteBack (a := b) (by omega)]
  | case3 a =>
    have first := a.toNat_lt
    rw [octets,byteBack (a := a) (by omega)]
  | case4 => rfl

theorem sextetsSmall (bytes : List UInt8) : ∀ n ∈ sextets bytes, n < 64 := by
  fun_induction sextets bytes with
  | case1 a b c rest ih =>
    have first := a.toNat_lt
    have second := b.toNat_lt
    have third := c.toNat_lt
    intro n inside
    simp only [List.cons_append,List.mem_cons] at inside
    obtain rfl | rfl | rfl | rfl | later := inside
    · omega
    · omega
    · omega
    · omega
    · exact ih n later
  | case2 a b =>
    have first := a.toNat_lt
    have second := b.toNat_lt
    intro n inside
    simp only [List.mem_cons,List.not_mem_nil,or_false] at inside
    omega
  | case3 a =>
    have first := a.toNat_lt
    intro n inside
    simp only [List.mem_cons,List.not_mem_nil,or_false] at inside
    omega
  | case4 => simp

theorem valuesDigits (digits : List Nat) (small : ∀ n ∈ digits, n < 64) : (digits.map digit).filterMap value = digits := by
  induction digits with
  | nil => rfl
  | cons n rest ih =>
    rw [List.map_cons,List.filterMap_cons,valueDigit n (small n (.head _))]
    rw [ih (fun m inside => small m (.tail _ inside))]

theorem decodeEncode (bytes : List UInt8) : decode (encode bytes) = bytes := by
  rw [decode,encode,valuesDigits _ (sextetsSmall bytes),octetsSextets]

end Clankermux.Base64url
