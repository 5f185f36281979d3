import Mathlib.Algebra.GroupWithZero.Nat
import Mathlib.Tactic.Common

/-! A decoder of UTF-8 that is fed its bytes in pieces: it keeps a character that is cut
between two pieces, replaces what is not UTF-8, and takes a byte order mark off the
beginning. -/
namespace Clankermux.Utf8

structure Decoder where
  bytesNeeded : Nat
  bytesSeen : Nat
  codePoint : Nat
  lower : Nat
  upper : Nat
  markSeen : Bool
  deriving DecidableEq

def Decoder.start : Decoder := ⟨0,0,0,0x80,0xBF,false⟩

def Decoder.reset (d : Decoder) : Decoder := { Decoder.start with markSeen := d.markSeen }

def replacement : Char := Char.ofNat 0xFFFD

def mark : Char := Char.ofNat 0xFEFF

def Decoder.lead (d : Decoder) (byte : Nat) : Decoder × List Char :=
  if byte ≤ 0x7F then (d,[Char.ofNat byte])
  else if 0xC2 ≤ byte ∧ byte ≤ 0xDF then ({ d with bytesNeeded := 1,codePoint := byte % 32 },[])
  else if 0xE0 ≤ byte ∧ byte ≤ 0xEF then
    ({ d with
      bytesNeeded := 2
      codePoint := byte % 16
      lower := if byte = 0xE0 then 0xA0 else d.lower
      upper := if byte = 0xED then 0x9F else d.upper },[])
  else if 0xF0 ≤ byte ∧ byte ≤ 0xF4 then
    ({ d with
      bytesNeeded := 3
      codePoint := byte % 8
      lower := if byte = 0xF0 then 0x90 else d.lower
      upper := if byte = 0xF4 then 0x8F else d.upper },[])
  else (d,[replacement])

def Decoder.step (d : Decoder) (byte : Nat) : Decoder × List Char :=
  if d.bytesNeeded = 0 then d.lead byte
  else if byte < d.lower ∨ d.upper < byte then
    let (next,chars) := d.reset.lead byte
    (next,replacement::chars)
  else
    let codePoint := d.codePoint * 64 + byte % 64
    if d.bytesSeen + 1 = d.bytesNeeded then (d.reset,[Char.ofNat codePoint])
    else ({ d with lower := 0x80,upper := 0xBF,codePoint := codePoint,bytesSeen := d.bytesSeen + 1 },[])

def Decoder.emit (d : Decoder) : List Char → Decoder × List Char
  | [] => (d,[])
  | ch::rest =>
    if d.markSeen then (d,ch::rest) else ({ d with markSeen := true },if ch = mark then rest else ch::rest)

def Decoder.feed (d : Decoder) (byte : UInt8) : Decoder × List Char :=
  let (next,chars) := d.step byte.toNat
  next.emit chars

def decode (d : Decoder) : List UInt8 → Decoder × List Char
  | [] => (d,[])
  | byte::rest =>
    let (next,chars) := d.feed byte
    let (last,more) := decode next rest
    (last,chars ++ more)

def Decoder.finish (d : Decoder) : List Char := if d.bytesNeeded = 0 then [] else (d.emit [replacement]).2

def encode (text : List Char) : List UInt8 := text.flatMap String.utf8EncodeChar

theorem encodeAppend (text more : List Char) : encode (text ++ more) = encode text ++ encode more := List.flatMap_append

def withoutMark : List Char → List Char
  | [] => []
  | ch::rest => if ch = mark then rest else ch::rest

def utf8Length (text : List Char) : Nat := (text.map Char.utf8Size).sum

variable {d : Decoder}

theorem decodeAppend (bytes more : List UInt8) : ∀ d, decode d (bytes ++ more) =
    ((decode (decode d bytes).1 more).1,(decode d bytes).2 ++ (decode (decode d bytes).1 more).2) := by
  induction bytes with
  | nil => exact fun d => rfl
  | cons byte rest ih =>
    intro d
    simp only [List.cons_append,decode,ih,List.append_assoc]

theorem scalar (c : Char) : c.toNat < 0xD800 ∨ 0xDFFF < c.toNat ∧ c.toNat < 0x110000 := c.valid

def Decoder.clean (b : Bool) : Decoder := { Decoder.start with markSeen := b }

theorem byteOf {n : Nat} (small : n < 256) : (UInt8.ofNat n).toNat = n := by
  simpa using Nat.mod_eq_of_lt small

theorem decodeOne (byte : UInt8) (d : Decoder) : decode d [byte] = d.feed byte := by
  simp [decode]

theorem decodeTail {byte rest d next} (fed : d.feed byte = (next,[])) :
    decode d (byte::rest) = decode next rest := by
  simp [decode,fed]

theorem decodeLead {n b next rest} (small : n < 256)
    (led : (Decoder.clean b).lead n = (next,[])) : decode (.clean b) (UInt8.ofNat n::rest) = decode next rest := by
  have first : (Decoder.clean b).step n = (next,[]) := by
    simpa [Decoder.step,Decoder.clean,Decoder.start] using led
  exact decodeTail (by simp [Decoder.feed,byteOf small,first,Decoder.emit])

theorem decodeMiddle {k rest d} (unfinished : d.bytesSeen + 1 < d.bytesNeeded)
    (fits : d.lower ≤ k % 64 + 0x80 ∧ k % 64 + 0x80 ≤ d.upper) : decode d (UInt8.ofNat (k % 64 + 0x80)::rest) =
      decode { d with lower := 0x80,upper := 0xBF,codePoint := d.codePoint * 64 + k % 64,bytesSeen := d.bytesSeen + 1 } rest := by
  have byte : (UInt8.ofNat (k % 64 + 0x80)).toNat = k % 64 + 0x80 := byteOf (by omega)
  have low : (k % 64 + 0x80) % 64 = k % 64 := by omega
  have needed : d.bytesNeeded ≠ 0 := by omega
  have within : ¬ (k % 64 + 0x80 < d.lower ∨ d.upper < k % 64 + 0x80) := by omega
  have more : d.bytesSeen + 1 ≠ d.bytesNeeded := by omega
  exact decodeTail (by simp only [Decoder.feed,Decoder.step,byte,low,if_neg needed,if_neg within,if_neg more,Decoder.emit])

theorem decodeLast {v d} (last : d.bytesSeen + 1 = d.bytesNeeded)
    (fits : d.lower ≤ 0x80 ∧ 0xBF ≤ d.upper) (point : d.codePoint = v / 64) :
    decode d [UInt8.ofNat (v % 64 + 0x80)] = d.reset.emit [Char.ofNat v] := by
  have byte : (UInt8.ofNat (v % 64 + 0x80)).toNat = v % 64 + 0x80 := byteOf (by omega)
  have whole : d.codePoint * 64 + (v % 64 + 0x80) % 64 = v := by omega
  have needed : d.bytesNeeded ≠ 0 := by omega
  have within : ¬ (v % 64 + 0x80 < d.lower ∨ d.upper < v % 64 + 0x80) := by omega
  simp only [decodeOne,Decoder.feed,Decoder.step,byte,whole,if_neg needed,if_neg within,if_pos last]

section Character
variable {v : Nat} (b : Bool)

theorem decodeShort (small : v ≤ 0x7F) : decode (.clean b) [UInt8.ofNat v] = (Decoder.clean b).emit [Char.ofNat v] := by
  have one : (UInt8.ofNat v).toNat = v := byteOf (by omega)
  simp [decodeOne,Decoder.feed,Decoder.step,Decoder.clean,Decoder.start,one,Decoder.lead,small]

theorem decodeTwo (large : 0x7F < v) (small : v ≤ 0x7FF) :
    decode (.clean b) [UInt8.ofNat (v / 64 % 32 + 0xC0),UInt8.ofNat (v % 64 + 0x80)] =
      (Decoder.clean b).emit [Char.ofNat v] := by
  have led : (Decoder.clean b).lead (v / 64 % 32 + 0xC0) =
      ({ Decoder.clean b with bytesNeeded := 1,codePoint := v / 64 },[]) := by
    have ascii : ¬ v / 64 % 32 + 0xC0 ≤ 0x7F := by omega
    have two : 0xC2 ≤ v / 64 % 32 + 0xC0 ∧ v / 64 % 32 + 0xC0 ≤ 0xDF := by omega
    have point : (v / 64 % 32 + 0xC0) % 32 = v / 64 := by omega
    rw [Decoder.lead,if_neg ascii,if_pos two,point]
  rw [decodeLead (by omega) led,decodeLast rfl (by simp [Decoder.clean,Decoder.start]) rfl]
  rfl

theorem decodeThree (large : 0x7FF < v) (small : v ≤ 0xFFFF) (valid : v < 0xD800 ∨ 0xDFFF < v) :
    decode (.clean b) [UInt8.ofNat (v / 4096 % 16 + 0xE0),UInt8.ofNat (v / 64 % 64 + 0x80),UInt8.ofNat (v % 64 + 0x80)] =
      (Decoder.clean b).emit [Char.ofNat v] := by
  have led : (Decoder.clean b).lead (v / 4096 % 16 + 0xE0) =
      ({ Decoder.clean b with
        bytesNeeded := 2
        codePoint := v / 4096
        lower := if v / 4096 % 16 + 0xE0 = 0xE0 then 0xA0 else 0x80
        upper := if v / 4096 % 16 + 0xE0 = 0xED then 0x9F else 0xBF },[]) := by
    have ascii : ¬ v / 4096 % 16 + 0xE0 ≤ 0x7F := by omega
    have two : ¬ (0xC2 ≤ v / 4096 % 16 + 0xE0 ∧ v / 4096 % 16 + 0xE0 ≤ 0xDF) := by omega
    have three : 0xE0 ≤ v / 4096 % 16 + 0xE0 ∧ v / 4096 % 16 + 0xE0 ≤ 0xEF := by omega
    have point : (v / 4096 % 16 + 0xE0) % 16 = v / 4096 := by omega
    rw [Decoder.lead,if_neg ascii,if_neg two,if_pos three,point]
    rfl
  rw [decodeLead (by omega) led,decodeMiddle (by simp [Decoder.clean,Decoder.start]) (by simp only; split <;> split <;> omega),
    decodeLast rfl (by simp) (by simp only; omega)]
  rfl

theorem decodeFour (large : 0xFFFF < v) (small : v < 0x110000) :
    decode (.clean b) [UInt8.ofNat (v / 262144 % 8 + 0xF0),UInt8.ofNat (v / 4096 % 64 + 0x80),
      UInt8.ofNat (v / 64 % 64 + 0x80),UInt8.ofNat (v % 64 + 0x80)] = (Decoder.clean b).emit [Char.ofNat v] := by
  have led : (Decoder.clean b).lead (v / 262144 % 8 + 0xF0) =
      ({ Decoder.clean b with
        bytesNeeded := 3
        codePoint := v / 262144
        lower := if v / 262144 % 8 + 0xF0 = 0xF0 then 0x90 else 0x80
        upper := if v / 262144 % 8 + 0xF0 = 0xF4 then 0x8F else 0xBF },[]) := by
    have ascii : ¬ v / 262144 % 8 + 0xF0 ≤ 0x7F := by omega
    have two : ¬ (0xC2 ≤ v / 262144 % 8 + 0xF0 ∧ v / 262144 % 8 + 0xF0 ≤ 0xDF) := by omega
    have three : ¬ (0xE0 ≤ v / 262144 % 8 + 0xF0 ∧ v / 262144 % 8 + 0xF0 ≤ 0xEF) := by omega
    have four : 0xF0 ≤ v / 262144 % 8 + 0xF0 ∧ v / 262144 % 8 + 0xF0 ≤ 0xF4 := by omega
    have point : (v / 262144 % 8 + 0xF0) % 8 = v / 262144 := by omega
    rw [Decoder.lead,if_neg ascii,if_neg two,if_neg three,if_pos four,point]
    rfl
  rw [decodeLead (by omega) led,decodeMiddle (by simp [Decoder.clean,Decoder.start]) (by simp only; split <;> split <;> omega),
    decodeMiddle (by simp [Decoder.clean,Decoder.start]) (by simp only; omega),decodeLast rfl (by simp) (by simp only; omega)]
  rfl

end Character

theorem decodeChar (c : Char) (b : Bool) : decode (.clean b) (String.utf8EncodeChar c) = (Decoder.clean b).emit [c] := by
  have valid := scalar c
  have whole : Char.ofNat c.toNat = c := Char.ofNat_toNat c
  by_cases short : c.toNat ≤ 0x7F
  · simpa [String.utf8EncodeChar,show c.val.toNat = c.toNat from rfl,short,whole] using decodeShort b short
  by_cases two : c.toNat ≤ 0x7FF
  · simpa [String.utf8EncodeChar,show c.val.toNat = c.toNat from rfl,short,two,whole]
      using decodeTwo b (Nat.lt_of_not_le short) two
  by_cases three : c.toNat ≤ 0xFFFF
  · simpa [String.utf8EncodeChar,show c.val.toNat = c.toNat from rfl,short,two,three,whole]
      using decodeThree b (Nat.lt_of_not_le two) three (by omega)
  · simpa [String.utf8EncodeChar,show c.val.toNat = c.toNat from rfl,short,two,three,whole]
      using decodeFour b (Nat.lt_of_not_le three) (by omega)

theorem decodeSeen (text : List Char) : decode (.clean true) (encode text) = (.clean true,text) := by
  induction text with
  | nil => rfl
  | cons c rest ih =>
    have first : decode (.clean true) (String.utf8EncodeChar c) = (.clean true,[c]) := decodeChar c true
    have split : encode (c::rest) = String.utf8EncodeChar c ++ encode rest := rfl
    rw [split,decodeAppend,first,ih]
    rfl

theorem decodeEncode (text : List Char) : (decode .start (encode text)).2 = withoutMark text ∧
    (decode .start (encode text)).1.bytesNeeded = 0 := by
  cases text with
  | nil => exact ⟨rfl,rfl⟩
  | cons c rest =>
    have first : decode .start (String.utf8EncodeChar c) = (.clean true,if c = mark then [] else [c]) := decodeChar c false
    have split : encode (c::rest) = String.utf8EncodeChar c ++ encode rest := rfl
    rw [split,decodeAppend,first,decodeSeen]
    refine ⟨?_,rfl⟩
    by_cases marked : c = mark
    · simp [withoutMark,marked]
    · simp [withoutMark,marked]

end Clankermux.Utf8
