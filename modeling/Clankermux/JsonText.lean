import Clankermux.Json

/-! Texts of JSON: reading a text into a value and quoting a string. Strings are held as
Unicode scalar values; an escape that names half of a surrogate pair reads as the
replacement character. -/
namespace Clankermux.JsonText

def isSpace (ch : Char) : Bool := ch = ' ' || ch = '\t' || ch = '\n' || ch = '\r'

def skip (text : List Char) : List Char := text.dropWhile isSpace

def hexValue (ch : Char) : Option Nat :=
  let n := ch.toNat
  if 48 ≤ n ∧ n ≤ 57 then some (n-48)
  else if 97 ≤ n ∧ n ≤ 102 then some (n-87)
  else if 65 ≤ n ∧ n ≤ 70 then some (n-55)
  else none

def hexDigit (n : Nat) : Char := if n < 10 then Char.ofNat (48+n) else Char.ofNat (87+n)

def hexFour (a b c d : Char) : Option Nat :=
  match hexValue a,hexValue b,hexValue c,hexValue d with
  | some w,some x,some y,some z => some (((w*16+x)*16+y)*16+z)
  | _,_,_,_ => none

def escaped (ch : Char) : Option Char :=
  if ch = '"' ∨ ch = '\\' ∨ ch = '/' then some ch
  else if ch = 'b' then some '\x08'
  else if ch = 'f' then some '\x0c'
  else if ch = 'n' then some '\n'
  else if ch = 'r' then some '\r'
  else if ch = 't' then some '\t'
  else none

def replacement : Char := Char.ofNat 0xFFFD

def unitChar (unit : Nat) : Char := if 0xD800 ≤ unit ∧ unit ≤ 0xDFFF then replacement else Char.ofNat unit

def lowHalf : List Char → Option (Nat × List Char)
  | '\\' :: 'u' :: a::b::c::d::rest => match hexFour a b c d with
    | none => none
    | some unit => if 0xDC00 ≤ unit ∧ unit ≤ 0xDFFF then some (unit,rest) else none
  | _ => none

@[grind] def readString : Nat → List Char → Option (List Char × List Char)
  | 0,_ => none
  | _,[] => none
  | fuel+1,ch::rest =>
    if ch = '"' then some ([],rest)
    else if ch.toNat < 0x20 then none
    else if ch = '\\' then
      match rest with
      | [] => none
      | letter::rest =>
        if letter = 'u' then
          match rest with
          | a::b::c::d::rest => match hexFour a b c d with
            | none => none
            | some unit =>
              if 0xD800 ≤ unit ∧ unit ≤ 0xDBFF then
                match lowHalf rest with
                | some (low,rest) => (readString fuel rest).map
                    (fun read => (Char.ofNat (0x10000+(unit-0xD800)*0x400+(low-0xDC00))::read.1,read.2))
                | none => (readString fuel rest).map (fun read => (replacement::read.1,read.2))
              else (readString fuel rest).map (fun read => (unitChar unit::read.1,read.2))
          | _ => none
        else match escaped letter with
          | none => none
          | some ch => (readString fuel rest).map (fun read => (ch::read.1,read.2))
    else (readString fuel rest).map (fun read => (ch::read.1,read.2))

def digits (text : List Char) : List Char × List Char := text.span Char.isDigit

def digitsValue (text : List Char) : Nat := text.foldl (fun value ch => 10*value+(ch.toNat-48)) 0

def power (exponent : Int) : Rat :=
  if 0 ≤ exponent then ((Nat.pow 10 exponent.toNat : Nat) : Rat) else 1/((Nat.pow 10 (-exponent).toNat : Nat) : Rat)

def readFraction : List Char → Option (List Char × List Char)
  | '.'::rest =>
    let read := digits rest
    if read.1 = [] then none else some read
  | text => some ([],text)

def readExponent : List Char → Option (Int × List Char)
  | ch::rest =>
    if ch = 'e' ∨ ch = 'E' then
      let signed := match rest with
        | '-'::rest => (true,rest)
        | '+'::rest => (false,rest)
        | rest => (false,rest)
      let read := digits signed.2
      if read.1 = [] then none
      else some (if signed.1 then -(digitsValue read.1 : Int) else digitsValue read.1,read.2)
    else some (0,ch::rest)
  | [] => some (0,[])

def readNumber (text : List Char) : Option (Rat × List Char) :=
  let signed := match text with
    | '-'::rest => (true,rest)
    | text => (false,text)
  let whole := match signed.2 with
    | '0'::rest => (['0'],rest)
    | text => digits text
  if whole.1 = [] then none
  else match readFraction whole.2 with
    | none => none
    | some (fraction,rest) => match readExponent rest with
      | none => none
      | some (exponent,rest) =>
        let magnitude := ((digitsValue (whole.1 ++ fraction) : Nat) : Rat)*power (exponent-fraction.length)
        some (if signed.1 then -magnitude else magnitude,rest)

def setMember (members : List (String × Json)) (name : String) (value : Json) : List (String × Json) :=
  if members.any (·.1 = name) then members.map (fun entry => if entry.1 = name then (name,value) else entry)
  else members ++ [(name,value)]

mutual

def readValue : Nat → List Char → Option (Json × List Char)
  | 0,_ => none
  | fuel+1,text => match skip text with
    | [] => none
    | '"'::rest => (readString fuel rest).map (fun read => (.str (String.ofList read.1),read.2))
    | '\x7b'::rest => match skip rest with
      | '\x7d'::rest => some (.obj [],rest)
      | _ => (readMembers fuel [] rest).map (fun read => (.obj read.1,read.2))
    | '['::rest => match skip rest with
      | ']'::rest => some (.arr [],rest)
      | _ => (readItems fuel rest).map (fun read => (.arr read.1,read.2))
    | 't' :: 'r' :: 'u' :: 'e' :: rest => some (.bool true,rest)
    | 'f' :: 'a' :: 'l' :: 's' :: 'e' :: rest => some (.bool false,rest)
    | 'n' :: 'u' :: 'l' :: 'l' :: rest => some (.null,rest)
    | rest => (readNumber rest).map (fun read => (.num read.1,read.2))

@[grind] def readItems : Nat → List Char → Option (List Json × List Char)
  | 0,_ => none
  | fuel+1,text => match readValue fuel text with
    | none => none
    | some (item,rest) => match skip rest with
      | ','::rest => (readItems fuel rest).map (fun read => (item::read.1,read.2))
      | ']'::rest => some ([item],rest)
      | _ => none

@[grind] def readMembers : Nat → List (String × Json) → List Char → Option (List (String × Json) × List Char)
  | 0,_,_ => none
  | fuel+1,before,text => match skip text with
    | '"'::rest => match readString fuel rest with
      | none => none
      | some (name,rest) => match skip rest with
        | ':'::rest => match readValue fuel rest with
          | none => none
          | some (value,rest) =>
            let members := setMember before (String.ofList name) value
            match skip rest with
            | ','::rest => readMembers fuel members rest
            | '\x7d'::rest => some (members,rest)
            | _ => none
        | _ => none
    | _ => none

end

def parse (text : List Char) : Option Json :=
  match readValue (2*text.length+2) text with
  | some (value,rest) => if skip rest = [] then some value else none
  | none => none

@[grind] def quoteChar (ch : Char) : List Char :=
  if ch = '"' then ['\\','"']
  else if ch = '\\' then ['\\','\\']
  else if ch = '\x08' then ['\\','b']
  else if ch = '\x0c' then ['\\','f']
  else if ch = '\n' then ['\\','n']
  else if ch = '\r' then ['\\','r']
  else if ch = '\t' then ['\\','t']
  else if ch.toNat < 0x20 then ['\\','u','0','0',hexDigit (ch.toNat/16),hexDigit (ch.toNat%16)]
  else [ch]

def quote (text : List Char) : List Char := '"'::(text.flatMap quoteChar ++ ['"'])

def memberText (member : List Char × List Char) : List Char := quote member.1 ++ ':'::quote member.2

def membersText : List (List Char × List Char) → List Char
  | [] => []
  | [member] => memberText member
  | member::rest => memberText member ++ ','::membersText rest

def objectText (members : List (List Char × List Char)) : List Char := '\x7b'::(membersText members ++ ['\x7d'])

def stringMember (member : List Char × List Char) : String × Json :=
  (String.ofList member.1,.str (String.ofList member.2))

section
variable {fuel : Nat} {rest : List Char}

theorem hexPair : ∀ n < 32, hexFour '0' '0' (hexDigit (n/16)) (hexDigit (n%16)) = some n := by decide

theorem readQuotedChar (ch : Char) : readString (fuel+1) (quoteChar ch ++ rest) =
    (readString fuel rest).map (fun read => (ch::read.1,read.2)) := by
  unfold quoteChar
  split
  · rename_i same; subst same; rfl
  · split
    · rename_i same; subst same; rfl
    · split
      · rename_i same; subst same; rfl
      · split
        · rename_i same; subst same; rfl
        · split
          · rename_i same; subst same; rfl
          · split
            · rename_i same; subst same; rfl
            · split
              · rename_i same; subst same; rfl
              · rename_i quoted backslash _ _ _ _ _
                split
                · rename_i control
                  have unit := hexPair ch.toNat control
                  have plain : unitChar ch.toNat = ch := by
                    rw [unitChar,if_neg (by omega),Char.ofNat_toNat]
                  have single : ¬(0xD800 ≤ ch.toNat ∧ ch.toNat ≤ 0xDBFF) := by omega
                  simp only [List.cons_append,List.nil_append,readString]
                  rw [if_neg (by decide),if_neg (by decide),if_pos trivial,if_pos trivial,unit]
                  dsimp only
                  rw [if_neg single,plain]
                · rename_i visible
                  rw [List.cons_append,List.nil_append]
                  conv_lhs => unfold readString
                  rw [if_neg quoted,if_neg visible,if_neg backslash]

theorem readQuoted (text : List Char) : ∀ fuel, text.length < fuel →
    readString fuel (text.flatMap quoteChar ++ '"'::rest) = some (text,rest) := by
  induction text with
  | nil =>
    intro fuel enough
    obtain ⟨more,rfl⟩ := Nat.exists_eq_succ_of_ne_zero (Nat.ne_of_gt enough)
    rfl
  | cons ch text ih =>
    intro fuel enough
    rw [List.length_cons] at enough
    obtain ⟨more,rfl⟩ := Nat.exists_eq_succ_of_ne_zero (Nat.ne_of_gt (Nat.lt_of_le_of_lt (Nat.zero_le _) enough))
    rw [List.flatMap_cons,List.append_assoc,readQuotedChar,ih more (by omega)]
    rfl

theorem quoteCharLength (ch : Char) : 1 ≤ (quoteChar ch).length := by
  unfold quoteChar
  repeat' split
  all_goals simp

theorem quoteLength (text : List Char) : text.length+2 ≤ (quote text).length := by
  have body : text.length ≤ (text.flatMap quoteChar).length := by
    induction text with
    | nil => exact le_rfl
    | cons ch text ih =>
      have one := quoteCharLength ch
      rw [List.flatMap_cons,List.length_append,List.length_cons]
      omega
  rw [quote,List.length_cons,List.length_append,List.length_singleton]
  omega

theorem readValueString {text} (here : skip text = '"'::rest) : readValue (fuel+1) text =
    (readString fuel rest).map (fun read => (.str (String.ofList read.1),read.2)) := by
  rw [readValue,here]
  rfl

theorem readMembersName {text name behind before value left}
    (here : skip text = '"'::rest) (named : readString fuel rest = some (name,':'::behind))
    (held : readValue fuel behind = some (value,left)) : readMembers (fuel+1) before text = match skip left with
      | ','::rest => readMembers fuel (setMember before (String.ofList name) value) rest
      | '\x7d'::rest => some (setMember before (String.ofList name) value,rest)
      | _ => none := by
  rw [readMembers,here]
  change (match readString fuel rest with
    | none => none
    | some (name,rest) => _) = _
  rw [named]
  change (match readValue fuel behind with
    | none => none
    | some (value,rest) => _) = _
  rw [held]

theorem readQuotedValue {text} (enough : text.length+1 < fuel) :
    readValue fuel (quote text ++ rest) = some (.str (String.ofList text),rest) := by
  obtain ⟨more,rfl⟩ := Nat.exists_eq_succ_of_ne_zero (Nat.ne_of_gt (Nat.lt_of_le_of_lt (Nat.zero_le _) enough))
  have here : skip (quote text ++ rest) = '"'::(text.flatMap quoteChar ++ '"'::rest) := by
    rw [quote,List.cons_append,List.append_assoc,List.singleton_append]
    rfl
  rw [readValueString here,readQuoted text more (by omega)]
  rfl

theorem readMember {member before ch rest}
    (enough : (memberText member).length ≤ fuel) : readMembers (fuel+1) before (memberText member ++ ch::rest) =
      match skip (ch::rest) with
      | ','::rest => readMembers fuel (setMember before (String.ofList member.1) (.str (String.ofList member.2))) rest
      | '\x7d'::rest => some (setMember before (String.ofList member.1) (.str (String.ofList member.2)),rest)
      | _ => none := by
  obtain ⟨name,text⟩ := member
  have first := quoteLength name
  have second := quoteLength text
  have total : (memberText (name,text)).length = (quote name).length+((quote text).length+1) := by
    rw [memberText,List.length_append,List.length_cons]
  have here : skip (memberText (name,text) ++ ch::rest) =
      '"'::(name.flatMap quoteChar ++ '"'::(':'::(quote text ++ ch::rest))) := by
    simp only [memberText,quote,List.cons_append,List.append_assoc]
    rfl
  exact readMembersName here (readQuoted name fuel (by omega)) (readQuotedValue (by omega))

theorem setMemberFresh {before name value}
    (fresh : name ∉ before.map Prod.fst) : setMember before name value = before ++ [(name,value)] := by
  refine if_neg (fun held => fresh ?_)
  obtain ⟨entry,inside,same⟩ := List.any_eq_true.mp held
  exact List.mem_map.mpr ⟨entry,inside,of_decide_eq_true same⟩

theorem readMembersText (rest : List Char) (members : List (List Char × List Char)) : ∀ fuel before, members ≠ [] →
    (membersText members).length < fuel →
    (before.map Prod.fst ++ members.map (fun member => String.ofList member.1)).Nodup →
    readMembers fuel before (membersText members ++ '\x7d'::rest) = some (before ++ members.map stringMember,rest) := by
  induction members with
  | nil => exact fun _ _ some => absurd rfl some
  | cons member others ih =>
    intro fuel before _ enough distinct
    obtain ⟨more,rfl⟩ := Nat.exists_eq_succ_of_ne_zero (Nat.ne_of_gt (Nat.lt_of_le_of_lt (Nat.zero_le _) enough))
    have fresh : String.ofList member.1 ∉ before.map Prod.fst := by
      intro held
      exact (List.nodup_append.mp distinct).2.2 _ held _ (.head _) rfl
    cases others with
    | nil =>
      rw [membersText,readMember (Nat.le_of_lt_succ enough),setMemberFresh fresh]
      rfl
    | cons next others =>
      have split_ : membersText (member::next::others) = memberText member ++ ','::membersText (next::others) := rfl
      rw [split_,List.length_append,List.length_cons] at enough
      rw [split_,List.append_assoc,List.cons_append,readMember (by omega),setMemberFresh fresh]
      change readMembers more (before ++ [stringMember member]) (membersText (next::others) ++ '\x7d'::rest) = _
      rw [ih more (before ++ [stringMember member]) (List.cons_ne_nil _ _) (by omega)]
      · rw [List.append_assoc]
        rfl
      · rw [List.map_append,List.append_assoc]
        exact distinct

theorem parseObjectText {members} (some_ : members ≠ [])
    (distinct : (members.map (fun member => String.ofList member.1)).Nodup) :
    parse (objectText members) = some (.obj (members.map stringMember)) := by
  have opened : ∃ name, membersText members ++ ['\x7d'] = '"'::name := by
    cases members with
    | nil => exact absurd rfl some_
    | cons member others =>
      cases others with
      | nil => exact ⟨_,rfl⟩
      | cons next others => exact ⟨_,rfl⟩
  have inner := readMembersText [] members (2*(objectText members).length+1) [] some_
    (by rw [objectText,List.length_cons,List.length_append]; omega) (by rw [List.map_nil,List.nil_append]; exact distinct)
  obtain ⟨name,quoted⟩ := opened
  have read : readValue (2*(objectText members).length+2) (objectText members) =
      (readMembers (2*(objectText members).length+1) [] (membersText members ++ ['\x7d'])).map
        (fun read => (.obj read.1,read.2)) := by
    have here : skip (objectText members) = '\x7b'::(membersText members ++ ['\x7d']) := rfl
    rw [readValue,here,quoted]
    rfl
  rw [parse,read,inner]
  rfl

end

end Clankermux.JsonText
