import Clankermux.Text

/-! Regular expressions that are matched by trying: what a pattern can end with at a place, in
the order in which it is tried. The first end is the one that is taken. Lengths are those of
UTF-16. -/
namespace Clankermux

structure Place where
  before : List Char
  rest : List Char

inductive Pattern where
  | empty
  | one (is : Char → Bool)
  /-- As many as there are, of `least` to `most` units. -/
  | run (is : Char → Bool) (least : Nat) (most : Option Nat)
  | lineStart
  | lineEnd
  | finish
  | boundary
  | seq (first second : Pattern)
  | either (first second : Pattern)
  | group (inner : Pattern)

namespace Pattern

def width (ch : Char) : Nat := if ch.toNat < 0x10000 then 1 else 2

def units (text : List Char) : Nat := (text.map width).sum

def isLineEnd (ch : Char) : Bool := [10,13,0x2028,0x2029].contains ch.toNat

def dot (ch : Char) : Bool := !isLineEnd ch

def isWord (ch : Char) : Bool := ch.isAlphanum || ch == '_'

@[grind] def runs (is : Char → Bool) (most : Option Nat) (taken : Nat) (before : List Char) : List Char → List (Nat × Place)
  | [] => [(taken,⟨before,[]⟩)]
  | ch::rest =>
    if is ch && most.all (taken + width ch ≤ ·) then
      runs is most (taken + width ch) (ch::before) rest ++ [(taken,⟨before,ch::rest⟩)]
    else [(taken,⟨before,ch::rest⟩)]

@[grind] def ends : Pattern → Place → List (Place × Option (List Char))
  | .empty,p => [(p,none)]
  | .one is,⟨before,rest⟩ =>
    match rest with
    | [] => []
    | ch::more => if is ch then [(⟨ch::before,more⟩,none)] else []
  | .run is least most,⟨before,rest⟩ =>
    ((runs is most 0 before rest).filter (fun found => least ≤ found.1)).map (fun found => (found.2,none))
  | .lineStart,p => if p.before.head?.all isLineEnd then [(p,none)] else []
  | .lineEnd,p => if p.rest.head?.all isLineEnd then [(p,none)] else []
  | .finish,p => if p.rest = [] then [(p,none)] else []
  | .boundary,p => if p.before.head?.any isWord ≠ p.rest.head?.any isWord then [(p,none)] else []
  | .seq first second,p =>
    (first.ends p).flatMap fun found => (second.ends found.1).map fun last => (last.1,last.2.or found.2)
  | .either first second,p => first.ends p ++ second.ends p
  | .group inner,p => (inner.ends p).map fun found => (found.1,some (p.rest.take (p.rest.length - found.1.rest.length)))

def all : List Pattern → Pattern
  | [] => .empty
  | first::rest => .seq first (all rest)

def oneOf : List Pattern → Pattern
  | [] => .one (fun _ => false)
  | [only] => only
  | first::rest => .either first (oneOf rest)

def optional (inner : Pattern) : Pattern := .either inner .empty

def text (literal : List Char) : Pattern := all (literal.map fun ch => .one (· == ch))

def textAnyCase (literal : List Char) : Pattern := all (literal.map fun ch => .one (·.toLower == ch.toLower))

@[grind] def search (pattern : Pattern) (before : List Char) : List Char → Option (Place × Place × Option (List Char))
  | [] => (pattern.ends ⟨before,[]⟩).head?.map (fun found => (⟨before,[]⟩,found))
  | ch::rest =>
    match (pattern.ends ⟨before,ch::rest⟩).head? with
    | some found => some (⟨before,ch::rest⟩,found)
    | none => search pattern (ch::before) rest

def capture (pattern : Pattern) (text : List Char) : Option (List Char) := (pattern.search [] text).bind (·.2.2)

def occurs (pattern : Pattern) (text : List Char) : Bool := (pattern.search [] text).isSome

def remove (pattern : Pattern) (text : List Char) : List Char :=
  match pattern.search [] text with
  | some (start,last,_) => start.before.reverse ++ last.rest
  | none => text

/-- The groups of the matches, each one looked for behind the one before; `skip` is what the
last match still covers. -/
@[grind] def captures (pattern : Pattern) (before : List Char) (skip : Nat) : List Char → List (List Char)
  | [] => []
  | ch::rest =>
    match skip with
    | skip + 1 => captures pattern (ch::before) skip rest
    | 0 =>
      match (pattern.ends ⟨before,ch::rest⟩).head? with
      | some (last,found) => found.toList ++ captures pattern (ch::before) (rest.length - last.rest.length) rest
      | none => captures pattern (ch::before) 0 rest

def Behind (p : Place) (text : List Char) (q : Place) : Prop := p.rest = text ++ q.rest ∧ q.before = text.reverse ++ p.before

variable {p q mid : Place} {found : Option (List Char)} {is : Char → Bool} {text more : List Char}

theorem Behind.trans (first : Behind p text mid) (second : Behind mid more q) : Behind p (text ++ more) q :=
  ⟨by rw [first.1,second.1,List.append_assoc],by rw [second.2,first.2,List.reverse_append,List.append_assoc]⟩

theorem Behind.taken (behind : Behind p text q) : p.rest.take (p.rest.length - q.rest.length) = text := by
  rw [behind.1]
  simp

theorem Behind.split (behind : Behind p (text ++ more) q) : ∃ mid, Behind p text mid ∧ Behind mid more q :=
  ⟨⟨text.reverse ++ p.before,more ++ q.rest⟩,⟨by rw [behind.1,List.append_assoc],rfl⟩,
    ⟨rfl,by rw [behind.2,List.reverse_append,List.append_assoc]⟩⟩

theorem memEmpty : (q,found) ∈ Pattern.empty.ends p ↔ q = p ∧ found = none := by
  rw [ends,List.mem_singleton,Prod.mk.injEq]

theorem memSeq {first second} : (q,found) ∈ (Pattern.seq first second).ends p ↔
    ∃ mid inner last, (mid,inner) ∈ first.ends p ∧ (q,last) ∈ second.ends mid ∧ found = last.or inner := by
  simp only [ends,List.mem_flatMap,List.mem_map,Prod.exists,Prod.mk.injEq]
  constructor
  · rintro ⟨mid,inner,here,end_,last,there,rfl,rfl⟩
    exact ⟨mid,inner,last,here,there,rfl⟩
  · rintro ⟨mid,inner,last,here,there,rfl⟩
    exact ⟨mid,inner,here,q,last,there,rfl,rfl⟩

theorem memOne : (q,found) ∈ (Pattern.one is).ends p ↔ found = none ∧ ∃ ch, is ch = true ∧ Behind p [ch] q := by
  obtain ⟨before,rest⟩ := p
  cases rest with
  | nil => simp [ends,Behind]
  | cons ch rest =>
    by_cases its : is ch = true
    · simp only [ends,if_pos its,List.mem_singleton,Prod.mk.injEq]
      constructor
      · rintro ⟨rfl,rfl⟩
        exact ⟨rfl,ch,its,rfl,rfl⟩
      · rintro ⟨rfl,other,-,rest_,before_⟩
        obtain ⟨rfl,rfl⟩ := List.cons.inj rest_
        exact ⟨by cases q; simpa using before_,rfl⟩
    · simp only [ends,if_neg its,List.not_mem_nil,false_iff,not_and,not_exists]
      rintro - other good ⟨rest_,-⟩
      cases (List.cons.inj rest_).1
      exact its good

theorem memText (literal : List Char) : ∀ {p q}, (q,found) ∈ (Pattern.text literal).ends p ↔ found = none ∧ Behind p literal q := by
  induction literal generalizing found with
  | nil =>
    intro p q
    obtain ⟨before,rest⟩ := p
    obtain ⟨behind,left⟩ := q
    simp [Pattern.text,all,ends,Behind,eq_comm,and_comm]
  | cons ch rest ih =>
    intro p q
    rw [Pattern.text,List.map_cons,all,memSeq]
    constructor
    · rintro ⟨mid,inner,last,here,there,rfl⟩
      obtain ⟨rfl,other,same,first⟩ := memOne.mp here
      obtain ⟨rfl,second⟩ := ih.mp there
      cases (beq_iff_eq.mp same : other = ch)
      exact ⟨rfl,first.trans second⟩
    · rintro ⟨rfl,behind⟩
      obtain ⟨mid,first,second⟩ := (show Behind p ([ch] ++ rest) q from behind).split
      exact ⟨mid,none,none,memOne.mpr ⟨rfl,ch,beq_self_eq_true ch,first⟩,ih.mpr ⟨rfl,second⟩,rfl⟩

theorem memRuns (most : Option Nat) (rest : List Char) : ∀ taken before n, (n,q) ∈ runs is most taken before rest ↔
    ∃ text, Behind ⟨before,rest⟩ text q ∧ (∀ ch ∈ text, is ch = true) ∧ n = taken + units text ∧
      (text = [] ∨ ∀ m ∈ most, n ≤ m) := by
  induction rest with
  | nil =>
    intro taken before n
    obtain ⟨behind,left⟩ := q
    simp only [runs,List.mem_singleton,Prod.mk.injEq,Place.mk.injEq]
    constructor
    · rintro ⟨rfl,rfl,rfl⟩
      exact ⟨[],⟨rfl,rfl⟩,by simp,by simp [units],.inl rfl⟩
    · rintro ⟨text,⟨rest_,before_⟩,-,count,-⟩
      obtain ⟨rfl,rfl⟩ := List.append_eq_nil_iff.mp rest_.symm
      exact ⟨by simpa [units] using count,by simpa using before_,rfl⟩
  | cons ch rest ih =>
    intro taken before n
    have stop : (n,q) = (taken,⟨before,ch::rest⟩) ↔ Behind ⟨before,ch::rest⟩ [] q ∧ n = taken := by
      obtain ⟨behind,left⟩ := q
      simp [Behind,eq_comm,and_comm]
    simp only [runs]
    split_ifs with goes
    · obtain ⟨good,fits⟩ := Bool.and_eq_true_iff.mp goes
      rw [List.mem_append,List.mem_singleton,stop,ih]
      constructor
      · rintro (⟨text,behind,all_,rfl,short⟩ | ⟨behind,rfl⟩)
        · refine ⟨ch::text,⟨congrArg (ch::·) behind.1,by simpa using behind.2⟩,?_,?_,.inr ?_⟩
          · simpa [good] using all_
          · simp [units,Nat.add_assoc]
          · rcases short with rfl | short
            · simpa [units,Option.all_eq_true] using fits
            · exact short
        · exact ⟨[],behind,by simp,by simp [units],.inl rfl⟩
      · rintro ⟨text,behind,all_,rfl,short⟩
        cases text with
        | nil => exact .inr ⟨behind,by simp [units]⟩
        | cons other text =>
          obtain ⟨same,rest_⟩ := List.cons.inj behind.1
          cases same
          refine .inl ⟨text,⟨rest_,by simpa using behind.2⟩,fun c inside => all_ c (.tail _ inside),?_,.inr ?_⟩
          · simp [units,Nat.add_assoc]
          · exact short.resolve_left (by simp)
    · rw [List.mem_singleton,stop]
      constructor
      · rintro ⟨behind,rfl⟩
        exact ⟨[],behind,by simp,by simp [units],.inl rfl⟩
      · rintro ⟨text,behind,all_,rfl,short⟩
        cases text with
        | nil => exact ⟨behind,by simp [units]⟩
        | cons other text =>
          obtain ⟨same,-⟩ := List.cons.inj behind.1
          cases same
          refine absurd (Bool.and_eq_true_iff.mpr ⟨all_ _ (.head _),?_⟩) goes
          rw [Option.all_eq_true]
          intro m its
          have whole := (short.resolve_left (by simp)) m its
          simp only [units,List.map_cons,List.sum_cons] at whole
          exact decide_eq_true (by omega)

theorem memRun {least most} : (q,found) ∈ (Pattern.run is least most).ends p ↔
    found = none ∧ ∃ text, Behind p text q ∧ (∀ ch ∈ text, is ch = true) ∧ least ≤ units text ∧
      (text = [] ∨ ∀ m ∈ most, units text ≤ m) := by
  obtain ⟨before,rest⟩ := p
  simp only [ends,List.mem_map,List.mem_filter,Prod.mk.injEq,decide_eq_true_eq,Prod.exists]
  constructor
  · rintro ⟨n,place,⟨inside,enough⟩,rfl,rfl⟩
    obtain ⟨text,behind,all_,rfl,short⟩ := (memRuns most rest 0 before n).mp inside
    rw [Nat.zero_add] at enough short
    exact ⟨rfl,text,behind,all_,enough,short⟩
  · rintro ⟨rfl,text,behind,all_,enough,short⟩
    refine ⟨units text,q,⟨(memRuns most rest 0 before _).mpr ⟨text,behind,all_,(Nat.zero_add _).symm,short⟩,enough⟩,rfl,rfl⟩

theorem memGroup {inner} : (q,found) ∈ (Pattern.group inner).ends p ↔
    (∃ other, (q,other) ∈ inner.ends p) ∧ found = some (p.rest.take (p.rest.length - q.rest.length)) := by
  simp only [ends,List.mem_map,Prod.mk.injEq,Prod.exists]
  constructor
  · rintro ⟨place,other,inside,rfl,rfl⟩
    exact ⟨⟨other,inside⟩,rfl⟩
  · rintro ⟨⟨other,inside⟩,rfl⟩
    exact ⟨q,other,inside,rfl,rfl⟩

theorem searchSome {pattern : Pattern} {back} (front : List Char) : ∀ before,
    pattern.ends ⟨front.reverse ++ before,back⟩ ≠ [] → (pattern.search before (front ++ back)).isSome = true := by
  have here : ∀ before rest, pattern.ends ⟨before,rest⟩ ≠ [] → (pattern.search before rest).isSome = true := by
    intro before rest some_
    obtain ⟨found,first⟩ := Option.ne_none_iff_exists'.mp fun none_ => some_ (List.head?_eq_none_iff.mp none_)
    cases rest <;> simp [search,first]
  induction front with
  | nil => exact fun before some_ => here before back some_
  | cons ch front ih =>
    intro before some_
    rw [List.cons_append,search]
    split
    · rfl
    · exact ih (ch::before) (by simpa using some_)

def Apart (pattern : Pattern) : Prop :=
  ∀ p last front back, last ∈ pattern.ends p → p.rest = front ++ back → front ≠ [] →
    (pattern.ends ⟨front.reverse ++ p.before,back⟩).head? ≠ none → p.rest.length - last.1.rest.length ≤ front.length

theorem memCaptures {pattern} (apart : pattern.Apart) {its} (text : List Char) : ∀ before skip,
    its ∈ captures pattern before skip text ↔ ∃ front back last, text = front ++ back ∧ skip ≤ front.length ∧ back ≠ [] ∧
      (pattern.ends ⟨front.reverse ++ before,back⟩).head? = some (last,some its) := by
  induction text with
  | nil =>
    intro before skip
    simp only [captures,List.not_mem_nil,false_iff,not_exists,not_and]
    intro front back last whole _ some_
    exact absurd (List.append_eq_nil_iff.mp whole.symm).2 some_
  | cons ch rest ih =>
    intro before skip
    -- A match behind the first character is one of the rest.
    have later : ∀ skip, (∃ front back last, rest = front ++ back ∧ skip ≤ front.length ∧ back ≠ [] ∧
          (pattern.ends ⟨front.reverse ++ ch::before,back⟩).head? = some (last,some its)) ↔
        ∃ front back last, ch::rest = front ++ back ∧ skip + 1 ≤ front.length ∧ back ≠ [] ∧
          (pattern.ends ⟨front.reverse ++ before,back⟩).head? = some (last,some its) := by
      intro skip
      constructor
      · rintro ⟨front,back,last,rfl,long,some_,here⟩
        exact ⟨ch::front,back,last,rfl,Nat.succ_le_succ long,some_,by simpa using here⟩
      · rintro ⟨front,back,last,whole,long,some_,here⟩
        cases front with
        | nil => simp at long
        | cons other front =>
          obtain ⟨rfl,rfl⟩ := List.cons.inj whole
          exact ⟨front,back,last,rfl,Nat.le_of_succ_le_succ long,some_,by simpa using here⟩
    cases skip with
    | succ skip => rw [captures,ih,later]
    | zero =>
      simp only [captures]
      cases first : (pattern.ends ⟨before,ch::rest⟩).head? with
      | none =>
        rw [ih,later]
        constructor
        · rintro ⟨front,back,last,whole,-,some_,here⟩
          exact ⟨front,back,last,whole,Nat.zero_le _,some_,here⟩
        · rintro ⟨front,back,last,whole,-,some_,here⟩
          cases front with
          | nil =>
            cases whole
            cases first.symm.trans here
          | cons other front => exact ⟨other::front,back,last,whole,by simp,some_,here⟩
      | some match_ =>
        obtain ⟨last,found⟩ := match_
        rw [List.mem_append,Option.mem_toList,ih,later]
        constructor
        · rintro (here | ⟨front,back,last,whole,-,some_,here⟩)
          · exact ⟨[],ch::rest,last,rfl,Nat.zero_le _,by simp,by rw [List.reverse_nil,List.nil_append,first,here]⟩
          · exact ⟨front,back,last,whole,Nat.zero_le _,some_,here⟩
        · rintro ⟨front,back,next,whole,-,some_,here⟩
          cases front with
          | nil =>
            cases whole
            cases first.symm.trans here
            exact .inl rfl
          | cons other front =>
            have far := apart ⟨before,ch::rest⟩ (last,found) (other::front) back (List.mem_of_head? first) whole (by simp)
              (by rw [here]; simp)
            refine .inr ⟨other::front,back,next,whole,?_,some_,here⟩
            simp only [List.length_cons] at far ⊢
            omega

end Pattern
end Clankermux
