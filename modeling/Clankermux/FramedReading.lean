import Clankermux.FatalUtf8
import Mathlib.Data.List.Basic

/-! A text that is cut at its blank lines while it is still growing. A blank line is two line
ends in a row, each with or without a carriage return. -/
namespace Clankermux.Framing

@[grind] def blankLine : List Char → Option Nat
  | '\n' :: '\n' :: _ => some 2
  | '\n' :: '\r' :: '\n' :: _ => some 3
  | '\r' :: '\n' :: '\n' :: _ => some 3
  | '\r' :: '\n' :: '\r' :: '\n' :: _ => some 4
  | _ => none

theorem blankLineLength {text length} (blank : blankLine text = some length) :
    2 ≤ length ∧ length ≤ text.length := by
  unfold blankLine at blank
  split at blank <;> simp_all <;> omega

theorem blankLineExtends {text length} (blank : blankLine text = some length) (more : List Char) :
    blankLine (text ++ more) = some length := by
  unfold blankLine at blank
  split at blank <;> simp_all [blankLine]

end Clankermux.Framing

/-! A body of frames, each ended by a blank line, that is read in chunks of bytes: a decoder that
takes only UTF-8, a buffer, a handler of frames with a state of its own, and a limit on the length of
a frame that is also put on what is left in the buffer. -/
namespace Clankermux.FramedReading
open Framing

def unit (ch : Char) : Nat := if ch.toNat < 0x10000 then 1 else 2

def units (text : List Char) : Nat := (text.map unit).sum

theorem unitsAppend (text more : List Char) : units (text ++ more) = units text + units more := by
  simp [units]

theorem unitsPrefix {text more : List Char} (before : text <+: more) : units text ≤ units more := by
  obtain ⟨rest,rfl⟩ := before
  rw [unitsAppend]
  exact Nat.le_add_right _ _

@[grind] def nextFrame : List Char → Option (List Char × Nat × List Char)
  | [] => none
  | ch::rest =>
    match blankLine (ch::rest) with
    | some length => some ([],length,(ch::rest).drop length)
    | none => (nextFrame rest).map (fun next => (ch::next.1,next.2))

theorem nextFrameCons (ch : Char) (rest : List Char) (open_ : blankLine (ch::rest) = none) :
    nextFrame (ch::rest) = (nextFrame rest).map (fun next => (ch::next.1,next.2)) := by
  rw [nextFrame,open_]

theorem blankLineLate {text more length} (open_ : blankLine text = none) (blank : blankLine (text ++ more) = some length) :
    nextFrame text = none := by
  match text with
  | [] => rfl
  | [a] =>
    simp only [blankLine] at blank
    split at blank <;> simp_all [nextFrame]
  | [a,b] =>
    simp only [blankLine] at blank
    split at blank <;> simp_all [nextFrame,blankLine]
  | [a,b,c] =>
    simp only [blankLine] at blank
    split at blank <;> simp_all [nextFrame,blankLine]
  | a::b::c::d::rest =>
    simp only [blankLine] at blank
    split at blank <;> simp_all [blankLine]

variable {text more frame rest : List Char} {length : Nat}

theorem nextFrameMore (text more : List Char) : ∀ {frame length rest}, nextFrame text = some (frame,length,rest) →
    nextFrame (text ++ more) = some (frame,length,rest ++ more) := by
  induction text with
  | nil => exact fun found => absurd found (by simp [nextFrame])
  | cons ch text ih =>
    intro frame length rest found
    cases blank : blankLine (ch::text) with
    | some here =>
      rw [nextFrame,blank] at found
      cases found
      have longer := blankLineExtends blank more
      rw [List.cons_append] at longer ⊢
      rw [nextFrame,longer,← List.cons_append]
      simp only [List.drop_append_of_le_length (blankLineLength blank).2]
    | none =>
      rw [nextFrameCons ch text blank] at found
      obtain ⟨⟨inner,length_,rest_⟩,next,same⟩ := Option.map_eq_some_iff.mp found
      cases same
      have still : blankLine (ch::text ++ more) = none := by
        cases longer : blankLine (ch::text ++ more) with
        | none => rfl
        | some other =>
          have none_ := blankLineLate blank longer
          rw [nextFrameCons ch text blank,next] at none_
          cases none_
      rw [List.cons_append] at still ⊢
      rw [nextFrameCons ch _ still,ih next]
      rfl

def IsBlank (line : List Char) : Prop := blankLine line = some line.length ∧ units line = line.length ∧ line ≠ []

theorem blankDropped {line : List Char} (blank : IsBlank line) : units line.dropLast = line.length - 1 := by
  obtain ⟨whole,-,-⟩ := blank
  unfold blankLine at whole
  split at whole <;> simp_all [units,unit]

theorem blankTaken (blank : blankLine text = some length) : IsBlank (text.take length) ∧ (text.take length).length = length := by
  unfold blankLine at blank
  split at blank <;> simp_all <;> subst blank <;> simp [IsBlank,blankLine,units,unit]

theorem nextFrameParts (text : List Char) : ∀ {frame length rest}, nextFrame text = some (frame,length,rest) → ∃ line, IsBlank line ∧
    line.length = length ∧ text = frame ++ line ++ rest ∧ nextFrame (frame ++ line) = some (frame,length,[]) := by
  induction text with
  | nil => exact fun found => absurd found (by simp [nextFrame])
  | cons ch text ih =>
    intro frame length rest found
    cases blank : blankLine (ch::text) with
    | some here =>
      rw [nextFrame,blank] at found
      cases found
      obtain ⟨isBlank,size⟩ := blankTaken blank
      refine ⟨(ch::text).take length,isBlank,size,(List.take_append_drop length (ch::text)).symm,?_⟩
      rw [List.nil_append]
      cases taken : (ch::text).take length with
      | nil => exact absurd taken isBlank.2.2
      | cons first others =>
        have whole := isBlank.1
        rw [taken] at whole size
        rw [nextFrame,whole,size]
        simp only [List.drop_of_length_le (Nat.le_of_eq size)]
    | none =>
      rw [nextFrameCons ch text blank] at found
      obtain ⟨⟨inner,length_,rest_⟩,next,same⟩ := Option.map_eq_some_iff.mp found
      cases same
      obtain ⟨line,isBlank,size,rfl,alone⟩ := ih next
      refine ⟨line,isBlank,size,by simp,?_⟩
      have still : blankLine (ch::(inner ++ line)) = none := by
        cases shorter : blankLine (ch::(inner ++ line)) with
        | none => rfl
        | some other =>
          have longer := blankLineExtends shorter rest
          cases blank.symm.trans longer
      rw [List.cons_append,nextFrameCons ch _ still,alone]
      rfl

theorem nextFrameShorter (found : nextFrame text = some (frame,length,rest)) : rest.length < text.length := by
  obtain ⟨line,isBlank,-,rfl,-⟩ := nextFrameParts text found
  have some_ := List.length_pos_iff.mpr isBlank.2.2
  simp only [List.length_append]
  omega

theorem nextFrameOpen {line short : List Char} (alone : nextFrame (frame ++ line) = some (frame,length,[])) (before : short <+: frame ++ line)
    (less : short.length < (frame ++ line).length) : nextFrame short = none := by
  cases found : nextFrame short with
  | none => rfl
  | some next =>
    obtain ⟨inner,size,left⟩ := next
    obtain ⟨rest,same⟩ := before
    have whole := nextFrameMore short rest found
    rw [same,alone] at whole
    have empty := (Prod.mk.inj (Prod.mk.inj (Option.some.inj whole)).2).2
    have none_ : rest = [] := (List.append_eq_nil_iff.mp empty.symm).2
    rw [← same,none_,List.append_nil] at less
    exact absurd less (Nat.lt_irrefl _)

theorem frameTaken (found : nextFrame text = some (frame,length,rest)) :
    ∃ taken, text = taken ++ rest ∧ ∀ other, nextFrame (taken ++ other) = some (frame,length,other) := by
  obtain ⟨line,-,-,rfl,alone⟩ := nextFrameParts _ found
  exact ⟨frame ++ line,rfl,fun other => nextFrameMore _ other alone⟩

theorem frameShort (found : nextFrame text = some (frame,length,rest)) :
    ∃ head tail, text = head ++ tail ∧ nextFrame head = none ∧ units head = units frame + (length - 1) := by
  obtain ⟨line,blank,size,rfl,alone⟩ := nextFrameParts _ found
  have split : line.dropLast ++ [line.getLast blank.2.2] = line := List.dropLast_append_getLast blank.2.2
  refine ⟨frame ++ line.dropLast,[line.getLast blank.2.2] ++ rest,?_,?_,?_⟩
  · nth_rewrite 1 [← split]
    simp only [List.append_assoc]
  · refine nextFrameOpen alone ((List.prefix_append_right_inj frame).mpr (List.dropLast_prefix line)) ?_
    have some_ := List.length_pos_iff.mpr blank.2.2
    simp only [List.length_append,List.length_dropLast]
    omega
  · rw [unitsAppend,blankDropped blank,size]

theorem openUnits {left more : List Char} (none_ : nextFrame left = none) (found : nextFrame (left ++ more) = some (frame,length,rest)) :
    units left ≤ units frame + (length - 1) := by
  obtain ⟨line,blank,size,whole,alone⟩ := nextFrameParts _ found
  have before : left <+: frame ++ line.dropLast := by
    have split : line.dropLast ++ [line.getLast blank.2.2] = line := List.dropLast_append_getLast blank.2.2
    have both : left <+: left ++ more ∧ frame ++ line <+: left ++ more :=
      ⟨List.prefix_append _ _,whole ▸ List.prefix_append _ _⟩
    rcases List.prefix_or_prefix_of_prefix both.1 both.2 with early | late
    · rw [← split,← List.append_assoc] at early
      rcases List.prefix_concat_iff.mp early with all | part
      · rw [all,List.append_assoc,split,alone] at none_
        cases none_
      · exact part
    · obtain ⟨behind,rfl⟩ := late
      rw [nextFrameMore _ behind alone] at none_
      cases none_
  have most := unitsPrefix before
  rwa [unitsAppend,blankDropped blank,size] at most

structure Handler (σ ω ε : Type*) where
  terminal : σ → Bool
  process : σ → List Char → Except ε (List ω × σ)
  limit : Nat
  tooLong : ε
  ended : ε
  malformed : ε
  apart : tooLong ≠ ended

variable {σ ω ε : Type*} (h : Handler σ ω ε)

def serve (s : σ) (buffer : List Char) : List ω × Except ε (σ × List Char) :=
  match _found : nextFrame buffer with
  | none => ([],.ok (s,buffer))
  | some (frame,_,rest) =>
    if h.terminal s then ([],.ok (s,buffer))
    else if h.limit < units frame then ([],.error h.tooLong)
    else
      match h.process s frame with
      | .error failure => ([],.error failure)
      | .ok (out,after) => (out ++ (serve after rest).1,(serve after rest).2)
termination_by buffer.length
decreasing_by all_goals exact nextFrameShorter _found

@[grind] def readAll (d : Utf8.Decoder) (s : σ) (buffer : List Char) : List (List UInt8) → List ω × Option ε
  | [] => if h.terminal s then ([],none) else ([],some (if d.bytesNeeded = 0 then h.ended else h.malformed))
  | chunk::rest =>
    if h.terminal s then ([],none)
    else
      match Utf8.decodeFatal d chunk with
      | none => ([],some h.malformed)
      | some (d,text) =>
        match serve h s (buffer ++ text) with
        | (out,.error failure) => (out,some failure)
        | (out,.ok (s,left)) =>
          if h.terminal s = false ∧ h.limit < units left then (out,some h.tooLong)
          else (out ++ (readAll d s left rest).1,(readAll d s left rest).2)

def conclude (s : σ) (text : List Char) : List ω × Option ε :=
  match serve h s text with
  | (out,.error failure) => (out,some failure)
  | (out,.ok (s,left)) => (out,if h.terminal s then none else some (if h.limit < units left then h.tooLong else h.ended))

variable {h} {s after : σ} {out : List ω} {failure : ε}

theorem serveNone (none_ : nextFrame text = none) : serve h s text = ([],.ok (s,text)) := by
  rw [serve]
  split
  · rfl
  · rename_i found
    cases none_.symm.trans found

theorem serveTerminal (terminal : h.terminal s = true) : serve h s text = ([],.ok (s,text)) := by
  rw [serve]
  split
  · rfl
  · rw [if_pos terminal]

section
variable (going : h.terminal s = false) (found : nextFrame text = some (frame,length,rest))
include going found

theorem serveFound : serve h s text =
    if h.limit < units frame then ([],.error h.tooLong)
    else
      match h.process s frame with
      | .error failure => ([],.error failure)
      | .ok (out,after) => (out ++ (serve h after rest).1,(serve h after rest).2) := by
  rw [serve]
  split
  · rename_i none_
    cases none_.symm.trans found
  · rename_i found_
    cases found_.symm.trans found
    rw [if_neg (by simp [going])]

theorem serveLong (long : h.limit < units frame) : serve h s text = ([],.error h.tooLong) := by
  rw [serveFound going found,if_pos long]

theorem serveFailed (short : units frame ≤ h.limit) (failed : h.process s frame = .error failure) :
    serve h s text = ([],.error failure) := by
  rw [serveFound going found,if_neg (Nat.not_lt.mpr short),failed]

theorem serveStep (short : units frame ≤ h.limit) (processed : h.process s frame = .ok (out,after)) :
    serve h s text = (out ++ (serve h after rest).1,(serve h after rest).2) := by
  rw [serveFound going found,if_neg (Nat.not_lt.mpr short),processed]

end

inductive Reaches (h : Handler σ ω ε) : σ → List Char → List ω → σ → List Char → Prop where
  | here (s : σ) (text : List Char) : Reaches h s text [] s text
  | step {s after last} {text frame rest left : List Char} {length out more} (going : h.terminal s = false)
    (found : nextFrame text = some (frame,length,rest)) (short : units frame ≤ h.limit) (processed : h.process s frame = .ok (out,after))
    (later : Reaches h after rest more last left) : Reaches h s text (out ++ more) last left

variable {last : σ} {left : List Char} {yielded : List ω}

theorem Reaches.trans {final : σ} {end_ others} (first : Reaches h s text yielded last left)
    (second : Reaches h last left others final end_) : Reaches h s text (yielded ++ others) final end_ := by
  induction first with
  | here => exact second
  | step going found short processed _ ih =>
    rw [List.append_assoc]
    exact .step going found short processed (ih second)

theorem Reaches.behind (reaches : Reaches h s text yielded last left) (more : List Char) : Reaches h s (text ++ more) yielded last (left ++ more) := by
  induction reaches with
  | here => exact .here _ _
  | step going found short processed _ ih => exact .step going (nextFrameMore _ more found) short processed ih

theorem Reaches.serve (reaches : Reaches h s text yielded last left) :
    FramedReading.serve h s text = (yielded ++ (FramedReading.serve h last left).1,(FramedReading.serve h last left).2) := by
  induction reaches with
  | here => rfl
  | step going found short processed _ ih =>
    rw [serveStep going found short processed,ih,List.append_assoc]

theorem Reaches.conclude (reaches : Reaches h s text yielded last left) :
    FramedReading.conclude h s text = (yielded ++ (FramedReading.conclude h last left).1,(FramedReading.conclude h last left).2) := by
  rw [FramedReading.conclude,reaches.serve,FramedReading.conclude]
  cases served : FramedReading.serve h last left with
  | mk out ends => cases ends <;> rfl

inductive Served (h : Handler σ ω ε) (s : σ) (text : List Char) : List ω × Except ε (σ × List Char) → Prop where
  | stopped {out : List ω} {last left} (reaches : Reaches h s text out last left)
    (stops : h.terminal last = true ∨ nextFrame left = none) : Served h s text (out,.ok (last,left))
  | overlong {out : List ω} {last} {left frame rest : List Char} {length : Nat} (reaches : Reaches h s text out last left)
    (going : h.terminal last = false) (found : nextFrame left = some (frame,length,rest)) (long : h.limit < units frame) :
    Served h s text (out,.error h.tooLong)
  | failed {out : List ω} {last} {left frame rest : List Char} {length failure} (reaches : Reaches h s text out last left)
    (going : h.terminal last = false) (found : nextFrame left = some (frame,length,rest)) (short : units frame ≤ h.limit)
    (failed : h.process last frame = .error failure) : Served h s text (out,.error failure)

theorem served (h : Handler σ ω ε) (text : List Char) : ∀ s, Served h s text (serve h s text) := by
  induction size : text.length using Nat.strongRecOn generalizing text with
  | ind n ih =>
    intro s
    cases found : nextFrame text with
    | none =>
      rw [serveNone found]
      exact .stopped (.here _ _) (.inr found)
    | some next =>
      obtain ⟨frame,length,rest⟩ := next
      cases going : h.terminal s with
      | true =>
        rw [serveTerminal going]
        exact .stopped (.here _ _) (.inl going)
      | false =>
        by_cases long : h.limit < units frame
        · rw [serveLong going found long]
          exact .overlong (.here _ _) going found long
        · have short := Nat.not_lt.mp long
          cases processed : h.process s frame with
          | error failure =>
            rw [serveFailed going found short processed]
            exact .failed (.here _ _) going found short processed
          | ok done =>
            obtain ⟨out,after⟩ := done
            rw [serveStep going found short processed]
            have later := ih rest.length (size ▸ nextFrameShorter found) rest rfl after
            generalize serve h after rest = ends at later
            cases later with
            | stopped reaches stops => exact .stopped (.step going found short processed reaches) stops
            | overlong reaches going_ found_ long_ => exact .overlong (.step going found short processed reaches) going_ found_ long_
            | failed reaches going_ found_ short_ failed_ => exact .failed (.step going found short processed reaches) going_ found_ short_ failed_

def Marginal (h : Handler σ ω ε) (text : List Char) : Prop := ∃ frame length rest, nextFrame text = some (frame,length,rest) ∧
  units frame ≤ h.limit ∧ h.limit < units frame + (length-1)

inductive Muted (h : Handler σ ω ε) : σ → List Char → Prop where
  | tail {s : σ} {text} (going : h.terminal s = false) (none_ : nextFrame text = none) (long : h.limit < units text) : Muted h s text
  | overlong {s : σ} {text frame rest : List Char} {length} (going : h.terminal s = false) (found : nextFrame text = some (frame,length,rest))
    (long : h.limit < units frame) : Muted h s text
  | failed {s : σ} {text frame rest : List Char} {length} (going : h.terminal s = false) (found : nextFrame text = some (frame,length,rest))
    (short : units frame ≤ h.limit) (failed : h.process s frame = .error h.tooLong) : Muted h s text
  | silent {s after : σ} {text frame rest length} (going : h.terminal s = false) (found : nextFrame text = some (frame,length,rest))
    (short : units frame ≤ h.limit) (processed : h.process s frame = .ok ([],after)) (later : Muted h after rest) : Muted h s text

theorem Muted.concludes (muted : Muted h s text) : conclude h s text = ([],some h.tooLong) := by
  induction muted with
  | tail going none_ long => simp [conclude,serveNone none_,going,long]
  | overlong going found long => rw [conclude,serveLong going found long]
  | failed going found short failed => rw [conclude,serveFailed going found short failed]
  | silent going found short processed _ ih =>
    rw [(Reaches.step going found short processed (.here _ _)).conclude,ih]
    rfl

theorem mutedOf (h : Handler σ ω ε) (text : List Char) : ∀ s, conclude h s text = ([],some h.tooLong) → Muted h s text := by
  induction size : text.length using Nat.strongRecOn generalizing text with
  | ind n ih =>
    intro s same
    cases going : h.terminal s with
    | true => simp [conclude,serveTerminal going,going] at same
    | false =>
      cases found : nextFrame text with
      | none =>
        refine .tail going found ?_
        by_contra short
        simp only [conclude,serveNone found,going,if_neg short] at same
        exact h.apart (Option.some.inj (Prod.mk.inj same).2).symm
      | some next =>
        obtain ⟨frame,length,rest⟩ := next
        by_cases long : h.limit < units frame
        · exact .overlong going found long
        · have short := Nat.not_lt.mp long
          cases processed : h.process s frame with
          | error failure =>
            rw [conclude,serveFailed going found short processed] at same
            exact .failed going found short (processed.trans (congrArg _ (Option.some.inj (Prod.mk.inj same).2)))
          | ok done =>
            obtain ⟨out,after⟩ := done
            rw [(Reaches.step going found short processed (.here _ _)).conclude,List.append_nil] at same
            obtain ⟨empty,none_⟩ := List.append_eq_nil_iff.mp (Prod.mk.inj same).1
            subst empty
            exact .silent going found short processed (ih rest.length (size ▸ nextFrameShorter found) rest rfl after
              (Prod.ext none_ (Prod.mk.inj same).2))

def Calm (h : Handler σ ω ε) (s : σ) (text : List Char) : Prop := ∀ yielded last left, Reaches h s text yielded last left →
  h.terminal last = false → Marginal h left → Muted h last left

theorem Calm.later (calm : Calm h s text) (reaches : Reaches h s text yielded last left) : Calm h last left :=
  fun _ _ _ further going marginal => calm _ _ _ (reaches.trans further) going marginal

theorem Calm.leftLong (calm : Calm h s (left ++ more)) (going : h.terminal s = false) (open_ : nextFrame left = none) (long : h.limit < units left) :
    conclude h s (left ++ more) = ([],some h.tooLong) := by
  cases found : nextFrame (left ++ more) with
  | none =>
    have longer : h.limit < units (left ++ more) := Nat.lt_of_lt_of_le long (unitsPrefix (List.prefix_append _ _))
    exact (Muted.tail going found longer).concludes
  | some next =>
    obtain ⟨frame,length,rest⟩ := next
    by_cases excess : h.limit < units frame
    · exact (Muted.overlong going found excess).concludes
    · have bound := openUnits open_ found
      exact (calm _ _ _ (.here _ _) going ⟨frame,length,rest,found,Nat.not_lt.mp excess,by omega⟩).concludes

theorem Calm.readAll (packets : List (List UInt8)) : ∀ {d d'} {s : σ} (buffer : List Char) {text : List Char}, Calm h s (buffer ++ text) →
    nextFrame buffer = none → units buffer ≤ h.limit → Utf8.decodeFatal d packets.flatten = some (d',text) → d'.bytesNeeded = 0 →
    FramedReading.readAll h d s buffer packets = conclude h s (buffer ++ text) := by
  induction packets with
  | nil =>
    intro d d' s buffer text calm open_ fits decoded complete
    cases decoded
    rw [FramedReading.readAll,List.append_nil,conclude,serveNone open_]
    cases going : h.terminal s with
    | true => simp [going]
    | false => simp [going,complete,Nat.not_lt.mpr fits]
  | cons chunk rest ih =>
    intro d d' s buffer text calm open_ fits decoded complete
    rw [FramedReading.readAll]
    cases going : h.terminal s with
    | true => simp [conclude,serveTerminal going,going]
    | false =>
      rw [List.flatten_cons,Utf8.fatalAppend] at decoded
      obtain ⟨⟨mid,here⟩,first,others⟩ := Option.bind_eq_some_iff.mp decoded
      obtain ⟨⟨d'',there⟩,second,same⟩ := Option.map_eq_some_iff.mp others
      cases same
      rw [first,← List.append_assoc]
      rw [← List.append_assoc] at calm
      have stops := served h (buffer ++ here) s
      simp only [Bool.false_eq_true,if_false]
      generalize serve h s (buffer ++ here) = ends at stops
      cases stops with
      | overlong reaches stays found long =>
        rw [(reaches.behind there).conclude,conclude,serveLong stays (nextFrameMore _ there found) long]
        exact congrArg (Prod.mk · _) (List.append_nil _).symm
      | failed reaches stays found short failed =>
        rw [(reaches.behind there).conclude,conclude,serveFailed stays (nextFrameMore _ there found) short failed]
        exact congrArg (Prod.mk · _) (List.append_nil _).symm
      | @stopped out last left reaches stops =>
        have later := calm.later (reaches.behind there)
        rw [(reaches.behind there).conclude]
        by_cases long : h.terminal last = false ∧ h.limit < units left
        · simp only [if_pos long]
          have none_ : nextFrame left = none := stops.resolve_left (by simp [long.1])
          rw [later.leftLong long.1 none_ long.2]
          exact congrArg (Prod.mk · _) (List.append_nil _).symm
        · simp only [if_neg long]
          cases excess : h.terminal last with
          | true =>
            have finished : FramedReading.readAll h mid last left rest = ([],none) := by
              cases rest <;> simp [FramedReading.readAll,excess]
            rw [finished,conclude,serveTerminal excess]
            simp [excess]
          | false =>
            have none_ : nextFrame left = none := stops.resolve_left (by simp [excess])
            rw [ih left later none_ (Nat.not_lt.mp (fun more => long ⟨excess,more⟩)) second complete]

theorem readOnce {d d' body} (decoded : Utf8.decodeFatal d body = some (d',text)) (complete : d'.bytesNeeded = 0) :
    readAll h d s [] [body] = conclude h s text := by
  rw [readAll]
  cases going : h.terminal s with
  | true => simp [conclude,serveTerminal going,going]
  | false =>
    simp only [decoded,List.nil_append]
    rw [conclude]
    cases served : serve h s text with
    | mk out ends =>
      cases ends with
      | error failure => rfl
      | ok stopped =>
        obtain ⟨last,left⟩ := stopped
        cases excess : h.terminal last with
        | true => simp [readAll,excess]
        | false =>
          by_cases long : h.limit < units left
          · simp [excess,long]
          · simp [readAll,excess,long,complete]

theorem Reaches.cut (reaches : Reaches h s text yielded last left) : ∃ consumed, text = consumed ++ left ∧
    ∀ other, Reaches h s (consumed ++ other) yielded last other := by
  induction reaches with
  | here => exact ⟨[],rfl,fun other => .here _ other⟩
  | step going found short processed _ ih =>
    obtain ⟨consumed,rfl,cuts⟩ := ih
    obtain ⟨taken,rfl,next⟩ := frameTaken found
    refine ⟨taken ++ consumed,by simp,fun other => ?_⟩
    rw [List.append_assoc]
    exact .step going (next _) short processed (cuts other)

theorem Reaches.going (reaches : Reaches h s text yielded last left) (going : h.terminal last = false) : h.terminal s = false := by
  cases reaches with
  | here => exact going
  | step going_ _ _ _ _ => exact going_

theorem readCut {front : List UInt8} (back : List UInt8) {d consumed open_} (reaches : Reaches h s (consumed ++ open_) yielded last open_)
    (going : h.terminal last = false) (decoded : Utf8.decodeFatal .start front = some (d,consumed ++ open_)) (none_ : nextFrame open_ = none)
    (long : h.limit < units open_) : readAll h .start s [] [front,back] = (yielded,some h.tooLong) := by
  rw [readAll,if_neg (by simp [reaches.going going]),decoded]
  simp only [List.nil_append,reaches.serve,serveNone none_,List.append_nil]
  exact if_pos ⟨going,long⟩

theorem unmarked (text : List Char) : ∃ mark, text = mark ++ Utf8.withoutMark text ∧
    ∀ head tail, Utf8.withoutMark text = head ++ tail → Utf8.withoutMark (mark ++ head) = head := by
  cases text with
  | nil =>
    refine ⟨[],rfl,fun head tail same => ?_⟩
    obtain ⟨rfl,-⟩ := List.append_eq_nil_iff.mp same.symm
    rfl
  | cons ch rest =>
    by_cases marked : ch = Utf8.mark
    · exact ⟨[ch],by simp [Utf8.withoutMark,marked],fun head _ _ => by simp [Utf8.withoutMark,marked]⟩
    · refine ⟨[],by simp [Utf8.withoutMark,marked],fun head tail same => ?_⟩
      rw [Utf8.withoutMark,if_neg marked] at same
      cases head with
      | nil => rfl
      | cons first more =>
        obtain ⟨rfl,-⟩ := List.cons.inj same
        simp [Utf8.withoutMark,marked]

theorem cutsCalm (h : Handler σ ω ε) (s : σ) (text : List Char) :
    (∀ packets others, packets.flatten = Utf8.encode text → others.flatten = Utf8.encode text →
      readAll h .start s [] packets = readAll h .start s [] others) ↔ Calm h s (Utf8.withoutMark text) := by
  obtain ⟨same,complete⟩ := Utf8.decodeEncode text
  have decoded : Utf8.decodeFatal .start (Utf8.encode text) = some ((Utf8.decode .start (Utf8.encode text)).1,Utf8.withoutMark text) := by
    rw [Utf8.fatalEncode,← same]
  constructor
  · rintro agree yielded last left reaches going ⟨frame,length,rest,found,short,long⟩
    obtain ⟨consumed,whole,cuts⟩ := reaches.cut
    obtain ⟨head,tail,rfl,open_,size⟩ := frameShort found
    obtain ⟨mark,text_,heads⟩ := unmarked text
    have ahead : Utf8.withoutMark text = (consumed ++ head) ++ tail := by rw [whole,List.append_assoc]
    have front : Utf8.decodeFatal .start (Utf8.encode (mark ++ (consumed ++ head))) =
        some ((Utf8.decode .start (Utf8.encode (mark ++ (consumed ++ head)))).1,consumed ++ head) := by
      have text' := (Utf8.decodeEncode (mark ++ (consumed ++ head))).1
      rw [heads _ _ ahead] at text'
      rw [Utf8.fatalEncode]
      exact congrArg some (Prod.ext rfl text')
    have cut := readCut (Utf8.encode tail) (cuts head) going front open_ (size ▸ long)
    have flat : [Utf8.encode (mark ++ (consumed ++ head)),Utf8.encode tail].flatten = Utf8.encode text := by
      rw [List.flatten_cons,List.flatten_singleton,← Utf8.encodeAppend,List.append_assoc mark,← ahead,← text_]
    have once := (agree [Utf8.encode text] _ (List.flatten_singleton ..) flat).trans cut
    rw [readOnce decoded complete,reaches.conclude] at once
    obtain ⟨outs,ends⟩ := Prod.mk.inj once
    exact mutedOf h _ _ (Prod.ext (List.append_right_eq_self.mp outs) ends)
  · intro calm packets others its theirs
    have fits : units [] ≤ h.limit := Nat.zero_le _
    rw [Calm.readAll packets [] calm rfl fits (its ▸ decoded) complete,Calm.readAll others [] calm rfl fits (theirs ▸ decoded) complete]

end Clankermux.FramedReading
