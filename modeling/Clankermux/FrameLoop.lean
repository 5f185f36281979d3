import Clankermux.FramedReading

/-! A loop over the frames of a body that arrives in chunks, with a decoder that may refuse a chunk, a handler that may
fail, and perhaps a limit on the length of a frame, which is also put on what is left in the buffer. The loop reads no
further once the handler has come to an end of its own. -/
namespace Clankermux.FrameLoop
open FramedReading

structure Reader (δ σ ω : Type*) where
  decode : δ → List UInt8 → Option (δ × List Char)
  terminal : σ → Bool
  process : σ → List Char → Option (List ω × σ)
  close : σ → Option (List ω)
  limit : Option Nat

variable {δ σ ω : Type*} (r : Reader δ σ ω)

def Reader.exceeds (text : List Char) : Bool := r.limit.any (· < units text)

def serve (s : σ) (buffer : List Char) : List ω × Option (σ × List Char) :=
  match _found : nextFrame buffer with
  | none => if r.exceeds buffer then ([],none) else ([],some (s,buffer))
  | some (frame,_,rest) =>
    if r.exceeds frame then ([],none)
    else
      match r.process s frame with
      | none => ([],none)
      | some (out,after) =>
        if r.terminal after then (out,some (after,rest)) else (out ++ (serve after rest).1,(serve after rest).2)
termination_by buffer.length
decreasing_by all_goals exact nextFrameShorter _found

@[grind] def readAll (d : δ) (s : σ) (buffer : List Char) : List (List UInt8) → List ω × Option (σ × List Char)
  | [] => ([],some (s,buffer))
  | chunk::rest =>
    if r.terminal s then ([],some (s,buffer))
    else
      match r.decode d chunk with
      | none => ([],none)
      | some (d,text) =>
        match serve r s (buffer ++ text) with
        | (out,none) => (out,none)
        | (out,some (s,left)) => (out ++ (readAll d s left rest).1,(readAll d s left rest).2)

def finish : List ω × Option (σ × List Char) → List ω × Bool
  | (out,none) => (out,true)
  | (out,some (s,left)) =>
    if r.exceeds left then (out,true)
    else
      match r.close s with
      | none => (out,true)
      | some more => (out ++ more,false)

def outcome (d : δ) (s : σ) (packets : List (List UInt8)) : List ω × Bool := finish r (readAll r d s [] packets)

def conclude (s : σ) (text : List Char) : List ω × Bool := finish r (serve r s text)

structure Reader.Lawful : Prop where
  decodeNil : ∀ d, r.decode d [] = some (d,[])
  decodeAppend : ∀ d bytes more, r.decode d (bytes ++ more) =
    (r.decode d bytes).bind (fun mid => (r.decode mid.1 more).map (fun last => (last.1,mid.2 ++ last.2)))
  decodeSplit : r.limit ≠ none → ∀ d bytes d' front back, r.decode d bytes = some (d',front ++ back) →
    ∃ first second mid, bytes = first ++ second ∧ r.decode d first = some (mid,front) ∧ r.decode mid second = some (d',back)
  announced : ∀ s frame out after, r.terminal s = false → r.process s frame = some (out,after) → r.terminal after = true → out ≠ []
  closes : ∀ s, r.terminal s = true → (r.close s).isSome = true

variable {r} {s after last : σ} {text more frame rest left : List Char} {length : Nat} {out yielded others : List ω}

theorem serveOpen (none_ : nextFrame text = none) (short : r.exceeds text = false) : serve r s text = ([],some (s,text)) := by
  rw [serve]
  split
  · rw [if_neg (by simp [short])]
  · rename_i found
    cases none_.symm.trans found

theorem serveLeft (none_ : nextFrame text = none) (long : r.exceeds text = true) : serve r s text = ([],none) := by
  rw [serve]
  split
  · rw [if_pos long]
  · rename_i found
    cases none_.symm.trans found

section
variable (found : nextFrame text = some (frame,length,rest))
include found

theorem serveLong (long : r.exceeds frame = true) : serve r s text = ([],none) := by
  rw [serve]
  split
  · rename_i none_
    cases none_.symm.trans found
  · rename_i found_
    cases found_.symm.trans found
    rw [if_pos long]

theorem serveFailed (short : r.exceeds frame = false)
    (failed : r.process s frame = none) : serve r s text = ([],none) := by
  rw [serve]
  split
  · rename_i none_
    cases none_.symm.trans found
  · rename_i found_
    cases found_.symm.trans found
    rw [if_neg (by simp [short]),failed]

theorem serveEnds (short : r.exceeds frame = false)
    (processed : r.process s frame = some (out,after)) (ends : r.terminal after = true) : serve r s text = (out,some (after,rest)) := by
  rw [serve]
  split
  · rename_i none_
    cases none_.symm.trans found
  · rename_i found_
    cases found_.symm.trans found
    simp [short,processed,ends]

theorem serveStep (short : r.exceeds frame = false)
    (processed : r.process s frame = some (out,after)) (going : r.terminal after = false) :
    serve r s text = (out ++ (serve r after rest).1,(serve r after rest).2) := by
  rw [serve]
  split
  · rename_i none_
    cases none_.symm.trans found
  · rename_i found_
    cases found_.symm.trans found
    simp [short,processed,going]

end

inductive Reaches (r : Reader δ σ ω) : σ → List Char → List ω → σ → List Char → Prop where
  | here (s : σ) (text : List Char) : Reaches r s text [] s text
  | step {s after last : σ} {text frame rest left length out more}
    (found : nextFrame text = some (frame,length,rest)) (short : r.exceeds frame = false) (processed : r.process s frame = some (out,after))
    (going : r.terminal after = false) (later : Reaches r after rest more last left) : Reaches r s text (out ++ more) last left

theorem Reaches.trans {final end_} (first : Reaches r s text yielded last left)
    (second : Reaches r last left others final end_) : Reaches r s text (yielded ++ others) final end_ := by
  induction first with
  | here => exact second
  | step found short processed going _ ih =>
    rw [List.append_assoc]
    exact .step found short processed going (ih second)

theorem Reaches.behind (reaches : Reaches r s text yielded last left) (more : List Char) :
    Reaches r s (text ++ more) yielded last (left ++ more) := by
  induction reaches with
  | here => exact .here _ _
  | step found short processed going _ ih => exact .step (nextFrameMore _ more found) short processed going ih

theorem Reaches.serve (reaches : Reaches r s text yielded last left) :
    FrameLoop.serve r s text = (yielded ++ (FrameLoop.serve r last left).1,(FrameLoop.serve r last left).2) := by
  induction reaches with
  | here => rfl
  | step found short processed going _ ih => rw [serveStep found short processed going,ih,List.append_assoc]

theorem finishAhead (r : Reader δ σ ω) (yielded : List ω) (rest : List ω × Option (σ × List Char)) :
    finish r (yielded ++ rest.1,rest.2) = (yielded ++ (finish r rest).1,(finish r rest).2) := by
  obtain ⟨out,ends⟩ := rest
  cases ends with
  | none => rfl
  | some stopped =>
    obtain ⟨s,left⟩ := stopped
    simp only [finish]
    split
    · rfl
    · cases r.close s with
      | none => rfl
      | some more => simp

theorem Reaches.conclude (reaches : Reaches r s text yielded last left) :
    FrameLoop.conclude r s text = (yielded ++ (FrameLoop.conclude r last left).1,(FrameLoop.conclude r last left).2) := by
  rw [FrameLoop.conclude,reaches.serve,finishAhead,FrameLoop.conclude]

inductive Served (r : Reader δ σ ω) (s : σ) (text : List Char) : List ω × Option (σ × List Char) → Prop where
  | waits {out : List ω} {last left} (reaches : Reaches r s text out last left) (none_ : nextFrame left = none)
    (short : r.exceeds left = false) : Served r s text (out,some (last,left))
  | leftLong {out : List ω} {last left} (reaches : Reaches r s text out last left) (none_ : nextFrame left = none)
    (long : r.exceeds left = true) : Served r s text (out,none)
  | overlong {out : List ω} {last left frame rest length} (reaches : Reaches r s text out last left)
    (found : nextFrame left = some (frame,length,rest)) (long : r.exceeds frame = true) : Served r s text (out,none)
  | failed {out : List ω} {last left frame rest length} (reaches : Reaches r s text out last left)
    (found : nextFrame left = some (frame,length,rest)) (short : r.exceeds frame = false) (failed : r.process last frame = none) :
    Served r s text (out,none)
  | ended {out more : List ω} {last after left frame rest length} (reaches : Reaches r s text out last left)
    (found : nextFrame left = some (frame,length,rest)) (short : r.exceeds frame = false) (processed : r.process last frame = some (more,after))
    (ends : r.terminal after = true) : Served r s text (out ++ more,some (after,rest))

theorem served (r : Reader δ σ ω) (text : List Char) : ∀ s, Served r s text (serve r s text) := by
  induction size : text.length using Nat.strongRecOn generalizing text with
  | ind n ih =>
    intro s
    cases found : nextFrame text with
    | none =>
      cases long : r.exceeds text with
      | false => exact serveOpen found long ▸ .waits (.here _ _) found long
      | true => exact serveLeft found long ▸ .leftLong (.here _ _) found long
    | some next =>
      obtain ⟨frame,length,rest⟩ := next
      cases long : r.exceeds frame with
      | true => exact serveLong found long ▸ .overlong (.here _ _) found long
      | false =>
        cases processed : r.process s frame with
        | none => exact serveFailed found long processed ▸ .failed (.here _ _) found long processed
        | some done =>
          obtain ⟨out,after⟩ := done
          cases going : r.terminal after with
          | true => exact serveEnds found long processed going ▸ .ended (.here _ _) found long processed going
          | false =>
            rw [serveStep found long processed going]
            have later := ih rest.length (size ▸ nextFrameShorter found) rest rfl after
            generalize serve r after rest = ends at later
            cases later with
            | waits reaches none_ short => exact .waits (.step found long processed going reaches) none_ short
            | leftLong reaches none_ long_ => exact .leftLong (.step found long processed going reaches) none_ long_
            | overlong reaches found_ long_ => exact .overlong (.step found long processed going reaches) found_ long_
            | failed reaches found_ short failed => exact .failed (.step found long processed going reaches) found_ short failed
            | ended reaches found_ short processed_ ends =>
              simp only [← List.append_assoc]
              exact .ended (.step found long processed going reaches) found_ short processed_ ends

end Clankermux.FrameLoop
