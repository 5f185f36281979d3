import Clankermux.ChatStream

/-! The stream of a chat completion as its bytes arrive: how the body is cut does not matter but
for the limit on a frame, which one cut puts on the frame and another one also on a part of the blank
line behind it. -/
namespace Clankermux.ChatStream
open FramedReading

/-- However a body of UTF-8 is cut, the chunks, the keepalives and the failure are the same exactly when
no marginal frame is reached, unless nothing comes from it on before something is too long. -/
theorem packetsAgree (st : Stream) (text : List Char) :
    (∀ packets others, packets.flatten = Utf8.encode text → others.flatten = Utf8.encode text → chatChunks st packets = chatChunks st others) ↔
      Calm (handler st) .start (Utf8.withoutMark text) := FramedReading.cutsCalm (handler st) .start text

def comment (n : Nat) : List Char := ':'::List.replicate n 'a'

theorem commentLetters (n : Nat) : ∀ ch ∈ comment n, ch = ':' ∨ ch = 'a' := by
  intro ch inside
  rcases List.mem_cons.mp inside with rfl | inside
  · exact .inl rfl
  · exact .inr (List.eq_of_mem_replicate inside)

theorem commentUnits (n : Nat) : units (comment n) = n+1 := by
  have letter : unit 'a' = 1 := by decide
  have colon : unit ':' = 1 := by decide
  simp [units,comment,letter,colon,Nat.add_comm]

theorem lettersFrame {letters} (plain : ∀ ch ∈ letters, ch = ':' ∨ ch = 'a') : nextFrame (letters ++ ['\n','\n']) = some (letters,2,[]) := by
  induction letters with
  | nil => rfl
  | cons ch rest ih =>
    have open_ : Framing.blankLine (ch::(rest ++ ['\n','\n'])) = none := by
      rcases plain ch (.head _) with rfl | rfl
      · rfl
      · rfl
    rw [List.cons_append,nextFrameCons ch _ open_,ih (fun other inside => plain other (.tail _ inside))]
    rfl

theorem commentKept (st : Stream) (n : Nat) : process st .start (comment n) = .ok ([none],.start) := by
  have open_ : '\n' ∉ comment n := fun inside => absurd (commentLetters n _ inside) (by decide)
  have lines : linesOf (comment n) = [comment n] := by
    rw [linesOf,Splitting.cutFree _ open_]
    rfl
  rw [process,lines]
  rfl

def quietStream : Stream := ⟨"",0,none,none,none,[],fun _ => none,fun _ => "",fun _ => ""⟩

theorem roomForOne : 0 < MAX_FRAME := by decide

/-- It is kept alive by in one piece, and refused when it is cut in the blank line behind it. -/
theorem commentCut : ¬ ∀ packets others, packets.flatten = Utf8.encode (comment (MAX_FRAME-1) ++ ['\n','\n']) →
    others.flatten = Utf8.encode (comment (MAX_FRAME-1) ++ ['\n','\n']) → chatChunks quietStream packets = chatChunks quietStream others := by
  intro agree
  have calm := (FramedReading.cutsCalm (handler quietStream) .start _).mp agree
  generalize size : MAX_FRAME-1 = n at calm
  have room := roomForOne
  have limit : (handler quietStream).limit = n+1 := by
    show MAX_FRAME = n+1
    omega
  have unmarked : Utf8.withoutMark (comment n ++ ['\n','\n']) = comment n ++ ['\n','\n'] := rfl
  rw [unmarked] at calm
  have found : nextFrame (comment n ++ ['\n','\n']) = some (comment n,2,[]) := lettersFrame (commentLetters n)
  have fits : units (comment n) ≤ (handler quietStream).limit := by rw [commentUnits,limit]
  have muted := calm _ _ _ (.here _ _) rfl ⟨_,_,_,found,fits,by rw [commentUnits,limit]; omega⟩
  have silent := muted.concludes
  have kept : (handler quietStream).process .start (comment n) = .ok ([none],.start) := commentKept quietStream n
  rw [(Reaches.step rfl found fits kept (.here _ _)).conclude] at silent
  exact absurd (Prod.mk.inj silent).1 (by simp)

end Clankermux.ChatStream
