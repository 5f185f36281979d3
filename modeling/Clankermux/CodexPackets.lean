import Clankermux.ChatPackets
import Clankermux.CodexStream

/-! A Codex body in packets: all the ways to cut it come to the same events for a client of the Messages API, and for a
chat completion where no frame is within a blank line of the limit and not too much follows the end. -/
namespace Clankermux.CodexStream
open FramedReading FrameLoop

section
variable (st : Stream) (eventName : String) (data : Json) (s : State)

def Going (e : Emits) : Prop := e.2.hasSentTerminalEvents = s.hasSentTerminalEvents

variable {s}
variable {e : Emits}

theorem Going.andThen (first : Going s e) {next} (second : ∀ s, Going s (next s)) : Going s (e.andThen next) :=
  (second e.2).trans first

theorem goingEnsure (s : State) : Going s (ensureMessageStart s) := by
  unfold ensureMessageStart
  split <;> rfl

theorem goingFunctionCall (item outputIndex : Option Json) (handled : functionCallAdded st s item outputIndex = some e) : Going s e := by
  unfold functionCallAdded at handled
  split at handled
  · cases handled
  · cases handled
    refine Going.andThen (Going.andThen ?_ goingEnsure) (fun s => ?_)
    · split <;> rfl
    · dsimp only
      split
      · rfl
      · split <;> rfl

theorem goingItemAdded (handled : outputItemAdded st data s = some e) : Going s e := by
  unfold outputItemAdded at handled
  dsimp only at handled
  split at handled
  · exact goingFunctionCall st _ _ handled
  · cases handled
    rfl

theorem goingPartAdded : Going s (contentPartAdded data s) := by
  unfold contentPartAdded
  dsimp only
  split
  · rfl
  · split
    · refine Going.andThen (Going.andThen (goingEnsure s) (fun s => ?_)) (fun s => rfl)
      split <;> rfl
    · rfl

theorem goingTextDelta : Going s (outputTextDelta data s) := by
  unfold outputTextDelta
  split
  · exact Going.andThen (goingEnsure s) (fun s => rfl)
  · rfl

theorem goingArguments (handled : functionCallArgumentsDelta st data s = some e) : Going s e := by
  unfold functionCallArgumentsDelta at handled
  dsimp only at handled
  split at handled
  · split at handled
    · split at handled
      · cases handled
        rfl
      · cases handled
        rfl
    · cases handled
  · split at handled
    · cases handled
      rfl
    · cases handled
      rfl

theorem goingItemDone (handled : outputItemDone st data s = some e) : Going s e := by
  unfold outputItemDone at handled
  dsimp only at handled
  split at handled
  · split at handled
    · split at handled
      · cases handled
      · cases handled
        rfl
    · obtain ⟨emitted,-,rfl⟩ := Option.map_eq_some_iff.mp handled
      unfold Going
      split <;> rfl
  · split at handled
    · cases handled
      rfl
    · cases handled
      rfl

theorem completedTells (handled : completed st eventName data s = some e) : Going s e ∨ e.1 ≠ [] := by
  unfold completed at handled
  split at handled
  · cases handled
    exact .inl rfl
  · split at handled
    · cases handled
    · cases handled
      exact .inr (by simp [Emits.andThen])

theorem failedTells : Going s (failed eventName data s) ∨ (failed eventName data s).1 ≠ [] := by
  unfold failed
  dsimp only
  split
  · exact .inl rfl
  · exact .inr (by simp)

theorem handleTells (handled : handleCodexEvent st eventName data s = some e) : Going s e ∨ e.1 ≠ [] := by
  unfold handleCodexEvent at handled
  split at handled
  · cases handled
    exact .inl rfl
  split at handled
  · unfold handleNull at handled
    split at handled
    · cases handled
    · split at handled
      · cases handled
      · cases handled
        exact .inl rfl
  split at handled
  · cases handled
    exact .inl (goingEnsure _)
  split at handled
  · exact .inl (goingItemAdded st data handled)
  split at handled
  · cases handled
    exact .inl (goingPartAdded data)
  split at handled
  · cases handled
    exact .inl (goingTextDelta data)
  split at handled
  · exact .inl (goingArguments st data handled)
  split at handled
  · exact .inl (goingItemDone st data handled)
  split at handled
  · cases handled
    exact failedTells eventName data
  split at handled
  · exact completedTells st eventName data handled
  · cases handled
    exact .inl rfl

theorem processTells (eventText : List Char) (processed : process st s eventText = some e) : Going s e ∨ e.1 ≠ [] := by
  unfold process at processed
  dsimp only at processed
  split at processed
  · cases processed
    exact .inl rfl
  split at processed
  · cases processed
    exact .inl rfl
  split at processed
  · split at processed
    · cases processed
    · cases processed
      exact .inl rfl
  split at processed
  · cases processed
  · obtain ⟨kind,-,handled⟩ := Option.bind_eq_some_iff.mp processed
    split at handled
    · cases handled
    · exact handleTells st kind _ handled

end

theorem readerLawful (st : Stream) : (reader st).Lawful where
  decodeNil d := by
    show (if st.strictChat then Utf8.decodeFatal d [] else some (Utf8.decode d [])) = some (d,[])
    split <;> rfl
  decodeAppend d bytes more := by
    simp only [reader]
    split
    · exact Utf8.fatalAppend bytes more d
    · rw [Utf8.decodeAppend]
      rfl
  decodeSplit limited d bytes d' front back decoded := by
    cases strict : st.strictChat with
    | false => simp [reader,strict] at limited
    | true =>
      simp only [reader,strict] at decoded ⊢
      exact Utf8.fatalSplit bytes d d' front back decoded
  announced s frame out after going processed ends := by
    refine (processTells st frame processed).resolve_left (fun stays => ?_)
    have same : after.hasSentTerminalEvents = s.hasSentTerminalEvents := stays
    have going_ : s.hasSentTerminalEvents = false := going
    have ends_ : after.hasSentTerminalEvents = true := ends
    simp [same,going_] at ends_
  closes s ends := by
    have ended : s.hasSentTerminalEvents = true := ends
    show (close st s).isSome = true
    rw [close]
    split
    · rfl
    · rw [if_neg (by simp [ended])]
      rfl

theorem plainSteady (st : Stream) (plain : st.strictChat = false) (body : List UInt8) : Steady (reader st) .start (.start st) body := by
  have free (text : List Char) : (reader st).exceeds text = false := by simp [Reader.exceeds,reader,plain]
  refine ⟨fun d' text decoded => ⟨?_,?_⟩,?_⟩
  · rintro yielded last left reaches ⟨frame,length,rest,found,short,long⟩
    simp [reader,plain] at long
  · intro yielded last left frame length rest out after reaches found short processed ends
    exact free rest
  · intro broken
    simp [reader,plain] at broken

/-- However a body is cut, the events are the same, and the failure; for a chat completion exactly where the body is
steady. -/
theorem codexPacketsAgree (st : Stream) (body : List UInt8) :
    (∀ packets others, packets.flatten = body → others.flatten = body →
      transformStreamingResponse st packets = transformStreamingResponse st others) ↔
    (st.strictChat = true → Steady (reader st) .start (.start st) body) := by
  have told : ∀ packets others, transformStreamingResponse st packets = transformStreamingResponse st others ↔
      outcome (reader st) .start (.start st) packets = outcome (reader st) .start (.start st) others := by
    intro packets others
    unfold transformStreamingResponse
    obtain ⟨its,fails⟩ := outcome (reader st) .start (.start st) packets
    obtain ⟨theirs,fails_⟩ := outcome (reader st) .start (.start st) others
    cases fails <;> cases fails_ <;> cases st.strictChat <;> simp
  simp only [told]
  rw [cutsSteady (readerLawful st) rfl body]
  constructor
  · exact fun steady _ => steady
  · intro steady
    cases strict : st.strictChat with
    | true => exact steady strict
    | false => exact plainSteady st strict body

def strictStream : Stream := ⟨true,"",none,fun _ => some (.obj [("type",.str "response.completed")]),fun _ => "",fun _ => ""⟩

def closing : List Char := "data: \x7b\"type\":\"response.completed\"\x7d".toList

theorem closingEmits : (process strictStream (.start strictStream) closing).map (fun e => (e.1.map (·.event),e.2.hasSentTerminalEvents)) =
    some (["message_delta","message_stop"],true) := by decide +kernel

theorem commentKept (n : Nat) : process strictStream (.start strictStream) (ChatStream.comment n) = some ([],.start strictStream) := by
  have open_ : '\n' ∉ ChatStream.comment n := fun inside => absurd (ChatStream.commentLetters n _ inside) (by decide)
  have lines : ChatStream.linesOf (ChatStream.comment n) = [ChatStream.comment n] := by
    rw [ChatStream.linesOf,Splitting.cutFree _ open_]
    rfl
  rw [process,readFrame,lines]
  rfl

def commented (n : Nat) : List Char := ChatStream.comment n ++ ['\n','\n'] ++ (closing ++ ['\n','\n'])

theorem commentedStirs (n : Nat) (size : MAX_FRAME = n+1) :
    ¬ FrameLoop.Calm (reader strictStream) (.start strictStream) (commented n) := by
  intro calm
  have limit : (reader strictStream).limit = some (n+1) := congrArg some size
  have found : nextFrame (commented n) = some (ChatStream.comment n,2,closing ++ ['\n','\n']) :=
    nextFrameMore _ _ (ChatStream.lettersFrame (ChatStream.commentLetters n))
  have fits : (reader strictStream).exceeds (ChatStream.comment n) = false := by
    rw [Reader.exceeds,limit,ChatStream.commentUnits]
    simp
  have silent := (calm _ _ _ (.here _ _) ⟨_,_,_,found,fits,by rw [limit,ChatStream.commentUnits]; simp⟩).concludes
  obtain ⟨⟨out,after⟩,emits,told⟩ := Option.map_eq_some_iff.mp closingEmits
  obtain ⟨names,ends⟩ := Prod.mk.inj told
  have processed : (reader strictStream).process (.start strictStream) closing = some (out,after) := emits
  have short : (reader strictStream).exceeds closing = false := by decide +kernel
  have last : nextFrame (closing ++ ['\n','\n']) = some (closing,2,[]) := by decide +kernel
  have emitted : out ≠ [] := by
    intro none_
    simp [none_] at names
  rw [(Reaches.step found fits (commentKept n) rfl (.here _ _)).conclude,List.append_nil,FrameLoop.conclude,
    serveEnds last short processed ends,finish,exceedsEmpty] at silent
  cases closes : (reader strictStream).close after with
  | none => simp [closes,emitted] at silent
  | some more => simp [closes] at silent

/-- In one piece it comes to an end, and it fails when it is cut in the blank line behind the comment. -/
theorem codexCommentCut : ¬ ∀ (st : Stream) (body : List UInt8) packets others, packets.flatten = body → others.flatten = body →
    transformStreamingResponse st packets = transformStreamingResponse st others := by
  intro claim
  have room : MAX_FRAME ≠ 0 := by decide
  obtain ⟨n,size⟩ := Nat.exists_eq_succ_of_ne_zero room
  have steady := (codexPacketsAgree strictStream (Utf8.encode (commented n))).mp (claim strictStream (Utf8.encode (commented n))) rfl
  have decoded : (reader strictStream).decode .start (Utf8.encode (commented n)) =
      some ((Utf8.decode .start (Utf8.encode (commented n))).1,commented n) := by
    have same := (Utf8.decodeEncode (commented n)).1
    show Utf8.decodeFatal .start (Utf8.encode (commented n)) = _
    rw [Utf8.fatalEncode]
    exact congrArg some (Prod.ext rfl same)
  exact commentedStirs n size (steady.1 _ _ decoded).1

end Clankermux.CodexStream
