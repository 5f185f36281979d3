import Clankermux.DevinContent

/-! The signatures of the stream: each is the one upstream gave a thinking block, wrapped
for the model that gave it, and no other model is given it back. -/
namespace Clankermux.DevinStream
open DevinConnect

theorem bufferEncoded (text : Text) : bufferText (Utf8.encode text) = text := by
  rw [bufferText,Utf8.decodeSeen]
  exact List.append_nil _

def wrapped (model signature : Text) : Json :=
  .obj ([("model".toList,model),("signature".toList,signature)].map JsonText.stringMember)
variable {model signature : Text}

theorem wrappedModel : textField "model" (wrapped model signature) = some (String.ofList model) := rfl

theorem wrappedSignature :
    textField "signature" (wrapped model signature) = some (String.ofList signature) := rfl

theorem parseWrapped : JsonText.parse (JsonText.objectText
    [("model".toList,model),("signature".toList,signature)]) = some (wrapped model signature) :=
  JsonText.parseObjectText (List.cons_ne_nil _ _)
    (show [String.ofList "model".toList,String.ofList "signature".toList].Nodup from by decide)

theorem unwrapWrapped {model asked signature} : unwrapDevinSignature asked (wrapDevinSignature model signature) =
    if model = asked then signature else [] := by
  have before : "devin:".toList.isPrefixOf (wrapDevinSignature model signature) = true :=
    List.isPrefixOf_iff_prefix.mpr (List.prefix_append _ _)
  have behind : (wrapDevinSignature model signature).drop 6 = Base64url.encode (Utf8.encode (JsonText.objectText
      [("model".toList,model),("signature".toList,signature)])) := rfl
  rw [unwrapDevinSignature,if_pos before,behind,Base64url.decodeEncode,bufferEncoded,parseWrapped]
  dsimp only
  rw [wrappedModel,wrappedSignature]
  dsimp only
  rw [String.toList_ofList,Option.getD_some,String.toList_ofList]

def signMessage (held : Option Text) (msg : ChatMessage) : List Text × Option Text :=
  let begun := if msg.deltaThinking = [] then held else some (held.getD [])
  let signed := begun.map (fun signature => signature ++ msg.deltaSignature)
  if msg.deltaText = [] ∧ msg.deltaToolCalls = [] then ([],signed) else (signed.toList,none)

def signMessages : Option Text → List ChatMessage → List Text × Option Text
  | held,[] => ([],held)
  | held,msg::rest =>
    let later := signMessages (signMessage held msg).2 rest
    ((signMessage held msg).1 ++ later.1,later.2)

def upstreamSignatures (messages : List ChatMessage) : List Text :=
  (signMessages none messages).1 ++ (signMessages none messages).2.toList

def signatures (events : List Event) : List Text :=
  events.filterMap (fun event => match event with
    | .contentBlockDelta _ (.signature signature) => some signature
    | _ => none)

def emitted (model : Text) (signatures : List Text) : List Text :=
  (signatures.filter (fun signature => signature ≠ [])).map (wrapDevinSignature model)

def heldSignature (st : State) : Option Text := st.thinkingIndex.map (fun _ => st.thinkingSignature)

section
variable {events more : List Event} {model : Text} {first later : List Text}

theorem signaturesAppend : signatures (events ++ more) = signatures events ++ signatures more := List.filterMap_append

theorem emittedAppend : emitted model (first ++ later) = emitted model first ++ emitted model later := by
  rw [emitted,List.filter_append,List.map_append]
  rfl

theorem signMessagesAppend (messages others : List ChatMessage) : ∀ held, signMessages held (messages ++ others) =
    ((signMessages held messages).1 ++ (signMessages (signMessages held messages).2 others).1,
      (signMessages (signMessages held messages).2 others).2) := by
  induction messages with
  | nil => exact fun held => rfl
  | cons msg rest ih =>
    intro held
    rw [List.cons_append,signMessages,ih,signMessages,List.append_assoc]

end

structure Unsigned (st : State) (part : Fallible) : Prop where
  signatures : signatures part.1 = []
  heads : heads part.1 = []
  kept : ∀ s, part.2 = .ok s → s.model = st.model ∧ s.started = st.started ∧ heldSignature s = heldSignature st

section
variable {st : State}

theorem Unsigned.andThen {first second} (one : Unsigned st first)
    (two : ∀ s, first.2 = .ok s → Unsigned s (second s)) : Unsigned st (Fallible.andThen first second) := by
  unfold Fallible.andThen
  obtain ⟨before,result⟩ := first
  cases result with
  | error failure => exact ⟨one.signatures,one.heads,nofun⟩
  | ok middle =>
    obtain ⟨model,started,held⟩ := one.kept middle rfl
    have later := two middle rfl
    refine ⟨?_,?_,fun s ok => ?_⟩
    · rw [signaturesAppend,one.signatures,later.signatures]
      rfl
    · rw [headsAppend,one.heads,later.heads]
      rfl
    · obtain ⟨model_,started_,held_⟩ := later.kept s ok
      exact ⟨model_.trans model,started_.trans started,held_.trans held⟩

theorem unsignedThrows {failure} : Unsigned st ([],.error failure) := ⟨rfl,rfl,nofun⟩

theorem unsignedArguments {toolId fragment tool} : Unsigned st (pass (onArguments toolId tool fragment st)) := by
  unfold onArguments
  split
  · exact ⟨rfl,rfl,fun s ok => by cases ok; exact ⟨rfl,rfl,rfl⟩⟩
  · dsimp only
    split
    · exact ⟨rfl,rfl,fun s ok => by cases ok; exact ⟨rfl,rfl,rfl⟩⟩
    · exact ⟨rfl,rfl,fun s ok => by cases ok; exact ⟨rfl,rfl,rfl⟩⟩

theorem unsignedCall {call} : Unsigned st (onCall call st) := by
  unfold onCall
  split
  · exact unsignedThrows
  · rename_i toolId _
    have named : Unsigned { st with activeTool := some toolId } (onNamedCall toolId call { st with activeTool := some toolId }) := by
      unfold onNamedCall
      split
      · split
        · exact unsignedThrows
        · exact unsignedArguments
      · split
        · exact unsignedThrows
        · refine Unsigned.andThen ⟨rfl,rfl,fun s ok => ?_⟩ (fun s _ => unsignedArguments)
          cases ok
          exact ⟨rfl,rfl,rfl⟩
    exact ⟨named.signatures,named.heads,named.kept⟩

theorem unsignedCalls (calls : List ChatToolCall) : ∀ st, Unsigned st (onCalls calls st) := by
  induction calls with
  | nil => exact fun st => ⟨rfl,rfl,fun s ok => by cases ok; exact ⟨rfl,rfl,rfl⟩⟩
  | cons call rest ih => exact fun st => unsignedCall.andThen (fun s _ => ih s)

theorem unsignedCloseText : Unsigned st (pass (closeText st)) := by
  unfold closeText
  split <;> exact ⟨rfl,rfl,fun s ok => by cases ok; exact ⟨rfl,rfl,rfl⟩⟩
variable {msg : ChatMessage}

theorem unsignedText : Unsigned st (pass (onText msg st)) := by
  unfold onText openText
  split
  · exact ⟨rfl,rfl,fun s ok => by cases ok; exact ⟨rfl,rfl,rfl⟩⟩
  · dsimp only
    split <;> exact ⟨rfl,rfl,fun s ok => by cases ok; exact ⟨rfl,rfl,rfl⟩⟩

theorem unsignedCloseTextForTools : Unsigned st (pass (closeTextForTools msg st)) := by
  unfold closeTextForTools
  split
  · exact ⟨rfl,rfl,fun s ok => by cases ok; exact ⟨rfl,rfl,rfl⟩⟩
  · exact unsignedCloseText

theorem thinkingHeld (msg : ChatMessage) (st : State) : signatures (onThinking msg st).1 = [] ∧ heads (onThinking msg st).1 = [] ∧
    (onThinking msg st).2.model = st.model ∧ (onThinking msg st).2.started = st.started ∧
    heldSignature (onThinking msg st).2 =
      if msg.deltaThinking = [] then heldSignature st else some ((heldSignature st).getD []) := by
  unfold onThinking
  split
  · exact ⟨rfl,rfl,rfl,rfl,rfl⟩
  · have closed : Unsigned st (pass (closeText st)) := unsignedCloseText
    obtain ⟨model,started,held⟩ := closed.kept _ rfl
    have silent : signatures (closeText st).1 = [] := closed.signatures
    have headless : heads (closeText st).1 = [] := closed.heads
    dsimp only
    rw [signaturesAppend,signaturesAppend,headsAppend,headsAppend,silent,headless]
    unfold openThinking
    cases index : (closeText st).2.thinkingIndex with
    | none =>
      rw [heldSignature,index] at held
      refine ⟨rfl,rfl,model,started,?_⟩
      rw [← held]
      rfl
    | some index_ =>
      refine ⟨rfl,rfl,model,started,?_⟩
      rw [← held,heldSignature]
      simp [index]

theorem signatureHeld (msg : ChatMessage) (st : State) : (onSignature msg st).model = st.model ∧ (onSignature msg st).started = st.started ∧
    heldSignature (onSignature msg st) = (heldSignature st).map (fun signature => signature ++ msg.deltaSignature) := by
  unfold onSignature
  cases index : st.thinkingIndex <;> simp [heldSignature,index]

theorem thinkingEndSigned (st : State) : signatures (thinkingEnd st) = emitted st.model (heldSignature st).toList ∧ heads (thinkingEnd st) = [] := by
  unfold thinkingEnd heldSignature
  cases st.thinkingIndex with
  | none => exact ⟨rfl,rfl⟩
  | some index =>
    by_cases empty : st.thinkingSignature = []
    · simp [empty,signatures,heads,emitted]
    · simp [empty,signatures,heads,emitted]

theorem closeThinkingHeld (msg : ChatMessage) (st : State) :
    signatures (closeThinking msg st).1 = (if msg.deltaText = [] ∧ msg.deltaToolCalls = [] then []
      else emitted st.model (heldSignature st).toList) ∧ heads (closeThinking msg st).1 = [] ∧
    (closeThinking msg st).2.model = st.model ∧ (closeThinking msg st).2.started = st.started ∧
    heldSignature (closeThinking msg st).2 = if msg.deltaText = [] ∧ msg.deltaToolCalls = [] then heldSignature st else none := by
  unfold closeThinking
  split
  · exact ⟨rfl,rfl,rfl,rfl,rfl⟩
  · exact ⟨(thinkingEndSigned st).1,(thinkingEndSigned st).2,rfl,rfl,rfl⟩

structure Signed (messages : List ChatMessage) (events : List Event) (st : State) : Prop where
  told : signatures events = emitted st.model (signMessages none messages).1
  held : heldSignature st = (signMessages none messages).2
  heads : ∀ head ∈ heads events, head.2.1 = st.model ∧ st.started = true
  idle : st.started = false → signatures events = [] ∧ heldSignature st = none

theorem signedStart {context} : Signed [] [] (State.start context) :=
  ⟨rfl,rfl,nofun,fun _ => ⟨rfl,rfl⟩⟩

theorem beginHeld (msg : ChatMessage) (st : State) : signatures (begin msg st).1 = [] ∧
    (∀ head ∈ heads (begin msg st).1, head.2.1 = st.model ∧ (begin msg st).2.started = true) ∧
    (begin msg st).2.model = st.model ∧ (st.started = true → (begin msg st).2.started = true) ∧
    heldSignature (begin msg st).2 = heldSignature st := by
  unfold begin
  split
  · refine ⟨rfl,fun head inside => ?_,rfl,fun _ => rfl,rfl⟩
    cases List.mem_singleton.mp inside
    exact ⟨rfl,rfl⟩
  · exact ⟨rfl,nofun,rfl,id,rfl⟩

theorem signMessageIdle (quiet : msg.meaningful = false) : signMessage none msg = ([],none) := by
  simp only [ChatMessage.meaningful,Bool.or_eq_false_iff,decide_eq_false_iff_not,not_not] at quiet
  obtain ⟨⟨⟨text,thinking⟩,calls⟩,_⟩ := quiet
  simp [signMessage,thinking]

def thinkingTaken (msg : ChatMessage) (st : State) : State :=
  (closeThinking msg (onSignature msg (onThinking msg (begin msg st).2).2)).2

structure Signs (msg : ChatMessage) (st : State) (events : List Event) : Prop where
  told : signatures events = emitted st.model (signMessage (heldSignature st) msg).1
  heads : ∀ head ∈ heads events, head.2.1 = st.model ∧ (thinkingTaken msg st).started = true
  model : (thinkingTaken msg st).model = st.model
  started : (thinkingTaken msg st).started = (begin msg st).2.started
  held : heldSignature (thinkingTaken msg st) = (signMessage (heldSignature st) msg).2

theorem signsTaken (msg : ChatMessage) (st : State) : Signs msg st ((begin msg st).1 ++ ((onThinking msg (begin msg st).2).1 ++
    (closeThinking msg (onSignature msg (onThinking msg (begin msg st).2).2)).1)) := by
  obtain ⟨silent,fresh,model,_,held⟩ := beginHeld msg st
  obtain ⟨quiet,headless,modelOne,startedOne,heldOne⟩ := thinkingHeld msg (begin msg st).2
  obtain ⟨modelTwo,startedTwo,heldTwo⟩ := signatureHeld msg (onThinking msg (begin msg st).2).2
  obtain ⟨told,none_,modelThree,startedThree,heldThree⟩ :=
    closeThinkingHeld msg (onSignature msg (onThinking msg (begin msg st).2).2)
  rw [held] at heldOne
  rw [heldOne] at heldTwo
  have signs : signMessage (heldSignature st) msg = if msg.deltaText = [] ∧ msg.deltaToolCalls = []
      then ([],heldSignature (onSignature msg (onThinking msg (begin msg st).2).2))
      else ((heldSignature (onSignature msg (onThinking msg (begin msg st).2).2)).toList,none) := by
    rw [heldTwo]
    rfl
  have started : (thinkingTaken msg st).started = (begin msg st).2.started := startedThree.trans (startedTwo.trans startedOne)
  have same : (onSignature msg (onThinking msg (begin msg st).2).2).model = st.model := modelTwo.trans (modelOne.trans model)
  refine ⟨?_,?_,modelThree.trans same,started,?_⟩
  · rw [signaturesAppend,signaturesAppend,silent,quiet,told,signs,same]
    split <;> rfl
  · rw [headsAppend,headsAppend,headless,none_,started]
    simpa using fresh
  · rw [thinkingTaken,heldThree,signs]
    split <;> rfl

theorem signsParts : Takes Signed [msg] st (onParts msg st) := by
  intro messages events signed
  have rest : Unsigned (thinkingTaken msg st) (Fallible.andThen (pass (onText msg (thinkingTaken msg st))) fun st =>
      Fallible.andThen (pass (closeTextForTools msg st)) fun st => onCalls msg.deltaToolCalls st) :=
    unsignedText.andThen (fun _ _ => unsignedCloseTextForTools.andThen (fun s _ => unsignedCalls _ s))
  have parts : ∃ later, onParts msg st = ((begin msg st).1 ++ ((onThinking msg (begin msg st).2).1 ++
      (closeThinking msg (onSignature msg (onThinking msg (begin msg st).2).2)).1) ++ later.1,later.2) ∧
      Unsigned (thinkingTaken msg st) later := by
    refine ⟨_,?_,rest⟩
    simp only [List.append_assoc]
    rfl
  obtain ⟨later,same,unsigned⟩ := parts
  have taken := signsTaken msg st
  generalize (begin msg st).1 ++ ((onThinking msg (begin msg st).2).1 ++
    (closeThinking msg (onSignature msg (onThinking msg (begin msg st).2).2)).1) = told at same taken
  rw [same]
  have all : ∀ s, s.model = (thinkingTaken msg st).model → s.started = (thinkingTaken msg st).started →
      heldSignature s = heldSignature (thinkingTaken msg st) → Signed (messages ++ [msg]) (events ++ (told ++ later.1)) s := by
    intro s model started held
    have signs : signMessages none (messages ++ [msg]) = ((signMessages none messages).1 ++
        (signMessage (heldSignature st) msg).1,(signMessage (heldSignature st) msg).2) := by
      rw [signMessagesAppend,← signed.held,signMessages,signMessages,List.append_nil]
    refine ⟨?_,?_,?_,?_⟩
    · rw [signaturesAppend,signaturesAppend,unsigned.signatures,List.append_nil,signed.told,taken.told,signs,emittedAppend,
        model,taken.model]
    · rw [held,taken.held,signs]
    · intro head inside
      rw [headsAppend,headsAppend,unsigned.heads,List.append_nil] at inside
      rw [model,taken.model,started]
      obtain before | here := List.mem_append.mp inside
      · obtain ⟨named,begun⟩ := signed.heads head before
        rw [taken.started]
        exact ⟨named,(beginHeld msg st).2.2.2.1 begun⟩
      · exact taken.heads head here
    · intro idle
      rw [started,taken.started] at idle
      have unbegun : st.started = false := by
        cases begun : st.started with
        | false => rfl
        | true => rw [(beginHeld msg st).2.2.2.1 begun] at idle; cases idle
      have quiet : msg.meaningful = false := by
        cases some_ : msg.meaningful with
        | false => rfl
        | true => rw [beginStarted some_] at idle; cases idle
      obtain ⟨nothing,none_⟩ := signed.idle unbegun
      rw [held,taken.held,signaturesAppend,signaturesAppend,nothing,taken.told,unsigned.signatures,none_,signMessageIdle quiet]
      exact ⟨rfl,rfl⟩
  refine ⟨⟨[msg],thinkingTaken msg st,List.prefix_rfl,all _ rfl rfl rfl⟩,fun s ok => ?_⟩
  obtain ⟨model,started,held⟩ := unsigned.kept s ok
  exact all s model started held

theorem signsPayload {fromBinary payload} :
    Takes Signed (messagesOf fromBinary [payload]) st (onPayload fromBinary payload st) := by
  unfold onPayload
  dsimp only
  split
  · exact takesNothing
  · cases said : fromBinary payload with
    | none => exact takesNothing
    | some msg =>
      have here : messagesOf fromBinary [payload] = [msg] := by simp [messagesOf,said]
      rw [here]
      unfold onMessage
      dsimp only
      split
      · exact takesNothing
      · intro messages events signed
        have seen : Signed messages events (observe msg { st with totalBytes := st.totalBytes+payload.length }) := by
          obtain ⟨told,held,heads,idle⟩ := signed
          have kept : ∀ t, t.started = st.started → heldSignature t = heldSignature st →
              (st.started = true → t.model = st.model) → Signed messages events t := by
            intro t started same model
            refine ⟨?_,same.trans held,?_,?_⟩
            · cases begun : st.started with
              | true => rw [model begun]; exact told
              | false =>
                obtain ⟨nothing,_⟩ := idle begun
                rw [nothing] at told ⊢
                have empty := List.map_eq_nil_iff.mp told.symm
                rw [emitted,empty]
                rfl
            · intro head inside
              obtain ⟨named,begun⟩ := heads head inside
              rw [model begun,started]
              exact ⟨named,begun⟩
            · intro unbegun
              rw [started] at unbegun
              rw [same]
              exact idle unbegun
          refine kept _ ?_ ?_ ?_
          · unfold observe; split <;> rfl
          · unfold observe; split <;> rfl
          · intro begun
            unfold observe
            rw [if_pos begun]
        exact signsParts messages events seen

theorem signsPayloads (fromBinary : Bytes → Option ChatMessage) (payloads : List Bytes) : ∀ st,
    Takes Signed (messagesOf fromBinary payloads) st (onPayloads fromBinary payloads st) := by
  induction payloads with
  | nil =>
    intro st
    have done : Takes Signed [] st (pass ([],st)) := takesPass (fun messages events signed => by
      rw [List.append_nil]
      exact signed)
    exact done
  | cons payload rest ih =>
    intro st
    have split : messagesOf fromBinary (payload::rest) = messagesOf fromBinary [payload] ++ messagesOf fromBinary rest := by
      rw [messagesOf,messagesOf,messagesOf,← List.filterMap_append]
      rfl
    rw [split]
    exact signsPayload.andThen (fun s _ => ih s)

theorem stopToolsUnsigned (tools : List Tool) : signatures (stopTools tools).1 = [] ∧ heads (stopTools tools).1 = [] := by
  induction tools with
  | nil => exact ⟨rfl,rfl⟩
  | cons tool rest ih =>
    rw [stopTools]
    split
    · exact ih
    · exact ⟨rfl,rfl⟩

theorem finishSigned (st : State) : heads (finish st).1 = [] ∧ signatures (finish st).1 <+: emitted st.model (heldSignature st).toList ∧
    ((finish st).2 = none → signatures (finish st).1 = emitted st.model (heldSignature st).toList) := by
  have closed : Unsigned st (pass (closeText st)) := unsignedCloseText
  have text : signatures (closeText st).1 = [] := closed.signatures
  have headless : heads (closeText st).1 = [] := closed.heads
  obtain ⟨thinking,fresh⟩ := thinkingEndSigned st
  obtain ⟨stops,none_⟩ := stopToolsUnsigned (st.tools.map Prod.snd)
  have signed : signatures (thinkingEnd st ++ (closeText st).1 ++ (stopTools (st.tools.map Prod.snd)).1) =
      emitted st.model (heldSignature st).toList := by
    rw [signaturesAppend,signaturesAppend,text,thinking,stops,List.append_nil,List.append_nil]
  have unheaded : heads (thinkingEnd st ++ (closeText st).1 ++ (stopTools (st.tools.map Prod.snd)).1) = [] := by
    rw [headsAppend,headsAppend,headless,fresh,none_]
    rfl
  unfold finish
  split
  · exact ⟨rfl,List.nil_prefix,(by simp)⟩
  · split
    · exact ⟨rfl,List.nil_prefix,(by simp)⟩
    · dsimp only
      split
      · exact ⟨unheaded,signed ▸ List.prefix_rfl,(by simp)⟩
      · split
        · exact ⟨unheaded,signed ▸ List.prefix_rfl,(by simp)⟩
        · have last : signatures [.messageDelta (stopReason st) st.usage,.messageStop] = [] := rfl
          have lastHeads : heads [.messageDelta (stopReason st) st.usage,.messageStop] = [] := rfl
          rw [headsAppend,signaturesAppend,unheaded,signed,last,lastHeads,List.append_nil,List.append_nil]
          exact ⟨rfl,List.prefix_rfl,fun _ => rfl⟩

end

section
variable {gunzip : Bytes → Option Bytes} {fromBinary : Bytes → Option ChatMessage} {context : Context} {chunks : List Bytes}

theorem emittedPrefix {model first all} (some_ : first <+: all) : emitted model first <+: emitted model all := by
  obtain ⟨rest,rfl⟩ := some_
  rw [emittedAppend]
  exact List.prefix_append _ _

theorem signMessagesFirst {taken messages} (first : taken <+: messages) :
    (signMessages none taken).1 <+: upstreamSignatures messages := by
  obtain ⟨rest,rfl⟩ := first
  rw [upstreamSignatures,signMessagesAppend,List.append_assoc]
  exact List.prefix_append _ _

theorem translateSigned (gunzip : Bytes → Option Bytes) (fromBinary : Bytes → Option ChatMessage) (context : Context)
    (chunks : List Bytes) : ∃ model, (∀ head ∈ heads (translate gunzip fromBinary context chunks).1, head.2.1 = model) ∧
    signatures (translate gunzip fromBinary context chunks).1 <+:
      emitted model (upstreamSignatures (messagesOf fromBinary (decodeConnect gunzip [] chunks).1)) ∧
    ((translate gunzip fromBinary context chunks).2 = none → signatures (translate gunzip fromBinary context chunks).1 =
      emitted model (upstreamSignatures (messagesOf fromBinary (decodeConnect gunzip [] chunks).1))) := by
  obtain ⟨⟨taken,s,first,broken⟩,whole⟩ := signsPayloads fromBinary (decodeConnect gunzip [] chunks).1 _ [] [] signedStart
  simp only [List.nil_append] at whole
  have partly : ∀ taken events s, taken <+: messagesOf fromBinary (decodeConnect gunzip [] chunks).1 → Signed taken events s →
      (∀ head ∈ heads events, head.2.1 = s.model) ∧
      signatures events <+: emitted s.model (upstreamSignatures (messagesOf fromBinary (decodeConnect gunzip [] chunks).1)) := by
    intro taken events s first signed
    rw [signed.told]
    exact ⟨fun head inside => (signed.heads head inside).1,emittedPrefix (signMessagesFirst first)⟩
  unfold translate
  dsimp only
  cases said : (onPayloads fromBinary (decodeConnect gunzip [] chunks).1 (State.start context)).2 with
  | error failure =>
    obtain ⟨named,some_⟩ := partly taken _ s first broken
    exact ⟨s.model,named,some_,nofun⟩
  | ok st =>
    have signed := whole st said
    cases (decodeConnect gunzip [] chunks).2 with
    | some failure =>
      obtain ⟨named,some_⟩ := partly _ _ st List.prefix_rfl signed
      exact ⟨st.model,named,some_,nofun⟩
    | none =>
      obtain ⟨fresh,later,fine⟩ := finishSigned st
      have all : emitted st.model (upstreamSignatures (messagesOf fromBinary (decodeConnect gunzip [] chunks).1)) =
          signatures (onPayloads fromBinary (decodeConnect gunzip [] chunks).1 (State.start context)).1 ++
            emitted st.model (heldSignature st).toList := by
        rw [upstreamSignatures,emittedAppend,signed.told,signed.held]
      refine ⟨st.model,fun head inside => ?_,?_,fun none_ => ?_⟩
      · rw [headsAppend,fresh,List.append_nil] at inside
        exact (signed.heads head inside).1
      · rw [signaturesAppend,all]
        exact (List.prefix_append_right_inj _).mpr later
      · rw [signaturesAppend,all,fine none_]

end

end Clankermux.DevinStream
