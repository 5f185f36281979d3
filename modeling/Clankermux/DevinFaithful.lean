import Clankermux.DevinSignatures

/-! What a Devin answer is made into, however it is framed and cut. -/
namespace Clankermux.DevinStream
open DevinConnect

structure Whole {gunzip : Bytes → Option Bytes} (frames : List (Frame gunzip)) (trailer : Frame gunzip) : Prop where
  messages : ∀ frame ∈ frames, frame.flags.toNat < 2
  last : 2 ≤ trailer.flags.toNat ∧ trailer.flags.toNat < 4
  success : trailerError trailer.payload = none

def wire {gunzip : Bytes → Option Bytes} (frames : List (Frame gunzip)) (trailer : Frame gunzip) : Bytes :=
  frames.flatMap Frame.bytes ++ trailer.bytes

def ArgumentsTold (calls : List ChatToolCall) (events : List Event) (accepted : Prop) : Prop :=
  ∃ taken, taken <+: calls ∧ (accepted → taken = calls) ∧ ∀ id,
    (fragmentsOf id taken ≠ [] → ∃ index name, (index,id,name) ∈ toolStarts events) ∧
    ∀ index name, (index,id,name) ∈ toolStarts events →
      (Snapshots (fragmentsOf id calls) → (partialsAt index events).flatten = (fragmentsOf id taken).getLastD []) ∧
      (Increments (fragmentsOf id calls) → (partialsAt index events).flatten = (fragmentsOf id taken).flatten)

def SignaturesTold (messages : List ChatMessage) (translated : List Event × Option DevinConnect.Failure) : Prop :=
  ∃ model given, (∀ head ∈ heads translated.1, head.2.1 = model) ∧
    given <+: (upstreamSignatures messages).filter (fun signature => signature ≠ []) ∧
    (translated.2 = none → given = (upstreamSignatures messages).filter (fun signature => signature ≠ [])) ∧
    signatures translated.1 = given.map (wrapDevinSignature model) ∧
    ∀ signature ∈ given, ∀ asked,
      unwrapDevinSignature asked (wrapDevinSignature model signature) = if asked = model then signature else []

def ReplyTold (translated : List Event × Option DevinConnect.Failure) : Prop :=
  match translated.2 with
  | some failure => reply translated = .error failure
  | none => ∃ head ending, heads translated.1 = [head] ∧ endings translated.1 = [ending] ∧
    reply translated = .ok ⟨head.1,head.2.1,some ending.1,ending.2,contentOf translated.1⟩

inductive Unwhole (gunzip : Bytes → Option Bytes) : List Bytes → Prop where
  | truncated (frames : List (Frame gunzip)) (trailer : Frame gunzip) (chunks : List Bytes) (missing : Bytes)
      (whole : Whole frames trailer) (cut : chunks.flatten ++ missing = wire frames trailer) (some_ : missing ≠ []) :
      Unwhole gunzip chunks
  | trailerless (frames : List (Frame gunzip)) (chunks : List Bytes) (messages : ∀ frame ∈ frames, frame.flags.toNat < 2)
      (cut : chunks.flatten = frames.flatMap Frame.bytes) : Unwhole gunzip chunks
  | behind (frames : List (Frame gunzip)) (trailer : Frame gunzip) (early late : List Bytes) (missing more : Bytes)
      (whole : Whole frames trailer) (cut : early.flatten ++ missing = wire frames trailer) (some_ : missing ≠ [])
      (further : more ≠ []) : Unwhole gunzip (early ++ (missing ++ more)::late)

section
variable {gunzip : Bytes → Option Bytes} {fromBinary : Bytes → Option ChatMessage} {context : Context}

theorem assembleSome {parts} (filled : [] ∉ parts) (some_ : parts ≠ []) : assemble parts ≠ [] := by
  induction parts using List.reverseRecOn with
  | nil => exact absurd rfl some_
  | append_singleton before fragment _ =>
    rw [assembleSnoc,extend]
    have filled_ : fragment ≠ [] := fun never => filled (List.mem_append_right _ (by rw [never]; exact .head _))
    split
    · exact filled_
    · exact List.append_ne_nil_of_right_ne_nil _ filled_

theorem fragmentsFilled {id calls} : [] ∉ fragmentsOf id calls := by
  intro inside
  obtain ⟨fragment,_,here⟩ := List.mem_filterMap.mp inside
  split at here
  · rename_i both
    exact both.2 (Option.some.inj here)
  · cases here

theorem translateArguments (gunzip : Bytes → Option Bytes) (fromBinary : Bytes → Option ChatMessage) (context : Context)
    (chunks : List Bytes) : ArgumentsTold (callsOf (messagesOf fromBinary (decodeConnect gunzip [] chunks).1))
      (translate gunzip fromBinary context chunks).1 (Accepted fromBinary context (decodeConnect gunzip [] chunks).1) := by
  obtain ⟨taken,st,first,tools,all,_⟩ := translateTools gunzip fromBinary context chunks
  refine ⟨taken,first,all,fun id => ⟨fun some_ => ?_,fun index name started => ?_⟩⟩
  · have json := tools.json id
    cases held : st.tools.get id with
    | none =>
      rw [held] at json
      exact absurd json.symm (assembleSome fragmentsFilled some_)
    | some tool => exact ⟨tool.index,tool.name,tools.started id tool held⟩
  · obtain ⟨tool,held,rfl⟩ := tools.held index id name started
    have told := tools.partials id tool held
    have json := tools.json id
    rw [held] at json
    have json : tool.json = assemble (fragmentsOf id taken) := json
    have parts := fragmentsOfPrefix first id
    rw [told,json]
    exact ⟨fun snapshots => assembleSnapshots (snapshots.first parts),fun increments => assembleIncrements (increments.first parts)⟩

theorem translateSignatures (gunzip : Bytes → Option Bytes) (fromBinary : Bytes → Option ChatMessage) (context : Context)
    (chunks : List Bytes) : SignaturesTold (messagesOf fromBinary (decodeConnect gunzip [] chunks).1)
      (translate gunzip fromBinary context chunks) := by
  obtain ⟨model,named,first,fine⟩ := translateSigned gunzip fromBinary context chunks
  obtain ⟨given,some_,same⟩ := List.prefix_map_iff.mp first
  refine ⟨model,given,named,some_,fun none_ => ?_,same,fun signature _ asked => ?_⟩
  · have all := fine none_
    have counted := congrArg List.length (same.symm.trans all)
    rw [emitted,List.length_map,List.length_map] at counted
    exact some_.eq_of_length counted
  · rw [unwrapWrapped]
    by_cases own : asked = model
    · rw [if_pos own,if_pos own.symm]
    · rw [if_neg own,if_neg (Ne.symm own)]

theorem translateReply (gunzip : Bytes → Option Bytes) (fromBinary : Bytes → Option ChatMessage) (context : Context)
    (chunks : List Bytes) : ReplyTold (translate gunzip fromBinary context chunks) := by
  unfold ReplyTold
  split
  · rename_i failure thrown
    rw [reply,thrown]
  · rename_i fine
    exact replyFolded fine

theorem unwholeFails {chunks} (unwhole : Unwhole gunzip chunks) : (decodeConnect gunzip [] chunks).2.isSome = true := by
  cases unwhole with
  | truncated frames trailer _ missing whole cut some_ =>
    have read := drainFrames whole.messages whole.last whole.success
    rw [← wire,← cut] at read
    obtain ⟨before,left,waits⟩ := drainTruncated read some_
    exact decodeWaits waits
  | trailerless frames _ messages cut =>
    have read := drainMessages messages
    rw [← cut] at read
    exact decodeWaits read
  | behind frames trailer early late missing more whole cut some_ further =>
    have read := drainFrames whole.messages whole.last whole.success
    rw [← wire,← cut] at read
    exact decodeBehind read some_ further

theorem translateFails {chunks} (failing : (decodeConnect gunzip [] chunks).2.isSome = true) :
    (translate gunzip fromBinary context chunks).2 ≠ none := by
  obtain ⟨failure,failed⟩ := Option.isSome_iff_exists.mp failing
  unfold translate
  dsimp only
  split
  · exact nofun
  · rw [failed]
    exact nofun

end

structure Faithful {gunzip : Bytes → Option Bytes} (fromBinary : Bytes → Option ChatMessage) (context : Context)
    (frames : List (Frame gunzip)) (translated : List Event × Option DevinConnect.Failure) : Prop where
  read : Read translated.1 translated.2
  arguments : ArgumentsTold (callsOf (messagesOf fromBinary (frames.map Frame.payload))) translated.1
    (Accepted fromBinary context (frames.map Frame.payload))
  accepted : translated.2 = none → Accepted fromBinary context (frames.map Frame.payload)
  reply : ReplyTold translated
  signatures : SignaturesTold (messagesOf fromBinary (frames.map Frame.payload)) translated

/-- A whole answer is translated faithfully and as if it had come in one piece, and one that
is not whole never ends well. -/
theorem streamFaithful (gunzip : Bytes → Option Bytes) (fromBinary : Bytes → Option ChatMessage) (context : Context)
    (chunks : List Bytes) :
    (∀ (frames : List (Frame gunzip)) (trailer : Frame gunzip), Whole frames trailer → chunks.flatten = wire frames trailer →
      translate gunzip fromBinary context chunks = translate gunzip fromBinary context [wire frames trailer] ∧
      Faithful fromBinary context frames (translate gunzip fromBinary context chunks)) ∧
    (Unwhole gunzip chunks → .messageStop ∉ (translate gunzip fromBinary context chunks).1 ∧
      (translate gunzip fromBinary context chunks).2 ≠ none) := by
  refine ⟨fun frames trailer whole cut => ?_,fun unwhole => ?_⟩
  · have decoded := decodeFrames whole.messages whole.last whole.success cut
    have once : decodeConnect gunzip [] [wire frames trailer] = (frames.map Frame.payload,none) :=
      decodeFrames whole.messages whole.last whole.success (by rw [List.flatten_singleton]; rfl)
    have arguments := translateArguments gunzip fromBinary context chunks
    have signed := translateSignatures gunzip fromBinary context chunks
    have accepted : (translate gunzip fromBinary context chunks).2 = none →
        Accepted fromBinary context (decodeConnect gunzip [] chunks).1 := translateAccepted
    rw [decoded] at arguments signed accepted
    refine ⟨?_,translateRead _ _ _ _,arguments,accepted,translateReply _ _ _ _,signed⟩
    unfold translate
    rw [decoded,once]
  · have failed : (translate gunzip fromBinary context chunks).2 ≠ none := translateFails (unwholeFails unwhole)
    exact ⟨(translateRead _ _ _ _).stopped failed,failed⟩

def callMessage (id name argumentsJson : Text) : ChatMessage :=
  ⟨[],[],[],[],[],[⟨id,name,argumentsJson⟩],.unspecified,none,false,false⟩

def pieces : List Text := ["\x7b\"a\":".toList,"\x7b\"a\":1\x7d\x7d".toList]

def pieceMessage : Bytes → Option ChatMessage
  | [place] => (pieces[place.toNat]?).map (callMessage "call".toList "tool".toList)
  | _ => none

def plain (flags : UInt8) (payload : Bytes) (small : payload.length ≤ maxFrame) (single : flags.toNat%2 = 0) :
    Frame (fun _ => none) := ⟨flags,payload,payload,small,by rw [unpack,if_neg (by omega)]⟩

def success : Frame (fun _ => none) := plain 2 (Utf8.encode "\x7b\x7d".toList) (by decide) rfl

def pieceFrames : List (Frame (fun _ => none)) := [plain 0 [0] (by decide) rfl,plain 0 [1] (by decide) rfl]

def textMessage (_ : Bytes) : Option ChatMessage := some ⟨[],[],"hi".toList,[],[],[],.unspecified,none,false,false⟩

def textFrames : List (Frame (fun _ => none)) := [plain 0 [0] (by decide) rfl]

def asked : Context := ⟨"msg".toList,"swe".toList⟩

theorem pieceWhole : Whole pieceFrames success := ⟨by decide,by decide,by decide +kernel⟩

theorem textWhole : Whole textFrames success := ⟨by decide,by decide,by decide +kernel⟩

theorem textFaithful : Faithful textMessage asked textFrames (translate (fun _ => none) textMessage asked [wire textFrames success]) ∧
    .messageStop ∉ (translate (fun _ => none) textMessage asked []).1 :=
  ⟨((streamFaithful _ textMessage asked [wire textFrames success]).1 textFrames success textWhole rfl).2,
    ((streamFaithful (fun _ => none) textMessage asked []).2 (.trailerless [] [] (by decide) rfl)).1⟩

/-- An increment that begins with the text so far is taken for a snapshot, and what the network
brings in a chunk of its own behind the trailer is not read. -/
theorem pieceMisread :
    (Whole pieceFrames success ∧
      fragmentsOf "call".toList (callsOf (messagesOf pieceMessage (pieceFrames.map Frame.payload))) = pieces ∧
      wholeArguments pieces.flatten = true ∧
      (partialsAt 0 (translate (fun _ => none) pieceMessage asked [wire pieceFrames success]).1).flatten ≠ pieces.flatten) ∧
    Whole textFrames success ∧ .messageStop ∈ (translate (fun _ => none) textMessage asked [wire textFrames success,[0]]).1 := by
  refine ⟨⟨pieceWhole,by decide +kernel,by decide +kernel,by decide +kernel⟩,textWhole,?_⟩
  have last : ((translate (fun _ => none) textMessage asked [wire textFrames success,[0]]).1[5]?).map (fun event =>
      (event matches .messageStop : Bool)) = some true := by decide +kernel
  obtain ⟨event,there,its⟩ := Option.map_eq_some_iff.mp last
  cases event with
  | messageStop => exact List.mem_of_getElem? there
  | _ => cases its

end Clankermux.DevinStream
