import Clankermux.Base64url
import Clankermux.DevinConnect
import Clankermux.InsertionMap

/-! The translation of a Devin answer into the events of an Anthropic message, and the
message that is made of the events when no stream was asked for. Texts are sequences of
Unicode scalar values. -/
namespace Clankermux.DevinStream
open DevinConnect

abbrev Text := List Char

def wrapDevinSignature (model signature : Text) : Text :=
  "devin:".toList ++ Base64url.encode (Utf8.encode (JsonText.objectText
    [("model".toList,model),("signature".toList,signature)]))

/-- `Buffer.toString`: it keeps a byte order mark. -/
def bufferText (bytes : Bytes) : Text :=
  let decoded := Utf8.decode (.clean true) bytes
  decoded.2 ++ decoded.1.finish

def unwrapDevinSignature (model value : Text) : Text :=
  if "devin:".toList.isPrefixOf value then
    match JsonText.parse (bufferText (Base64url.decode (value.drop 6))) with
    | none => []
    | some parsed => match textField "model" parsed with
      | none => []
      | some held => if held.toList = model then ((textField "signature" parsed).getD "").toList else []
  else []

inductive StopReason where
  | unspecified
  | incomplete
  | maxTokens
  | nonfiniteLogitOrProb
  | partialStop
  | contentFilter
  | error
  | other (code : Int)
  deriving DecidableEq

structure Usage where
  inputTokens : Nat
  outputTokens : Nat
  cacheReadInputTokens : Nat
  cacheCreationInputTokens : Nat

structure ChatToolCall where
  id : Text
  name : Text
  argumentsJson : Text

structure ChatMessage where
  messageId : Text
  actualModelUid : Text
  deltaText : Text
  deltaThinking : Text
  deltaSignature : Text
  deltaToolCalls : List ChatToolCall
  stopReason : StopReason
  usage : Option Usage
  redact : Bool
  thinkingRedacted : Bool

inductive BlockStart where
  | text
  | thinking
  | toolUse (id name : Text)

inductive Delta where
  | text (text : Text)
  | thinking (thinking : Text)
  | signature (signature : Text)
  | inputJson (partialJson : Text)

inductive Event where
  | messageStart (id model : Text) (usage : Usage)
  | contentBlockStart (index : Nat) (block : BlockStart)
  | contentBlockDelta (index : Nat) (delta : Delta)
  | contentBlockStop (index : Nat)
  | messageDelta (stopReason : String) (usage : Usage)
  | messageStop

structure Tool where
  index : Nat
  name : Text
  json : Text

structure State where
  started : Bool
  id : Text
  model : Text
  index : Nat
  textIndex : Option Nat
  thinkingIndex : Option Nat
  thinkingSignature : Text
  tools : InsertionMap Text Tool
  activeTool : Option Text
  stop : StopReason
  usage : Usage
  totalBytes : Nat

structure Context where
  id : Text
  model : Text

def State.start (context : Context) : State :=
  ⟨false,context.id,context.model,0,none,none,[],[],none,.unspecified,⟨0,0,0,0⟩,0⟩

abbrev Fallible := List Event × Except DevinConnect.Failure State

def Fallible.andThen (first : Fallible) (second : State → Fallible) : Fallible :=
  match first.2 with
  | .error failure => (first.1,.error failure)
  | .ok st => (first.1 ++ (second st).1,(second st).2)

def pass (part : List Event × State) : Fallible := (part.1,.ok part.2)

def observe (msg : ChatMessage) (st : State) : State :=
  let named := if st.started then st else { st with
    id := if msg.messageId ≠ [] then msg.messageId else st.id
    model := if msg.actualModelUid ≠ [] then msg.actualModelUid else st.model }
  { named with
    usage := msg.usage.getD st.usage
    stop := if msg.stopReason ≠ .unspecified then msg.stopReason else st.stop }

def ChatMessage.meaningful (msg : ChatMessage) : Bool :=
  msg.deltaText ≠ [] || msg.deltaThinking ≠ [] || msg.deltaToolCalls ≠ [] || msg.stopReason ≠ .unspecified

def begin (msg : ChatMessage) (st : State) : List Event × State :=
  if !st.started && msg.meaningful then ([.messageStart st.id st.model st.usage],{ st with started := true }) else ([],st)

def closeText (st : State) : List Event × State :=
  match st.textIndex with
  | none => ([],st)
  | some index => ([.contentBlockStop index],{ st with textIndex := none })

def openThinking (st : State) : List Event × State × Nat :=
  match st.thinkingIndex with
  | some index => ([],st,index)
  | none => ([.contentBlockStart st.index .thinking],{ st with
      thinkingIndex := some st.index
      index := st.index+1
      thinkingSignature := [] },st.index)

def onThinking (msg : ChatMessage) (st : State) : List Event × State :=
  if msg.deltaThinking = [] then ([],st)
  else
    let closed := closeText st
    let opened := openThinking closed.2
    (closed.1 ++ opened.1 ++ [.contentBlockDelta opened.2.2 (.thinking msg.deltaThinking)],opened.2.1)

def onSignature (msg : ChatMessage) (st : State) : State :=
  if st.thinkingIndex.isSome then { st with thinkingSignature := st.thinkingSignature ++ msg.deltaSignature } else st

def thinkingEnd (st : State) : List Event :=
  match st.thinkingIndex with
  | none => []
  | some index =>
    (if st.thinkingSignature = [] then []
      else [.contentBlockDelta index (.signature (wrapDevinSignature st.model st.thinkingSignature))]) ++
      [.contentBlockStop index]

def closeThinking (msg : ChatMessage) (st : State) : List Event × State :=
  if msg.deltaText = [] ∧ msg.deltaToolCalls = [] then ([],st) else (thinkingEnd st,{ st with thinkingIndex := none })

def openText (st : State) : List Event × State × Nat :=
  match st.textIndex with
  | some index => ([],st,index)
  | none => ([.contentBlockStart st.index .text],{ st with
      textIndex := some st.index
      index := st.index+1 },st.index)

def onText (msg : ChatMessage) (st : State) : List Event × State :=
  if msg.deltaText = [] then ([],st)
  else
    let opened := openText st
    (opened.1 ++ [.contentBlockDelta opened.2.2 (.text msg.deltaText)],opened.2.1)

def closeTextForTools (msg : ChatMessage) (st : State) : List Event × State :=
  if msg.deltaToolCalls = [] then ([],st) else closeText st

def extend (json fragment : Text) : Text := if json.isPrefixOf fragment then fragment else json ++ fragment

def onArguments (toolId : Text) (tool : Tool) (fragment : Text) (st : State) : List Event × State :=
  if fragment = [] then ([],st)
  else
    let next := extend tool.json fragment
    let delta := next.drop tool.json.length
    (if delta = [] then [] else [.contentBlockDelta tool.index (.inputJson delta)],
      { st with tools := st.tools.set toolId { tool with json := next } })

def onNamedCall (toolId : Text) (call : ChatToolCall) (st : State) : Fallible :=
  match st.tools.get toolId with
  | some tool =>
    if call.name ≠ [] ∧ call.name ≠ tool.name then ([],.error (dataLoss "Devin changed a streamed tool name"))
    else pass (onArguments toolId tool call.argumentsJson st)
  | none =>
    if call.name = [] then ([],.error (dataLoss "Devin tool call has no name"))
    else
      let tool : Tool := ⟨st.index,call.name,[]⟩
      Fallible.andThen ([.contentBlockStart st.index (.toolUse toolId call.name)],.ok { st with
        index := st.index+1
        tools := st.tools.set toolId tool }) (fun st => pass (onArguments toolId tool call.argumentsJson st))

def onCall (call : ChatToolCall) (st : State) : Fallible :=
  match (if call.id ≠ [] then some call.id else st.activeTool) with
  | none => ([],.error (dataLoss "Devin tool delta has no call ID"))
  | some toolId => onNamedCall toolId call { st with activeTool := some toolId }

def onCalls : List ChatToolCall → State → Fallible
  | [],st => ([],.ok st)
  | call::calls,st => Fallible.andThen (onCall call st) (onCalls calls)

def onParts (msg : ChatMessage) (st : State) : Fallible :=
  Fallible.andThen (pass (begin msg st)) fun st =>
  Fallible.andThen (pass (onThinking msg st)) fun st =>
  Fallible.andThen (pass (closeThinking msg (onSignature msg st))) fun st =>
  Fallible.andThen (pass (onText msg st)) fun st =>
  Fallible.andThen (pass (closeTextForTools msg st)) fun st =>
  onCalls msg.deltaToolCalls st

def onMessage (msg : ChatMessage) (st : State) : Fallible :=
  let seen := observe msg st
  if msg.redact || msg.thinkingRedacted then
    ([],.error (.rpc ⟨"permission_denied","Devin withheld this completion".toList⟩))
  else onParts msg seen

def maxTotalBytes : Nat := 128*1024*1024

def onPayload (fromBinary : Bytes → Option ChatMessage) (payload : Bytes) (st : State) : Fallible :=
  let st := { st with totalBytes := st.totalBytes+payload.length }
  if maxTotalBytes < st.totalBytes then ([],.error (dataLoss "Devin stream exceeds size limit"))
  else match fromBinary payload with
    | none => ([],.error .thrown)
    | some msg => onMessage msg st

def onPayloads (fromBinary : Bytes → Option ChatMessage) : List Bytes → State → Fallible
  | [],st => ([],.ok st)
  | payload::payloads,st => Fallible.andThen (onPayload fromBinary payload st) (onPayloads fromBinary payloads)

def unfinished (stop : StopReason) : Bool :=
  stop = .error || stop = .incomplete || stop = .partialStop || stop = .nonfiniteLogitOrProb

def wholeArguments (json : Text) : Bool :=
  match JsonText.parse (if json = [] then "\x7b\x7d".toList else json) with
  | some (.obj _) => true
  | _ => false

def stopTools : List Tool → List Event × Option DevinConnect.Failure
  | [] => ([],none)
  | tool::tools =>
    if wholeArguments tool.json then
      let later := stopTools tools
      (.contentBlockStop tool.index::later.1,later.2)
    else ([],some (dataLoss "Devin returned invalid tool arguments"))

def stopReason (st : State) : String :=
  if st.tools ≠ [] then "tool_use" else if st.stop = .maxTokens then "max_tokens" else "end_turn"

def finish (st : State) : List Event × Option DevinConnect.Failure :=
  if unfinished st.stop then ([],some (dataLoss "Devin did not finish this completion"))
  else if !st.started then ([],some (dataLoss "Devin returned an empty completion"))
  else
    let open_ := thinkingEnd st ++ (closeText st).1
    let tools := stopTools (st.tools.map Prod.snd)
    match tools.2 with
    | some failure => (open_ ++ tools.1,some failure)
    | none =>
      if st.stop = .contentFilter then
        (open_ ++ tools.1,some (.rpc ⟨"permission_denied","Devin filtered this completion".toList⟩))
      else (open_ ++ tools.1 ++ [.messageDelta (stopReason st) st.usage,.messageStop],none)

def translate (gunzip : Bytes → Option Bytes) (fromBinary : Bytes → Option ChatMessage) (context : Context)
    (chunks : List Bytes) : List Event × Option DevinConnect.Failure :=
  let decoded := decodeConnect gunzip [] chunks
  let said := onPayloads fromBinary decoded.1 (State.start context)
  match said.2 with
  | .error failure => (said.1,some failure)
  | .ok st => match decoded.2 with
    | some failure => (said.1,some failure)
    | none => (said.1 ++ (finish st).1,(finish st).2)

inductive Block where
  | text (text : Text)
  | thinking (thinking : Text) (signature : Option Text)
  | toolUse (id name : Text) (input : Json)

structure Reply where
  id : Text
  model : Text
  stopReason : Option String
  usage : Usage
  content : List (Option Block)

structure Collector where
  message : Option (Text × Text × Usage)
  stopReason : Option String
  usage : Option Usage
  blocks : List (Option Block)
  json : InsertionMap Nat Text

def Collector.start : Collector := ⟨none,none,none,[],[]⟩

def put {α : Type} (items : List (Option α)) (index : Nat) (item : α) : List (Option α) :=
  if index < items.length then items.set index (some item)
  else items ++ List.replicate (index-items.length) none ++ [some item]

def BlockStart.block : BlockStart → Block
  | .text => .text []
  | .thinking => .thinking [] none
  | .toolUse id name => .toolUse id name (.obj [])

def Block.apply (block : Block) (delta : Delta) : Block :=
  match block,delta with
  | .text said,.text more => .text (said ++ more)
  | .thinking thought signature,.thinking more => .thinking (thought ++ more) signature
  | .thinking thought signature,.signature more => .thinking thought (some (signature.getD [] ++ more))
  | block,_ => block

def Collector.event (c : Collector) : Event → Option Collector
  | .messageStart id model usage => some { c with message := some (id,model,usage) }
  | .contentBlockStart index block => some { c with blocks := put c.blocks index block.block }
  | .contentBlockDelta index delta => match (c.blocks[index]?).join with
    | none => none
    | some block => match delta with
      | .inputJson partialJson => some { c with json := c.json.set index ((c.json.get index).getD [] ++ partialJson) }
      | delta => some { c with blocks := c.blocks.set index (some (block.apply delta)) }
  | .contentBlockStop _ => some c
  | .messageDelta stopReason usage => some { c with
      stopReason := some stopReason
      usage := some usage }
  | .messageStop => some c

def Block.setInput (input : Json) : Block → Block
  | .toolUse id name _ => .toolUse id name input
  | block => block

def readInputs : InsertionMap Nat Text → List (Option Block) → Option (List (Option Block))
  | [],blocks => some blocks
  | (index,value)::rest,blocks => match (blocks[index]?).join,JsonText.parse value with
    | some block,some input => readInputs rest (blocks.set index (some (block.setInput input)))
    | _,_ => none

def collect (events : List Event) : Option Reply := do
  let c ← events.foldlM Collector.event Collector.start
  let blocks ← readInputs c.json c.blocks
  let message ← c.message
  some ⟨message.1,message.2.1,c.stopReason,c.usage.getD message.2.2,blocks⟩

def reply (translated : List Event × Option DevinConnect.Failure) : Except DevinConnect.Failure Reply :=
  match translated.2 with
  | some failure => .error failure
  | none => match collect translated.1 with
    | none => .error .thrown
    | some reply => .ok reply

end Clankermux.DevinStream
