import Clankermux.InsertionMap
import Clankermux.Json
import Clankermux.Text

/-! The translation of a streamed chat completion to the events of an Anthropic message. -/
namespace Clankermux.OpenAIFormats
open InsertionMap

structure ToolCallDelta where
  index : Option Int
  id : Option String
  name : Option String
  arguments : Option String
  deriving DecidableEq

structure PromptTokensDetails where
  cachedTokens : Option Int
  cacheCreationInputTokens : Option Int
  deriving DecidableEq

structure OpenAIUsage where
  promptTokens : Option Int
  completionTokens : Option Int
  promptTokensDetails : Option PromptTokensDetails
  deriving DecidableEq

structure Delta where
  reasoningContent : Option String
  content : Option String
  toolCalls : Option (List ToolCallDelta)
  deriving DecidableEq

structure Chunk where
  model : Option String
  delta : Option Delta
  finishReason : Option String
  usage : Option OpenAIUsage
  deriving DecidableEq

structure Runtime where
  parseChunk : List Char → Option Chunk
  parseJson : String → Option Json

inductive ContentBlock where
  | text
  | thinking
  | toolUse (id name : String)
  deriving DecidableEq

inductive BlockDelta where
  | textDelta (text : String)
  | thinkingDelta (thinking : String)
  | inputJsonDelta (partialJson : String)
  deriving DecidableEq

structure AnthropicUsage where
  inputTokens : Int
  outputTokens : Int
  cacheReadInputTokens : Option Int
  cacheCreationInputTokens : Option Int
  deriving DecidableEq

inductive Event where
  | messageStart (model : String)
  | ping
  | contentBlockStart (index : Nat) (block : ContentBlock)
  | contentBlockDelta (index : Nat) (delta : BlockDelta)
  | contentBlockStop (index : Nat)
  | messageDelta (stopReason : String) (usage : AnthropicUsage)
  | messageStop
  deriving DecidableEq

structure DisjointInputUsage where
  inputTokens : Int
  cacheReadInputTokens : Int
  cacheCreationInputTokens : Int
  clamped : Bool

def normalizeCacheInclusiveInput (totalInputTokens cacheReadInputTokens cacheCreationInputTokens : Int) : DisjointInputUsage :=
  let count (value : Int) : Int := if value > 0 then value else 0
  let total := count totalInputTokens
  let wantedRead := count cacheReadInputTokens
  let wantedCreation := count cacheCreationInputTokens
  let read := min wantedRead total
  let creation := min wantedCreation (total - read)
  ⟨total - read - creation,read,creation,read ≠ wantedRead || creation ≠ wantedCreation⟩

def readPromptTokensDetails (details : Option PromptTokensDetails) : Option Int × Option Int :=
  let number (value : Option Int) : Option Int := value.filter (0 ≤ ·)
  (number (details.bind (·.cachedTokens)),number (details.bind (·.cacheCreationInputTokens)))

def repairTruncatedToolJson (rt : Runtime) (accumulated : String) : String :=
  if trim accumulated = "" then ""
  else if (rt.parseJson accumulated).isSome then ""
  else (["\"\x7d","\x7d","\"","\"\x7d\x7d"].find? (fun ending => (rt.parseJson (accumulated ++ ending)).isSome)).getD ""

def mapOpenAIFinishReason (openaiReason : Option String) : String :=
  if openaiReason = some "stop" then "end_turn"
  else if openaiReason = some "length" then "max_tokens"
  else if openaiReason = some "function_call" ∨ openaiReason = some "tool_calls" then "tool_use"
  else "end_turn"

structure Context where
  hasStarted : Bool
  extractedModel : String
  hasSentStart : Bool
  hasSentContentBlockStart : Bool
  hasSentThinkingBlockStart : Bool
  thinkingBlockClosed : Bool
  textBlockClosed : Bool
  thinkingBlockIndex : Nat
  textBlockIndex : Nat
  promptTokens : Int
  completionTokens : Int
  cacheReadInputTokens : Int
  cacheCreationInputTokens : Int
  sawCacheRead : Bool
  sawCacheCreation : Bool
  encounteredToolCall : Bool
  toolCallAccumulators : InsertionMap Nat String
  nextBlockIndex : Nat
  /-- In ascending order of the tool calls, as an object lists keys that are indices. -/
  toolCallBlockIndices : List (Nat × Nat)
  finishReason : Option String

def maxToolCallLength : Nat := 1000000

def maxToolCallIndex : Nat := 100

def Context.start (resolvedModel : Option String) : Context :=
  { hasStarted := false,extractedModel := resolvedModel.getD "unknown",hasSentStart := false
    hasSentContentBlockStart := false,hasSentThinkingBlockStart := false,thinkingBlockClosed := false
    textBlockClosed := false,thinkingBlockIndex := 0,textBlockIndex := 0,promptTokens := 0,completionTokens := 0
    cacheReadInputTokens := 0,cacheCreationInputTokens := 0,sawCacheRead := false,sawCacheCreation := false
    encounteredToolCall := false,toolCallAccumulators := [],nextBlockIndex := 0,toolCallBlockIndices := []
    finishReason := none }

def truthy (text : Option String) : Option String := text.filter (· ≠ "")

def lengthStopReason (c : Context) : Option String :=
  if c.finishReason = some "length" then some (mapOpenAIFinishReason c.finishReason) else none

def emitToolCallJson (rt : Runtime) (index : Nat) (accumulated : String) : Event :=
  .contentBlockDelta index (.inputJsonDelta (accumulated ++ repairTruncatedToolJson rt accumulated))

def usageOf (c : Context) : AnthropicUsage :=
  let input := normalizeCacheInclusiveInput c.promptTokens c.cacheReadInputTokens c.cacheCreationInputTokens
  if input.clamped then ⟨c.promptTokens,c.completionTokens,none,none⟩
  else ⟨input.inputTokens,c.completionTokens,if c.sawCacheRead then some input.cacheReadInputTokens else none,
    if c.sawCacheCreation then some input.cacheCreationInputTokens else none⟩

def emitStreamEnd (c : Context) (stopReason : String) (toolCallBlockIndices : Option (List (Nat × Nat)))
    (endTurnBlockIndex : Option Nat) (reportedStopReason : Option String) : List Event :=
  (match toolCallBlockIndices with
    | some indices => indices.map (fun entry => .contentBlockStop entry.2)
    | none => if stopReason = "end_turn" then endTurnBlockIndex.toList.map .contentBlockStop else []) ++
  [.messageDelta (reportedStopReason.getD stopReason) (usageOf c),.messageStop]

def emitToolCalls (rt : Runtime) (c : Context) : List Event :=
  c.toolCallBlockIndices.map (fun entry => emitToolCallJson rt entry.2 ((get c.toolCallAccumulators entry.1).getD "")) ++
    emitStreamEnd c "tool_use" (some c.toolCallBlockIndices) none (lengthStopReason c)

def lastBlockIndex (c : Context) : Nat := if c.textBlockClosed then c.thinkingBlockIndex else c.textBlockIndex

def endTurn (c : Context) (block : Option Nat) : List Event := emitStreamEnd c "end_turn" none block (lengthStopReason c)

def onDone (rt : Runtime) (c : Context) : List Event :=
  if c.encounteredToolCall then emitToolCalls rt c
  else if c.hasSentContentBlockStart then endTurn c (some (lastBlockIndex c))
  else if c.hasSentThinkingBlockStart then endTurn c (some c.thinkingBlockIndex)
  else if c.hasSentStart then endTurn c none
  else []

def flush (rt : Runtime) (c : Context) : List Event :=
  if c.encounteredToolCall && !c.toolCallAccumulators.isEmpty then emitToolCalls rt c
  else if c.hasSentContentBlockStart && !c.encounteredToolCall then endTurn c (some (lastBlockIndex c))
  else if c.hasSentThinkingBlockStart then endTurn c (some c.thinkingBlockIndex)
  else if c.hasSentStart && c.finishReason.isSome then
    endTurn c (if c.hasSentContentBlockStart && !c.textBlockClosed then some c.textBlockIndex else none)
  else []

structure Emits where
  context : Context
  events : List Event

def Emits.andThen (e : Emits) (next : Context → Emits) : Emits :=
  let later := next e.context
  ⟨later.context,e.events ++ later.events⟩

def readModel (c : Context) (data : Chunk) : Context :=
  if c.hasStarted then c
  else
    match truthy data.model with
    | some model => { c with extractedModel := model,hasStarted := true }
    | none => c

def readFinishReason (c : Context) (data : Chunk) : Context :=
  { c with finishReason := (truthy data.finishReason).or c.finishReason }

def readUsage (c : Context) (data : Chunk) : Context :=
  match data.usage with
  | none => c
  | some usage =>
    let counted (value : Option Int) (before : Int) : Int := (value.filter (· ≠ 0)).getD before
    let (read,creation) := readPromptTokensDetails usage.promptTokensDetails
    { c with
      promptTokens := counted usage.promptTokens c.promptTokens
      completionTokens := counted usage.completionTokens c.completionTokens
      cacheCreationInputTokens := creation.getD c.cacheCreationInputTokens
      sawCacheCreation := creation.isSome || c.sawCacheCreation
      cacheReadInputTokens := read.getD c.cacheReadInputTokens
      sawCacheRead := read.isSome || c.sawCacheRead }

def readChunk (c : Context) (data : Chunk) : Context := readUsage (readFinishReason (readModel c data) data) data

def sendStart (c : Context) : Emits :=
  if c.hasSentStart then ⟨c,[]⟩
  else ⟨{ c with hasSentStart := true },[.messageStart c.extractedModel,.ping]⟩

def closeThinking (c : Context) : Emits :=
  if c.hasSentThinkingBlockStart && !c.thinkingBlockClosed
  then ⟨{ c with thinkingBlockClosed := true },[.contentBlockStop c.thinkingBlockIndex]⟩ else ⟨c,[]⟩

def closeText (c : Context) : Emits :=
  if c.hasSentContentBlockStart && !c.textBlockClosed
  then ⟨{ c with textBlockClosed := true },[.contentBlockStop c.textBlockIndex]⟩ else ⟨c,[]⟩

def toolCallIndex (toolCall : ToolCallDelta) : Option Nat :=
  toolCall.index.bind fun idx => if idx < 0 ∨ idx ≥ maxToolCallIndex then none else some idx.toNat

def startTool (c : Context) (idx : Nat) (id name : String) : Emits :=
  ⟨{ c with
    toolCallAccumulators := InsertionMap.set c.toolCallAccumulators idx ""
    nextBlockIndex := c.nextBlockIndex + 1
    toolCallBlockIndices := c.toolCallBlockIndices.orderedInsert (fun a b => a.1 ≤ b.1) (idx,c.nextBlockIndex) },
    [.contentBlockStart c.nextBlockIndex (.toolUse id name)]⟩

def bufferArguments (c : Context) (idx : Nat) (toolCall : ToolCallDelta) : Context :=
  let newArgs := toolCall.arguments.getD ""
  if utf16Length newArgs > maxToolCallLength then c
  else { c with
    toolCallAccumulators :=
      InsertionMap.set c.toolCallAccumulators idx ((get c.toolCallAccumulators idx).getD "" ++ newArgs) }

def onToolCall (c : Context) (toolCall : ToolCallDelta) : Emits :=
  let c := { c with encounteredToolCall := true }
  match toolCallIndex toolCall with
  | none => ⟨c,[]⟩
  | some idx =>
    if get c.toolCallAccumulators idx = none then
      match truthy toolCall.id,truthy toolCall.name with
      | some id,some name =>
        ((closeThinking c).andThen closeText |>.andThen (startTool · idx id name)).andThen
          fun c => ⟨bufferArguments c idx toolCall,[]⟩
      | _,_ => ⟨c,[]⟩
    else ⟨bufferArguments c idx toolCall,[]⟩

def onToolCalls (c : Context) : List ToolCallDelta → Emits
  | [] => ⟨c,[]⟩
  | toolCall::rest => (onToolCall c toolCall).andThen (onToolCalls · rest)

def startThinking (c : Context) : Emits :=
  if c.hasSentThinkingBlockStart then ⟨c,[]⟩
  else (closeText { c with hasSentThinkingBlockStart := true }).andThen fun c =>
    ⟨{ c with thinkingBlockIndex := c.nextBlockIndex,nextBlockIndex := c.nextBlockIndex + 1 },
      [.contentBlockStart c.nextBlockIndex .thinking]⟩

def onReasoning (c : Context) (reasoning : String) : Emits :=
  (startThinking c).andThen fun c => ⟨c,[.contentBlockDelta c.thinkingBlockIndex (.thinkingDelta reasoning)]⟩

def startText (c : Context) : Emits :=
  if c.hasSentContentBlockStart then ⟨c,[]⟩
  else
    (closeThinking { c with
      hasSentContentBlockStart := true,textBlockIndex := c.nextBlockIndex,nextBlockIndex := c.nextBlockIndex + 1 }).andThen
      fun c => ⟨c,[.contentBlockStart c.textBlockIndex .text]⟩

def onContent (c : Context) (content : String) : Emits :=
  (startText c).andThen fun c => ⟨c,[.contentBlockDelta c.textBlockIndex (.textDelta content)]⟩

def onText (on : Context → String → Emits) (text : Option String) (c : Context) : Emits :=
  match truthy text with
  | none => ⟨c,[]⟩
  | some text => on c text

def onDelta (c : Context) (delta : Delta) : Emits :=
  match delta.toolCalls with
  | some toolCalls => onToolCalls c toolCalls
  | none => (onText onReasoning delta.reasoningContent c).andThen (onText onContent delta.content)

def onChunk (c : Context) (data : Chunk) : Emits :=
  (sendStart (readChunk c data)).andThen fun c =>
    match data.delta with
    | none => ⟨c,[]⟩
    | some delta => onDelta c delta

inductive Line where
  | done
  | chunk (data : Chunk)
  deriving DecidableEq

def Line.isDone : Line → Bool
  | .done => true
  | .chunk _ => false

def readLine (rt : Runtime) (line : List Char) : Option Line :=
  let trimmed := trimChars line
  if "data:".toList.isPrefixOf trimmed then
    let dataStr := trimChars (trimmed.drop 5)
    if dataStr = "[DONE]".toList then some .done else (rt.parseChunk dataStr).map .chunk
  else none

def onLine (rt : Runtime) (c : Context) : Line → Emits
  | .done => ⟨c,onDone rt c⟩
  | .chunk data => onChunk c data

def onLines (rt : Runtime) (c : Context) : List Line → Emits
  | [] => ⟨c,[]⟩
  | line::rest => (onLine rt c line).andThen (onLines rt · rest)

def splitLines : List Char → List (List Char) × List Char
  | [] => ([],[])
  | ch::rest =>
    let (lines,last) := splitLines rest
    if ch = '\n' then ([]::lines,last)
    else
      match lines with
      | [] => ([],ch::last)
      | line::lines => ((ch::line)::lines,last)

structure Translation where
  buffer : List Char
  context : Context

/-- A translation that is gone has seen `[DONE]`. The lines behind it in the same text are
still handled with its context. -/
def transform (rt : Runtime) (translation : Option Translation) (text : List Char) : Option Translation × List Event :=
  match translation with
  | none => (none,[])
  | some s =>
    let (lines,buffer) := splitLines (s.buffer ++ text)
    let read := lines.filterMap (readLine rt)
    let handled := onLines rt s.context read
    (if read.any Line.isDone then none else some ⟨buffer,handled.context⟩,handled.events)

def transformAll (rt : Runtime) (translation : Option Translation) : List (List Char) → List Event
  | [] => (translation.map (fun s => flush rt s.context)).getD []
  | text::rest =>
    let (translation,events) := transform rt translation text
    events ++ transformAll rt translation rest

def transformStreamingResponse (rt : Runtime) (resolvedModel : Option String) (texts : List (List Char)) : List Event :=
  transformAll rt (some ⟨[],.start resolvedModel⟩) texts

end Clankermux.OpenAIFormats
