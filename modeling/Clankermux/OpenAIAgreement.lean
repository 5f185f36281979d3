import Clankermux.OpenAIStreamWellFormed

/-! The translation of a chat completion that is not streamed, and what a client makes of
the events of a streamed one. -/
namespace Clankermux.OpenAIFormats

structure OpenAIToolCall where
  id : String
  name : String
  arguments : String

structure OpenAIMessage where
  content : Option String
  reasoningContent : Option String
  toolCalls : Option (List OpenAIToolCall)

inductive AnthropicBlock where
  | text (text : String)
  | thinking (thinking : String)
  | toolUse (id name : String) (input : Json)

inductive AnthropicResponse where
  | error (type message : String)
  | message (id : Option String) (content : List AnthropicBlock) (model : Option String) (stopReason : String)
      (usage : AnthropicUsage)

def safeParseJSON (rt : Runtime) (jsonString : String) : Json := (rt.parseJson jsonString).getD (.obj [])

def normalizedInput (usage : Option OpenAIUsage) (outputTokens : Int) : AnthropicUsage :=
  let (read,creation) := readPromptTokensDetails (usage.bind (·.promptTokensDetails))
  let promptTokens := (usage.bind (·.promptTokens)).getD 0
  let input := normalizeCacheInclusiveInput promptTokens (read.getD 0) (creation.getD 0)
  if input.clamped then ⟨promptTokens,outputTokens,none,none⟩
  else ⟨input.inputTokens,outputTokens,read.map (fun _ => input.cacheReadInputTokens),
    creation.map (fun _ => input.cacheCreationInputTokens)⟩

def toolUseBlock (rt : Runtime) (toolCall : OpenAIToolCall) : AnthropicBlock :=
  .toolUse toolCall.id toolCall.name (safeParseJSON rt (if toolCall.arguments = "" then "{}" else toolCall.arguments))

inductive Folding where
  | text (text : String)
  | thinking (thinking : String)
  | toolUse (id name json : String)

def ContentBlock.folding : ContentBlock → Folding
  | .text => .text ""
  | .thinking => .thinking ""
  | .toolUse id name => .toolUse id name ""

def Folding.add : Folding → BlockDelta → Folding
  | .text before,.textDelta more => .text (before ++ more)
  | .thinking before,.thinkingDelta more => .thinking (before ++ more)
  | .toolUse id name json,.inputJsonDelta more => .toolUse id name (json ++ more)
  | block,_ => block

structure Folded where
  blocks : List Folding
  stopReason : Option String
  usage : Option AnthropicUsage

def foldEvent (f : Folded) : Event → Folded
  | .contentBlockStart _ block => { f with blocks := f.blocks ++ [block.folding] }
  | .contentBlockDelta index delta => { f with blocks := f.blocks.modify index (·.add delta) }
  | .messageDelta stopReason usage => { f with stopReason := some stopReason,usage := some usage }
  | _ => f

def Folding.block (rt : Runtime) : Folding → Option AnthropicBlock
  | .text whole => some (.text whole)
  | .thinking whole => some (.thinking whole)
  | .toolUse id name json => (if json = "" then some (.obj []) else rt.parseJson json).map (.toolUse id name)

def foldEvents (f : Folded) (events : List Event) : Folded := events.foldl foldEvent f

structure Message where
  content : List AnthropicBlock
  stopReason : String
  usage : AnthropicUsage

def AnthropicResponse.body : AnthropicResponse → Option Message
  | .error _ _ => none
  | .message _ content _ stopReason usage => some ⟨content,stopReason,usage⟩

/-! A streamed reply and the same reply in one body become the same message. -/
open InsertionMap

variable {rt : Runtime} {c d : Context} {f : Folded}

structure Counters where
  promptTokens : Int
  completionTokens : Int
  cacheReadInputTokens : Int
  cacheCreationInputTokens : Int
  sawCacheRead : Bool
  sawCacheCreation : Bool

structure Side where
  hasStarted : Bool
  hasSentStart : Bool
  extractedModel : String
  counters : Counters
  finishReason : Option String

def Side.onto (s : Side) (c : Context) : Context :=
  { c with
    hasStarted := s.hasStarted
    hasSentStart := s.hasSentStart
    extractedModel := s.extractedModel
    promptTokens := s.counters.promptTokens
    completionTokens := s.counters.completionTokens
    cacheReadInputTokens := s.counters.cacheReadInputTokens
    cacheCreationInputTokens := s.counters.cacheCreationInputTokens
    sawCacheRead := s.counters.sawCacheRead
    sawCacheCreation := s.counters.sawCacheCreation
    finishReason := s.finishReason }

def Side.emits (s : Side) (e : Emits) : Emits := ⟨s.onto e.context,e.events⟩

section
variable (s : Side)
include s

end

@[simp] theorem foldNil (f : Folded) : foldEvents f [] = f := rfl

theorem foldAppend (f : Folded) (events others : List Event) :
    foldEvents f (events ++ others) = foldEvents (foldEvents f events) others := List.foldl_append

def Counters.count (k : Counters) (usage : OpenAIUsage) : Counters :=
  let counted (value : Option Int) (before : Int) : Int := (value.filter (· ≠ 0)).getD before
  let (read,creation) := readPromptTokensDetails usage.promptTokensDetails
  ⟨counted usage.promptTokens k.promptTokens,counted usage.completionTokens k.completionTokens,
    read.getD k.cacheReadInputTokens,creation.getD k.cacheCreationInputTokens,
    read.isSome || k.sawCacheRead,creation.isSome || k.sawCacheCreation⟩

def joined (texts : List String) : String := texts.foldl (· ++ ·) ""

structure SameCalls (c d : Context) : Prop where
  accumulators : d.toolCallAccumulators = c.toolCallAccumulators
  indices : d.toolCallBlockIndices = c.toolCallBlockIndices
  encountered : d.encounteredToolCall = c.encounteredToolCall

theorem SameCalls.trans {e : Context} (first : SameCalls c d) (second : SameCalls d e) : SameCalls c e :=
  ⟨second.accumulators.trans first.accumulators,second.indices.trans first.indices,second.encountered.trans first.encountered⟩

theorem closersFold (c : Context) (f : Folded) : foldEvents f (closeThinking c).events = f ∧ foldEvents f (closeText c).events = f := by
  unfold closeThinking closeText
  constructor <;> split <;> rfl

theorem modifyAt {blocks rest} {block : Folding} (change : Folding → Folding) :
    (blocks ++ block::rest).modify blocks.length change = blocks ++ change block::rest := by
  induction blocks with
  | nil => rfl
  | cons first others ih => simpa using ih

structure Phase (c : Context) (f : Folded) (e : Emits) (more : List Folding) : Prop where
  folded : foldEvents f e.events = { f with blocks := f.blocks ++ more }
  shown : e.context.nextBlockIndex = f.blocks.length + more.length
  calls : SameCalls c e.context

def gatherStep (calls : List OpenAIToolCall) (delta : ToolCallDelta) : Option (List OpenAIToolCall) :=
  let arguments := delta.arguments.getD ""
  delta.index.bind fun index =>
    if index = calls.length then
      (truthy delta.id).bind fun id => (truthy delta.name).map fun name => calls ++ [⟨id,name,arguments⟩]
    else if 0 ≤ index ∧ index < calls.length then
      some (calls.modify index.toNat fun call => { call with arguments := call.arguments ++ arguments })
    else none

def toolFolding (json : OpenAIToolCall → String) (call : OpenAIToolCall) : Folding := .toolUse call.id call.name (json call)

structure Gathering (base : List Folding) (calls : List OpenAIToolCall) (c : Context) (f : Folded) : Prop where
  blocks : f.blocks = base ++ calls.map (toolFolding fun _ => "")
  next : c.nextBlockIndex = f.blocks.length
  indices : c.toolCallBlockIndices = (List.range calls.length).map (fun i => (i,base.length + i))
  accumulators : ∀ i, get c.toolCallAccumulators i = calls[i]?.map (·.arguments)
  encountered : c.encounteredToolCall = !calls.isEmpty

theorem insertLast {l} {entry : Nat × Nat} (behind : ∀ other ∈ l, other.1 < entry.1) :
    l.orderedInsert (fun a b => a.1 ≤ b.1) entry = l ++ [entry] := by
  induction l with
  | nil => rfl
  | cons first rest ih =>
    have later : ¬ entry.1 ≤ first.1 := Nat.not_le.mpr (behind first (.head _))
    simp [later,ih (fun other inside => behind other (.tail _ inside))]

theorem gatherLonger {calls after} {delta : ToolCallDelta} (stepped : gatherStep calls delta = some after) :
    calls.length ≤ after.length := by
  obtain ⟨index,-,stepped⟩ := Option.bind_eq_some_iff.mp stepped
  split at stepped
  · obtain ⟨id,-,stepped⟩ := Option.bind_eq_some_iff.mp stepped
    obtain ⟨name,-,rfl⟩ := Option.map_eq_some_iff.mp stepped
    simp
  · split at stepped
    · cases stepped
      simp
    · cases stepped

theorem openToolFold (c : Context) (f : Folded) (idx : Nat) (id name : String) :
    foldEvents f (openTool c idx id name).events = { f with blocks := f.blocks ++ [.toolUse id name ""] } := by
  simp only [openTool,Emits.andThen,foldAppend,(closersFold _ _).1,(closersFold _ _).2]
  rfl

theorem bufferShort {toolCall : ToolCallDelta} (short : utf16Length (toolCall.arguments.getD "") ≤ maxToolCallLength)
    (c : Context) (idx : Nat) : bufferArguments c idx toolCall = { c with
      toolCallAccumulators := InsertionMap.set c.toolCallAccumulators idx
        ((get c.toolCallAccumulators idx).getD "" ++ toolCall.arguments.getD "") } := by
  rw [bufferArguments,if_neg (Nat.not_lt.mpr short)]

theorem callIndex {toolCall} {idx : Nat} (its : toolCall.index = some (idx : Int)) (few : idx < maxToolCallIndex) :
    toolCallIndex toolCall = some idx := by
  simp only [toolCallIndex,its,Option.bind_some]
  rw [if_neg (by omega)]
  simp

theorem Gathering.step {base calls after} {delta : ToolCallDelta}
    (gathering : Gathering base calls c f) (stepped : gatherStep calls delta = some after) (few : after.length ≤ maxToolCallIndex)
    (short : utf16Length (delta.arguments.getD "") ≤ maxToolCallLength) :
    Gathering base after (onToolCall c delta).context (foldEvents f (onToolCall c delta).events) := by
  have longer := gatherLonger stepped
  obtain ⟨index,its,stepped⟩ := Option.bind_eq_some_iff.mp stepped
  split at stepped
  · rename_i fresh
    obtain ⟨id,hasId,stepped⟩ := Option.bind_eq_some_iff.mp stepped
    obtain ⟨name,hasName,rfl⟩ := Option.map_eq_some_iff.mp stepped
    have found : toolCallIndex delta = some calls.length := callIndex (by rw [its,fresh]) (by simpa [Nat.succ_le_iff] using few)
    have absent : get c.toolCallAccumulators calls.length = none := by simp [gathering.accumulators]
    have same : onToolCall c delta = (openTool (OpenAIFormats.encountered c) calls.length id name).andThen
        fun c => ⟨bufferArguments c calls.length delta,[]⟩ := by
      simp [onToolCall,found,absent,hasId,hasName,OpenAIFormats.encountered,openTool]
    rw [same]
    simp only [Emits.andThen,List.append_nil,openToolFold,bufferShort short,openToolSame]
    refine ⟨?_,?_,?_,?_,?_⟩
    · simp [gathering.blocks,toolFolding]
    · simp [OpenAIFormats.encountered,gathering.next]
    · have behind : ∀ other ∈ c.toolCallBlockIndices, other.1 < calls.length := by
        intro other inside
        rw [gathering.indices] at inside
        obtain ⟨i,member,rfl⟩ := List.mem_map.mp inside
        exact List.mem_range.mp member
      simp only [OpenAIFormats.encountered]
      rw [insertLast behind,gathering.indices,gathering.next,gathering.blocks]
      simp [List.range_succ]
    · intro i
      rw [getSet,getSetSelf,getSet,List.getElem?_append]
      simp only [OpenAIFormats.encountered,gathering.accumulators]
      by_cases last : i = calls.length
      · simp [last]
      · by_cases before : i < calls.length
        · simp [last,before]
        · have beyond : 1 ≤ i - calls.length := by omega
          have past : ∀ call : OpenAIToolCall, [call][i - calls.length]? = none :=
            fun call => List.getElem?_eq_none beyond
          simp [last,before,past]
    · simp [OpenAIFormats.encountered]
  · split at stepped
    · rename_i fresh known
      cases stepped
      obtain ⟨idx,rfl⟩ := Int.eq_ofNat_of_zero_le known.1
      have inside : idx < calls.length := by omega
      have found : toolCallIndex delta = some idx := callIndex its (by omega)
      obtain ⟨call,here⟩ : ∃ call, calls[idx]? = some call := ⟨_,List.getElem?_eq_getElem inside⟩
      have present : get c.toolCallAccumulators idx = some call.arguments := by simp [gathering.accumulators,here]
      have same : onToolCall c delta = ⟨bufferArguments (OpenAIFormats.encountered c) idx delta,[]⟩ := by
        simp [onToolCall,found,present,OpenAIFormats.encountered]
      rw [same]
      simp only [bufferShort short,foldNil]
      refine ⟨?_,?_,?_,?_,?_⟩
      · rw [gathering.blocks]
        congr 1
        refine List.ext_getElem? (fun i => ?_)
        simp only [List.getElem?_map,List.getElem?_modify]
        cases calls[i]? with
        | none => rfl
        | some other =>
          by_cases it : idx = i <;> simp [it,toolFolding]
      · simpa [OpenAIFormats.encountered] using gathering.next
      · simpa [OpenAIFormats.encountered] using gathering.indices
      · intro i
        rw [getSet]
        simp only [OpenAIFormats.encountered,gathering.accumulators]
        by_cases it : i = idx
        · simp [it,here]
        · simp [it,Ne.symm it]
      · have nonempty : calls ≠ [] := by
          rintro rfl
          simp at inside
        cases calls with
        | nil => exact absurd rfl nonempty
        | cons first rest => cases idx <;> simp [OpenAIFormats.encountered]
    · cases stepped

theorem Gathering.run (deltas : List ToolCallDelta) : ∀ {base} {calls after : List OpenAIToolCall} {c f},
    Gathering base calls c f → deltas.foldlM gatherStep calls = some after → after.length ≤ maxToolCallIndex →
    (∀ delta ∈ deltas, utf16Length (delta.arguments.getD "") ≤ maxToolCallLength) →
    Gathering base after (onItems c (deltas.map .toolCall)).context (foldEvents f (onItems c (deltas.map .toolCall)).events) := by
  induction deltas with
  | nil =>
    intro base calls after c f gathering gathered few short
    cases gathered
    exact gathering
  | cons delta rest ih =>
    intro base calls after c f gathering gathered few short
    obtain ⟨mid,stepped,later⟩ := Option.bind_eq_some_iff.mp gathered
    have grows : mid.length ≤ after.length := by
      have all : ∀ (deltas : List ToolCallDelta) {mid after : List OpenAIToolCall}, deltas.foldlM gatherStep mid = some after →
          mid.length ≤ after.length := by
        intro deltas
        induction deltas with
        | nil => exact fun done => by cases done; exact le_rfl
        | cons delta rest ih =>
          intro mid after done
          obtain ⟨next,stepped,later⟩ := Option.bind_eq_some_iff.mp done
          exact (gatherLonger stepped).trans (ih later)
      exact all rest later
    have stepped := gathering.step stepped (grows.trans few) (short delta (.head _))
    simp only [List.map_cons,onItems,Emits.andThen,foldAppend]
    exact ih stepped later few (fun other inside => short other (.tail _ inside))

def wholeArguments (rt : Runtime) (call : OpenAIToolCall) : String :=
  call.arguments ++ repairTruncatedToolJson rt call.arguments

theorem foldJson (json : OpenAIToolCall → String) (calls : List OpenAIToolCall) : ∀ (base : List Folding) (f : Folded),
    f.blocks = base ++ calls.map (toolFolding fun _ => "") →
    foldEvents f (calls.mapIdx fun i call => .contentBlockDelta (base.length + i) (.inputJsonDelta (json call))) =
      { f with blocks := base ++ calls.map (toolFolding json) } := by
  induction calls with
  | nil =>
    intro base f blocks
    have same : f.blocks = base := by simpa using blocks
    simp [← same]
  | cons call rest ih =>
    intro base f blocks
    have first : foldEvent f (.contentBlockDelta (base.length + 0) (.inputJsonDelta (json call))) =
        { f with blocks := (base ++ [toolFolding json call]) ++ rest.map (toolFolding fun _ => "") } := by
      simp [foldEvent,blocks,modifyAt,toolFolding,Folding.add]
    have later := ih (base ++ [toolFolding json call])
      { f with blocks := (base ++ [toolFolding json call]) ++ rest.map (toolFolding fun _ => "") } rfl
    rw [List.mapIdx_cons]
    simp only [foldEvents,List.foldl_cons] at later ⊢
    rw [first]
    simpa [Nat.add_assoc,Nat.add_comm 1] using later

theorem Gathering.emitted {base} {calls : List OpenAIToolCall} (gathering : Gathering base calls c f) :
    c.toolCallBlockIndices.map (fun entry => emitToolCallJson rt entry.2 ((get c.toolCallAccumulators entry.1).getD "")) =
      calls.mapIdx fun i call => .contentBlockDelta (base.length + i) (.inputJsonDelta (wholeArguments rt call)) := by
  refine List.ext_getElem? (fun i => ?_)
  rw [gathering.indices]
  simp only [gathering.accumulators]
  by_cases inside : i < calls.length
  · simp [List.getElem?_range inside,List.getElem?_eq_getElem inside,emitToolCallJson,wholeArguments]
  · simp [inside]

theorem stopsFold (f : Folded) (indices : List (Nat × Nat)) :
    foldEvents f (indices.map (fun entry => .contentBlockStop entry.2)) = f := by
  induction indices with
  | nil => rfl
  | cons entry rest ih => exact ih

theorem endTurnFold (c : Context) (f : Folded) (block : Option Nat) : foldEvents f (endTurn c block) =
    { f with stopReason := some ((lengthStopReason c).getD "end_turn"),usage := some (usageOf c) } := by
  cases block <;> rfl

theorem Gathering.done {base} {calls : List OpenAIToolCall} (gathering : Gathering base calls c f)
    (sent : c.hasSentStart = true) : foldEvents f (onDone rt c) =
      ⟨base ++ calls.map (toolFolding (wholeArguments rt)),
        some ((lengthStopReason c).getD (if calls = [] then "end_turn" else "tool_use")),some (usageOf c)⟩ := by
  unfold onDone
  cases calls with
  | nil =>
    have quiet : c.encounteredToolCall = false := gathering.encountered
    have blocks : f.blocks = base := by simpa using gathering.blocks
    have ended : ∀ block, foldEvents f (endTurn c block) =
        ⟨base,some ((lengthStopReason c).getD "end_turn"),some (usageOf c)⟩ := by
      intro block
      rw [endTurnFold,blocks]
    simp only [quiet,Bool.false_eq_true,if_false,List.map_nil,List.append_nil]
    split
    · exact ended _
    split
    · exact ended _
    · exact ended _
  | cons call rest =>
    have called : c.encounteredToolCall = true := gathering.encountered
    rw [if_pos called,emitToolCalls,foldAppend,gathering.emitted,foldJson _ _ base f gathering.blocks,emitStreamEnd,foldAppend,
      stopsFold]
    rfl

structure Reply where
  id : Option String
  model : Option String
  message : OpenAIMessage
  finishReason : Option String
  usage : OpenAIUsage

def Reply.calls (reply : Reply) : List OpenAIToolCall := reply.message.toolCalls.getD []

def chunkParts (data : Chunk) : List Item :=
  (data.delta.map fun delta => (truthy delta.reasoningContent).toList.map .reasoning ++
    (truthy delta.content).toList.map .text ++ (delta.toolCalls.getD []).map .toolCall).getD []

def Separated (chunks : List Chunk) : Prop := ∀ data ∈ chunks, chunkItems data = chunkParts data

def ReadAlike (rt : Runtime) (arguments : String) : Prop :=
  arguments = "" ∨ (rt.parseJson arguments).isSome = true ∨
    rt.parseJson (arguments ++ repairTruncatedToolJson rt arguments) = some (.obj [])

theorem readAlike (empty : rt.parseJson "{}" = some (.obj [])) (call : OpenAIToolCall) :
    (toolFolding (wholeArguments rt) call).block rt = some (toolUseBlock rt call) ↔ ReadAlike rt call.arguments := by
  obtain ⟨id,name,arguments⟩ := call
  simp only [toolFolding,wholeArguments,Folding.block,toolUseBlock,safeParseJSON,ReadAlike]
  by_cases none_ : arguments = ""
  · have unrepaired : repairTruncatedToolJson rt "" = "" := by simp [repairTruncatedToolJson,show trim "" = "" from rfl]
    simp [none_,unrepaired,empty]
  · have some_ : arguments ++ repairTruncatedToolJson rt arguments ≠ "" := by
      intro both
      exact none_ (String.append_eq_empty_iff.mp both).1
    simp only [none_,some_,if_false,Option.map_eq_some_iff]
    cases parsed : rt.parseJson arguments with
    | some value =>
      have unrepaired : repairTruncatedToolJson rt arguments = "" := by simp [repairTruncatedToolJson,parsed]
      simp [unrepaired,parsed]
    | none =>
      simp only [Option.isSome_none,Bool.false_eq_true,false_or]
      constructor
      · rintro ⟨value,read,same⟩
        cases same
        exact read
      · exact fun read => ⟨_,read,rfl⟩

variable {reply : Reply} {chunks : List Chunk} {reasoning text : List String} {deltas : List ToolCallDelta}

theorem Gathering.onto {base} {calls : List OpenAIToolCall} (gathering : Gathering base calls c f) (s : Side) :
    Gathering base calls (s.onto c) f :=
  { gathering with }

end Clankermux.OpenAIFormats
