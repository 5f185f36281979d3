import Clankermux.ChatStream
import Clankermux.FrameCuts

/-! The stream of a Codex response: the events of a Messages stream that come of it, for a client of the Messages API
and, strictly, for a chat completion. What is recorded beside the events is left out. -/
namespace Clankermux.CodexStream

structure Stream where
  strictChat : Bool
  messageId : String
  resolvedModel : Option String
  parseJson : List Char → Option Json
  stringify : Json → String
  numberText : Rat → String

structure Sse where
  event : String
  data : Json

def MAX_FRAME : Nat := 1024 * 1024

def orElse (value : Option Json) (other : Json) : Json := (value.filter Json.truthy).getD other

def orNull (value other : Option Json) : Option Json :=
  match value with
  | none => other
  | some .null => other
  | some value => some value

def object (value : Option Json) : Option Json :=
  match value with
  | some (.obj fields) => some (.obj fields)
  | some (.arr items) => some (.arr items)
  | _ => none

def count (value : Option Json) : Option Rat :=
  match value with
  | some (.num value) => if 0 ≤ value then some value else none
  | _ => none

def someText (value : Option Json) : Option String :=
  match value with
  | some (.str text) => if text = "" then none else some text
  | _ => none

def field (value : Option Json) (name : String) : Option Json := value.bind (Json.field name)

def defined (fields : List (String × Option Json)) : Json := .obj (fields.filterMap (fun entry => entry.2.map (entry.1,·)))

def numOrNull (value : Option Rat) : Json := (value.map Json.num).getD .null

def normalizeUsage (value : Option Json) : Json :=
  let usage := (object value).getD (.obj [])
  .obj [("input_tokens",.num ((count (usage.field "input_tokens")).getD 0)),("output_tokens",.num ((count (usage.field "output_tokens")).getD 0)),
    ("cache_read_input_tokens",numOrNull (count (usage.field "cache_read_input_tokens"))),
    ("cache_creation_input_tokens",numOrNull (count (usage.field "cache_creation_input_tokens")))]

def setAbsent (json : Json) (name : String) (value : Json) : Json := if (json.field name).isSome then json else json.setField name value

def writeSSE (event : String) (data : Json) : Sse :=
  if event = "message_start" then
    let usage := normalizeUsage (data.field "usage")
    let message := (object (data.field "message")).getD (.obj [])
    let message := message.setField "usage" (normalizeUsage (orNull (message.field "usage") (some usage)))
    ⟨event,(data.setField "usage" usage).setField "message" message⟩
  else if event = "message_delta" then
    let usage := normalizeUsage (data.field "usage")
    let delta := (object (data.field "delta")).getD (.obj [])
    let delta := setAbsent (setAbsent (setAbsent delta "stop_reason" (.str "end_turn")) "stop_sequence" .null) "usage" usage
    ⟨event,(data.setField "usage" usage).setField "delta" delta⟩
  else ⟨event,data⟩

def contentBlockStop (index : Nat) : Sse :=
  writeSSE "content_block_stop" (.obj [("type",.str "content_block_stop"),("index",.num index)])

def contentBlockStart (index : Nat) (block : Json) : Sse :=
  writeSSE "content_block_start" (.obj [("type",.str "content_block_start"),("index",.num index),("content_block",block)])

def contentBlockDelta (index : Nat) (delta : Json) : Sse :=
  writeSSE "content_block_delta" (.obj [("type",.str "content_block_delta"),("index",.num index),("delta",delta)])

def inputJsonDelta (index : Nat) (partialJson : Json) : Sse :=
  contentBlockDelta index (.obj [("type",.str "input_json_delta"),("partial_json",partialJson)])

def messageStop : Sse := writeSSE "message_stop" (.obj [("type",.str "message_stop")])

structure FunctionCallBuffer where
  contentBlockIndex : Nat
  name : Option Json
  arguments : List Json
  argumentChars : Nat

structure UpstreamError where
  type : String
  message : String
  code : Option String
  status : Option String

structure State where
  messageId : Json
  model : Json
  contentBlockIndex : Nat
  hasSentMessageStart : Bool
  hasSentContentBlockStart : Bool
  hasSentTerminalEvents : Bool
  inputTokens : Rat
  outputTokens : Json
  cacheReadInputTokens : Option Rat
  cacheCreationInputTokens : Option Rat
  contextWindow : Option Json
  functionCallBlocks : List (Json × FunctionCallBuffer)
  sawToolUse : Bool
  sawRefusal : Bool
  upstreamError : Option UpstreamError

def State.start (st : Stream) : State :=
  { messageId := .str st.messageId,model := .str (st.resolvedModel.getD "unknown"),contentBlockIndex := 0,hasSentMessageStart := false
    hasSentContentBlockStart := false,hasSentTerminalEvents := false,inputTokens := 0,outputTokens := .num 0
    cacheReadInputTokens := none,cacheCreationInputTokens := none,contextWindow := none,functionCallBlocks := [],sawToolUse := false
    sawRefusal := false,upstreamError := none }

/-! The calls that are open, by what the upstream says for their output index; no two objects are the same one. -/

def sameValue : Json → Json → Bool
  | .null,.null => true
  | .bool a,.bool b => a == b
  | .num a,.num b => decide (a = b)
  | .str a,.str b => a == b
  | _,_ => false

namespace State
variable (s : State)

def call (outputIndex : Json) : Option FunctionCallBuffer := (s.functionCallBlocks.find? (sameValue outputIndex ·.1)).map Prod.snd

def setCall (outputIndex : Json) (buffer : FunctionCallBuffer) : State :=
  { s with functionCallBlocks :=
      if (s.call outputIndex).isSome then s.functionCallBlocks.map (fun entry => if sameValue outputIndex entry.1 then (entry.1,buffer) else entry)
      else s.functionCallBlocks ++ [(outputIndex,buffer)] }

def deleteCall (outputIndex : Json) : State :=
  { s with functionCallBlocks := s.functionCallBlocks.filter (fun entry => !sameValue outputIndex entry.1) }

def callStands : Bool := s.functionCallBlocks.any (·.2.contentBlockIndex = s.contentBlockIndex)

end State

abbrev Emits := List Sse × State

abbrev Handled := Option Emits

def Emits.andThen (e : Emits) (next : State → Emits) : Emits := (e.1 ++ (next e.2).1,(next e.2).2)

def ensureMessageStart (s : State) : Emits :=
  if s.hasSentMessageStart then ([],s)
  else
    let usage : Json := .obj [("input_tokens",.num 0),("output_tokens",.num 0),("cache_read_input_tokens",.null),("cache_creation_input_tokens",.null)]
    ([writeSSE "message_start" (.obj [("type",.str "message_start"),("usage",usage),("message",.obj [("id",s.messageId),("type",.str "message"),
      ("role",.str "assistant"),("content",.arr []),("model",s.model),("stop_reason",.null),("stop_sequence",.null),("usage",usage)])])],
      { s with hasSentMessageStart := true })

def cleanWebSearchDomains (value : Option Json) : List Json :=
  match value with
  | some (.arr items) => items.filterMap (fun domain => match domain with
    | .str text => if trim text = "" then none else some (.str (trim text))
    | _ => none)
  | _ => []

def emptyPages (pages : Option Json) : Bool :=
  match pages with
  | none => true
  | some .null => true
  | some (.str text) => text == ""
  | some (.arr items) => items.isEmpty
  | _ => false

def sanitizeToolUseInput (name : Option Json) (input : Json) : Json :=
  let input := if Json.isStr name "Read" ∧ emptyPages (input.field "pages") = true then input.dropField "pages" else input
  if Json.isStr name "WebSearch" then
    let allowedDomains := cleanWebSearchDomains (input.field "allowed_domains")
    let input := if allowedDomains = [] then input.dropField "allowed_domains" else input.setField "allowed_domains" (.arr allowedDomains)
    input.dropField "blocked_domains"
  else input

def sanitizeToolUsePartialJson (st : Stream) (name : Option Json) (partialJson : String) : String :=
  match st.parseJson partialJson.toList with
  | some (.obj fields) => st.stringify (sanitizeToolUseInput name (.obj fields))
  | _ => partialJson

def safeIndex (value : Option Json) : Bool :=
  match value with
  | some (.num value) => value.den = 1 ∧ 0 ≤ value.num ∧ value.num ≤ ChatStream.MAX_SAFE_INTEGER
  | _ => false

def MODEL_CONTEXT_WINDOWS : List (String × Nat) := [("gpt-5.5",272000),("gpt-5.4",272000),("gpt-5.4-mini",272000),("gpt-5.3-codex-spark",128000),
  ("gpt-5.6-sol",272000),("gpt-5.6-terra",272000),("gpt-5.6-luna",272000),("gpt-6-astra",272000),("gpt-6.1-sol",272000),("gpt-6-sol",272000),
  ("gpt-6-luna",272000)]

/-- A slug before a release date: `/^(.+)-\d{4}-\d{2}-\d{2}$/`. -/
def stripDatedModelSuffix (modelId : String) : Option String :=
  let text := modelId.toList
  let base := text.take (text.length - 11)
  let digit (n : Nat) : Bool := (text.drop (base.length + n)).head?.any Char.isDigit
  let dash (n : Nat) : Bool := (text.drop (base.length + n)).head? = some '-'
  if base ≠ [] ∧ base.all (fun ch => !([10,13,0x2028,0x2029].contains ch.toNat)) ∧ dash 0 ∧ dash 5 ∧ dash 8 ∧ [1,2,3,4,6,7,9,10].all digit then
    some (String.ofList base)
  else none

def resolveModelContextWindow (model : String) : Option Nat :=
  (MODEL_CONTEXT_WINDOWS.lookup model).or ((stripDatedModelSuffix model).bind (MODEL_CONTEXT_WINDOWS.lookup ·))

structure NormalizedCodexInputUsage where
  inputTokens : Rat
  cacheReadInputTokens : Option Rat
  cacheCreationInputTokens : Option Rat

def normalizeCodexInputUsage (totalInputTokens cachedTokens cacheWriteTokens : Option Json) : NormalizedCodexInputUsage :=
  let total := (count totalInputTokens).getD 0
  let cached := (count cachedTokens).map (min · total)
  let creation := (count cacheWriteTokens).map (min · (total - cached.getD 0))
  ⟨total - cached.getD 0 - creation.getD 0,cached,creation⟩

def inputUsage (usage : Option Json) : NormalizedCodexInputUsage :=
  let inputTokenDetails := field usage "input_tokens_details"
  normalizeCodexInputUsage (field usage "input_tokens") (field inputTokenDetails "cached_tokens")
    (orNull (field inputTokenDetails "cache_write_tokens") (field inputTokenDetails "cache_creation_input_tokens"))

def extractContextWindow (response usage : Option Json) : Option Json :=
  match field response "model" with
  | some (.str model) =>
    match resolveModelContextWindow model,count (field usage "input_tokens") with
    | some contextWindowSize,some _ =>
      let normalizedInput := inputUsage usage
      some (.obj [("current_usage",.obj [("input_tokens",.num normalizedInput.inputTokens),
          ("cache_read_input_tokens",.num (normalizedInput.cacheReadInputTokens.getD 0)),
          ("cache_creation_input_tokens",.num (normalizedInput.cacheCreationInputTokens.getD 0))]),
        ("context_window_size",.num contextWindowSize)])
    | _,_ => none
  | _ => none

def CODEX_ERROR_TYPE_BY_CODE : List (String × String) := [("rate_limit_exceeded","rate_limit_error"),("insufficient_quota","rate_limit_error"),
  ("server_is_overloaded","overloaded_error"),("slow_down","overloaded_error"),("server_error","api_error"),
  ("context_length_exceeded","invalid_request_error"),("cyber_policy","invalid_request_error"),("usage_not_included","permission_error")]

-- No letter outside ASCII has a lower case within the texts that are compared.
def lowerCase (text : String) : String := String.ofList (text.toList.map Char.toLower)

/-- `/^your input exceeds the context window\b/i` -/
def exceedsContextWindow (message : String) : Bool :=
  let words := "your input exceeds the context window".toList
  let text := message.toList.map Char.toLower
  words.isPrefixOf text && !(text.drop words.length).head?.any (fun ch => ch.isAlphanum || ch = '_')

def normalizeCodexStreamError (eventName : String) (data : Json) : UpstreamError :=
  let response := object (data.field "response")
  let error := ((object (field response "error")).or (object (data.field "error"))).getD data
  let messageCandidate := orNull (orNull (error.field "message") (data.field "message")) (field response "status")
  let typeCandidate := orNull (orNull (error.field "type") (error.field "code")) (some (.str eventName))
  let codeCandidate := orNull (error.field "code") (data.field "code")
  let statusCandidate := orNull (field response "status") (data.field "status")
  ⟨(someText typeCandidate).getD "api_error",(someText messageCandidate).getD "Codex upstream failed while generating a response.",
    ChatStream.text codeCandidate,ChatStream.text statusCandidate⟩

def toAnthropicErrorPayload (error : UpstreamError) : Json :=
  let mappedFromCode := error.code.bind (fun code => CODEX_ERROR_TYPE_BY_CODE.lookup (lowerCase code))
  let isContextOverflow := error.code.map lowerCase = some "context_length_exceeded" ∨ exceedsContextWindow error.message = true
  let type := if isContextOverflow then "invalid_request_error" else mappedFromCode.getD error.type
  .obj [("type",.str "error"),("error",defined [("type",some (.str type)),("message",some (.str error.message)),
    ("code",(error.code.filter (· ≠ "")).map Json.str)])]

section
variable (st : Stream) (eventName : String) (data : Json) (s : State)

def responseCreated : Emits :=
  let resp := data.field "response"
  let s := { s with messageId := orElse (field resp "id") s.messageId,model := orElse (field resp "model") s.model }
  ensureMessageStart s

def advance (stands : Bool) : Emits :=
  (if stands then [] else [contentBlockStop s.contentBlockIndex],{ s with contentBlockIndex := s.contentBlockIndex + 1 })

def functionCallAdded (item outputIndex : Option Json) : Handled :=
  if st.strictChat ∧ (safeIndex outputIndex = false ∨ (outputIndex.bind s.call).isSome) then none
  else
    let name := field item "name"
    let s := { s with sawToolUse := true }
    let closed : Emits :=
      if s.hasSentContentBlockStart then
        (advance s (st.strictChat && s.callStands)).andThen (fun s => ([],{ s with hasSentContentBlockStart := false }))
      else ([],s)
    some ((closed.andThen ensureMessageStart).andThen (fun s =>
      let blockIdx := s.contentBlockIndex
      let started := contentBlockStart blockIdx
        (defined [("type",some (.str "tool_use")),("id",field item "call_id"),("name",name),("input",some (.obj []))])
      let s := { s with hasSentContentBlockStart := true }
      match outputIndex with
      | none => ([started],s)
      | some outputIndex =>
        match (if st.strictChat then someText (field item "arguments") else none) with
        | some arguments =>
          ([started,inputJsonDelta blockIdx (.str arguments)],s.setCall outputIndex ⟨blockIdx,name,[],utf16Length arguments⟩)
        | none => ([started],s.setCall outputIndex ⟨blockIdx,name,[],0⟩)))

def outputItemAdded : Handled :=
  let item := data.field "item"
  if Json.isStr (field item "type") "function_call" then functionCallAdded st s item (data.field "output_index") else some ([],s)

def contentPartAdded : Emits :=
  let partType := field (data.field "part") "type"
  if Json.isStr partType "refusal" then ([],{ s with sawRefusal := true })
  else if Json.isStr partType "output_text" then
    ((ensureMessageStart s).andThen (fun s => if s.hasSentContentBlockStart then advance s s.callStands else ([],s))).andThen (fun s =>
      ([contentBlockStart s.contentBlockIndex (.obj [("type",.str "text"),("text",.str "")])],{ s with hasSentContentBlockStart := true }))
  else ([],s)

def outputTextDelta : Emits :=
  match (data.field "delta").filter Json.truthy with
  | some delta =>
    (ensureMessageStart s).andThen (fun s => ([contentBlockDelta s.contentBlockIndex (.obj [("type",.str "text_delta"),("text",delta)])],s))
  | none => ([],s)

def functionCallArgumentsDelta : Handled :=
  let buffer := (data.field "output_index").bind (fun outputIndex => (s.call outputIndex).map (outputIndex,·))
  if st.strictChat then
    match ChatStream.text (data.field "delta"),buffer with
    | some delta,some (outputIndex,buffer) =>
      if delta = "" then some ([],s)
      else some ([inputJsonDelta buffer.contentBlockIndex (.str delta)],
        s.setCall outputIndex { buffer with argumentChars := buffer.argumentChars + utf16Length delta })
    | _,_ => none
  else
    match (data.field "delta").filter Json.truthy,buffer with
    | some delta,some (outputIndex,buffer) => some ([],s.setCall outputIndex { buffer with arguments := buffer.arguments ++ [delta] })
    | _,_ => some ([],s)

def finalArguments (item : Option Json) (buffer : FunctionCallBuffer) : Option (List Sse) :=
  if st.strictChat then
    if buffer.argumentChars = 0 then
      (someText (field item "arguments")).map (fun arguments => [inputJsonDelta buffer.contentBlockIndex (.str arguments)])
    else some []
  else
    (buffer.arguments.mapM (Json.textOf st.numberText)).map (fun arguments =>
      [inputJsonDelta buffer.contentBlockIndex (.str (sanitizeToolUsePartialJson st buffer.name (String.join arguments)))])

def outputItemDone : Handled :=
  let item := data.field "item"
  if Json.isStr (field item "type") "function_call" then
    match (data.field "output_index").bind (fun outputIndex => (s.call outputIndex).map (outputIndex,·)) with
    | none => if st.strictChat then none else some ([],s)
    | some (outputIndex,buffer) =>
      (finalArguments st item buffer).map (fun emitted =>
        let s := s.deleteCall outputIndex
        (emitted ++ [contentBlockStop buffer.contentBlockIndex],
          if s.hasSentContentBlockStart ∧ s.contentBlockIndex = buffer.contentBlockIndex then
            { s with contentBlockIndex := s.contentBlockIndex + 1,hasSentContentBlockStart := false }
          else s))
  else if s.hasSentContentBlockStart then
    some ((advance s false).andThen (fun s => ([],{ s with hasSentContentBlockStart := false })))
  else some ([],s)

def failed : Emits :=
  let error := normalizeCodexStreamError eventName data
  let s := { s with upstreamError := some error }
  if s.hasSentTerminalEvents then ([],s)
  else ([writeSSE "error" (toAnthropicErrorPayload error)],{ s with hasSentTerminalEvents := true })

def isIncomplete : Bool := eventName == "response.incomplete" || Json.isStr (field (data.field "response") "status") "incomplete"

def stopCalls : Emits :=
  (s.functionCallBlocks.map (contentBlockStop ·.2.contentBlockIndex),
    { s with
      hasSentContentBlockStart := s.hasSentContentBlockStart && !s.callStands
      functionCallBlocks := [] })

def stopBlock : Emits :=
  if s.hasSentContentBlockStart then ([contentBlockStop s.contentBlockIndex],{ s with hasSentContentBlockStart := false }) else ([],s)

def stopReason : String :=
  if isIncomplete eventName data then
    if Json.isStr (field (field (data.field "response") "incomplete_details") "reason") "content_filter" then "refusal" else "max_tokens"
  else if s.sawRefusal then "refusal"
  else if s.sawToolUse then "tool_use"
  else "end_turn"

def messageDelta : Sse :=
  let stopReason := stopReason eventName data s
  let stopDetails : Json := .obj [("type",.str "refusal"),("category",.str "content_filter"),("explanation",.null),("fallback_credit_token",.null),
    ("fallback_has_prefill_claim",.null),("recommended_model",.null)]
  writeSSE "message_delta" (defined [("type",some (.str "message_delta")),
    ("delta",some (defined [("stop_reason",some (.str stopReason)),("stop_sequence",some .null),
      ("stop_details",if stopReason = "refusal" then some stopDetails else none)])),
    ("usage",some (.obj [("input_tokens",.num s.inputTokens),("output_tokens",s.outputTokens),
      ("cache_read_input_tokens",numOrNull s.cacheReadInputTokens),("cache_creation_input_tokens",numOrNull s.cacheCreationInputTokens)])),
    ("context_window",s.contextWindow)])

def completed : Handled :=
  if s.upstreamError.isSome ∨ s.hasSentTerminalEvents then some ([],s)
  else
    let resp := data.field "response"
    if st.strictChat ∧ isIncomplete eventName data = false ∧ s.functionCallBlocks ≠ [] then none
    else
      let usage := field resp "usage"
      let normalizedInput := inputUsage usage
      let s := { s with
        inputTokens := if (field usage "input_tokens").isSome then normalizedInput.inputTokens else s.inputTokens
        outputTokens := orElse (field usage "output_tokens") s.outputTokens
        cacheReadInputTokens := normalizedInput.cacheReadInputTokens
        cacheCreationInputTokens := normalizedInput.cacheCreationInputTokens
        contextWindow := extractContextWindow resp usage }
      some (((if st.strictChat ∧ isIncomplete eventName data = true then stopCalls s else ([],s)).andThen stopBlock).andThen (fun s =>
        ([messageDelta eventName data s,messageStop],{ s with hasSentTerminalEvents := true })))

def isNull : Json → Bool
  | .null => true
  | _ => false

def handleNull : Handled :=
  if eventName ∈ ["response.created","response.output_item.added","response.content_part.added","response.output_text.delta",
      "response.function_call_arguments.delta","response.output_item.done","error","response.failed"] then none
  else if (eventName = "response.incomplete" ∨ eventName = "response.completed") ∧ s.upstreamError.isNone ∧ s.hasSentTerminalEvents = false then none
  else some ([],s)

def handleCodexEvent : Handled :=
  if eventName = "response.refusal.delta" ∨ eventName = "response.refusal.done" then some ([],{ s with sawRefusal := true })
  else if isNull data then handleNull eventName s
  else if eventName = "response.created" then some (responseCreated data s)
  else if eventName = "response.output_item.added" then outputItemAdded st data s
  else if eventName = "response.content_part.added" then some (contentPartAdded data s)
  else if eventName = "response.output_text.delta" then some (outputTextDelta data s)
  else if eventName = "response.function_call_arguments.delta" then functionCallArgumentsDelta st data s
  else if eventName = "response.output_item.done" then outputItemDone st data s
  else if eventName = "error" ∨ eventName = "response.failed" then some (failed eventName data s)
  else if eventName = "response.incomplete" ∨ eventName = "response.completed" then completed st eventName data s
  else some ([],s)

end

def readFrame (eventText : List Char) : String × List (List Char) :=
  let lines := ChatStream.linesOf eventText
  (((lines.filter (ChatStream.startsWith · "event:")).getLast?.map (fun line => String.ofList (trimChars (line.drop 6)))).getD "",
    (lines.filter (ChatStream.startsWith · "data:")).map (fun line =>
      match line.drop 5 with
      | ' '::rest => rest
      | rest => rest))

def unsupportedIncomplete (kind : String) (data : Json) : Bool :=
  let envelope := data.field "response"
  let reason := (orNull (field (field envelope "incomplete_details") "reason") (some (.str ""))).getD (.str "")
  (kind == "response.incomplete" || (kind == "response.completed" && Json.isStr (field envelope "status") "incomplete")) &&
    !(["max_output_tokens","content_filter"].any (Json.isStr (some reason) ·))

/-- `eventName || String(data.type ?? "")` -/
def kindOf (st : Stream) (eventName : String) (data : Json) : Option String :=
  if eventName = "" then ((orNull (data.field "type") (some (.str ""))).getD (.str "")).textOf st.numberText else some eventName

def process (st : Stream) (s : State) (eventText : List Char) : Handled :=
  let (eventName,dataLines) := readFrame eventText
  if (eventName = "" ∧ st.strictChat = false) ∨ dataLines = [] then some ([],s)
  else
    let dataStr := List.intercalate ['\n'] dataLines
    if dataStr = "[DONE]".toList then some ([],s)
    else
      match st.parseJson dataStr with
      | none => if st.strictChat then none else some ([],s)
      | some data =>
        if st.strictChat ∧ data.isObject = false then none
        else (kindOf st eventName data).bind (fun kind =>
          if st.strictChat ∧ unsupportedIncomplete kind data = true then none else handleCodexEvent st kind data s)

def close (st : Stream) (s : State) : Option (List Sse) :=
  if s.upstreamError.isSome then some []
  else if st.strictChat ∧ s.hasSentTerminalEvents = false then none
  else
    let stopped := (ensureMessageStart s).andThen (fun s => (if s.hasSentContentBlockStart then [contentBlockStop s.contentBlockIndex] else [],s))
    some (stopped.1 ++
      if s.hasSentTerminalEvents then []
      else
        [writeSSE "message_delta" (.obj [("type",.str "message_delta"),
          ("delta",.obj [("stop_reason",.str (if s.sawToolUse then "tool_use" else "end_turn")),("stop_sequence",.null)]),
          ("usage",.obj [("output_tokens",s.outputTokens)])]),messageStop])

def reader (st : Stream) : FrameLoop.Reader Utf8.Decoder State Sse where
  decode d bytes := if st.strictChat then Utf8.decodeFatal d bytes else some (Utf8.decode d bytes)
  terminal := State.hasSentTerminalEvents
  process := process st
  close := close st
  limit := if st.strictChat then some MAX_FRAME else none

def streamFailed : Sse :=
  writeSSE "error" (.obj [("type",.str "error"),("error",.obj [("type",.str "api_error"),
    ("message",.str "Codex response stream failed or ended without a terminal event")])])

def transformStreamingResponse (st : Stream) (packets : List (List UInt8)) : List Sse × Bool :=
  let (emitted,fails) := FrameLoop.outcome (reader st) .start (.start st) packets
  (if fails ∧ st.strictChat then emitted ++ [streamFailed] else emitted,fails)

end Clankermux.CodexStream
