import Clankermux.FramedReading
import Clankermux.InsertionMap
import Clankermux.Json
import Clankermux.Splitting
import Clankermux.Text

/-! The stream of a chat completion: the chunks that come of the events of a Messages stream. -/
namespace Clankermux.ChatStream
open InsertionMap

structure ChatToolDelta where
  index : Nat
  id : Option String
  type : Option String
  name : Option String
  arguments : Option String

structure ChatDelta where
  role : Option String
  content : Option String
  reasoning_content : Option String
  tool_calls : Option (List ChatToolDelta)

def ChatDelta.empty : ChatDelta := ⟨none,none,none,none⟩

structure ChatUsage where
  prompt_tokens : Nat
  completion_tokens : Nat
  total_tokens : Nat
  cached_tokens : Option Nat
  cache_write_tokens : Option Nat

inductive Finish where
  | reason (text : String)
  | inherited (name : String)
  deriving DecidableEq

structure ChatChoice where
  index : Nat
  delta : ChatDelta
  finish_reason : Option Finish

structure ChatChunk where
  id : String
  object : String
  created : Nat
  model : String
  choices : List ChatChoice
  usage : Option ChatUsage

inductive Failure where
  | upstream (message : String)
  | stream (message : String) (status : Nat) (code type : String) (retryAfter : Option String)
  | typeError
  deriving DecidableEq

structure Stream where
  id : String
  created : Nat
  outgoingModel : Option String
  reportedModel : Option String
  usageObserved : Option Bool
  names : InsertionMap String String
  parseJson : List Char → Option Json
  stringify : Json → String
  numberText : Rat → String

def MAX_FRAME : Nat := 1024 * 1024
def MAX_BLOCKS : Nat := 1024
def MAX_SAFE_INTEGER : Int := 9007199254740991

def record (value : Option Json) : Json :=
  match value with
  | some (.obj fields) => .obj fields
  | _ => .obj []

def count (value : Option Json) : Option Nat :=
  match value with
  | some (.num value) => if value.den = 1 ∧ 0 ≤ value.num ∧ value.num ≤ MAX_SAFE_INTEGER then some value.num.toNat else none
  | _ => none

def text (value : Option Json) : Option String :=
  match value with
  | some (.str value) => some value
  | _ => none

structure Block where
  kind : String
  tool : Option Nat
  args : String
  closed : Bool
  initial : Option Json

structure State where
  model : String
  started : Bool
  stop : Option Finish
  terminal : Bool
  input : Option Nat
  output : Option Nat
  cached : Option Nat
  creation : Option Nat
  blocks : InsertionMap Nat Block
  tools : Nat

def State.start : State := ⟨"",false,none,false,none,none,none,none,[],0⟩

def DEFAULT_RETRY_AFTER_SECONDS : String := "30"
def MAX_ERROR_LABEL : Nat := 128
def MAX_ERROR_MESSAGE : Nat := 512
def CLIENT_STATUSES : List Nat := [400,413,429,529]

def anthropicErrorStatus (type : String) : Option Nat :=
  [("invalid_request_error",400),("authentication_error",401),("billing_error",402),("permission_error",403),("not_found_error",404),
    ("request_too_large",413),("rate_limit_error",429),("api_error",500),("timeout_error",504),("overloaded_error",529)].lookup type

def sliceUnits : Nat → List Char → List Char
  | _,[] => []
  | n,ch::rest => if FramedReading.unit ch ≤ n then ch::sliceUnits (n - FramedReading.unit ch) rest else []

def label (value : Option Json) : Option String :=
  (text value).bind (fun value => if trim value = "" then none else some (String.ofList (sliceUnits MAX_ERROR_LABEL (trim value).toList)))

def upstreamStreamError (error : Option Json) : Failure :=
  let e := error.getD .null
  let type := (label (e.field "type")).getD "api_error"
  let status := match anthropicErrorStatus type with
    | some status => if status ∈ CLIENT_STATUSES then status else 502
    | none => 502
  let message := match text (e.field "message") with
    | some message => String.ofList (sliceUnits MAX_ERROR_MESSAGE message.toList)
    | none => "Upstream stream failed"
  .stream message status ((label (e.field "code")).getD type) type (if status = 429 ∨ status = 529 then some DEFAULT_RETRY_AFTER_SECONDS else none)

def linesOf (eventText : List Char) : List (List Char) :=
  let (ended,last) := Splitting.cut '\n' eventText
  ended.map withoutReturn ++ [last]

def startsWith (line : List Char) (word : String) : Bool := word.toList.isPrefixOf line

def dataOf (lines : List (List Char)) : List Char :=
  let values := (lines.filter (startsWith · "data:")).map (fun line => match line.drop 5 with
    | ' '::rest => rest
    | rest => rest)
  List.intercalate ['\n'] values

def eventName (lines : List (List Char)) : Option String :=
  (lines.find? (startsWith · "event:")).map (fun line => String.ofList (trimChars (line.drop 6)))

section
variable (st : Stream) (s : State) (e : Json)

abbrev Processed := Except Failure (List (Option ChatChunk) × State)

def State.usage (s : State) (value : Option Json) : State :=
  let u := record value
  { s with
    input := (count (u.field "input_tokens")).or s.input
    output := (count (u.field "output_tokens")).or s.output
    cached := (count (u.field "cache_read_input_tokens")).or s.cached
    creation := (count (u.field "cache_creation_input_tokens")).or s.creation }

def chunk (model : String) (delta : ChatDelta) (finish_reason : Option Finish) : ChatChunk :=
  ⟨st.id,"chat.completion.chunk",st.created,model,[⟨0,delta,finish_reason⟩],none⟩

def yields (delta : ChatDelta) (s : State) : Processed := .ok ([some (chunk st s.model delta none)],s)

def fails (message : String) : Processed := .error (.upstream message)

def messageStart : Processed :=
  if s.started then fails "Duplicate upstream message_start"
  else
    let message := record (e.field "message")
    let model := match text (message.field "model") with
      | some model => if trim model ≠ "" ∧ model ≠ "unknown" then model else st.outgoingModel.getD ""
      | none => st.outgoingModel.getD ""
    if model = "" then fails "Missing verified response model"
    else yields st { ChatDelta.empty with role := some "assistant" }
      (({ s with model := st.reportedModel.getD model,started := true } : State).usage (message.field "usage"))

def yieldsText (value : Option String) (delta : String → ChatDelta) (s : State) : Processed :=
  match value with
  | some text => if text = "" then .ok ([],s) else yields st (delta text) s
  | none => .ok ([],s)

def contentDelta (text : String) : ChatDelta := { ChatDelta.empty with content := some text }
def reasoningDelta (text : String) : ChatDelta := { ChatDelta.empty with reasoning_content := some text }
def toolDelta (tool : ChatToolDelta) : ChatDelta := { ChatDelta.empty with tool_calls := some [tool] }
def argumentsDelta (tool : Nat) (arguments : String) : ChatDelta := toolDelta ⟨tool,none,none,none,some arguments⟩

def contentBlockStart : Processed :=
  let b := record (e.field "content_block")
  match count (e.field "index") with
  | none => fails "Invalid upstream content block index"
  | some i =>
    if (get s.blocks i).isSome ∨ s.blocks.length ≥ MAX_BLOCKS then fails "Invalid upstream content block index"
    else
      match b.fieldText st.numberText "type" with
      | none => .error .typeError
      | some kind =>
        let block : Block := ⟨kind,none,"",false,b.field "input"⟩
        let opened := { s with blocks := InsertionMap.set s.blocks i block }
        if kind = "text" then yieldsText st (text (b.field "text")) contentDelta opened
        else if kind = "thinking" then yieldsText st (text (b.field "thinking")) reasoningDelta opened
        else if kind = "redacted_thinking" then .ok ([],opened)
        else
          match (if kind = "tool_use" then text (b.field "id") else none),(text (b.field "name")).bind (get st.names) with
          | some id,some name =>
            if id = "" then fails "Unsupported upstream content or function"
            else yields st (toolDelta ⟨s.tools,some id,some "function",some name,some ""⟩)
              { s with blocks := InsertionMap.set s.blocks i { block with tool := some s.tools },tools := s.tools + 1 }
          | _,_ => fails "Unsupported upstream content or function"

def openBlock : Option (Nat × Block) :=
  (count (e.field "index")).bind (fun i => (get s.blocks i).bind (fun b => if b.closed then none else some (i,b)))

def contentBlockDelta : Processed :=
  let d := record (e.field "delta")
  match openBlock s e with
  | none => fails "Delta for missing or closed content block"
  | some (i,b) =>
    match text (d.field "type") with
    | some "text_delta" =>
      match text (d.field "text") with
      | some value => if b.kind = "text" then yields st (contentDelta value) s else fails "Unsupported upstream content delta"
      | none => fails "Unsupported upstream content delta"
    | some "thinking_delta" =>
      match text (d.field "thinking") with
      | some value => if b.kind = "thinking" then yields st (reasoningDelta value) s else fails "Unsupported upstream content delta"
      | none => fails "Unsupported upstream content delta"
    | some "signature_delta" => if b.kind = "thinking" then .ok ([],s) else fails "Unsupported upstream content delta"
    | some "input_json_delta" =>
      match b.tool,text (d.field "partial_json") with
      | some tool,some partial_json =>
        let args := b.args ++ partial_json
        if utf16Length args > MAX_FRAME then fails "Tool arguments exceeded the size limit"
        else yields st (argumentsDelta tool partial_json) { s with blocks := InsertionMap.set s.blocks i { b with args := args } }
      | _,_ => fails "Unsupported upstream content delta"
    | _ => fails "Unsupported upstream content delta"

def contentBlockStop : Processed :=
  match openBlock s e with
  | none => fails "Invalid content block stop"
  | some (i,b) =>
    match b.tool with
    | some tool =>
      if b.args = "" then
        match b.initial with
        | some (.obj fields) =>
          let args := st.stringify (.obj fields)
          yields st (argumentsDelta tool args) { s with blocks := InsertionMap.set s.blocks i { b with closed := true,args := args } }
        | _ => fails "Missing tool arguments"
      else .ok ([],{ s with blocks := InsertionMap.set s.blocks i { b with closed := true } })
    | none => .ok ([],{ s with blocks := InsertionMap.set s.blocks i { b with closed := true } })

def INHERITED : List String := ["constructor","__defineGetter__","__defineSetter__","hasOwnProperty","__lookupGetter__","__lookupSetter__",
  "isPrototypeOf","propertyIsEnumerable","toString","valueOf","__proto__","toLocaleString"]

def finishOf (reason : String) : Option Finish :=
  match [("end_turn","stop"),("stop_sequence","stop"),("max_tokens","length"),("model_context_window_exceeded","length"),
    ("tool_use","tool_calls"),("refusal","content_filter")].lookup reason with
  | some finish => some (.reason finish)
  | none => if reason ∈ INHERITED then some (.inherited reason) else none

def messageDelta : Processed :=
  let s := s.usage (e.field "usage")
  match (record (e.field "delta")).field "stop_reason" with
  | none => .ok ([],s)
  | some .null => .ok ([],s)
  | some reason =>
    match (text (some reason)).bind finishOf with
    | some finish => .ok ([],{ s with stop := some finish })
    | none => fails "Unsupported upstream finish reason"

def wholeArguments (b : Block) : Bool := b.tool.isNone || (st.parseJson b.args.toList).any Json.isObject

def usageOf : Option ChatUsage :=
  if st.usageObserved = some false then none
  else
    match s.input,s.output with
    | some input,some output =>
      let prompt := input + s.cached.getD 0 + s.creation.getD 0
      some ⟨prompt,output,prompt + output,s.cached,s.creation⟩
    | _,_ => none

def messageStop : Processed :=
  match s.stop with
  | none => fails "Upstream ended without a finish reason"
  | some stop =>
    if s.blocks.any (fun entry => !entry.2.closed) then fails "Upstream ended with an open content block"
    else if stop = .reason "tool_calls" ∧ s.tools = 0 then fails "Tool finish without tool calls"
    else if stop ≠ .reason "length" ∧ stop ≠ .reason "content_filter" ∧ s.blocks.any (fun entry => !wholeArguments st entry.2) then
      fails "Malformed upstream tool arguments"
    else
      .ok ([some { chunk st s.model ChatDelta.empty (some stop) with usage := usageOf st s }],{ s with terminal := true })

end

def process (st : Stream) (s : State) (eventText : List Char) : Processed :=
  if s.terminal then .ok ([],s)
  else
    let lines := linesOf eventText
    let data := dataOf lines
    if data = [] then .ok (if lines.any (startsWith · ":") then [none] else [],s)
    else
      match st.parseJson data with
      | none => fails "Malformed upstream SSE event"
      | some parsed =>
        let e := record (some parsed)
        let type := match e.field "type" with
          | none => (eventName lines).map .str
          | some .null => (eventName lines).map .str
          | some type => some type
        if Json.isStr type "error" ∨ (e.field "error").any Json.truthy then .error (upstreamStreamError (e.field "error"))
        else if Json.isStr type "ping" then .ok ([none],s)
        else if Json.isStr type "message_start" then messageStart st s e
        else if s.started = false then fails "Upstream content preceded message_start"
        else if Json.isStr type "content_block_start" then contentBlockStart st s e
        else if Json.isStr type "content_block_delta" then contentBlockDelta st s e
        else if Json.isStr type "content_block_stop" then contentBlockStop st s e
        else if Json.isStr type "message_delta" then messageDelta s e
        else if Json.isStr type "message_stop" then messageStop st s
        else fails "Unsupported upstream SSE event"

def handler (st : Stream) : FramedReading.Handler State (Option ChatChunk) Failure where
  terminal := State.terminal
  process := process st
  limit := MAX_FRAME
  tooLong := .upstream "Upstream SSE frame exceeded the size limit"
  ended := .upstream "Upstream ended without a terminal message_stop"
  malformed := .typeError
  apart := by decide

def chatChunks (st : Stream) (packets : List (List UInt8)) : List (Option ChatChunk) × Option Failure :=
  FramedReading.readAll (handler st) .start .start [] packets

end Clankermux.ChatStream
