import Clankermux.Checked
import Clankermux.Text
import Clankermux.ToolTranslation

/-! The request for a chat completion as a Messages request. A value of JSON has its fields in
the order in which `Object.keys` lists them. -/
namespace Clankermux.ChatRequest
open Json Checked
open ToolTranslation (wellNamed)

structure Host where
  sha256Hex : String → String
  parseJson : String → Option Json

structure ChatError where
  message : String
  param : Option String
  status : Nat
  code : String

def invalid (message param : String) : ChatError := ⟨message,some param,400,"invalid_request_error"⟩
def unsupported (message param : String) : ChatError := ⟨message,some param,400,"unsupported_parameter"⟩

inductive ImageSource where
  | base64 (media_type data : String)
  | url (url : String)

inductive Block where
  | text (text : String)
  | image (source : ImageSource)
  | thinking (thinking signature : String)
  | toolUse (id name : String) (input : Json)
  | toolResult (tool_use_id content : String)

inductive Role where
  | user
  | assistant
  deriving DecidableEq

structure Message where
  role : Role
  content : List Block

structure Tool where
  name : String
  description : Option String
  input_schema : Json

inductive ToolChoice where
  | auto
  | none
  | any
  | tool (name : String)

structure MessagesBody where
  model : String
  stream : Bool
  messages : List Message
  system : Option (List String)
  tools : Option (List Tool)
  tool_choice : Option ToolChoice
  max_tokens : Option Rat
  temperature : Option Rat
  top_p : Option Rat
  stop_sequences : Option (List String)
  output_config : Option Json

structure ChatStructuredOutput where
  name : String
  description : Option String
  strict : Bool

structure TranslatedChat where
  body : MessagesBody
  stream : Bool
  includeUsage : Bool
  names : InsertionMap String String
  fields : List String
  structuredOutput : Option ChatStructuredOutput

def object (value : Option Json) (path : String) : Except ChatError Json :=
  match value with
  | some (.obj fields) => .ok (.obj fields)
  | _ => .error (invalid (path ++ ": expected an object") path)

def fieldNames : Json → List String
  | .obj fields => fields.map Prod.fst
  | _ => []

def keys (value : Json) (allowed : List String) (path : String) : Except ChatError Unit :=
  match (fieldNames value).find? (fun key => !allowed.contains key) with
  | some key =>
    let param := if path = "" then key else path ++ "." ++ key
    .error (unsupported (param ++ " is not supported") param)
  | none => .ok ()

def string (value : Option Json) (path : String) (empty : Bool) : Except ChatError String :=
  match value with
  | some (.str text) =>
    if !empty && trim text = "" then .error (invalid (path ++ ": expected a nonempty string") path) else .ok text
  | _ => .error (invalid (path ++ ": expected " ++ (if empty then "a string" else "a nonempty string")) path)

def isBool : Option Json → Bool
  | some (.bool _) => true
  | _ => false

def isTrue : Option Json → Bool
  | some (.bool value) => value
  | _ => false

def nullish : Option Json → Bool
  | none => true
  | some .null => true
  | _ => false

def at_ (path : String) (i : Nat) : String := path ++ "[" ++ toString i ++ "]"

def responseFormat (req : Json) : Except ChatError (Option (Json × ChatStructuredOutput)) :=
  match req.field "response_format" with
  | none => .ok none
  | some value => do
    let format ← object (some value) "response_format"
    if isStr (format.field "type") "json_schema" then
      keys format ["type","json_schema"] "response_format"
      let p := "response_format.json_schema"
      let spec ← object (format.field "json_schema") p
      keys spec ["name","description","schema","strict"] p
      let name ← string (spec.field "name") (p ++ ".name") false
      check (wellNamed name)
        (invalid "Schema names must contain 1–64 letters, digits, underscores or hyphens" (p ++ ".name"))
      check (nullish (spec.field "strict") || isBool (spec.field "strict"))
        (invalid (p ++ ".strict: expected a boolean") (p ++ ".strict"))
      let schema ← object (spec.field "schema") (p ++ ".schema")
      let description ← if nullish (spec.field "description") then pure none
        else some <$> string (spec.field "description") (p ++ ".description") true
      pure (some (schema,⟨name,description,isTrue (spec.field "strict")⟩))
    else
      keys format ["type"] "response_format"
      check (isStr (format.field "type") "text")
        (unsupported "Only text and json_schema response_format are supported" "response_format")
      pure none

def streamOptions (req : Json) : Except ChatError Bool :=
  match req.field "stream_options" with
  | none => .ok false
  | some value => do
    let options ← object (some value) "stream_options"
    keys options ["include_usage"] "stream_options"
    check (isTrue (req.field "stream") && ((options.field "include_usage").isNone || isBool (options.field "include_usage")))
      (invalid "stream_options requires stream:true and boolean include_usage" "stream_options")
    pure (isTrue (options.field "include_usage"))

def MAX_SAFE_INTEGER : Int := 9007199254740991

def safeInteger (value : Rat) : Bool := value.den = 1 && value.num ≤ MAX_SAFE_INTEGER && -MAX_SAFE_INTEGER ≤ value.num

def number (req : Json) (field : String) (valid : Rat → Bool) : Except ChatError (Option Rat) :=
  match req.field field with
  | none => .ok none
  | some (.num value) => if valid value then .ok (some value) else .error (invalid ("Invalid " ++ field) field)
  | some _ => .error (invalid ("Invalid " ++ field) field)

def maxTokens (req : Json) : Except ChatError (Option Rat) := number req "max_tokens" (fun value => safeInteger value && 1 ≤ value)
def temperature (req : Json) : Except ChatError (Option Rat) := number req "temperature" (fun value => 0 ≤ value && value ≤ 2)
def topP (req : Json) : Except ChatError (Option Rat) := number req "top_p" (fun value => 0 ≤ value && value ≤ 1)

def stop (req : Json) : Except ChatError (Option (List String)) :=
  match req.field "stop" with
  | none => .ok none
  | some value => do
    let stops := match value with
      | .arr items => items
      | value => [value]
    check (1 ≤ stops.length && stops.length ≤ 4) (invalid "stop requires 1 to 4 nonempty strings" "stop")
    some <$> stops.zipIdx.mapM (fun entry => string (some entry.1) (at_ "stop" entry.2) false)

variable (host : Host)

def encoded (name : String) : String := "cmux_chat_" ++ String.ofList ((host.sha256Hex name).toList.take 48)

def encode (names : InsertionMap String String) (name : String) : Except ChatError (InsertionMap String String) := do
  check (wellNamed name) (invalid "Function names must contain 1–64 letters, digits, underscores or hyphens" "tools")
  pure (InsertionMap.set names (encoded host name) name)

structure Tools where
  tools : List Tool
  names : InsertionMap String String
  declared : List String

def description (f : Json) (path : String) : Except ChatError (Option String) :=
  match f.field "description" with
  | none => .ok none
  | some value => some <$> string (some value) path true

def parameters (f : Json) (path : String) : Except ChatError Json :=
  match f.field "parameters" with
  | none => .ok (.obj [("type",.str "object"),("properties",.obj [])])
  | some value => object (some value) path

def addTool (st : Tools) (entry : Json × Nat) : Except ChatError Tools := do
  let p := at_ "tools" entry.2
  let t ← object (some entry.1) p
  keys t ["type","function"] p
  check (isStr (t.field "type") "function") (unsupported "Only function tools are supported" p)
  let f ← object (t.field "function") (p ++ ".function")
  keys f ["name","description","parameters","strict"] (p ++ ".function")
  check ((f.field "strict").isNone || (isBool (f.field "strict") && !isTrue (f.field "strict")))
    (unsupported "strict tools are not supported" (p ++ ".function.strict"))
  let name ← string (f.field "name") (p ++ ".function.name") false
  check (!st.declared.contains name) (invalid "Duplicate function name" (p ++ ".function.name"))
  let names ← encode host st.names name
  let description ← description f (p ++ ".function.description")
  let schema ← parameters f (p ++ ".function.parameters")
  pure ⟨st.tools ++ [⟨encoded host name,description,schema⟩],names,st.declared ++ [name]⟩

def readTools (req : Json) : Except ChatError Tools :=
  match req.field "tools" with
  | none => .ok ⟨[],[],[]⟩
  | some (.arr entries) => entries.zipIdx.foldlM (addTool host) ⟨[],[],[]⟩
  | some _ => .error (invalid "tools must be an array" "tools")

def toolChoice (req : Json) (st : Tools) : Except ChatError (Option ToolChoice × InsertionMap String String) :=
  match req.field "tool_choice" with
  | none => .ok (none,st.names)
  | some value =>
    if isStr (some value) "auto" then .ok (if st.tools = [] then none else some .auto,st.names)
    else if isStr (some value) "none" then .ok (if st.tools = [] then none else some .none,st.names)
    else if isStr (some value) "required" then do
      check (!st.tools.isEmpty) (invalid "required tool_choice needs tools" "tool_choice")
      pure (some .any,st.names)
    else do
      let choice ← object (some value) "tool_choice"
      keys choice ["type","function"] "tool_choice"
      let f ← object (choice.field "function") "tool_choice.function"
      keys f ["name"] "tool_choice.function"
      let name ← string (f.field "name") "tool_choice.function.name" false
      check (isStr (choice.field "type") "function" && st.declared.contains name)
        (invalid "tool_choice must name a declared function" "tool_choice")
      let names ← encode host st.names name
      pure (some (.tool (encoded host name)),names)

def textPart (path : String) (entry : Json × Nat) : Except ChatError (List String) := do
  let p := at_ path entry.2
  let part ← object (some entry.1) p
  keys part ["type","text"] p
  check (isStr (part.field "type") "text") (unsupported "Only text content is supported" p)
  let text ← string (part.field "text") (p ++ ".text") true
  pure (if text = "" then [] else [text])

def textParts (content : Option Json) (path : String) : Except ChatError (List String) :=
  match content with
  | some (.str text) => .ok (if text = "" then [] else [text])
  | some (.arr parts) => List.flatten <$> parts.zipIdx.mapM (textPart path)
  | _ => .error (invalid "Expected text content" path)

def splitAt (separator : Char) : List Char → List (List Char)
  | [] => [[]]
  | ch::rest =>
    if ch = separator then []::splitAt separator rest
    else match splitAt separator rest with
      | [] => [[ch]]
      | first::more => (ch::first)::more

/-- The groups of `^data:([^;,]+)(?:;[^;,]+)*;base64,(.*)$`, its whole text behind the scheme: what
stands ahead of the first comma are parts that semicolons separate. -/
def base64Url (rest : List Char) : Option (List Char × List Char) :=
  let parts := splitAt ';' (rest.takeWhile (· ≠ ','))
  match rest.dropWhile (· ≠ ','),parts with
  | ',' :: data,mediaType::_::_ =>
    if parts.all (· ≠ []) && parts.getLast? = some "base64".toList then some (mediaType,data) else none
  | _,_ => none

def startsWith (text start : String) : Bool := start.toList.isPrefixOf text.toList

def imageSource (url path : String) : Except ChatError ImageSource :=
  if startsWith url "data:" then
    match base64Url (url.toList.drop 5) with
    | some (mediaType,data) =>
      if data ≠ [] then .ok (.base64 (String.ofList mediaType) (String.ofList data))
      else .error (unsupported "Unsupported image url: expected a base64 data url" path)
    | none => .error (unsupported "Unsupported image url: expected a base64 data url" path)
  else if startsWith url "https://" || startsWith url "http://" then .ok (.url url)
  else .error (unsupported "Unsupported image url: expected data:, http: or https:" path)

def roleName : Role → String
  | .user => "user"
  | .assistant => "assistant"

def contentPart (path : String) (role : Role) (entry : Json × Nat) : Except ChatError (List Block) := do
  let p := at_ path entry.2
  let part ← object (some entry.1) p
  if isStr (part.field "type") "text" then
    keys part ["type","text"] p
    let text ← string (part.field "text") (p ++ ".text") true
    pure (if text = "" then [] else [.text text])
  else
    check (isStr (part.field "type") "image_url") (unsupported "Only text and image content is supported" p)
    check (role = .user) (unsupported ("Image content is only supported on user messages, not " ++ roleName role) p)
    keys part ["type","image_url"] p
    let image ← object (part.field "image_url") (p ++ ".image_url")
    keys image ["url","detail"] (p ++ ".image_url")
    let url ← string (image.field "url") (p ++ ".image_url.url") false
    let source ← imageSource url (p ++ ".image_url.url")
    pure [.image source]

def contentParts (content : Json) (path : String) (role : Role) : Except ChatError (List Block) :=
  match content with
  | .arr parts => List.flatten <$> parts.zipIdx.mapM (contentPart path role)
  | content => List.map Block.text <$> textParts (some content) path

structure Conversation where
  messages : List Message
  system : Option (List String)
  instructionRole : Option String
  pending : List String
  used : List String
  names : InsertionMap String String
  fields : List String

def addToSet (set : List String) (item : String) : List String := if item ∈ set then set else set ++ [item]

def takeInstruction (st : Conversation) (m : Json) (role p : String) : Except ChatError Conversation := do
  check (st.messages.isEmpty && (st.instructionRole.isNone || st.instructionRole = some role))
    (unsupported "Only one leading instruction role is supported" (p ++ ".role"))
  check ((m.field "tool_calls").isNone && (m.field "tool_call_id").isNone) (invalid "Unexpected tool fields" p)
  let texts ← textParts (m.field "content") (p ++ ".content")
  pure { st with instructionRole := some role,system := some (st.system.getD [] ++ texts) }

def isResult : Block → Bool
  | .toolResult _ _ => true
  | _ => false

def addResult (messages : List Message) (result : Block) : List Message :=
  match messages.getLast? with
  | some last =>
    if last.role = .user && last.content.all isResult then messages.dropLast ++ [{ last with content := last.content ++ [result] }]
    else messages ++ [⟨.user,[result]⟩]
  | none => messages ++ [⟨.user,[result]⟩]

def takeResult (st : Conversation) (m : Json) (p : String) : Except ChatError Conversation := do
  keys m ["role","content","tool_call_id"] p
  let id ← string (m.field "tool_call_id") (p ++ ".tool_call_id") false
  check (st.pending.contains id) (invalid "Tool result has no matching pending call" (p ++ ".tool_call_id"))
  let content ← string (m.field "content") (p ++ ".content") true
  pure { st with messages := addResult st.messages (.toolResult id content),pending := st.pending.erase id }

structure Calls where
  content : List Block
  pending : List String
  used : List String
  names : InsertionMap String String

def parseArguments (args path : String) : Except ChatError Json :=
  match host.parseJson args with
  | some value => .ok value
  | none => .error (invalid "Invalid JSON tool arguments" path)

def takeCall (path : String) (st : Calls) (entry : Json × Nat) : Except ChatError Calls := do
  let q := at_ path entry.2
  let call ← object (some entry.1) q
  keys call ["id","type","function"] q
  let id ← string (call.field "id") (q ++ ".id") false
  check (isStr (call.field "type") "function" && !st.used.contains id) (invalid "Invalid or duplicate function call" q)
  let f ← object (call.field "function") (q ++ ".function")
  keys f ["name","arguments"] (q ++ ".function")
  let args ← string (f.field "arguments") (q ++ ".function.arguments") true
  let parsed ← parseArguments host args (q ++ ".function.arguments")
  let name ← string (f.field "name") (q ++ ".function.name") false
  let names ← encode host st.names name
  let input ← object (some parsed) (q ++ ".function.arguments")
  pure ⟨st.content ++ [.toolUse id (encoded host name) input],addToSet st.pending id,addToSet st.used id,names⟩

def takeCalls (m : Json) (p : String) (st : Calls) : Except ChatError Calls :=
  match m.field "tool_calls" with
  | none => .ok st
  | some (.arr (call::calls)) => (call::calls).zipIdx.foldlM (takeCall host (p ++ ".tool_calls")) st
  | some _ => .error (invalid "tool_calls must be nonempty" (p ++ ".tool_calls"))

def spokenContent (m : Json) (role : Role) (p : String) : Except ChatError (List Block) :=
  match m.field "content" with
  | none => .ok []
  | some .null => .ok []
  | some content => contentParts content (p ++ ".content") role

def turnContent (m : Json) (role : Role) (p : String) : Except ChatError (List Block) := do
  let content ← spokenContent m role p
  match m.field "reasoning_content" with
  | none => pure content
  | some value => do
    let thinking ← string (some value) (p ++ ".reasoning_content") true
    pure (.thinking thinking ""::content)

def takeTurn (st : Conversation) (m : Json) (role : Role) (p : String) : Except ChatError Conversation := do
  check st.pending.isEmpty (invalid "Tool calls require results before the next turn" p)
  check ((m.field "tool_call_id").isNone && (role = .assistant || (m.field "tool_calls").isNone)) (invalid "Unexpected tool fields" p)
  let content ← turnContent m role p
  let calls ← takeCalls host m p ⟨content,st.pending,st.used,st.names⟩
  check (!calls.content.isEmpty) (invalid "Message must contain text or tool calls" (p ++ ".content"))
  pure { st with
    messages := st.messages ++ [⟨role,calls.content⟩],pending := calls.pending,used := calls.used,names := calls.names,
    fields := if (m.field "reasoning_content").isSome then addToSet st.fields "reasoning_content" else st.fields }

def takeMessage (st : Conversation) (entry : Json × Nat) : Except ChatError Conversation := do
  let p := at_ "messages" entry.2
  let m ← object (some entry.1) p
  keys m ["role","content","tool_calls","tool_call_id","reasoning_content"] p
  let role ← string (m.field "role") (p ++ ".role") false
  check ((m.field "reasoning_content").isNone || role = "assistant")
    (invalid "Reasoning replay requires an assistant message" (p ++ ".reasoning_content"))
  if role = "system" ∨ role = "developer" then takeInstruction st m role p
  else if role = "tool" then takeResult st m p
  else if role = "user" then takeTurn host st m .user p
  else if role = "assistant" then takeTurn host st m .assistant p
  else .error (unsupported "Unsupported message role" (p ++ ".role"))

def isOne : Option Json → Bool
  | some (.num value) => value = 1
  | _ => false

def messageEntries (req : Json) : Except ChatError (List Json) :=
  match req.field "messages" with
  | some (.arr (first::rest)) => .ok (first::rest)
  | _ => .error (invalid "messages must be a nonempty array" "messages")

def named (name : String) (value : Option β) : List String := if value.isSome then [name] else []

def translateChatRequest (value : Json) : Except ChatError TranslatedChat := do
  let req ← object (some value) "body"
  keys req ["model","messages","tools","tool_choice","stream","stream_options","n","max_tokens","temperature","top_p","stop",
    "response_format"] ""
  let model ← string (req.field "model") "model" false
  check ((req.field "stream").isNone || isBool (req.field "stream")) (invalid "stream: expected a boolean" "stream")
  check ((req.field "n").isNone || isOne (req.field "n")) (unsupported "Only n=1 is supported" "n")
  let format ← responseFormat req
  let includeUsage ← streamOptions req
  let max_tokens ← maxTokens req
  let temperature ← temperature req
  let top_p ← topP req
  let stops ← stop req
  let tools ← readTools host req
  check (format.isNone || tools.tools.isEmpty)
    (unsupported "json_schema response_format cannot be combined with tools" "response_format")
  let choice ← toolChoice host req tools
  let entries ← messageEntries req
  let fields := named "response_format" format ++ named "max_tokens" max_tokens ++ named "temperature" temperature ++
    named "top_p" top_p ++ named "stop" stops
  let st ← entries.zipIdx.foldlM (takeMessage host) ⟨[],none,none,[],[],choice.2,fields⟩
  check st.pending.isEmpty (invalid "Conversation has unanswered tool calls" "messages")
  check (!st.messages.isEmpty) (invalid "Conversation requires a user or assistant turn" "messages")
  pure
    { body :=
        { model := model
          stream := true
          messages := st.messages
          system := st.system
          tools := if tools.tools = [] then none else some tools.tools
          tool_choice := choice.1
          max_tokens := max_tokens
          temperature := temperature
          top_p := top_p
          stop_sequences := stops
          output_config := format.map Prod.fst }
      stream := isTrue (req.field "stream")
      includeUsage := includeUsage
      names := st.names
      fields := st.fields
      structuredOutput := format.map Prod.snd }

end Clankermux.ChatRequest
