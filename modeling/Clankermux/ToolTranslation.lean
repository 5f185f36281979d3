import Clankermux.InsertionMap
import Clankermux.JsonText

/-! The names under which a request's tools go upstream, and the way back from a name to the
tool it stands for. -/
namespace Clankermux.ToolTranslation
open InsertionMap

structure Host where
  sha256Hex : String → String
  stringify : Json → String

inductive ToolType where
  | function
  | custom
  deriving DecidableEq

structure ToolIdentity where
  type : ToolType
  name : String
  namespace_ : Option String
  deriving DecidableEq

inductive ResponsesTool where
  | function (name : String) (description : Option String) (parameters : Option Json)
  | custom (name : String) (description : Option String) (format : Option Json)
  | nested (name : String) (description : Option String) (tools : List ResponsesTool)
  | builtin (type : String)

structure AnthropicTool where
  name : String
  description : Option String
  input_schema : Json

inductive ResponseItem where
  | additionalTools (tools : List ResponsesTool)
  | functionCall (name : String) (namespace_ : Option String)
  | customToolCall (name : String) (namespace_ : Option String)
  | other

structure ResponsesRequest where
  tools : Option (List ResponsesTool)
  input : List ResponseItem

structure ToolTranslationError where
  message : String

def PREFIX : String := "cmux_tool_"

def isNameChar (ch : Char) : Bool := ch.isAlphanum || ch = '_' || ch = '-'

/-- The pattern `^[a-zA-Z0-9_-]{1,64}$`. -/
def wellNamed (name : String) : Bool := name.toList.all isNameChar && 1 ≤ name.toList.length && name.toList.length ≤ 64

def typeText : ToolType → String
  | .function => "function"
  | .custom => "custom"

/-- `JSON.stringify([id.namespace ?? null, id.name, id.type])`. -/
def keyChars (id : ToolIdentity) : List Char :=
  let namespaceText := match id.namespace_ with
    | some name => JsonText.quote name.toList
    | none => ['n','u','l','l']
  '['::(namespaceText ++ ','::(JsonText.quote id.name.toList ++ ','::(JsonText.quote (typeText id.type).toList ++ [']'])))

def key (id : ToolIdentity) : String := String.ofList (keyChars id)

def truthy (text : Option String) : Option String := text.filter (· ≠ "")

def isPlain (id : ToolIdentity) : Bool :=
  id.type = .function && (truthy id.namespace_).isNone && !PREFIX.toList.isPrefixOf id.name.toList && wellNamed id.name

variable (host : Host)

def nameOf (id : ToolIdentity) : String :=
  if isPlain id then id.name else String.ofList (PREFIX.toList ++ (host.sha256Hex (key id)).toList.take 48)

structure Translation where
  tools : List AnthropicTool
  identities : InsertionMap String ToolIdentity
  definitions : InsertionMap String Nat

namespace Translation

def start : Translation := ⟨[],[],[]⟩

def name (t : Translation) (id : ToolIdentity) : Except ToolTranslationError (String × Translation) :=
  let name := nameOf host id
  match get t.identities name with
  | some existing =>
    if key existing ≠ key id then .error ⟨"Tool identity collision"⟩
    else .ok (name,{ t with identities := InsertionMap.set t.identities name id })
  | none => .ok (name,{ t with identities := InsertionMap.set t.identities name id })

def identity (t : Translation) (name : String) : ToolIdentity := (get t.identities name).getD ⟨.function,name,none⟩

def define (t : Translation) (translated : AnthropicTool) : Translation :=
  match get t.definitions translated.name with
  | none => { t with definitions := InsertionMap.set t.definitions translated.name t.tools.length,tools := t.tools ++ [translated] }
  | some index => { t with tools := t.tools.set index translated }

end Translation

/-- `filter(Boolean).join("\n\n") || undefined`. -/
def joined (parts : List (Option String)) : Option String := truthy (some (String.intercalate "\n\n" (parts.filterMap truthy)))

def RAW_INPUT : String := "Supply the raw tool input as the input string. Do not wrap it in Markdown."

def formatText (format : Json) : String :=
  "Requested input format (descriptive; constrained decoding is unavailable on this translation): " ++ host.stringify format

def customSchema : Json := .obj [("type",.str "object"),("properties",.obj [("input",.obj [("type",.str "string")])]),
  ("required",.arr [.str "input"]),("additionalProperties",.bool false)]

structure Declaration where
  identity : ToolIdentity
  description : Option String
  schema : Json

def functionDeclaration (namespace_ namespaceDescription : Option String) (name : String) (description : Option String) (parameters : Option Json) :
    Declaration :=
  ⟨⟨.function,name,truthy namespace_⟩,joined [namespaceDescription,description],parameters.getD (.obj [])⟩

def customDeclaration (namespace_ namespaceDescription : Option String) (name : String) (description : Option String) (format : Option Json) :
    Declaration :=
  ⟨⟨.custom,name,truthy namespace_⟩,joined ([namespaceDescription,description,some RAW_INPUT] ++ (format.map (formatText host)).toList.map some),customSchema⟩

def translated (d : Declaration) : AnthropicTool := ⟨nameOf host d.identity,d.description,d.schema⟩

def Translation.declare (t : Translation) (d : Declaration) : Except ToolTranslationError Translation := do
  let named ← t.name host d.identity
  .ok (named.2.define ⟨named.1,d.description,d.schema⟩)

mutual

def addTool (namespace_ namespaceDescription : Option String) (t : Translation) : ResponsesTool → Except ToolTranslationError Translation
  | .nested name description tools =>
    if namespace_.isSome then .error ⟨"Nested tool namespaces are not supported"⟩ else add (some name) description t tools
  | .builtin _ => .ok t
  | .function name description parameters => t.declare host (functionDeclaration namespace_ namespaceDescription name description parameters)
  | .custom name description format => t.declare host (customDeclaration host namespace_ namespaceDescription name description format)

def add (namespace_ namespaceDescription : Option String) (t : Translation) : List ResponsesTool → Except ToolTranslationError Translation
  | [] => .ok t
  | tool::rest => do
    let t ← addTool namespace_ namespaceDescription t tool
    add namespace_ namespaceDescription t rest

end

def callIdentity (type : ToolType) (name : String) (namespace_ : Option String) : ToolIdentity := ⟨type,name,truthy namespace_⟩

def takeItem (t : Translation) : ResponseItem → Except ToolTranslationError Translation
  | .additionalTools tools => add host none none t tools
  | .functionCall name namespace_ => (t.name host (callIdentity .function name namespace_)).map Prod.snd
  | .customToolCall name namespace_ => (t.name host (callIdentity .custom name namespace_)).map Prod.snd
  | .other => .ok t

def createToolTranslation (req : ResponsesRequest) : Except ToolTranslationError Translation := do
  let t ← add host none none .start (req.tools.getD [])
  req.input.foldlM (takeItem host) t

end Clankermux.ToolTranslation
