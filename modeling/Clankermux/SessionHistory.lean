import Clankermux.AdjacentGroups
import Clankermux.Json
import Clankermux.Text

/-! A conversation as the client sends it, its normal form, and the digests by which a stored
session is told to hold it. What throws has no value. -/
namespace Clankermux.SessionHistory
open Json

structure Host where
  sha256 : String → String
  digestNonempty : ∀ text, sha256 text ≠ ""
  stringify : Json → String
  numberText : Rat → String

inductive Role where
  | user
  | assistant
  deriving DecidableEq

inductive ClientRole where
  | user
  | assistant
  | system
  deriving DecidableEq

inductive Content where
  | text (text : String)
  | blocks (blocks : List Json)

structure ClientMessage where
  role : ClientRole
  content : Content

structure ApiMessage where
  role : Role
  content : List Json

def blocksOf (message : ClientMessage) : List Json :=
  match message.content with
  | .text text => [.obj [("type",.str "text"),("text",.str text)]]
  | .blocks blocks => blocks

def ofType (type : String) (block : Json) : Bool := isStr (block.field "type") type

def stripCacheControl : Json → Json
  | .obj fields => .obj (fields.filter (·.1 ≠ "cache_control"))
  | block => block

def nonemptyString : Option Json → Bool
  | some (.str text) => text ≠ ""
  | _ => false

def keepBlock (block : Json) : Bool :=
  if ofType "thinking" block then nonemptyString (block.field "signature")
  else if ofType "redacted_thinking" block then nonemptyString (block.field "data")
  else true

def kept (message : ClientMessage) : List Json := ((blocksOf message).filter keepBlock).map stripCacheControl

def apiRole : ClientRole → Option Role
  | .user => some .user
  | .assistant => some .assistant
  | .system => none

def added (message : ClientMessage) : Option (Role × List Json) :=
  match apiRole message.role with
  | none => none
  | some role => if (kept message).isEmpty then none else some (role,kept message)

def resultsFirst (content : List Json) : List Json :=
  let results := content.filter (ofType "tool_result")
  if results.isEmpty then content else results ++ content.filter (fun block => !ofType "tool_result" block)

def arranged (group : Role × List Json) : ApiMessage := ⟨group.1,if group.1 = .user then resultsFirst group.2 else group.2⟩

def normalizeHistory (messages : List ClientMessage) : List ApiMessage := (AdjacentGroups.groups (messages.filterMap added)).map arranged

def MAX_CANONICAL_DEPTH : Nat := 256

mutual

def nodeCount : Json → Nat
  | .arr items => 1 + itemsCount items
  | .obj fields => 1 + fieldsCount fields
  | _ => 1

def itemsCount : List Json → Nat
  | [] => 0
  | item::rest => nodeCount item + itemsCount rest

def fieldsCount : List (String × Json) → Nat
  | [] => 0
  | (_,value)::rest => nodeCount value + fieldsCount rest

end

def unitsOf (ch : Char) : List Nat :=
  if ch.toNat < 0x10000 then [ch.toNat] else [0xD800 + (ch.toNat-0x10000)/0x400,0xDC00 + (ch.toNat-0x10000)%0x400]

def keyBefore (a b : String × Json) : Bool := decide (¬ b.1.toList.flatMap unitsOf < a.1.toList.flatMap unitsOf)

def nested (value : Json) : Json := .obj [("$nestedBeyondDigest",.num (nodeCount value))]

mutual

def canonical (depth : Nat) : Json → Json
  | .arr items => if MAX_CANONICAL_DEPTH ≤ depth then nested (.arr items) else .arr (canonicalItems (depth+1) items)
  | .obj fields => if MAX_CANONICAL_DEPTH ≤ depth then nested (.obj fields) else .obj ((canonicalFields (depth+1) fields).mergeSort keyBefore)
  | value => value

def canonicalItems (depth : Nat) : List Json → List Json
  | [] => []
  | item::rest => canonical depth item::canonicalItems depth rest

def canonicalFields (depth : Nat) : List (String × Json) → List (String × Json)
  | [] => []
  | (name,value)::rest => (name,canonical depth value)::canonicalFields depth rest

end

/-- `replace(/\s+/g, " ")`, inside a run of white space or not. -/
def collapse : Bool → List Char → List Char
  | _,[] => []
  | inside,ch::rest =>
    if isWhitespace ch then (if inside then collapse true rest else ' '::collapse true rest) else ch::collapse false rest

def squash (text : List Char) : String := String.ofList (trimChars (collapse false text))

variable (h : Host)

def textOr (value : Option Json) : Option String :=
  match value with
  | none => some ""
  | some .null => some ""
  | some value => textOf h.numberText value

def member (name : String) (value : Option Json) : List (String × Json) := value.toList.map (name,·)

def hashed (value : Json) : Json := .str (h.sha256 (h.stringify (canonical 0 value)))

def resultPart (part : Json) : Option Json :=
  if ofType "text" part then (textOr h (part.field "text")).map (fun text => .str (squash text.toList))
  else some (.obj (member "t" (part.field "type") ++ [("h",hashed h part)]))

def resultContentDigest (content : Option Json) : Option Json :=
  match content with
  | some (.str text) => some (.str (squash text.toList))
  | some (.arr parts) => (parts.mapM (resultPart h)).map .arr
  | _ => some .null

def isTrue : Option Json → Bool
  | some (.bool value) => value
  | _ => false

def inputOf (block : Json) : Json :=
  match block.field "input" with
  | none => .obj []
  | some .null => .obj []
  | some input => input

def blockShape (block : Json) : Option Json :=
  if ofType "tool_use" block then
    some (.obj (("t",.str "tool_use")::member "id" (block.field "id") ++ member "name" (block.field "name") ++
      [("input",canonical 0 (inputOf block))]))
  else if ofType "tool_result" block then
    (resultContentDigest h (block.field "content")).map fun content =>
      .obj (("t",.str "tool_result")::member "id" (block.field "tool_use_id") ++
        [("error",.bool (isTrue (block.field "is_error"))),("content",content)])
  else some (.obj (member "t" (block.field "type") ++ [("h",hashed h block)]))

def isThinking (block : Json) : Bool := ofType "thinking" block || ofType "redacted_thinking" block

structure Shape where
  done : List Json
  text : List Char

def Shape.flush (s : Shape) : List Json :=
  if s.text = [] then s.done else s.done ++ [.obj [("t",.str "text"),("v",.str (squash s.text))]]

def Shape.take (s : Shape) (block : Json) : Option Shape :=
  if isThinking block then some s
  else if ofType "text" block then (textOr h (block.field "text")).map (fun text => ⟨s.done,s.text ++ text.toList ++ [' ']⟩)
  else (blockShape h block).map (fun shape => ⟨s.flush ++ [shape],[]⟩)

def digestShape (content : List Json) : Option (List Json) := (content.foldlM (Shape.take h) ⟨[],[]⟩).map Shape.flush

def roleText : Role → String
  | .user => "user"
  | .assistant => "assistant"

def messageDigest (message : ApiMessage) : Option (Option String) :=
  (digestShape h message.content).map fun shape =>
    if shape.isEmpty then none else some (h.sha256 (h.stringify (.arr [.str (roleText message.role),.arr shape])))

def digests (normalized : List ApiMessage) : Option (List String) := (normalized.mapM (messageDigest h)).map (List.filterMap id)

def messageDigests (messages : List ClientMessage) : Option (List String) := digests h (normalizeHistory messages)

def skipEmpty : List ApiMessage → Option (List ApiMessage)
  | [] => some []
  | message::rest => do
    match ← messageDigest h message with
    | none => skipEmpty rest
    | some _ => some (message::rest)

def normalizedAfter : List ApiMessage → List String → Option (Option (List ApiMessage))
  | normalized,[] => (skipEmpty h normalized).map some
  | [],_::_ => some none
  | message::rest,digest::stored => do
    match ← messageDigest h message with
    | none => normalizedAfter rest (digest::stored)
    | some found => if found ≠ digest then some none else normalizedAfter rest stored

def findLastIndex {α : Type} (p : α → Bool) (items : List α) : Option Nat := (items.reverse.findIdx? p).map (items.length - 1 - ·)

def afterEmptyReply (messages : List ClientMessage) (stored : List String) : Option (Option (List ApiMessage)) :=
  match findLastIndex (fun m => m.role = .assistant) messages with
  | none => some none
  | some reply =>
    match messages[reply]? with
    | none => some none
    | some replayed =>
      if !(normalizeHistory [replayed]).isEmpty then some none
      else do
        match ← normalizedAfter h (normalizeHistory (messages.take reply)) stored with
        | some [] => some (some (normalizeHistory (messages.drop (reply+1))))
        | _ => some none

def messagesAfter (messages : List ClientMessage) (stored : List String) : Option (Option (List ApiMessage)) := do
  match ← normalizedAfter h (normalizeHistory messages) stored with
  | some tail => some (some tail)
  | none => afterEmptyReply h messages stored

def anyM {α : Type} (test : α → Option Bool) : List α → Option Bool
  | [] => some false
  | first::rest => do
    let met ← test first
    if met then some true else anyM test rest

def text (block : Json) (name : String) : Option String := fieldText h.numberText block name

def uses (message : ApiMessage) : List Json := message.content.filter (ofType "tool_use")
def results (message : ApiMessage) : List Json := message.content.filter (ofType "tool_result")

def missing (name : String) (known : List String) (blocks : List Json) : Option Bool :=
  anyM (fun block => (text h block name).map (fun text => !known.contains text)) blocks

/-- What `transcriptEligible` checks of a message between the one before it and the one behind it. -/
def fits (toolNames : List String) (previous : Option ApiMessage) (message : ApiMessage) (next : Option ApiMessage) : Option Bool :=
  if previous.any (·.role = message.role) then some false
  else match message.role with
  | .assistant => do
    if ← missing h "name" toolNames (uses message) then some false
    else if (uses message).isEmpty then some true
    else match next with
    | none => some false
    | some next =>
      let answered ← (results next).mapM (text h · "tool_use_id")
      (missing h "id" answered (uses message)).map (!·)
  | .user =>
    if (results message).isEmpty then some true
    else do
      let issued ← ((previous.map uses).getD []).mapM (text h · "id")
      (missing h "tool_use_id" issued (results message)).map (!·)

def fitAll (toolNames : List String) : Option ApiMessage → List ApiMessage → Option Bool
  | _,[] => some true
  | previous,message::rest => do
    if ← fits h toolNames previous message rest.head? then fitAll toolNames (some message) rest else some false

def transcriptEligible (history : List ApiMessage) (toolNames : List String) : Option Bool :=
  if !history.head?.any (·.role = .user) then some false
  else (fitAll h toolNames none history).map (fun fitting => fitting && history.getLast?.any (·.role = .assistant))

def extensionTail (history : List ClientMessage) (stored toolNames : List String) : Option (Option (List ApiMessage)) := do
  match ← messagesAfter h history stored with
  | none => some none
  | some tail =>
    if tail.isEmpty || tail.any (fun m => m.content.any isThinking) then some none
    else (transcriptEligible h tail toolNames).map (fun eligible => if eligible then some tail else none)

end Clankermux.SessionHistory
