import Clankermux.ParentLinks
import Clankermux.Replacing
import Clankermux.ResumePoint
import Clankermux.SessionHistory

/-! The transcript of a stored session: the entry the next message follows, the entries written
for messages that were not made in the session, and the copy under a new session id that they are
appended to. -/
namespace Clankermux.SessionTranscript
open Json SessionHistory ParentLinks
open ResumePoint (lines decoded uuidOf parentUuid)

variable (h : Host) (parseJson : List Char → Option Json)

structure Leaf where
  uuid : String
  type : Option Json
  calls : Bool

structure Reading where
  parents : List (String × Option String)
  hasChild : List String
  leaf : Option Leaf

def links (parents : List (String × Option String)) (uuid : String) : Option (Option String) := parents.lookup uuid

def makesCalls (entry : Json) : Bool := (ResumePoint.blocksOf entry).any (ofType "tool_use")

def Reading.take (r : Reading) (entry : Json) : Option Reading :=
  match uuidOf entry with
  | none => some r
  | some uuid =>
    if (links r.parents uuid).isSome then none
    else
      let parents := r.parents ++ [(uuid,parentUuid entry)]
      if isTrue (entry.field "isSidechain") then some { r with parents := parents }
      else some {
        parents := parents
        hasChild := r.hasChild ++ ((parentUuid entry).filter (· ≠ "")).toList
        leaf := some ⟨uuid,entry.field "type",makesCalls entry⟩ }

def readLine (r : Reading) (line : List UInt8) : Option Reading := (parseJson (decoded line)).bind r.take

def readTranscript (bytes : List UInt8) : Option Reading := (lines bytes).foldlM (readLine parseJson) ⟨[],[],none⟩

def reachesRoot (parents : List (String × Option String)) (uuid : String) : Bool :=
  match climb (links parents) (parents.length+1) [] (some uuid) with
  | some (_,.root) => true
  | _ => false

def leafOf (r : Reading) : Option String :=
  match r.leaf with
  | none => none
  | some leaf =>
    if !isStr leaf.type "assistant" || leaf.calls then none
    else if leaf.uuid ∈ r.hasChild then none
    else if reachesRoot r.parents leaf.uuid then some leaf.uuid else none

def transcriptLeaf (bytes : List UInt8) : Option String := (readTranscript parseJson bytes).bind leafOf

structure TranscriptContext where
  sessionId : String
  cwd : String
  model : String
  upstreamToolName : String → String
  version : String
  randomId : Nat → String
  timestamp : String
  turnId : String
  parentUuid : Option String

def TranscriptContext.behind (ctx : TranscriptContext) (leaf : String) : TranscriptContext := { ctx with parentUuid := some leaf }

def upstreamBlock (ctx : TranscriptContext) (block : Json) : Option Json :=
  if ofType "tool_use" block then (text h block "name").map (fun name => block.setField "name" (.str (ctx.upstreamToolName name)))
  else some block

def common (ctx : TranscriptContext) (parent : Option String) (uuid : String) : List (String × Json) :=
  [("parentUuid",(parent.map Json.str).getD .null),("isSidechain",.bool false),("userType",.str "external"),("cwd",.str ctx.cwd),
    ("sessionId",.str ctx.sessionId),("version",.str ctx.version),("uuid",.str uuid),("timestamp",.str ctx.timestamp)]

def assistantMessage (ctx : TranscriptContext) (i : Nat) (content : List Json) : Json := .obj
  [("id",.str ("msg_sdk_bridge_" ++ ctx.turnId ++ "_" ++ toString i)),("type",.str "message"),("role",.str "assistant"),("model",.str ctx.model),
    ("content",.arr content),("stop_reason",.str (if content.any (ofType "tool_use") then "tool_use" else "end_turn")),("stop_sequence",.null),
    ("usage",.obj [("input_tokens",.num 0),("output_tokens",.num 0)])]

def entryOf (ctx : TranscriptContext) (i : Nat) (parent : Option String) (message : ApiMessage) : Option Json :=
  match message.role with
  | .user => some (.obj (common ctx parent (ctx.randomId i) ++
      [("type",.str "user"),("message",.obj [("role",.str "user"),("content",.arr message.content)])]))
  | .assistant => (message.content.mapM (upstreamBlock h ctx)).map (fun content =>
      .obj (common ctx parent (ctx.randomId i) ++ [("type",.str "assistant"),("message",assistantMessage ctx i content)]))

def entriesFrom (ctx : TranscriptContext) : Nat → Option String → List ApiMessage → Option (List Json)
  | _,_,[] => some []
  | i,parent,message::rest => do
    let entry ← entryOf h ctx i parent message
    let entries ← entriesFrom ctx (i+1) (some (ctx.randomId i)) rest
    some (entry::entries)

def buildSyntheticTranscript (history : List ApiMessage) (ctx : TranscriptContext) : Option (List Json) :=
  entriesFrom h ctx 0 ctx.parentUuid history

def isHex (ch : Char) : Bool := ch.isDigit || (0x61 ≤ ch.toNat && ch.toNat ≤ 0x66) || (0x41 ≤ ch.toNat && ch.toNat ≤ 0x46)

def isUuid (id : String) : Bool :=
  id.toList.length = 36 && id.toList.zipIdx.all (fun (ch,i) => if i ∈ [8,13,18,23] then ch = '-' else isHex ch)

def needleOf (id : String) : List UInt8 := Utf8.encode ("\"sessionId\":\"".toList ++ id.toList ++ ['"'])

def renamed (fromId toId : String) (bytes : List UInt8) : List UInt8 :=
  if fromId = toId then bytes else Replacing.replaced (needleOf fromId) (needleOf toId) [] bytes

def rewriteSessionId (bytes : List UInt8) (fromId toId : String) : Option (List UInt8) :=
  if isUuid fromId && isUuid toId then some (renamed fromId toId bytes) else none

def separator (copy : List UInt8) : List UInt8 := if copy.getLast?.any (· ≠ 0x0A) then [0x0A] else []

def lineOf (entry : Json) : List UInt8 := Utf8.encode (h.stringify entry).toList

def tailBytes (entries : List Json) : List UInt8 := entries.flatMap (fun entry => lineOf h entry ++ [0x0A])

def forkExtendedTranscriptFile (file : Option (List UInt8)) (fromId toId : String) (extend : String → Option (List Json)) :
    Option (Option (List UInt8)) :=
  match file with
  | none => some none
  | some bytes =>
    match (transcriptLeaf parseJson bytes).filter (· ≠ "") with
    | none => some none
    | some leaf => do
      let entries ← extend leaf
      let copy ← rewriteSessionId bytes fromId toId
      some (some (copy ++ separator copy ++ tailBytes h entries))

end Clankermux.SessionTranscript
