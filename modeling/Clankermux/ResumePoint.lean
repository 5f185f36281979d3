import Clankermux.InsertionMap
import Clankermux.Json
import Clankermux.Splitting
import Clankermux.Utf8

/-! Where a released session resumes: the entry of its transcript, and the calls on the way up
from it that the resume has to answer. -/
namespace Clankermux.ResumePoint
open InsertionMap

structure Host where
  parseJson : List Char → Option Json
  numberText : ℚ → String

variable (h : Host)

def fieldText (block : Json) (name : String) : Option String := Json.fieldText h.numberText block name

def uuidOf (entry : Json) : Option String :=
  match entry.field "uuid" with
  | some (.str uuid) => some uuid
  | _ => none

def parentUuid (entry : Json) : Option String :=
  match entry.field "parentUuid" with
  | some (.str uuid) => some uuid
  | _ => none

def blocksOf (entry : Json) : List Json :=
  match (entry.field "message").bind (Json.field "content") with
  | some (.arr blocks) => blocks
  | _ => []

def ofType (type : String) (block : Json) : Bool := Json.isStr (block.field "type") type

def callBlocks (entry : Json) : List Json :=
  if Json.isStr (entry.field "type") "assistant" then (blocksOf entry).filter (ofType "tool_use") else []

def resultBlocks (entry : Json) : List Json := (blocksOf entry).filter (ofType "tool_result")

structure Link where
  parent : Option String
  calls : List String

structure Result where
  uuid : String
  source : Option Json

structure Scan where
  byUuid : InsertionMap String Link
  results : InsertionMap String (List Result)
  point : Option Json

inductive Halt where
  | null
  | threw

def lines (bytes : List UInt8) : List (List UInt8) :=
  let (ended,last) := Splitting.cut 0x0A bytes
  (ended ++ [last]).filter (fun line => !line.isEmpty)

def decoded (line : List UInt8) : List Char :=
  let (decoder,text) := Utf8.decode (.clean true) line
  text ++ decoder.finish

theorem decodedEncode (text : List Char) : decoded (Utf8.encode text) = text := by
  rw [decoded,Utf8.decodeSeen]
  exact List.append_nil text

def addResult (uuid : String) (source : Option Json) (results : InsertionMap String (List Result)) (block : Json) :
    Except Halt (InsertionMap String (List Result)) :=
  match fieldText h block "tool_use_id" with
  | none => .error .threw
  | some id =>
    let own := (get results id).getD []
    .ok (InsertionMap.set results id (own ++ [⟨uuid,source⟩]))

def callIds (entry : Json) : Except Halt (List String) :=
  (callBlocks entry).mapM (fun block => match fieldText h block "id" with
    | none => .error .threw
    | some id => .ok id)

def scanEntry (resumeAt : String) (scan : Scan) (entry : Json) : Except Halt Scan :=
  match uuidOf entry with
  | none => .ok scan
  | some uuid => do
    let results ← (resultBlocks entry).foldlM (addResult h uuid (entry.field "sourceToolAssistantUUID")) scan.results
    let calls ← callIds h entry
    .ok {
      byUuid := InsertionMap.set scan.byUuid uuid ⟨parentUuid entry,calls⟩
      results := results
      point := if uuid = resumeAt then some entry else scan.point }

def scanLine (resumeAt : String) (scan : Scan) (line : List UInt8) : Except Halt Scan :=
  match h.parseJson (decoded line) with
  | none => .error .null
  | some .null => .error .threw
  | some entry => scanEntry h resumeAt scan entry

def scanFile (bytes : List UInt8) (resumeAt : String) : Except Halt Scan := (lines bytes).foldlM (scanLine h resumeAt) ⟨[],[],none⟩

def truthy (at_ : Option String) : Option String := at_.filter (· ≠ "")

def chainFrom (byUuid : InsertionMap String Link) : Nat → List String → Option String → Option (Option (List (String × List String)))
  | 0,_,_ => none
  | fuel+1,seen,at_ =>
    match truthy at_ with
    | none => some (some [])
    | some uuid =>
      if uuid ∈ seen then some (some [])
      else
        match get byUuid uuid with
        | none => some none
        | some entry => (chainFrom byUuid fuel (uuid::seen) entry.parent).map (Option.map ((uuid,entry.calls)::·))

def climbsTo (byUuid : InsertionMap String Link) (ancestor : String) : Nat → List String → Option String → Option Bool
  | 0,_,_ => none
  | fuel+1,walked,up =>
    match truthy up with
    | none => some false
    | some uuid =>
      if uuid ∈ walked then some false
      else if uuid = ancestor then some true
      else climbsTo byUuid ancestor fuel (uuid::walked) ((get byUuid uuid).bind Link.parent)

def descends (byUuid : InsertionMap String Link) (fuel : Nat) (from_ ancestor : String) : Option Bool :=
  climbsTo byUuid ancestor fuel [] ((get byUuid from_).bind Link.parent)

def anyM (test : Result → Option Bool) : List Result → Option Bool
  | [] => some false
  | first::rest => do
    let met ← test first
    if met then some true else anyM test rest

def answeredHere (scan : Scan) (fuel : Nat) (id holder : String) : Option Bool :=
  anyM (fun result => if Json.isStr result.source holder then some true else descends scan.byUuid fuel result.uuid holder)
    ((get scan.results id).getD [])

def unansweredAt (scan : Scan) (fuel : Nat) (awaited : List String) (holder : String) : List String → Option (List String)
  | [] => some []
  | id::rest => do
    let answered ← if id ∈ awaited then some false else answeredHere scan fuel id holder
    let more ← unansweredAt scan fuel awaited holder rest
    some (if answered then more else id::more)

def unansweredOn (scan : Scan) (fuel : Nat) (awaited : List String) : List (String × List String) → Option (List String)
  | [] => some []
  | entry::rest => do
    let own ← unansweredAt scan fuel awaited entry.1 entry.2
    let more ← unansweredOn scan fuel awaited rest
    some (own ++ more)

structure Point where
  entry : Json
  unanswered : List String

inductive Outcome where
  | threw
  | returned (point : Option Point)

def resumePoint (fuel : Nat) (bytes : List UInt8) (resumeAt : String) (awaited : List String) : Option Outcome :=
  match scanFile h bytes resumeAt with
  | .error .null => some (.returned none)
  | .error .threw => some .threw
  | .ok scan =>
    match scan.point with
    | none => some (.returned none)
    | some point => do
      match ← chainFrom scan.byUuid fuel [] (some resumeAt) with
      | none => some (.returned none)
      | some upward =>
        let chain := upward.reverse
        let found := chain.flatMap Prod.snd
        if awaited.all (· ∈ found) then do
          let unanswered ← unansweredOn scan fuel awaited chain
          some (.returned (some ⟨point,unanswered⟩))
        else some (.returned none)

end Clankermux.ResumePoint
