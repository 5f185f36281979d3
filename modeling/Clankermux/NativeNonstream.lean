import Clankermux.InsertionMap
import Clankermux.Json
import Clankermux.Splitting
import Clankermux.Text
import Clankermux.Utf8

/-! The extraction of the terminal response from a native stream, for a client that has not
asked for a stream. -/
namespace Clankermux.NativeNonstream
open InsertionMap Splitting Utf8

structure Runtime where
  parseJson : List Char → Option Json
  stringify : Json → Option (List Char)

def terminalEventNames : List (List Char) :=
  ["response.completed".toList,"response.incomplete".toList,"response.failed".toList]

def outputItemDoneEvent : List Char := "response.output_item.done".toList

def maxNativeNonstreamSseBytes : Nat := 32 * 1024 * 1024

def maxNativeNonstreamItemsBytes : Nat := 32 * 1024 * 1024

inductive FailureReason where
  | noTerminal
  | malformedTerminal
  | oversized
  | readError
  deriving DecidableEq

inductive TerminalResult where
  | ok (responseJson : List Char)
  | failed (reason : FailureReason)
  deriving DecidableEq

inductive ScanOutcome where
  | nothing
  | terminal (responseJson : List Char)
  | malformed
  | oversized
  deriving DecidableEq

structure RetainedItem where
  item : Json
  bytes : Nat

structure PendingEvent where
  dataLines : List (List Char)
  dataBytes : Nat
  eventName : Option (List Char)
  eventNameBytes : Nat

structure Items where
  indexedItems : InsertionMap Nat RetainedItem
  unindexedItems : List RetainedItem
  itemsBytes : Int
  itemsCorrupt : Bool

structure Scanner where
  pending : List Char
  pendingBytes : Int
  event : PendingEvent
  items : Items

def PendingEvent.start : PendingEvent := ⟨[],0,none,0⟩

def Items.start : Items := ⟨[],[],0,false⟩

def Scanner.start : Scanner := ⟨[],0,.start,.start⟩

def Scanner.retainedBytes (s : Scanner) : Int := s.pendingBytes + s.event.dataBytes + s.event.eventNameBytes

def record (value : Option Json) : Option Json := value.filter Json.isObject

def typeOf (parsed : Json) : Option (List Char) :=
  match parsed.field "type" with
  | some (.str type) => some type.toList
  | _ => none

def usableIndex : Option Json → Option Nat
  | some (.num rawIndex) =>
    if rawIndex.den = 1 ∧ 0 ≤ rawIndex.num ∧ rawIndex.num ≤ 2 ^ 53 - 1 then some rawIndex.num.toNat else none
  | _ => none

def retainItem (rt : Runtime) (s : Items) (parsed : Json) : Items × ScanOutcome :=
  match record (parsed.field "item") with
  | none => ({ s with itemsCorrupt := true },.nothing)
  | some item =>
    match rt.stringify item with
    | none => ({ s with itemsCorrupt := true },.nothing)
    | some text =>
      let bytes := utf8Length text
      let index := usableIndex (parsed.field "output_index")
      let superseded := index.bind (get s.indexedItems)
      let nextBytes := s.itemsBytes + bytes - ((superseded.map RetainedItem.bytes).getD 0 : Nat)
      if nextBytes > maxNativeNonstreamItemsBytes then (s,.oversized)
      else
        match index with
        | none => ({ s with itemsBytes := nextBytes,unindexedItems := s.unindexedItems ++ [⟨item,bytes⟩] },.nothing)
        | some index =>
          ({ s with itemsBytes := nextBytes,indexedItems := InsertionMap.set s.indexedItems index ⟨item,bytes⟩ },.nothing)

def assembleItems (s : Items) : List Json :=
  (s.indexedItems.insertionSort (fun a b => a.1 ≤ b.1)).map (·.2.item) ++ s.unindexedItems.map (·.item)

def serialized (rt : Runtime) (response : Json) : ScanOutcome :=
  match rt.stringify response with
  | some text => .terminal text
  | none => .malformed

def finishTerminal (rt : Runtime) (s : Items) (parsed : Json) : ScanOutcome :=
  match record (parsed.field "response") with
  | none => .malformed
  | some response =>
    match response.field "output" with
    | some (.arr []) =>
      if s.itemsCorrupt then .malformed
      else if assembleItems s = [] then serialized rt response
      else serialized rt (response.setField "output" (.arr (assembleItems s)))
    | _ => serialized rt response

def evaluate (rt : Runtime) (s : Items) (name : Option (List Char)) (data : List Char) : Items × ScanOutcome :=
  if data = [] ∧ name = none then (s,.nothing)
  else
    let namedTerminal := name.any (· ∈ terminalEventNames)
    let namedDoneItem := name = some outputItemDoneEvent
    match rt.parseJson data with
    | none =>
      if namedTerminal then (s,.malformed)
      else if namedDoneItem then ({ s with itemsCorrupt := true },.nothing)
      else (s,.nothing)
    | some parsed =>
      if namedTerminal || (typeOf parsed).any (· ∈ terminalEventNames) then (s,finishTerminal rt s parsed)
      else if namedDoneItem ∨ typeOf parsed = some outputItemDoneEvent then retainItem rt s parsed
      else (s,.nothing)

def joinLines (lines : List (List Char)) : List Char := ['\n'].intercalate lines

def dispatch (rt : Runtime) (s : Scanner) : Scanner × ScanOutcome :=
  let (items,outcome) := evaluate rt s.items s.event.eventName (joinLines s.event.dataLines)
  ({ s with event := .start,items := items },outcome)

inductive Field where
  | data (value : List Char)
  | event (name : List Char)

def readField (line : List Char) : Option Field :=
  if line.head? = some ':' then none
  else
    let field := line.takeWhile (· ≠ ':')
    let rest := (line.dropWhile (· ≠ ':')).tail
    let value := if rest.head? = some ' ' then rest.tail else rest
    if field = "data".toList then some (.data value)
    else if field = "event".toList then some (.event value)
    else none

def PendingEvent.add (e : PendingEvent) : Field → PendingEvent
  | .data value => { e with dataLines := e.dataLines ++ [value],dataBytes := e.dataBytes + utf8Length value + 1 }
  | .event name => { e with eventName := some name,eventNameBytes := utf8Length name }

def handleLine (rt : Runtime) (s : Scanner) (line : List Char) : Scanner × ScanOutcome :=
  if line = [] then dispatch rt s
  else
    match readField line with
    | some field => ({ s with event := s.event.add field },.nothing)
    | none => (s,.nothing)

def pushLines (rt : Runtime) (s : Scanner) : List (List Char) → Scanner × ScanOutcome
  | [] => (s,.nothing)
  | raw::rest =>
    match handleLine rt { s with pendingBytes := s.pendingBytes - (utf8Length raw + 1) } (withoutReturn raw) with
    | (next,.nothing) => pushLines rt next rest
    | ended => ended

def push (rt : Runtime) (s : Scanner) (text : List Char) (byteLength : Nat) : Scanner × ScanOutcome :=
  let (lines,pending) := cut '\n' (s.pending ++ text)
  pushLines rt { s with pending := pending,pendingBytes := s.pendingBytes + byteLength } lines

def flush (rt : Runtime) (s : Scanner) (tail : List Char) : ScanOutcome :=
  match push rt s tail (utf8Length tail) with
  | (s,.nothing) =>
    if s.pending = [] then (dispatch rt s).2
    else
      match handleLine rt { s with pending := [],pendingBytes := 0 } (withoutReturn s.pending) with
      | (s,.nothing) => (dispatch rt s).2
      | (_,outcome) => outcome
  | (_,outcome) => outcome

inductive Turn where
  | chunk (value : List UInt8)
  | aborted
  | failed

def resultOf : ScanOutcome → TerminalResult
  | .terminal responseJson => .ok responseJson
  | .malformed => .failed .malformedTerminal
  | .oversized => .failed .oversized
  | .nothing => .failed .noTerminal

def scanNativeTerminalResponse (rt : Runtime) (s : Scanner) (decoder : Decoder) : List Turn → TerminalResult
  | [] => resultOf (flush rt s decoder.finish)
  | .aborted::_ => .failed .readError
  | .failed::_ => .failed .readError
  | .chunk value::rest =>
    if value = [] then scanNativeTerminalResponse rt s decoder rest
    else if s.retainedBytes + value.length > maxNativeNonstreamSseBytes then .failed .oversized
    else
      let (decoder,text) := decode decoder value
      match push rt s text value.length with
      | (s,.nothing) =>
        if s.retainedBytes > maxNativeNonstreamSseBytes then .failed .oversized
        else scanNativeTerminalResponse rt s decoder rest
      | (_,outcome) => resultOf outcome

def extractNativeTerminalResponse (rt : Runtime) (body : List Turn) : TerminalResult :=
  scanNativeTerminalResponse rt .start .start body

/-! The terminal response of a whole stream, read off its text: the text is cut to lines, the
lines to events, and the events are looked through for the first terminal one. -/

structure StreamEvent where
  name : Option (List Char)
  payload : Option Json

def streamLines (text : List Char) : List (List Char) := (text.splitOn '\n').map withoutReturn

def Field.value? : Field → Option (List Char)
  | .data value => some value
  | .event _ => none

def Field.name? : Field → Option (List Char)
  | .data _ => none
  | .event name => some name

def dataOf (group : List (List Char)) : List (List Char) := (group.filterMap readField).filterMap Field.value?

def nameOf (group : List (List Char)) : Option (List Char) := ((group.filterMap readField).filterMap Field.name?).getLast?

def eventOf (rt : Runtime) (group : List (List Char)) : Option StreamEvent :=
  if joinLines (dataOf group) = [] ∧ nameOf group = none then none
  else some ⟨nameOf group,rt.parseJson (joinLines (dataOf group))⟩

def lineEvents (rt : Runtime) (lines : List (List Char)) : List StreamEvent := (lines.splitOn []).filterMap (eventOf rt)

def streamEvents (rt : Runtime) (text : List Char) : List StreamEvent := lineEvents rt (streamLines text)

namespace StreamEvent

def type (e : StreamEvent) : Option (List Char) := e.payload.bind typeOf

def isTerminal (e : StreamEvent) : Bool := e.name.any (fun name => terminalEventNames.contains name) || e.type.any (fun type => terminalEventNames.contains type)

def isDone (e : StreamEvent) : Bool := e.name = some outputItemDoneEvent || e.type = some outputItemDoneEvent

def item (rt : Runtime) (e : StreamEvent) : Option RetainedItem := do
  let parsed ← e.payload
  let item ← record (parsed.field "item")
  let text ← rt.stringify item
  some ⟨item,utf8Length text⟩

def index (e : StreamEvent) : Option Nat := e.payload.bind (fun parsed => usableIndex (parsed.field "output_index"))

def unreadable (rt : Runtime) (e : StreamEvent) : Bool := e.isDone && (e.item rt).isNone

def response (e : StreamEvent) : Option Json := e.payload.bind (fun parsed => record (parsed.field "response"))

def indexedItem (rt : Runtime) (e : StreamEvent) : Option (Nat × RetainedItem) :=
  if e.isDone then e.index.bind (fun index => (e.item rt).map (index,·)) else none

def unindexedItem (rt : Runtime) (e : StreamEvent) : Option RetainedItem :=
  if e.isDone && e.index.isNone then e.item rt else none

end StreamEvent

def latest (items : List (Nat × RetainedItem)) (index : Nat) : Option RetainedItem := get items.reverse index

def finalItems (rt : Runtime) (seen : List StreamEvent) : List RetainedItem :=
  let indexed := seen.filterMap (·.indexedItem rt)
  ((indexed.map Prod.fst).dedup.insertionSort (· ≤ ·)).filterMap (latest indexed) ++ seen.filterMap (·.unindexedItem rt)

def emptyOutput (response : Json) : Bool :=
  match response.field "output" with
  | some (.arr []) => true
  | _ => false

def completed (rt : Runtime) (seen : List StreamEvent) (response : Json) : Json :=
  if emptyOutput response ∧ finalItems rt seen ≠ []
  then response.setField "output" (.arr ((finalItems rt seen).map (·.item))) else response

def answer (rt : Runtime) (seen : List StreamEvent) (e : StreamEvent) : Option (List Char) :=
  e.response.bind fun response =>
    if emptyOutput response ∧ seen.any (·.unreadable rt) then none else rt.stringify (completed rt seen response)

def terminalResult (rt : Runtime) (events : List StreamEvent) : TerminalResult :=
  match events.dropWhile (!·.isTerminal) with
  | [] => .failed .noTerminal
  | e::_ =>
    match answer rt (events.takeWhile (!·.isTerminal)) e with
    | some responseJson => .ok responseJson
    | none => .failed .malformedTerminal

end Clankermux.NativeNonstream
