import Clankermux.NativeExtraction
import Mathlib.Data.List.Infix
import Mathlib.Data.List.TakeWhile

/-! Texts that carry the same native stream: with another end of a line, with a comment, with
data that is broken where the JSON allows it, and without the last line end. -/
namespace Clankermux.NativeNonstream
open Splitting Utf8

def LineStart (text : List Char) : Prop := text = [] ∨ text.getLast? = some '\n'

def openLines (text : List Char) : List (List Char) := (lineGroups text).2

def firstLines (text : List Char) : List (List Char) := ((streamLines text).splitOn []).headD []

def dataMark : List Char := ['d','a','t','a',':',' ']

def dataLine (value : List Char) : List Char := dataMark ++ value ++ ['\n']

inductive Variant (rt : Runtime) : List Char → List Char → Prop where
  | lineEnd (a b : List Char) (ended : a.getLast? ≠ some '\r') : Variant rt (a ++ '\n' :: b) (a ++ '\r' :: '\n' :: b)
  | comment (a c b : List Char) (start : LineStart a) (line : '\n' ∉ c) : Variant rt (a ++ b) (a ++ ':' :: c ++ '\n' :: b)
  | dataLines (a u v b : List Char) (start : LineStart a) (lines : '\n' ∉ u ∧ '\n' ∉ v)
      (ended : u.getLast? ≠ some '\r' ∧ v.getLast? ≠ some '\r') (some_ : u ++ v ≠ [])
      (parses : rt.parseJson (joinLines (dataOf (openLines a) ++ (u ++ v)::dataOf (firstLines b))) =
        rt.parseJson (joinLines (dataOf (openLines a) ++ u::v::dataOf (firstLines b)))) :
      Variant rt (a ++ dataLine (u ++ v) ++ b) (a ++ dataLine u ++ dataLine v ++ b)
  | finalEnd (a : List Char) : Variant rt (a ++ ['\n']) a

variable {rt : Runtime} {a b : List Char}

theorem streamLinesAppend (a b : List Char) : streamLines (a ++ '\n' :: b) = streamLines a ++ streamLines b := by
  rw [streamLines,List.splitOn_append_cons_self,List.map_append]
  rfl

theorem streamLinesStart (start : LineStart a) (b : List Char) :
    streamLines (a ++ b) = (completeLines a).map withoutReturn ++ streamLines b := by
  rw [streamLines,splitOnCut,cutAppend,cutEnded start,List.nil_append,List.append_assoc,List.map_append,← splitOnCut]
  rfl

theorem withoutReturnKeeps {line} (ended : line.getLast? ≠ some '\r') : withoutReturn line = line := by
  rw [withoutReturn,if_neg ended]

theorem withoutReturnDrops (line : List Char) : withoutReturn (line ++ ['\r']) = line := by
  simp [withoutReturn]

theorem streamLinesReturn (ended : a.getLast? ≠ some '\r') : streamLines (a ++ ['\r']) = streamLines a := by
  have free : '\n' ∉ (cut '\n' a).2 ++ ['\r'] := by simp [cutOpen]
  have last : (cut '\n' a).2.getLast? ≠ some '\r' := fun same => ended (cutLast same)
  simp only [streamLines,splitOnCut,cutAppend,cutFree _ free,List.append_nil,List.map_append,List.map_cons,
    withoutReturnDrops,withoutReturnKeeps last]

theorem splitOnFree {open_} (free : [] ∉ open_) (lines : List (List Char)) :
    (open_ ++ lines).splitOn [] = (lines.splitOn []).modifyHead (open_ ++ ·) := by
  induction open_ with
  | nil =>
    rw [List.nil_append]
    cases lines.splitOn [] <;> rfl
  | cons line rest ih =>
    have text : (line == []) = false := by
      have other : line ≠ [] := fun same => free (same ▸ (.head _))
      simpa using other
    rw [List.cons_append,List.splitOn_cons_eq_if_modifyHead,text,ih (fun inside => free (.tail _ inside))]
    cases lines.splitOn [] <;> simp

theorem lineEventsAppend (lines more : List (List Char)) : lineEvents rt (lines ++ more) =
    groupEvents rt (cut [] lines).1 ++ lineEvents rt ((cut [] lines).2 ++ more) := by
  rw [lineEvents,splitOnCut,cutAppend,List.append_assoc,List.filterMap_append,← splitOnCut]
  rfl

theorem lineEventsAlike {few many} (free : [] ∉ few ∧ [] ∉ many) (lines rest : List (List Char))
    (alike : eventOf rt ((cut [] lines).2 ++ few ++ (rest.splitOn []).headD []) =
      eventOf rt ((cut [] lines).2 ++ many ++ (rest.splitOn []).headD [])) :
    lineEvents rt (lines ++ (few ++ rest)) = lineEvents rt (lines ++ (many ++ rest)) := by
  have open_ : [] ∉ (cut [] lines).2 := cutOpen lines
  have freeFew : [] ∉ (cut [] lines).2 ++ few := by simp [open_,free.1]
  have freeMany : [] ∉ (cut [] lines).2 ++ many := by simp [open_,free.2]
  rw [lineEventsAppend lines (few ++ rest),lineEventsAppend lines (many ++ rest),← List.append_assoc,← List.append_assoc,
    lineEvents,lineEvents,splitOnFree freeFew,splitOnFree freeMany]
  cases groups : rest.splitOn [] with
  | nil => rfl
  | cons group others =>
    rw [groups] at alike
    simp only [List.headD_cons] at alike
    simp only [List.modifyHead_cons,List.filterMap_cons,alike]

theorem lineEndEvents (ended : a.getLast? ≠ some '\r') :
    streamEvents rt (a ++ '\n' :: b) = streamEvents rt (a ++ '\r' :: '\n' :: b) := by
  have whole : a ++ '\r' :: '\n' :: b = (a ++ ['\r']) ++ '\n' :: b := by simp
  rw [streamEvents,streamEvents,whole,streamLinesAppend,streamLinesAppend,streamLinesReturn ended]

theorem finalEndEvents (a : List Char) : streamEvents rt (a ++ ['\n']) = streamEvents rt a := by
  have last : streamLines [] = [[]] := rfl
  rw [streamEvents,streamLinesAppend,last,lineEvents,List.splitOn_append_cons_self,List.filterMap_append]
  have quiet : (([] : List (List Char)).splitOn []).filterMap (eventOf rt) = [] := by
    simp [eventOf,dataOf,nameOf,joinLines]
  rw [quiet,List.append_nil]
  rfl

theorem eventOfAlike {few many} (names : nameOf few = nameOf many)
    (empty : joinLines (dataOf few) = [] ↔ joinLines (dataOf many) = [])
    (parses : rt.parseJson (joinLines (dataOf few)) = rt.parseJson (joinLines (dataOf many))) :
    eventOf rt few = eventOf rt many := by
  simp only [eventOf,names,empty,parses]

theorem dataOfAppend (few many : List (List Char)) : dataOf (few ++ many) = dataOf few ++ dataOf many := by
  simp [dataOf]

theorem nameOfAppend (few many : List (List Char)) : nameOf (few ++ many) = (nameOf many).or (nameOf few) := by
  simp [nameOf]

theorem joinedSome {values} (value : List Char) (inside : value ∈ values) (some_ : value ≠ []) :
    joinLines values ≠ [] := by
  cases values with
  | nil => simp at inside
  | cons first rest =>
    cases rest with
    | nil =>
      cases List.mem_singleton.mp inside
      simpa [joinLines] using some_
    | cons next others => simp [joinLines]

theorem oneLine {line} (free : '\n' ∉ line) : streamLines line = [withoutReturn line] := by
  rw [streamLines,List.splitOn_eq_singleton free,List.map_singleton]

theorem streamLinesLine {line} (start : LineStart a) (free : '\n' ∉ line) (b : List Char) :
    streamLines (a ++ (line ++ '\n' :: b)) = (completeLines a).map withoutReturn ++ ([withoutReturn line] ++ streamLines b) := by
  rw [streamLinesStart start,streamLinesAppend,oneLine free]

theorem commentField (c : List Char) : readField (withoutReturn (':' :: c)) = none ∧ withoutReturn (':' :: c) ≠ [] := by
  have first : (withoutReturn (':' :: c)).head? = some ':' := by
    unfold withoutReturn
    split
    · next ended =>
      cases c with
      | nil => simp at ended
      | cons d rest => rfl
    · rfl
  refine ⟨by rw [readField,if_pos first],fun none_ => ?_⟩
  simp [none_] at first

theorem commentEvents {c} (start : LineStart a) (line : '\n' ∉ c) :
    streamEvents rt (a ++ b) = streamEvents rt (a ++ ':' :: c ++ '\n' :: b) := by
  obtain ⟨nothing,text⟩ := commentField c
  have free : '\n' ∉ ':' :: c := by simp [line]
  rw [List.append_assoc,streamEvents,streamEvents,streamLinesStart start,streamLinesLine start free]
  have alike := @lineEventsAlike rt [] [withoutReturn (':' :: c)] (by simp [Ne.symm text])
    ((completeLines a).map withoutReturn) (streamLines b) (by
      have data : dataOf [withoutReturn (':' :: c)] = [] := by simp [dataOf,nothing]
      have name : nameOf [withoutReturn (':' :: c)] = none := by simp [nameOf,nothing]
      refine eventOfAlike ?_ ?_ ?_
      · simp only [List.append_nil,nameOfAppend,name,Option.none_or]
      · simp only [List.append_nil,dataOfAppend,data]
      · simp only [List.append_nil,dataOfAppend,data])
  simpa using alike

theorem dataLineKept {value} (ended : value.getLast? ≠ some '\r') :
    withoutReturn (dataMark ++ value) = dataMark ++ value := by
  refine withoutReturnKeeps ?_
  rw [List.getLast?_append]
  cases last : value.getLast? with
  | none => decide
  | some ch => rwa [last] at ended

theorem dataLinesEvents {u v} (start : LineStart a) (lines : '\n' ∉ u ∧ '\n' ∉ v)
    (ended : u.getLast? ≠ some '\r' ∧ v.getLast? ≠ some '\r') (some_ : u ++ v ≠ [])
    (parses : rt.parseJson (joinLines (dataOf (openLines a) ++ (u ++ v)::dataOf (firstLines b))) =
      rt.parseJson (joinLines (dataOf (openLines a) ++ u::v::dataOf (firstLines b)))) :
    streamEvents rt (a ++ dataLine (u ++ v) ++ b) = streamEvents rt (a ++ dataLine u ++ dataLine v ++ b) := by
  have endedBoth : (u ++ v).getLast? ≠ some '\r' := by
    rw [List.getLast?_append]
    cases last : v.getLast? with
    | none => simpa using ended.1
    | some ch => simpa [last] using ended.2
  have line {value : List Char} (free : '\n' ∉ value) : '\n' ∉ dataMark ++ value := by simp [free,dataMark]
  have single (value : List Char) (rest : List Char) : dataLine value ++ rest = (dataMark ++ value) ++ '\n' :: rest := by
    rw [dataLine,List.append_assoc]
    rfl
  have one : streamLines (a ++ dataLine (u ++ v) ++ b) = (completeLines a).map withoutReturn ++
      ([dataMark ++ (u ++ v)] ++ streamLines b) := by
    rw [List.append_assoc,single,streamLinesLine start (line (by simp [lines])),dataLineKept endedBoth]
  have two : streamLines (a ++ dataLine u ++ dataLine v ++ b) = (completeLines a).map withoutReturn ++
      ([dataMark ++ u,dataMark ++ v] ++ streamLines b) := by
    rw [List.append_assoc,List.append_assoc,single,single,streamLinesLine start (line lines.1),streamLinesAppend,
      oneLine (line lines.2),dataLineKept ended.1,dataLineKept ended.2]
    rfl
  have dataOne (value : List Char) : dataOf [dataMark ++ value] = [value] := by
    rfl
  have dataTwo : dataOf [dataMark ++ u,dataMark ++ v] = [u,v] := by
    exact (dataOfAppend [_] [_]).trans (by rw [dataOne,dataOne]; rfl)
  have nameOne (value : List Char) : nameOf [dataMark ++ value] = none := by
    rfl
  have nameTwo : nameOf [dataMark ++ u,dataMark ++ v] = none := by
    exact (nameOfAppend [_] [_]).trans (by rw [nameOne,nameOne]; rfl)
  rw [streamEvents,streamEvents,one,two]
  refine lineEventsAlike ⟨by simp [dataMark],by simp [dataMark]⟩ _ _ (eventOfAlike ?_ ?_ ?_)
  · simp only [nameOfAppend,nameOne,nameTwo]
  · simp only [dataOfAppend,dataOne,dataTwo]
    refine iff_of_false (joinedSome (u ++ v) (by simp) some_) ?_
    by_cases none_ : u = []
    · exact joinedSome v (by simp) (fun empty => some_ (by rw [none_,empty]; rfl))
    · exact joinedSome u (by simp) none_
  · simp only [dataOfAppend,dataOne,dataTwo]
    simp only [List.append_assoc]
    exact parses

theorem variantEvents {text other} (variant : Variant rt text other) : streamEvents rt text = streamEvents rt other := by
  cases variant with
  | lineEnd a b ended => exact lineEndEvents ended
  | comment a c b start line => exact commentEvents start line
  | dataLines a u v b start lines ended some_ parses => exact dataLinesEvents start lines ended some_ parses
  | finalEnd => exact finalEndEvents _

theorem sameEvents {text other} (same : Relation.EqvGen (Variant rt) text other) :
    streamEvents rt text = streamEvents rt other := by
  induction same with
  | rel text other variant => exact variantEvents variant
  | refl text => rfl
  | symm text other _ ih => exact ih.symm
  | trans text other last _ _ first second => exact first.trans second

def FirstTerminal (events seen : List StreamEvent) (e : StreamEvent) : Prop :=
  (∃ later, events = seen ++ e::later) ∧ (∀ other ∈ seen, other.isTerminal = false) ∧ e.isTerminal = true

theorem firstResult {events seen e} (first : FirstTerminal events seen e) :
    terminalResult rt events =
      match answer rt seen e with
      | some responseJson => .ok responseJson
      | none => .failed .malformedTerminal := by
  obtain ⟨⟨later,rfl⟩,quiet,terminal⟩ := first
  have taken : (seen ++ e::later).takeWhile (!·.isTerminal) = seen := by
    rw [List.takeWhile_append_of_pos (by simpa using quiet)]
    simp [terminal]
  have left : (seen ++ e::later).dropWhile (!·.isTerminal) = e::later := by
    rw [List.dropWhile_append_of_pos (by simpa using quiet)]
    simp [terminal]
  cases given : answer rt seen e with
  | some responseJson => simp [terminalResult,left,taken,given]
  | none => simp [terminalResult,left,taken,given]

theorem firstTerminal (events : List StreamEvent) :
    (∀ e ∈ events, e.isTerminal = false) ∨ ∃ seen e, FirstTerminal events seen e := by
  induction events with
  | nil => exact .inl (by simp)
  | cons e rest ih =>
    cases terminal : e.isTerminal with
    | true => exact .inr ⟨[],e,⟨rest,rfl⟩,by simp,terminal⟩
    | false =>
      rcases ih with quiet | ⟨seen,first,⟨later,whole⟩,quiet,ends⟩
      · exact .inl (by simpa [terminal] using quiet)
      · exact .inr ⟨e::seen,first,⟨later,by rw [whole]; rfl⟩,by simpa [terminal] using quiet,ends⟩

theorem quietResult {events} (quiet : ∀ e ∈ events, e.isTerminal = false) :
    terminalResult rt events = .failed .noTerminal := by
  have left : events.dropWhile (!·.isTerminal) = [] := by
    simpa using quiet
  simp only [terminalResult,left]

/-- Cut anyhow, and written in any of its forms, a stream gives the client what its first
terminal event and the items before it say. -/
theorem terminalExtracted (rt : Runtime) {text other : List Char} {chunks : List (List UInt8)}
    (bytes : chunks.flatten = encode text) (below : BelowCaps rt chunks)
    (same : Relation.EqvGen (Variant rt) (withoutMark text) other) :
    (∀ responseJson, extractNativeTerminalResponse rt (chunks.map .chunk) = .ok responseJson ↔
      ∃ seen e, FirstTerminal (streamEvents rt other) seen e ∧ answer rt seen e = some responseJson) ∧
    (extractNativeTerminalResponse rt (chunks.map .chunk) = .failed .malformedTerminal ↔
      ∃ seen e, FirstTerminal (streamEvents rt other) seen e ∧ answer rt seen e = none) ∧
    (extractNativeTerminalResponse rt (chunks.map .chunk) = .failed .noTerminal ↔
      ∀ e ∈ streamEvents rt other, e.isTerminal = false) := by
  have decoded := decodeEncode text
  have whole : wholeText chunks.flatten = withoutMark text := by
    rw [wholeText,bytes,Decoder.finish,decoded.1,if_pos decoded.2,List.append_nil]
  have extracted := extractWhole below
  rw [whole,sameEvents same] at extracted
  rw [extracted]
  rcases firstTerminal (streamEvents rt other) with quiet | ⟨before,last,found⟩
  · have no (seen : List StreamEvent) (e : StreamEvent) : ¬ FirstTerminal (streamEvents rt other) seen e := by
      rintro ⟨⟨later,its⟩,-,terminal⟩
      simp [quiet e (by rw [its]; simp)] at terminal
    rw [quietResult quiet]
    exact ⟨by simp [no],by simp [no],by simpa using quiet⟩
  · have result := @firstResult rt _ _ _ found
    have ends := found.2.2
    obtain ⟨later,its⟩ := found.1
    refine ⟨fun responseJson => ⟨fun same => ⟨before,last,found,?_⟩,?_⟩,⟨fun same => ⟨before,last,found,?_⟩,?_⟩,?_,?_⟩
    · rw [result] at same
      cases given : answer rt before last with
      | none => simp [given] at same
      | some responseJson => simpa [given] using same
    · rintro ⟨seen,e,first,given⟩
      rw [firstResult first,given]
    · rw [result] at same
      cases given : answer rt before last with
      | none => rfl
      | some responseJson => simp [given] at same
    · rintro ⟨seen,e,first,given⟩
      rw [firstResult first,given]
    · intro same
      rw [result] at same
      cases given : answer rt before last <;> simp [given] at same
    · intro quiet
      simp [quiet last (by rw [its]; simp)] at ends

theorem assembledBytes (group : List (List Char)) :
    ((assembled group).dataBytes + (assembled group).eventNameBytes : Int) ≤ lineBytes group := by
  induction group using List.reverseRecOn with
  | nil => exact le_rfl
  | append_singleton group line ih =>
    have one : lineBytes [line] = utf8Length line + 1 := by simp [lineBytes]
    rw [assembledLine,lineBytesAppend,one]
    cases read : readField line with
    | none =>
      simp only
      omega
    | some field =>
      have short := readFieldShorter read
      cases field with
      | data value =>
        simp only [PendingEvent.add,Field.text] at short ⊢
        omega
      | event name =>
        simp only [PendingEvent.add,Field.text] at short ⊢
        omega

theorem returnBytes (raws : List (List Char)) : lineBytes (raws.map withoutReturn) ≤ lineBytes raws := by
  induction raws with
  | nil => exact le_rfl
  | cons raw rest ih =>
    have short := withoutReturnShorter raw
    simp only [lineBytes,List.map_cons,List.sum_cons] at ih ⊢
    omega

theorem heldShort (bytes : List UInt8) : heldBytes bytes ≤ bytes.length := by
  have open_ := assembledBytes (lineGroups (decode .start bytes).2).2
  obtain ⟨front,whole⟩ := @cutSuffix _ _ [] ((completeLines (decode .start bytes).2).map withoutReturn)
  have lines := returnBytes (completeLines (decode .start bytes).2)
  rw [← whole,lineBytesAppend] at lines
  have more : 0 ≤ lineBytes front := Int.natCast_nonneg _
  unfold lineGroups at open_
  simp only [heldBytes,lineGroups]
  omega

theorem belowShort {chunks} (short : chunks.flatten.length ≤ maxNativeNonstreamSseBytes)
    (items : ∀ seen, seen <+: (streamEvents rt (wholeText chunks.flatten)).takeWhile (!·.isTerminal) → Fits rt seen) :
    BelowCaps rt chunks := by
  refine ⟨fun earlier chunk later whole _ => ?_,items⟩
  have held := heldShort earlier.flatten
  rw [whole] at short
  simp only [List.flatten_append,List.flatten_cons,List.length_append] at short
  omega

def chars (pieces : List String) : List Char := pieces.flatMap String.toList

def doneJson : List Char :=
  chars ["\x7b\"type\":\"respo","nse.output_ite","m.done\",\"outpu","t_index\":0,\"it","em\":\x7b\"a\":1\x7d\x7d"]

def completedHead : List Char := chars ["\x7b\"type\":\"respo","nse.completed\","]

def completedTail : List Char := chars ["\"response\":\x7b\"","output\":[]\x7d\x7d"]

def answeredJson : List Char := chars ["\x7b\"output\":[\x7b\"","a\":1\x7d]\x7d"]

def sampleRuntime : Runtime where
  parseJson text :=
    if text = doneJson then
      some (.obj [("type",.str "response.output_item.done"),("output_index",.num 0),("item",.obj [("a",.num 1)])])
    else if text = completedHead ++ completedTail ∨ text = completedHead ++ '\n' :: completedTail then
      some (.obj [("type",.str "response.completed"),("response",.obj [("output",.arr [])])])
    else none
  stringify
    | .obj [("a",.num _)] => some (chars ["\x7b\"a\":1\x7d"])
    | .obj [("output",.arr [.obj [("a",.num _)]])] => some answeredJson
    | _ => none

def brokenText : List Char := dataLine doneJson ++ ['\n'] ++ dataLine completedHead ++ dataLine completedTail

def plainText : List Char := dataLine doneJson ++ ['\n'] ++ dataLine (completedHead ++ completedTail)

def brokenChunks : List (List UInt8) := [(encode brokenText).take 20,(encode brokenText).drop 20]

theorem brokenParses : sampleRuntime.parseJson (completedHead ++ completedTail) =
    sampleRuntime.parseJson (completedHead ++ '\n' :: completedTail) := by
  have whole : completedHead ++ completedTail ≠ doneJson := by decide +kernel
  have broken : completedHead ++ '\n' :: completedTail ≠ doneJson := by decide +kernel
  simp only [sampleRuntime,if_neg whole,if_neg broken,true_or,or_true]

theorem brokenVariant : Variant sampleRuntime plainText brokenText := by
  have before : openLines (dataLine doneJson ++ ['\n']) = [] := by decide +kernel
  have after : firstLines [] = [] := by decide +kernel
  have variant := @Variant.dataLines sampleRuntime (dataLine doneJson ++ ['\n']) completedHead completedTail []
    (.inr List.getLast?_concat) (by decide +kernel) (by decide +kernel) (by decide +kernel) (by
      rw [before,after]
      simpa only [dataOf,List.filterMap_nil,List.nil_append,joinLines,List.intercalate_singleton,
        List.intercalate_cons_cons,List.append_assoc,List.singleton_append] using brokenParses)
  rw [List.append_nil,List.append_nil] at variant
  exact variant

theorem terminalExtractedBroken : ∃ seen e, FirstTerminal (streamEvents sampleRuntime plainText) seen e ∧
    answer sampleRuntime seen e = some answeredJson := by
  have items : ((streamEvents sampleRuntime (wholeText brokenChunks.flatten)).takeWhile (!·.isTerminal)).inits.all
      (fun seen => ((finalItems sampleRuntime seen).map RetainedItem.bytes).sum ≤ maxNativeNonstreamItemsBytes) = true := by
    decide +kernel
  have bytes : brokenChunks.flatten = encode brokenText := by
    rw [brokenChunks,List.flatten_cons,List.flatten_singleton,List.take_append_drop]
  have below : BelowCaps sampleRuntime brokenChunks := belowShort (by decide +kernel) fun seen inside => by
    have fits := List.all_eq_true.mp items seen ((List.mem_inits _ _).mpr inside)
    simp only [decide_eq_true_eq] at fits
    exact fits
  exact ((terminalExtracted sampleRuntime bytes below (.symm _ _ (.rel _ _ brokenVariant))).1 _).mp (by decide +kernel)

end Clankermux.NativeNonstream
