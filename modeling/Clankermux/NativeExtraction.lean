import Clankermux.NativeNonstream
import Mathlib.Algebra.Order.BigOperators.Group.List
import Mathlib.Algebra.Order.Group.Nat
import Mathlib.Data.List.Dedup

/-! The scanner of a native stream against the whole stream: events, then lines, then chunks. -/
namespace Clankermux.NativeNonstream
open InsertionMap Splitting Utf8

variable {rt : Runtime} {s : Items} {seen : List StreamEvent} {e : StreamEvent}

def judge (rt : Runtime) (s : Items) (e : StreamEvent) : Items × ScanOutcome :=
  if e.isTerminal then (s,(e.payload.map (finishTerminal rt s)).getD .malformed)
  else if e.isDone then (e.payload.map (retainItem rt s)).getD ({ s with itemsCorrupt := true },.nothing)
  else (s,.nothing)

theorem doneIff : e.isDone = true ↔ e.name = some outputItemDoneEvent ∨ e.type = some outputItemDoneEvent := by
  simp [StreamEvent.isDone]

theorem evaluateGroup (group : List (List Char)) : evaluate rt s (nameOf group) (joinLines (dataOf group)) =
    ((eventOf rt group).map (judge rt s)).getD (s,.nothing) := by
  unfold evaluate eventOf
  split
  · rfl
  · cases parsed : rt.parseJson (joinLines (dataOf group)) with
    | none =>
      simp [judge,StreamEvent.isTerminal,StreamEvent.isDone,StreamEvent.type]
    | some value =>
      have done := doneIff (e := ⟨nameOf group,some value⟩)
      simp only [Option.map_some,Option.getD_some,judge,StreamEvent.isTerminal,StreamEvent.type,Option.bind_some,done,
        List.contains_eq_mem]

structure Holds (rt : Runtime) (seen : List StreamEvent) (s : Items) : Prop where
  indexed : s.indexedItems = written (seen.filterMap (·.indexedItem rt))
  unindexed : s.unindexedItems = seen.filterMap (·.unindexedItem rt)
  corrupt : s.itemsCorrupt = seen.any (·.unreadable rt)
  counted : s.itemsBytes = ((finalItems rt seen).map RetainedItem.bytes).sum

theorem holdsStart : Holds rt [] .start := ⟨rfl,rfl,rfl,rfl⟩

theorem indexedSorted (entries : List (Nat × RetainedItem)) :
    ((written entries).insertionSort (fun a b => a.1 ≤ b.1)).map Prod.snd =
      ((entries.map Prod.fst).dedup.insertionSort (· ≤ ·)).filterMap (latest entries) := by
  obtain ⟨nodup,inside⟩ := @keysWritten _ _ _ entries
  rw [sortedValues nodup]
  have perm : (keys (written entries)).Perm (entries.map Prod.fst).dedup :=
    (List.perm_ext_iff_of_nodup nodup (List.nodup_dedup _)).mpr fun key => (inside key).trans List.mem_dedup.symm
  have sorted := ((List.perm_insertionSort _ _).trans (perm.trans (List.perm_insertionSort _ _).symm)).eq_of_sortedLE
    List.sortedLE_insertionSort List.sortedLE_insertionSort
  have gets : get (written entries) = latest entries := funext fun key => getWritten
  rw [sorted,gets]

theorem Holds.assembled (holds : Holds rt seen s) : assembleItems s = (finalItems rt seen).map (·.item) := by
  have sorted := congrArg (List.map (·.item)) (indexedSorted (seen.filterMap (·.indexedItem rt)))
  rw [assembleItems,finalItems,holds.indexed,holds.unindexed,List.map_append,← sorted,List.map_map]
  rfl

theorem finalBytes (seen : List StreamEvent) : ((finalItems rt seen).map RetainedItem.bytes).sum =
    ((written (seen.filterMap (·.indexedItem rt))).map (fun entry => entry.2.bytes)).sum +
      ((seen.filterMap (·.unindexedItem rt)).map RetainedItem.bytes).sum := by
  have sorted := congrArg (List.map RetainedItem.bytes) (indexedSorted (seen.filterMap (·.indexedItem rt)))
  rw [finalItems,List.map_append,List.sum_append,← sorted,List.map_map]
  congr 1
  exact (((List.perm_insertionSort _ _).map _).sum_eq)

theorem bytesUnindexed {item} (indexed : e.indexedItem rt = none) (unindexed : e.unindexedItem rt = some item) :
    ((finalItems rt (seen ++ [e])).map RetainedItem.bytes).sum =
      ((finalItems rt seen).map RetainedItem.bytes).sum + item.bytes := by
  simp only [finalBytes,List.filterMap_append,List.filterMap_cons,indexed,unindexed,List.filterMap_nil,List.append_nil,
    List.map_append,List.sum_append,List.map_cons,List.map_nil,List.sum_singleton]
  omega

theorem bytesIndexed {index} {item} (indexed : e.indexedItem rt = some (index,item))
    (unindexed : e.unindexedItem rt = none) :
    ((finalItems rt (seen ++ [e])).map RetainedItem.bytes).sum +
        ((get (written (seen.filterMap (·.indexedItem rt))) index).map RetainedItem.bytes).getD 0 =
      ((finalItems rt seen).map RetainedItem.bytes).sum + item.bytes := by
  have stored := @sumSet _ _ _ (written (seen.filterMap (·.indexedItem rt))) index item _ _ RetainedItem.bytes
  simp only [finalBytes,List.filterMap_append,List.filterMap_cons,indexed,unindexed,List.filterMap_nil,List.append_nil,
    writtenAdded]
  omega

theorem Holds.skip (holds : Holds rt seen s) (indexed : e.indexedItem rt = none) (unindexed : e.unindexedItem rt = none)
    {corrupt} (readable : corrupt = (s.itemsCorrupt || e.unreadable rt)) :
    Holds rt (seen ++ [e]) { s with itemsCorrupt := corrupt } := by
  have final : finalItems rt (seen ++ [e]) = finalItems rt seen := by
    simp only [finalItems,List.filterMap_append,List.filterMap_cons,indexed,unindexed,List.filterMap_nil,List.append_nil]
  refine ⟨?_,?_,?_,?_⟩
  · simpa [indexed] using holds.indexed
  · simpa [unindexed] using holds.unindexed
  · simp [readable,holds.corrupt]
  · rw [final]
    exact holds.counted

theorem Holds.unread (holds : Holds rt seen s) (done : e.isDone = true) (unread : e.item rt = none) :
    Holds rt (seen ++ [e]) { s with itemsCorrupt := true } := by
  have indexed : e.indexedItem rt = none := by simp [StreamEvent.indexedItem,unread]
  have unindexed : e.unindexedItem rt = none := by simp [StreamEvent.unindexedItem,unread]
  exact holds.skip indexed unindexed (by simp [StreamEvent.unreadable,done,unread])

theorem Holds.retain (holds : Holds rt seen s) {parsed} (read : e.payload = some parsed) (done : e.isDone = true) :
    (∃ next, retainItem rt s parsed = (next,.nothing) ∧ Holds rt (seen ++ [e]) next) ∨
    (retainItem rt s parsed = (s,.oversized) ∧
      maxNativeNonstreamItemsBytes < ((finalItems rt (seen ++ [e])).map RetainedItem.bytes).sum) := by
  have index : e.index = usableIndex (parsed.field "output_index") := by simp [StreamEvent.index,read]
  unfold retainItem
  cases its : record (parsed.field "item") with
  | none => exact .inl ⟨_,rfl,holds.unread done (by simp [StreamEvent.item,read,its])⟩
  | some item =>
    cases wrote : rt.stringify item with
    | none => exact .inl ⟨_,by simp [wrote],holds.unread done (by simp [StreamEvent.item,read,its,wrote])⟩
    | some text =>
      have retained : e.item rt = some ⟨item,utf8Length text⟩ := by simp [StreamEvent.item,read,its,wrote]
      have readable : e.unreadable rt = false := by simp [StreamEvent.unreadable,retained]
      simp only [wrote,← index]
      cases at_ : e.index with
      | none =>
        have indexed : e.indexedItem rt = none := by simp [StreamEvent.indexedItem,at_]
        have unindexed : e.unindexedItem rt = some ⟨item,utf8Length text⟩ := by
          simp [StreamEvent.unindexedItem,done,at_,retained]
        have counted : _ = ((finalItems rt seen).map RetainedItem.bytes).sum + utf8Length text :=
          bytesUnindexed indexed unindexed
        have before := holds.counted
        simp only [Option.bind_none,Option.map_none,Option.getD_none]
        split
        · refine .inr ⟨rfl,?_⟩
          omega
        · refine .inl ⟨_,rfl,⟨?_,?_,?_,?_⟩⟩
          · simpa [indexed] using holds.indexed
          · simp [unindexed,holds.unindexed]
          · simp [readable,holds.corrupt]
          · change s.itemsBytes + _ - _ = _
            omega
      | some index =>
        have indexed : e.indexedItem rt = some (index,⟨item,utf8Length text⟩) := by
          simp [StreamEvent.indexedItem,done,at_,retained]
        have unindexed : e.unindexedItem rt = none := by simp [StreamEvent.unindexedItem,at_]
        have counted : _ = ((finalItems rt seen).map RetainedItem.bytes).sum + utf8Length text :=
          bytesIndexed indexed unindexed
        have before := holds.counted
        rw [← holds.indexed] at counted
        simp only [Option.bind_some]
        split
        · refine .inr ⟨rfl,?_⟩
          omega
        · refine .inl ⟨_,rfl,⟨?_,?_,?_,?_⟩⟩
          · simp [indexed,writtenAdded,holds.indexed]
          · simpa [unindexed] using holds.unindexed
          · simp [readable,holds.corrupt]
          · change s.itemsBytes + _ - _ = _
            omega

theorem Holds.judge (holds : Holds rt seen s) (open_ : e.isTerminal = false) :
    (∃ next, judge rt s e = (next,.nothing) ∧ Holds rt (seen ++ [e]) next) ∨
    (judge rt s e = (s,.oversized) ∧
      maxNativeNonstreamItemsBytes < ((finalItems rt (seen ++ [e])).map RetainedItem.bytes).sum) := by
  unfold NativeNonstream.judge
  rw [open_]
  cases done : e.isDone with
  | false =>
    refine .inl ⟨_,rfl,?_⟩
    have indexed : e.indexedItem rt = none := by simp [StreamEvent.indexedItem,done]
    have unindexed : e.unindexedItem rt = none := by simp [StreamEvent.unindexedItem,done]
    simpa using holds.skip indexed unindexed (.symm (by simp [StreamEvent.unreadable,done]))
  | true =>
    cases read : e.payload with
    | none => exact .inl ⟨_,rfl,holds.unread done (by simp [StreamEvent.item,read])⟩
    | some parsed => simpa [read] using holds.retain read done

def closing (text : Option (List Char)) : ScanOutcome :=
  match text with
  | some responseJson => .terminal responseJson
  | none => .malformed

theorem serializedClosing (response : Json) : serialized rt response = closing (rt.stringify response) := by
  unfold serialized closing
  cases rt.stringify response <;> rfl

theorem outputEmpty {response} : emptyOutput response = true ↔ response.field "output" = some (.arr []) := by
  unfold emptyOutput
  split
  · simp_all
  · simp_all

theorem finishEmpty {parsed response} (its : record (parsed.field "response") = some response)
    (empty : emptyOutput response = true) : finishTerminal rt s parsed =
      if s.itemsCorrupt then .malformed
      else if assembleItems s = [] then serialized rt response
      else serialized rt (response.setField "output" (.arr (assembleItems s))) := by
  simp only [finishTerminal,its,outputEmpty.mp empty]

theorem finishFilled {parsed response} (its : record (parsed.field "response") = some response)
    (filled : emptyOutput response = false) : finishTerminal rt s parsed = serialized rt response := by
  simp only [finishTerminal,its]
  split
  · next output => simp [outputEmpty.mpr output] at filled
  · rfl

theorem Holds.terminal (holds : Holds rt seen s) (terminal : e.isTerminal = true) :
    NativeNonstream.judge rt s e = (s,closing (answer rt seen e)) := by
  have items := holds.assembled
  have corrupt := holds.corrupt
  unfold NativeNonstream.judge
  rw [if_pos terminal]
  cases read : e.payload with
  | none => simp [answer,StreamEvent.response,read,closing]
  | some parsed =>
    simp only [Option.map_some,Option.getD_some]
    cases its : record (parsed.field "response") with
    | none => simp [finishTerminal,answer,StreamEvent.response,read,its,closing]
    | some response =>
      have answered : answer rt seen e = if emptyOutput response ∧ s.itemsCorrupt then none
          else rt.stringify (completed rt seen response) := by
        simp [answer,StreamEvent.response,read,its,corrupt]
      rw [answered]
      cases empty : emptyOutput response with
      | false =>
        have other : completed rt seen response = response := by simp [completed,empty]
        rw [finishFilled its empty,if_neg (by simp),other,serializedClosing]
      | true =>
        rw [finishEmpty its empty]
        cases spoiled : s.itemsCorrupt with
        | true => simp [closing]
        | false =>
          have whole : completed rt seen response =
              if assembleItems s = [] then response else response.setField "output" (.arr (assembleItems s)) := by
            rw [items]
            by_cases some_ : finalItems rt seen = [] <;> simp [completed,empty]
          have unspoiled : ¬ (true = true ∧ false = true) := by simp
          rw [if_neg unspoiled,whole,← serializedClosing]
          simp only [Bool.false_eq_true,if_false]
          split <;> rfl

def scanEvents (rt : Runtime) (s : Items) : List StreamEvent → Items × ScanOutcome
  | [] => (s,.nothing)
  | e::rest =>
    match judge rt s e with
    | (next,.nothing) => scanEvents rt next rest
    | ended => ended

def Fits (rt : Runtime) (seen : List StreamEvent) : Prop :=
  ((finalItems rt seen).map RetainedItem.bytes).sum ≤ maxNativeNonstreamItemsBytes

theorem scanEventsAppend (events more : List StreamEvent) : ∀ s, scanEvents rt s (events ++ more) =
    match scanEvents rt s events with
    | (next,.nothing) => scanEvents rt next more
    | ended => ended := by
  induction events with
  | nil => exact fun s => rfl
  | cons e rest ih =>
    intro s
    simp only [List.cons_append,scanEvents]
    split
    · exact ih _
    · split
      · simp_all
      · rfl

theorem scanEnded {events more} (other : (scanEvents rt s events).2 ≠ .nothing) :
    scanEvents rt s (events ++ more) = scanEvents rt s events := by
  rw [scanEventsAppend]
  split
  · next same => exact absurd (congrArg Prod.snd same) other
  · rfl

theorem Holds.scan (rt : Runtime) (events : List StreamEvent) : ∀ {s seen}, Holds rt seen s →
    (∀ more, more <+: events.takeWhile (!·.isTerminal) → Fits rt (seen ++ more)) →
    resultOf (scanEvents rt s events).2 =
      match events.dropWhile (!·.isTerminal) with
      | [] => .failed .noTerminal
      | e::_ => resultOf (closing (answer rt (seen ++ events.takeWhile (!·.isTerminal)) e)) := by
  induction events with
  | nil => exact fun _ _ => rfl
  | cons e rest ih =>
    intro s seen holds fits
    cases terminal : e.isTerminal with
    | true =>
      have judged := holds.terminal terminal
      have outcome : (scanEvents rt s (e::rest)).2 = closing (answer rt seen e) := by
        simp only [scanEvents,judged]
        cases answer rt seen e <;> rfl
      simp [outcome,terminal]
    | false =>
      have taken : (e::rest).takeWhile (!·.isTerminal) = e::rest.takeWhile (!·.isTerminal) := by simp [terminal]
      have left : (e::rest).dropWhile (!·.isTerminal) = rest.dropWhile (!·.isTerminal) := by simp [terminal]
      rcases holds.judge terminal with ⟨next,judged,still⟩ | ⟨-,heavy⟩
      · have more := ih still (fun more inside => by
          have fit := fits (e::more) (by rw [taken]; exact List.prefix_cons_inj e |>.mpr inside)
          rwa [List.append_cons] at fit)
        simp only [scanEvents,judged]
        rw [more,taken,left]
        simp only [List.append_assoc,List.singleton_append]
      · have fit := fits [e] (by rw [taken]; exact ⟨_,rfl⟩)
        exact absurd fit (Nat.not_le.mpr heavy)

def assembled (group : List (List Char)) : PendingEvent := (group.filterMap readField).foldl PendingEvent.add .start

theorem assembledLine (group : List (List Char)) (line : List Char) : assembled (group ++ [line]) =
    match readField line with
    | some field => (assembled group).add field
    | none => assembled group := by
  unfold assembled
  cases read : readField line <;> simp [read]

theorem assembledReads (group : List (List Char)) :
    (assembled group).dataLines = dataOf group ∧ (assembled group).eventName = nameOf group := by
  unfold assembled dataOf nameOf
  generalize group.filterMap readField = fields
  induction fields using List.reverseRecOn with
  | nil => exact ⟨rfl,rfl⟩
  | append_singleton fields field ih =>
    cases field with
    | data value => simp [PendingEvent.add,Field.value?,Field.name?,ih.1,ih.2]
    | event name => simp [PendingEvent.add,Field.value?,Field.name?,ih.1]

variable {c : Scanner} {open_ : List (List Char)}

theorem dispatchGroup (rt : Runtime) (its : c.event = assembled open_) : dispatch rt c =
    ({ c with event := .start,items := (((eventOf rt open_).map (judge rt c.items)).getD (c.items,.nothing)).1 },
      (((eventOf rt open_).map (judge rt c.items)).getD (c.items,.nothing)).2) := by
  obtain ⟨lines,name⟩ := assembledReads open_
  simp only [dispatch,its,lines,name,evaluateGroup]

theorem handleText (rt : Runtime) {line} (text : line ≠ []) (its : c.event = assembled open_) :
    handleLine rt c line = ({ c with event := assembled (open_ ++ [line]) },.nothing) := by
  rw [handleLine,if_neg text,assembledLine,its]
  cases readField line with
  | some field => rfl
  | none => simp [← its]

def groupEvents (rt : Runtime) (groups : List (List (List Char))) : List StreamEvent := groups.filterMap (eventOf rt)

theorem scanGroup (group : List (List Char)) (groups : List (List (List Char))) (s : Items) :
    scanEvents rt s (groupEvents rt (group::groups)) =
      match ((eventOf rt group).map (judge rt s)).getD (s,.nothing) with
      | (next,.nothing) => scanEvents rt next (groupEvents rt groups)
      | ended => ended := by
  unfold groupEvents
  cases read : eventOf rt group with
  | none => simp [read]
  | some e => simp [read,scanEvents]

def lineBytes (raws : List (List Char)) : Int := ((raws.map (fun raw => utf8Length raw + 1)).sum : Nat)

theorem pushLinesScan (rt : Runtime) (raws : List (List Char)) : ∀ {c} {open_ : List (List Char)}, c.event = assembled open_ →
    [] ∉ open_ →
    (pushLines rt c raws).2 = (scanEvents rt c.items (groupEvents rt (cut [] (open_ ++ raws.map withoutReturn)).1)).2 ∧
    ((pushLines rt c raws).2 = .nothing → (pushLines rt c raws).1 = { c with
      pendingBytes := c.pendingBytes - lineBytes raws
      event := assembled (cut [] (open_ ++ raws.map withoutReturn)).2
      items := (scanEvents rt c.items (groupEvents rt (cut [] (open_ ++ raws.map withoutReturn)).1)).1 }) := by
  induction raws with
  | nil =>
    intro c open_ its free
    rw [List.map_nil,List.append_nil,cutFree open_ free]
    refine ⟨rfl,fun _ => ?_⟩
    simp [pushLines,lineBytes,groupEvents,scanEvents,← its]
  | cons raw rest ih =>
    intro c open_ its free
    rw [List.map_cons]
    have bytes : ∀ n, n - (utf8Length raw + 1) - lineBytes rest = n - lineBytes (raw::rest) := by
      intro n
      simp only [lineBytes,List.map_cons,List.sum_cons]
      omega
    by_cases blank : withoutReturn raw = []
    · rw [blank,cutBlock free,scanGroup]
      have judged := dispatchGroup rt (c := { c with pendingBytes := c.pendingBytes - (utf8Length raw + 1) }) its
      simp only [pushLines,handleLine,blank,if_true,judged]
      cases outcome : ((eventOf rt open_).map (judge rt c.items)).getD (c.items,.nothing) with
      | mk next ended =>
        cases ended with
        | nothing =>
          obtain ⟨same,after⟩ := @ih { c with
            pendingBytes := c.pendingBytes - (utf8Length raw + 1)
            event := .start
            items := next } [] rfl (by simp)
          rw [List.nil_append] at same after
          refine ⟨same,fun nothing => ?_⟩
          rw [after nothing,bytes]
        | terminal text => exact ⟨rfl,by simp⟩
        | malformed => exact ⟨rfl,by simp⟩
        | oversized => exact ⟨rfl,by simp⟩
    · have handled := handleText rt (c := { c with pendingBytes := c.pendingBytes - (utf8Length raw + 1) }) blank its
      have free' : [] ∉ open_ ++ [withoutReturn raw] := by simp [free,Ne.symm blank]
      obtain ⟨same,after⟩ := ih (c := { c with
        pendingBytes := c.pendingBytes - (utf8Length raw + 1)
        event := assembled (open_ ++ [withoutReturn raw]) }) rfl free'
      rw [List.append_assoc,List.singleton_append] at same after
      simp only [pushLines,handled]
      refine ⟨same,fun nothing => ?_⟩
      rw [after nothing,bytes]

def completeLines (text : List Char) : List (List Char) := (cut '\n' text).1

def lineGroups (text : List Char) : List (List (List Char)) × List (List Char) :=
  cut [] ((completeLines text).map withoutReturn)

def completeEvents (rt : Runtime) (text : List Char) : List StreamEvent := groupEvents rt (lineGroups text).1

theorem completeLinesAppend (text more : List Char) : completeLines (text ++ more) =
    completeLines text ++ (cut '\n' ((cut '\n' text).2 ++ more)).1 := congrArg Prod.fst (cutAppend text more)

theorem lineGroupsAppend (text more : List Char) : lineGroups (text ++ more) =
    ((lineGroups text).1 ++ (cut [] ((lineGroups text).2 ++
      (cut '\n' ((cut '\n' text).2 ++ more)).1.map withoutReturn)).1,
      (cut [] ((lineGroups text).2 ++ (cut '\n' ((cut '\n' text).2 ++ more)).1.map withoutReturn)).2) := by
  unfold lineGroups
  rw [completeLinesAppend,List.map_append,cutAppend]

theorem completeEventsAppend (text more : List Char) : completeEvents rt (text ++ more) =
    completeEvents rt text ++ groupEvents rt (cut [] ((lineGroups text).2 ++
      (cut '\n' ((cut '\n' text).2 ++ more)).1.map withoutReturn)).1 := by
  simp only [completeEvents,lineGroupsAppend,groupEvents,List.filterMap_append]

theorem streamEventsSplit (text : List Char) : streamEvents rt text = completeEvents rt text ++
    groupEvents rt ((cut [] ((lineGroups text).2 ++ [withoutReturn (cut '\n' text).2])).1 ++
      [(cut [] ((lineGroups text).2 ++ [withoutReturn (cut '\n' text).2])).2]) := by
  have lines : streamLines text = (completeLines text).map withoutReturn ++ [withoutReturn (cut '\n' text).2] := by
    rw [streamLines,splitOnCut,List.map_append]
    rfl
  rw [streamEvents,lineEvents,lines,splitOnCut,cutAppend,List.append_assoc,List.filterMap_append]
  rfl

theorem streamEventsExtend (text more : List Char) : ∃ later, streamEvents rt (text ++ more) = completeEvents rt text ++ later := by
  rw [streamEventsSplit,completeEventsAppend,List.append_assoc]
  exact ⟨_,rfl⟩

structure Reads (rt : Runtime) (text : List Char) (received : Int) (c : Scanner) : Prop where
  pending : c.pending = (cut '\n' text).2
  pendingBytes : c.pendingBytes = received - lineBytes (completeLines text)
  event : c.event = assembled (lineGroups text).2
  scanned : scanEvents rt .start (completeEvents rt text) = (c.items,.nothing)

theorem readsStart : Reads rt [] 0 .start := ⟨rfl,rfl,rfl,rfl⟩

theorem lineBytesAppend (lines more : List (List Char)) : lineBytes (lines ++ more) = lineBytes lines + lineBytes more := by
  simp [lineBytes]

theorem Reads.push {text} {received} (reads : Reads rt text received c) (more : List Char) (k : Nat) :
    (push rt c more k).2 = (scanEvents rt .start (completeEvents rt (text ++ more))).2 ∧
    ((push rt c more k).2 = .nothing → Reads rt (text ++ more) (received + k) (push rt c more k).1) := by
  have free : [] ∉ (lineGroups text).2 := cutOpen _
  obtain ⟨outcome,after⟩ := pushLinesScan rt (cut '\n' (c.pending ++ more)).1
    (c := { c with pending := (cut '\n' (c.pending ++ more)).2,pendingBytes := c.pendingBytes + k }) reads.event free
  have whole : (scanEvents rt .start (completeEvents rt (text ++ more))) = scanEvents rt c.items (groupEvents rt
      (cut [] ((lineGroups text).2 ++ (cut '\n' (c.pending ++ more)).1.map withoutReturn)).1) := by
    rw [completeEventsAppend,scanEventsAppend,reads.scanned,reads.pending]
  refine ⟨outcome.trans (congrArg Prod.snd whole).symm,fun nothing => ?_⟩
  have state := after nothing
  refine ⟨?_,?_,?_,?_⟩
  · rw [cutAppend,← reads.pending]
    exact congrArg Scanner.pending state
  · rw [completeLinesAppend,lineBytesAppend,← reads.pending]
    have bytes := congrArg Scanner.pendingBytes state
    have before := reads.pendingBytes
    simp only [NativeNonstream.push]
    rw [bytes]
    simp only
    omega
  · rw [lineGroupsAppend,← reads.pending]
    exact congrArg Scanner.event state
  · have items := congrArg Scanner.items state
    rw [whole]
    exact Prod.ext items.symm (outcome.symm.trans nothing)

theorem scanLast (group : List (List Char)) (s : Items) : (scanEvents rt s (groupEvents rt [group])).2 =
    (((eventOf rt group).map (judge rt s)).getD (s,.nothing)).2 := by
  rw [scanGroup]
  split
  · next same => simpa [groupEvents,scanEvents] using (congrArg Prod.snd same).symm
  · rfl

theorem scanBlank (groups : List (List (List Char))) :
    groupEvents rt (groups ++ [[]]) = groupEvents rt groups := by
  simp [groupEvents,eventOf,dataOf,nameOf,joinLines]

theorem dispatchStart (its : c.event = .start) : (dispatch rt c).2 = .nothing := by
  simp [dispatch,its,PendingEvent.start,evaluate,joinLines]

theorem Reads.last {text} {received} (reads : Reads rt text received c) :
    (if c.pending = [] then (dispatch rt c).2
      else
        match handleLine rt { c with pending := [],pendingBytes := 0 } (withoutReturn c.pending) with
        | (c,.nothing) => (dispatch rt c).2
        | (_,outcome) => outcome) = (scanEvents rt .start (streamEvents rt text)).2 := by
  have free : [] ∉ (lineGroups text).2 := cutOpen _
  rw [streamEventsSplit,scanEventsAppend,reads.scanned,← reads.pending]
  by_cases blank : withoutReturn c.pending = []
  · have judged := dispatchGroup rt reads.event
    have events := congrArg Prod.snd judged
    rw [blank,cutBlock free,cut,scanBlank,scanLast,← events]
    split
    · rfl
    · have handled := dispatchGroup rt (c := { c with pending := [],pendingBytes := 0 }) reads.event
      simp only [handleLine,if_true,handled,events]
      split
      · next same =>
        rw [congrArg Prod.snd same]
        exact dispatchStart (congrArg (fun result => result.1.event) same).symm
      · next same => exact (congrArg Prod.snd same).symm
  · have more : c.pending ≠ [] := fun none_ => blank (by rw [none_]; rfl)
    have free' : [] ∉ (lineGroups text).2 ++ [withoutReturn c.pending] := by simp [free,Ne.symm blank]
    have handled := handleText rt (c := { c with pending := [],pendingBytes := 0 }) blank reads.event
    have judged := dispatchGroup rt (c := { c with
      pending := []
      pendingBytes := 0
      event := assembled ((lineGroups text).2 ++ [withoutReturn c.pending]) }) rfl
    rw [if_neg more,cutFree _ free',List.nil_append,scanLast,handled]
    exact congrArg Prod.snd judged

theorem Reads.flush {text} {received} (reads : Reads rt text received c) (tail : List Char) :
    flush rt c tail = (scanEvents rt .start (streamEvents rt (text ++ tail))).2 := by
  obtain ⟨outcome,after⟩ := reads.push tail (utf8Length tail)
  unfold NativeNonstream.flush
  generalize text ++ tail = whole at outcome after
  generalize NativeNonstream.push rt c tail (utf8Length tail) = pushed at outcome after
  obtain ⟨next,ended⟩ := pushed
  by_cases nothing : ended = .nothing
  · subst nothing
    have still := after rfl
    exact still.last
  · have other : (scanEvents rt .start (completeEvents rt whole)).2 ≠ .nothing := by rwa [← outcome]
    rw [streamEventsSplit,scanEnded other,← outcome]
    cases ended with
    | nothing => exact absurd rfl nothing
    | terminal responseJson => rfl
    | malformed => rfl
    | oversized => rfl

theorem shorter {text whole} (sub : text.Sublist whole) : utf8Length text ≤ utf8Length whole :=
  (sub.map _).sum_le_sum (fun _ _ => Nat.zero_le _)

theorem withoutReturnShorter (raw : List Char) : utf8Length (withoutReturn raw) ≤ utf8Length raw := by
  unfold withoutReturn
  split
  · exact shorter (List.dropLast_sublist raw)
  · exact le_rfl

def Field.text : Field → List Char
  | .data value => value
  | .event name => name

theorem readFieldShorter {line} {field} (read : readField line = some field) :
    utf8Length field.text ≤ utf8Length line := by
  simp only [readField] at read
  have rest : (line.dropWhile (· ≠ ':')).tail.Sublist line := (List.tail_sublist _).trans (List.dropWhile_sublist _)
  have value : (if (line.dropWhile (· ≠ ':')).tail.head? = some ' ' then (line.dropWhile (· ≠ ':')).tail.tail
      else (line.dropWhile (· ≠ ':')).tail).Sublist line := by
    split
    · exact (List.tail_sublist _).trans rest
    · exact rest
  split at read
  · simp at read
  · split at read
    · cases read
      exact shorter value
    · split at read
      · cases read
        exact shorter value
      · simp at read

theorem handleLineRetains (rt : Runtime) (line : List Char) : (handleLine rt c line).1.retainedBytes ≤ c.retainedBytes + utf8Length line + 1 := by
  unfold handleLine
  split
  · simp only [dispatch,Scanner.retainedBytes,PendingEvent.start]
    omega
  · cases read : readField line with
    | none =>
      simp only
      omega
    | some field =>
      have short := readFieldShorter read
      cases field with
      | data value =>
        simp only [Scanner.retainedBytes,PendingEvent.add,Field.text] at short ⊢
        omega
      | event name =>
        simp only [Scanner.retainedBytes,PendingEvent.add,Field.text] at short ⊢
        omega

theorem pushLinesRetains (rt : Runtime) (raws : List (List Char)) : ∀ c, (pushLines rt c raws).1.retainedBytes ≤ c.retainedBytes := by
  induction raws with
  | nil => exact fun c => le_rfl
  | cons raw rest ih =>
    intro c
    have first := handleLineRetains rt (c := { c with pendingBytes := c.pendingBytes - (utf8Length raw + 1) })
      (withoutReturn raw)
    have short := withoutReturnShorter raw
    have before : Scanner.retainedBytes { c with pendingBytes := c.pendingBytes - (utf8Length raw + 1) } =
        c.retainedBytes - (utf8Length raw + 1) := by
      simp only [Scanner.retainedBytes]
      omega
    rw [pushLines]
    split
    · next next handled =>
      rw [handled] at first
      have later := ih next
      simp only at first
      omega
    · omega

theorem pushRetains (rt : Runtime) (text : List Char) (k : Nat) : (push rt c text k).1.retainedBytes ≤ c.retainedBytes + k := by
  have all := pushLinesRetains rt (cut '\n' (c.pending ++ text)).1
    { c with pending := (cut '\n' (c.pending ++ text)).2,pendingBytes := c.pendingBytes + k }
  have before : Scanner.retainedBytes { c with
      pending := (cut '\n' (c.pending ++ text)).2
      pendingBytes := c.pendingBytes + k } = c.retainedBytes + k := by
    simp only [Scanner.retainedBytes]
    omega
  rw [before] at all
  exact all

def wholeText (bytes : List UInt8) : List Char := (decode .start bytes).2 ++ (decode .start bytes).1.finish

def heldBytes (bytes : List UInt8) : Int :=
  let text := (decode .start bytes).2
  bytes.length - lineBytes (completeLines text) + (assembled (lineGroups text).2).dataBytes +
    (assembled (lineGroups text).2).eventNameBytes

structure BelowCaps (rt : Runtime) (chunks : List (List UInt8)) : Prop where
  frames : ∀ earlier chunk later, chunks = earlier ++ chunk::later →
    (∀ e ∈ completeEvents rt (decode .start earlier.flatten).2, e.isTerminal = false) →
    heldBytes earlier.flatten + chunk.length ≤ maxNativeNonstreamSseBytes
  items : ∀ seen, seen <+: (streamEvents rt (wholeText chunks.flatten)).takeWhile (!·.isTerminal) → Fits rt seen

theorem finishEnds (parsed : Json) : finishTerminal rt s parsed ≠ .nothing := by
  have written (response : Json) : serialized rt response ≠ .nothing := by
    unfold serialized
    split <;> simp
  unfold finishTerminal
  split
  · simp
  · split
    · split
      · simp
      · split
        · exact written _
        · exact written _
    · exact written _

theorem scanTerminal {rest} (terminal : e.isTerminal = true) : (scanEvents rt s (e::rest)).2 ≠ .nothing := by
  have ends : (judge rt s e).2 ≠ .nothing := by
    rw [judge,if_pos terminal]
    cases e.payload with
    | none => simp
    | some parsed => exact finishEnds parsed
  rw [scanEvents]
  split
  · next same => exact absurd (congrArg Prod.snd same) ends
  · exact ends

theorem scanQuiet (events : List StreamEvent) : ∀ {s}, (scanEvents rt s events).2 = .nothing → ∀ e ∈ events, e.isTerminal = false := by
  induction events with
  | nil => simp
  | cons e rest ih =>
    intro s quiet
    have first : e.isTerminal = false := by
      cases terminal : e.isTerminal with
      | false => rfl
      | true => exact absurd quiet (scanTerminal terminal)
    intro other inside
    rcases List.mem_cons.mp inside with rfl | inside
    · exact first
    · rw [scanEvents] at quiet
      split at quiet
      · exact ih quiet other inside
      · next others => exact (others _ (Prod.ext rfl quiet)).elim

theorem Reads.held {bytes} (reads : Reads rt (decode .start bytes).2 bytes.length c) :
    c.retainedBytes = heldBytes bytes := by
  simp only [Scanner.retainedBytes,heldBytes,reads.pendingBytes,reads.event]

theorem scanStream (chunks : List (List UInt8)) : ∀ {c earlier}, Reads rt (decode .start earlier.flatten).2 earlier.flatten.length c →
    (∀ before chunk later, earlier ++ chunks = before ++ chunk::later →
      (∀ e ∈ completeEvents rt (decode .start before.flatten).2, e.isTerminal = false) →
      heldBytes before.flatten + chunk.length ≤ maxNativeNonstreamSseBytes) →
    scanNativeTerminalResponse rt c (decode .start earlier.flatten).1 (chunks.map .chunk) =
      resultOf (scanEvents rt .start (streamEvents rt (wholeText (earlier ++ chunks).flatten))).2 := by
  induction chunks with
  | nil =>
    intro c earlier reads frames
    rw [List.map_nil,List.append_nil,scanNativeTerminalResponse,reads.flush,wholeText]
  | cons chunk rest ih =>
    intro c earlier reads frames
    have quiet := scanQuiet (completeEvents rt (decode .start earlier.flatten).2) (congrArg Prod.snd reads.scanned)
    have cap := frames earlier chunk rest rfl quiet
    rw [← reads.held] at cap
    have chain : earlier ++ chunk::rest = (earlier ++ [chunk]) ++ rest := by simp
    have bytes : (earlier ++ [chunk]).flatten = earlier.flatten ++ chunk := by simp
    rw [List.map_cons,scanNativeTerminalResponse]
    by_cases empty : chunk = []
    · rw [if_pos empty]
      have same : (earlier ++ [chunk]).flatten = earlier.flatten := by simp [empty]
      rw [chain,← same]
      exact ih (by rw [same]; exact reads) (by rw [← chain]; exact frames)
    · have decoded := decodeAppend earlier.flatten chunk .start
      obtain ⟨outcome,after⟩ := reads.push (decode (decode .start earlier.flatten).1 chunk).2 chunk.length
      have retained := pushRetains rt (c := c) (decode (decode .start earlier.flatten).1 chunk).2 chunk.length
      have text : (decode .start (earlier ++ [chunk]).flatten).2 =
          (decode .start earlier.flatten).2 ++ (decode (decode .start earlier.flatten).1 chunk).2 := by
        rw [bytes,decoded]
      have decoder : (decode .start (earlier ++ [chunk]).flatten).1 = (decode (decode .start earlier.flatten).1 chunk).1 := by
        rw [bytes,decoded]
      have count : ((earlier ++ [chunk]).flatten.length : Int) = earlier.flatten.length + chunk.length := by
        rw [bytes,List.length_append]
        rfl
      rw [← text] at outcome after
      rw [← count] at after
      rw [if_neg empty,if_neg (Int.not_lt.mpr cap),chain]
      simp only
      split
      · next next pushed =>
        rw [pushed] at after retained
        have small : ¬ next.retainedBytes > maxNativeNonstreamSseBytes := by
          simp only at retained
          omega
        rw [if_neg small,← decoder]
        exact ih (after rfl) (by rw [← chain]; exact frames)
      · next ended other pushed =>
        rw [pushed] at outcome
        have whole : ∃ later, streamEvents rt (wholeText ((earlier ++ [chunk]) ++ rest).flatten) =
            completeEvents rt (decode .start (earlier ++ [chunk]).flatten).2 ++ later := by
          rw [wholeText,List.flatten_append,decodeAppend,List.append_assoc]
          exact streamEventsExtend _ _
        obtain ⟨later,whole⟩ := whole
        have ends : (scanEvents rt .start (completeEvents rt (decode .start (earlier ++ [chunk]).flatten).2)).2 ≠ .nothing := by
          rw [← outcome]
          exact other
        rw [whole,scanEnded ends,← outcome]

theorem closingResult (text : Option (List Char)) : resultOf (closing text) =
    match text with
    | some responseJson => .ok responseJson
    | none => .failed .malformedTerminal := by
  cases text <;> rfl

theorem extractWhole {chunks} (below : BelowCaps rt chunks) :
    extractNativeTerminalResponse rt (chunks.map .chunk) = terminalResult rt (streamEvents rt (wholeText chunks.flatten)) := by
  have run := @scanStream _ chunks _ [] readsStart below.frames
  have events := Holds.scan rt (streamEvents rt (wholeText chunks.flatten)) holdsStart (by simpa using below.items)
  unfold extractNativeTerminalResponse terminalResult
  cases left : (streamEvents rt (wholeText chunks.flatten)).dropWhile (!·.isTerminal) with
  | nil =>
    rw [left] at events
    exact run.trans events
  | cons e later =>
    rw [left] at events
    simp only [closingResult] at events
    exact run.trans events

end Clankermux.NativeNonstream
