import Clankermux.NativeExtraction

/-! What the scanner of a native stream holds while it reads: the text of the frame that it is
in, and the items that it keeps. -/
namespace Clankermux.NativeNonstream
open InsertionMap Splitting Utf8

def PendingEvent.held (e : PendingEvent) : Nat :=
  (e.dataLines.map (fun line => utf8Length line + 1)).sum + utf8Length (e.eventName.getD [])

def Scanner.held (s : Scanner) : Nat := utf8Length s.pending + s.event.held

def itemSize (rt : Runtime) (item : Json) : Nat := utf8Length ((rt.stringify item).getD [])

def Items.held (rt : Runtime) (s : Items) : Nat :=
  (s.indexedItems.map (fun entry => itemSize rt entry.2.item)).sum + (s.unindexedItems.map (fun kept => itemSize rt kept.item)).sum

def unread (lines : List (List Char)) (last : List Char) : List Char := lines.flatMap (· ++ ['\n']) ++ last

def linePoints (rt : Runtime) (s : Scanner) (last : List Char) : List (List Char) → List Scanner
  | [] => []
  | raw::rest =>
    let taken := { s with pending := unread rest last,pendingBytes := s.pendingBytes - (utf8Length raw + 1) }
    taken::match handleLine rt taken (withoutReturn raw) with
      | (next,.nothing) => next::linePoints rt next last rest
      | (next,_) => [next]

def pushPoints (rt : Runtime) (s : Scanner) (text : List Char) (byteLength : Nat) : List Scanner :=
  let grown := { s with pending := s.pending ++ text,pendingBytes := s.pendingBytes + byteLength }
  grown::linePoints rt grown (cut '\n' grown.pending).2 (cut '\n' grown.pending).1

def flushPoints (rt : Runtime) (s : Scanner) (tail : List Char) : List Scanner :=
  pushPoints rt s tail (utf8Length tail) ++ match push rt s tail (utf8Length tail) with
    | (s,.nothing) =>
      if s.pending = [] then [(dispatch rt s).1]
      else
        let taken := { s with pending := [],pendingBytes := 0 }
        taken::match handleLine rt taken (withoutReturn s.pending) with
          | (next,.nothing) => [next,(dispatch rt next).1]
          | (next,_) => [next]
    | _ => []

structure Loop where
  scanner : Scanner
  decoder : Decoder
  read : List UInt8

def Loop.start : Loop := ⟨.start,.start,[]⟩

def Loop.next (rt : Runtime) (l : Loop) (value : List UInt8) : Option Loop :=
  if value = [] then some l
  else if l.scanner.retainedBytes + value.length > maxNativeNonstreamSseBytes then none
  else
    match push rt l.scanner (decode l.decoder value).2 value.length with
    | (s,.nothing) =>
      if s.retainedBytes > maxNativeNonstreamSseBytes then none
      else some ⟨s,(decode l.decoder value).1,l.read ++ value⟩
    | _ => none

def loops (rt : Runtime) (l : Loop) : List Turn → List (Loop × List Turn)
  | [] => [(l,[])]
  | .chunk value::rest =>
    (l,.chunk value::rest)::match l.next rt value with
      | some next => loops rt next rest
      | none => []
  | turn::rest => [(l,turn::rest)]

def turnPoints (rt : Runtime) (l : Loop) : List Turn → List Scanner
  | [] => l.scanner::flushPoints rt l.scanner l.decoder.finish
  | .chunk value::_ =>
    l.scanner::if value = [] ∨ l.scanner.retainedBytes + value.length > maxNativeNonstreamSseBytes then []
      else pushPoints rt l.scanner (decode l.decoder value).2 value.length
  | _ => [l.scanner]
variable {rt : Runtime} {s : Scanner} {value : List UInt8} {d : Int} {b : Nat} {e : PendingEvent} {l : Loop}

theorem scanNext {l next : Loop} (found : l.next rt value = some next) (rest : List Turn) :
    scanNativeTerminalResponse rt l.scanner l.decoder (.chunk value::rest) =
      scanNativeTerminalResponse rt next.scanner next.decoder rest := by
  unfold Loop.next at found
  rw [scanNativeTerminalResponse]
  split at found
  · rename_i empty
    cases found
    rw [if_pos empty]
  · rename_i full
    rw [if_neg full]
    split at found
    · contradiction
    · rename_i fits
      rw [if_neg fits]
      split at found
      · rename_i s pushed
        split at found
        · contradiction
        · rename_i within
          cases found
          simp only [pushed,if_neg within]
      · contradiction

theorem scanLoops {next : Loop} {rest} : ∀ {l} {body : List Turn}, (next,rest) ∈ loops rt l body →
    scanNativeTerminalResponse rt l.scanner l.decoder body = scanNativeTerminalResponse rt next.scanner next.decoder rest := by
  intro l body
  induction body generalizing l with
  | nil =>
    intro inside
    cases List.mem_singleton.mp inside
    rfl
  | cons turn others ih =>
    intro inside
    cases turn with
    | chunk value =>
      rcases List.mem_cons.mp inside with same | later
      · cases same
        rfl
      · cases found : l.next rt value with
        | none => simp [found] at later
        | some after =>
          rw [found] at later
          rw [scanNext found others]
          exact ih later
    | aborted | failed =>
      cases List.mem_singleton.mp inside
      rfl

theorem takenPoints (rt : Runtime) (rest : List Turn) (some_ : value ≠ [])
    (taken : l.scanner.retainedBytes + value.length ≤ maxNativeNonstreamSseBytes) :
    ∀ p ∈ pushPoints rt l.scanner (decode l.decoder value).2 value.length, p ∈ turnPoints rt l (.chunk value::rest) := by
  intro p inside
  refine .tail _ ?_
  rwa [if_neg (not_or.mpr ⟨some_,Int.not_lt.mpr taken⟩)]

theorem utf8Append (a b : List Char) : utf8Length (a ++ b) = utf8Length a + utf8Length b := by simp [utf8Length]

theorem utf8Newline : utf8Length ['\n'] = 1 := rfl

theorem unreadCons (raw : List Char) (rest : List (List Char)) (last : List Char) :
    utf8Length (unread (raw::rest) last) = utf8Length raw + 1 + utf8Length (unread rest last) := by
  rw [unread,List.flatMap_cons,List.append_assoc,utf8Append,utf8Append,utf8Newline]
  rfl

theorem unreadCut (text : List Char) : unread (cut '\n' text).1 (cut '\n' text).2 = text := by
  induction text with
  | nil => rfl
  | cons c rest ih =>
    rw [cutCons]
    by_cases newline : c = '\n'
    · simpa [newline,unread] using ih
    · cases pieces : (cut '\n' rest).1 with
      | nil => simpa [newline,unread,pieces] using ih
      | cons piece more => simpa [newline,unread,pieces] using ih

structure Items.Counted (rt : Runtime) (s : Items) : Prop where
  indexed : ∀ entry ∈ s.indexedItems, entry.2.bytes = itemSize rt entry.2.item
  unindexed : ∀ kept ∈ s.unindexedItems, kept.bytes = itemSize rt kept.item
  total : s.itemsBytes = s.held rt
  capped : s.held rt ≤ maxNativeNonstreamItemsBytes

theorem countedStart (rt : Runtime) : Items.Counted rt .start :=
  ⟨by simp [Items.start],by simp [Items.start],rfl,Nat.zero_le _⟩

theorem Items.Counted.corrupt {s : Items} (counted : s.Counted rt) (b : Bool) :
    Items.Counted rt { s with itemsCorrupt := b } := { counted with }

theorem Items.Counted.retained {s : Items} (counted : s.Counted rt) (parsed : Json) :
    (retainItem rt s parsed).1.Counted rt := by
  unfold retainItem
  split
  · exact counted.corrupt true
  · rename_i item _
    split
    · exact counted.corrupt true
    · rename_i text written
      have size : utf8Length text = itemSize rt item := by rw [itemSize,written,Option.getD_some]
      have total := counted.total
      cases usableIndex (parsed.field "output_index") with
      | none =>
        simp only [Option.bind_none,Option.map_none,Option.getD_none]
        split
        · exact counted
        · rename_i fits
          have sum : (Items.mk s.indexedItems (s.unindexedItems ++ [⟨item,utf8Length text⟩])
              (s.itemsBytes + utf8Length text - (0 : Nat)) s.itemsCorrupt).held rt = s.held rt + utf8Length text := by
            simp only [Items.held,List.map_append,List.sum_append,List.map_cons,List.map_nil,List.sum_cons,List.sum_nil]
            omega
          refine ⟨counted.indexed,?_,?_,?_⟩
          · intro kept inside
            rcases List.mem_append.mp inside with old | new
            · exact counted.unindexed kept old
            · cases List.mem_singleton.mp new
              exact size
          · simp only [sum]
            omega
          · simp only [sum]
            omega
      | some index =>
        simp only [Option.bind_some]
        have replaced := @sumSet _ _ _ s.indexedItems index ⟨item,utf8Length text⟩ _ _ (fun kept => itemSize rt kept.item)
        have superseded : ((get s.indexedItems index).map (fun kept => itemSize rt kept.item)).getD 0 =
            ((get s.indexedItems index).map RetainedItem.bytes).getD 0 := by
          cases found : get s.indexedItems index with
          | none => rfl
          | some kept => exact (counted.indexed _ (memOfGet found)).symm
        split
        · exact counted
        · rename_i fits
          have sum : (Items.mk (InsertionMap.set s.indexedItems index ⟨item,utf8Length text⟩) s.unindexedItems
              (s.itemsBytes + utf8Length text - (((get s.indexedItems index).map RetainedItem.bytes).getD 0 : Nat))
              s.itemsCorrupt).held rt + ((get s.indexedItems index).map RetainedItem.bytes).getD 0 =
                s.held rt + utf8Length text := by
            simp only [Items.held] at replaced ⊢
            omega
          refine ⟨?_,counted.unindexed,?_,?_⟩
          · intro entry inside
            rcases (InsertionMap.memSet inside).symm with old | new
            · exact counted.indexed entry old
            · cases new
              exact size
          · simp only at sum ⊢
            omega
          · simp only at sum ⊢
            omega

theorem Items.Counted.evaluated {s : Items} (counted : s.Counted rt) (name : Option (List Char)) (data : List Char) :
    (evaluate rt s name data).1.Counted rt := by
  unfold evaluate
  split
  · exact counted
  · simp only
    split
    · split
      · exact counted
      · split
        · exact counted.corrupt true
        · exact counted
    · rename_i parsed _
      split
      · exact counted
      · split
        · exact counted.retained parsed
        · exact counted

structure PendingEvent.Counted (e : PendingEvent) : Prop where
  data : e.dataBytes = (e.dataLines.map (fun line => utf8Length line + 1)).sum
  name : e.eventNameBytes = utf8Length (e.eventName.getD [])

theorem PendingEvent.Counted.total (counted : e.Counted) : e.held = e.dataBytes + e.eventNameBytes := by
  rw [PendingEvent.held,counted.data,counted.name]

theorem eventStart : PendingEvent.start.Counted := ⟨rfl,rfl⟩

theorem PendingEvent.Counted.added (counted : e.Counted) (field : Field) : (e.add field).Counted := by
  cases field with
  | data value =>
    refine ⟨?_,counted.name⟩
    simp only [PendingEvent.add,counted.data,List.map_append,List.sum_append,List.map_cons,List.map_nil,List.sum_cons,List.sum_nil]
    omega
  | event name => exact ⟨counted.data,rfl⟩

theorem readDataShorter {line value : List Char} (read : readField line = some (.data value)) :
    utf8Length value + 4 ≤ utf8Length line := by
  have whole := utf8Append (line.takeWhile (· ≠ ':')) (line.dropWhile (· ≠ ':'))
  rw [List.takeWhile_append_dropWhile] at whole
  unfold readField at read
  simp only at read
  split at read
  · contradiction
  · split at read
    · rename_i field
      have mark : utf8Length (line.takeWhile (· ≠ ':')) = 4 := by rw [field]; rfl
      have part : utf8Length value ≤ utf8Length (line.dropWhile (· ≠ ':')) := by
        cases read
        split
        · exact shorter ((List.tail_sublist _).trans (List.tail_sublist _))
        · exact shorter (List.tail_sublist _)
      omega
    · split at read <;> simp at read

theorem PendingEvent.Counted.grows {line : List Char} {field} (counted : e.Counted)
    (read : readField line = some field) : (e.add field).held ≤ e.held + utf8Length line := by
  rw [(counted.added field).total,counted.total]
  cases field with
  | data value =>
    have short := readDataShorter read
    simp only [PendingEvent.add]
    omega
  | event name =>
    have short := readFieldShorter read
    simp only [PendingEvent.add,Field.text] at short ⊢
    omega

def Scanner.drift (s : Scanner) : Int := s.pendingBytes - utf8Length s.pending

structure Scanner.Counted (rt : Runtime) (s : Scanner) : Prop where
  event : s.event.Counted
  items : s.items.Counted rt

theorem Scanner.Counted.retained (counted : s.Counted rt) : s.retainedBytes = s.held + s.drift := by
  have total := counted.event.total
  simp only [Scanner.retainedBytes,Scanner.held,Scanner.drift]
  omega

theorem Scanner.Counted.dispatched (counted : s.Counted rt) : (dispatch rt s).1.Counted rt :=
  ⟨eventStart,counted.items.evaluated _ _⟩

theorem Scanner.Counted.handled (counted : s.Counted rt) (line : List Char) :
    (handleLine rt s line).1.Counted rt ∧ (handleLine rt s line).1.event.held ≤ s.event.held + utf8Length line := by
  unfold handleLine
  split
  · exact ⟨counted.dispatched,Nat.zero_le _⟩
  · split
    · rename_i field read
      exact ⟨⟨counted.event.added field,counted.items⟩,counted.event.grows read⟩
    · exact ⟨counted,Nat.le_add_right _ _⟩

theorem handledPending (rt : Runtime) (s : Scanner) (line : List Char) :
    (handleLine rt s line).1.pending = s.pending ∧ (handleLine rt s line).1.pendingBytes = s.pendingBytes := by
  unfold handleLine
  split
  · exact ⟨rfl,rfl⟩
  · split
    · exact ⟨rfl,rfl⟩
    · exact ⟨rfl,rfl⟩

theorem handledAlike (rt : Runtime) (s : Scanner) (line pending : List Char) :
    handleLine rt { s with pending := pending } line =
      ({ (handleLine rt s line).1 with pending := pending },(handleLine rt s line).2) := by
  unfold handleLine
  split
  · rfl
  · split
    · rfl
    · rfl

structure Point (rt : Runtime) (drift : Int) (bound : Nat) (s : Scanner) : Prop where
  counted : s.Counted rt
  drift : s.drift = drift
  bound : s.held ≤ bound

theorem Point.taken {raw last : List Char} {rest}
    (point : Point rt d b s) (text : s.pending = unread (raw::rest) last) :
    Point rt d (b - (utf8Length raw + 1)) { s with
      pending := unread rest last
      pendingBytes := s.pendingBytes - (utf8Length raw + 1) } := by
  have bytes := unreadCons raw rest last
  obtain ⟨counted,drift,bound⟩ := point
  simp only [Scanner.drift,Scanner.held,text] at drift bound
  refine ⟨⟨counted.event,counted.items⟩,?_,?_⟩
  · simp only [Scanner.drift]
    omega
  · simp only [Scanner.held]
    omega

theorem Point.handled (point : Point rt d b s) (line : List Char) :
    Point rt d (b + utf8Length line) (handleLine rt s line).1 := by
  obtain ⟨counted,drift,bound⟩ := point
  obtain ⟨counted',grows⟩ := counted.handled line
  obtain ⟨pending,bytes⟩ := handledPending rt s line
  refine ⟨counted',?_,?_⟩
  · rw [← drift,Scanner.drift,pending,bytes]
    rfl
  · simp only [Scanner.held,pending] at bound ⊢
    omega

theorem Point.weaken {b c : Nat} (point : Point rt d b s) (le : b ≤ c) : Point rt d c s :=
  ⟨point.counted,point.drift,point.bound.trans le⟩

theorem Point.line {raw last : List Char} {rest}
    (point : Point rt d b s) (text : s.pending = unread (raw::rest) last) :
    Point rt d b (handleLine rt { s with
      pending := unread rest last
      pendingBytes := s.pendingBytes - (utf8Length raw + 1) } (withoutReturn raw)).1 := by
  have short := withoutReturnShorter raw
  have room : utf8Length raw + 1 ≤ b := by
    have bytes := unreadCons raw rest last
    have bound := point.bound
    rw [Scanner.held,text,bytes] at bound
    omega
  exact ((point.taken text).handled _).weaken (by omega)

theorem Point.lines {last : List Char} (lines : List (List Char)) : ∀ {s}, Point rt d b s →
    s.pending = unread lines last → ∀ p ∈ linePoints rt s last lines, Point rt d b p := by
  induction lines with
  | nil => simp [linePoints]
  | cons raw rest ih =>
    intro s point text p inside
    have after := point.line text
    have kept := handledPending rt { s with
      pending := unread rest last
      pendingBytes := s.pendingBytes - (utf8Length raw + 1) } (withoutReturn raw)
    rcases List.mem_cons.mp inside with rfl | inside
    · exact (point.taken text).weaken (by omega)
    · split at inside
      · rename_i next handled
        rw [handled] at after kept
        rcases List.mem_cons.mp inside with rfl | inside
        · exact after
        · exact ih after kept.1 p inside
      · rename_i next outcome other handled
        rw [handled] at after
        cases List.mem_singleton.mp inside
        exact after

theorem Point.pushed (point : Point rt d b s) (text : List Char) (byteLength : Nat) :
    ∀ p ∈ pushPoints rt s text byteLength, Point rt (d + (byteLength - utf8Length text)) (b + utf8Length text) p := by
  obtain ⟨counted,drift,bound⟩ := point
  have grown : Point rt (d + (byteLength - utf8Length text)) (b + utf8Length text) { s with
      pending := s.pending ++ text
      pendingBytes := s.pendingBytes + byteLength } := by
    refine ⟨⟨counted.event,counted.items⟩,?_,?_⟩
    · simp only [Scanner.drift,utf8Append] at drift ⊢
      omega
    · simp only [Scanner.held,utf8Append] at bound ⊢
      omega
  intro p inside
  rcases List.mem_cons.mp inside with rfl | inside
  · exact grown
  · exact grown.lines _ (unreadCut _).symm p inside

theorem linesReached (rt : Runtime) (last : List Char) (lines : List (List Char)) : ∀ {s next}, s.pending = unread lines last →
    pushLines rt { s with pending := last } lines = (next,.nothing) → next = s ∨ next ∈ linePoints rt s last lines := by
  induction lines with
  | nil =>
    intro s next text ended
    have same : s.pending = last := text
    rw [← same] at ended
    exact .inl (Prod.mk.inj ended).1.symm
  | cons raw rest ih =>
    intro s next text ended
    have alike := handledAlike rt { s with
      pending := unread rest last
      pendingBytes := s.pendingBytes - (utf8Length raw + 1) } (withoutReturn raw) last
    have kept := handledPending rt { s with
      pending := unread rest last
      pendingBytes := s.pendingBytes - (utf8Length raw + 1) } (withoutReturn raw)
    rw [pushLines,alike] at ended
    rw [linePoints]
    split at ended
    · rename_i after handled
      obtain ⟨whole,nothing⟩ := Prod.mk.inj handled
      have step : handleLine rt { s with
          pending := unread rest last
          pendingBytes := s.pendingBytes - (utf8Length raw + 1) } (withoutReturn raw) = (_,.nothing) := Prod.ext rfl nothing
      rw [step]
      rw [← whole] at ended
      rcases ih kept.1 ended with rfl | inside
      · exact .inr (.tail _ (.head _))
      · exact .inr (.tail _ (.tail _ inside))
    · rename_i other
      exact absurd ended (other _)

theorem pushReached {s next} {text : List Char} {byteLength}
    (ended : push rt s text byteLength = (next,.nothing)) : next ∈ pushPoints rt s text byteLength := by
  have whole : s.pending ++ text = unread (cut '\n' (s.pending ++ text)).1 (cut '\n' (s.pending ++ text)).2 := (unreadCut _).symm
  rcases @linesReached rt _ _ { s with
    pending := s.pending ++ text
    pendingBytes := s.pendingBytes + byteLength } next whole ended with rfl | inside
  · exact .head _
  · exact .tail _ inside

theorem Point.dispatched (point : Point rt d b s) : Point rt d b (dispatch rt s).1 :=
  ⟨point.counted.dispatched,point.drift,le_trans (Nat.add_le_add_left (Nat.zero_le _) _) point.bound⟩

theorem Point.flushed (point : Point rt d b s) (above : 0 ≤ d) (tail : List Char) :
    ∀ p ∈ flushPoints rt s tail, ∃ d, 0 ≤ d ∧ Point rt d (b + utf8Length tail) p := by
  have points := point.pushed tail (utf8Length tail)
  rw [Int.sub_self,Int.add_zero] at points
  intro p inside
  rcases List.mem_append.mp inside with early | late
  · exact ⟨d,above,points p early⟩
  · split at late
    · rename_i next pushed
      have reached := points next (pushReached pushed)
      split at late
      · cases List.mem_singleton.mp late
        exact ⟨d,above,reached.dispatched⟩
      · have room : utf8Length next.pending ≤ b + utf8Length tail := le_trans (Nat.le_add_right _ _) reached.bound
        have short := withoutReturnShorter next.pending
        have taken : Point rt 0 (b + utf8Length tail - utf8Length next.pending) { next with pending := [],pendingBytes := 0 } := by
          have bound := reached.bound
          have none_ : utf8Length [] = 0 := rfl
          refine ⟨⟨reached.counted.event,reached.counted.items⟩,rfl,?_⟩
          simp only [Scanner.held] at bound ⊢
          omega
        have handled : Point rt 0 (b + utf8Length tail)
            (handleLine rt { next with pending := [],pendingBytes := 0 } (withoutReturn next.pending)).1 :=
          (taken.handled _).weaken (by omega)
        rcases List.mem_cons.mp late with rfl | late
        · exact ⟨0,le_rfl,taken.weaken (Nat.sub_le _ _)⟩
        · split at late
          · rename_i after same
            rw [same] at handled
            rcases List.mem_cons.mp late with rfl | late
            · exact ⟨0,le_rfl,handled⟩
            · cases List.mem_singleton.mp late
              exact ⟨0,le_rfl,handled.dispatched⟩
          · rename_i after outcome other same
            rw [same] at handled
            cases List.mem_singleton.mp late
            exact ⟨0,le_rfl,handled⟩
    · simp at late

structure Loop.Tracks (rt : Runtime) (l : Loop) : Prop where
  decoder : (decode .start l.read).1 = l.decoder
  counted : l.scanner.Counted rt
  drift : l.scanner.drift = l.read.length - utf8Length (decode .start l.read).2
  capped : l.scanner.retainedBytes ≤ maxNativeNonstreamSseBytes

theorem tracksStart (rt : Runtime) : Loop.Tracks rt .start := ⟨rfl,⟨eventStart,countedStart rt⟩,rfl,by decide⟩

theorem Loop.Tracks.decoded (tracks : l.Tracks rt) (value : List UInt8) :
    decode .start (l.read ++ value) = ((decode l.decoder value).1,(decode .start l.read).2 ++ (decode l.decoder value).2) := by
  rw [decodeAppend,tracks.decoder]

theorem Loop.Tracks.points (tracks : l.Tracks rt) (value : List UInt8) :
    ∀ p ∈ pushPoints rt l.scanner (decode l.decoder value).2 value.length,
      Point rt ((l.read ++ value).length - utf8Length (decode .start (l.read ++ value)).2)
        (l.scanner.held + utf8Length (decode l.decoder value).2) p := by
  have point : Point rt l.scanner.drift l.scanner.held l.scanner := ⟨tracks.counted,rfl,le_rfl⟩
  have drift : (l.scanner.drift + (value.length - utf8Length (decode l.decoder value).2) : Int) =
      (l.read ++ value).length - utf8Length (decode .start (l.read ++ value)).2 := by
    rw [tracks.decoded,tracks.drift,utf8Append,List.length_append]
    omega
  rw [← drift]
  exact point.pushed _ _

theorem Loop.Tracks.next {l next : Loop} (tracks : l.Tracks rt) (found : l.next rt value = some next) :
    next.Tracks rt := by
  unfold Loop.next at found
  split at found
  · cases found
    exact tracks
  · split at found
    · contradiction
    · split at found
      · rename_i s pushed
        split at found
        · contradiction
        · rename_i within
          cases found
          have point := tracks.points value s (pushReached pushed)
          exact ⟨by rw [tracks.decoded],point.counted,point.drift,Int.not_lt.mp within⟩
      · contradiction

theorem loopsKeep {P : Loop → Prop} {all}
    (step : ∀ {l value rest next}, (l,Turn.chunk value::rest) ∈ all → P l → l.next rt value = some next → P next) :
    ∀ {body} {l : Loop}, P l → loops rt l body ⊆ all → ∀ turn ∈ loops rt l body, P turn.1 := by
  intro body
  induction body with
  | nil =>
    intro l holds _ turn inside
    cases List.mem_singleton.mp inside
    exact holds
  | cons first rest ih =>
    intro l holds within turn inside
    cases first with
    | chunk value =>
      have here := within (.head _)
      rcases List.mem_cons.mp inside with rfl | later
      · exact holds
      · cases found : l.next rt value with
        | none => simp [found] at later
        | some next =>
          rw [found] at later
          refine ih (step here holds found) (fun turn inside => within ?_) turn later
          rw [loops,found]
          exact .tail _ inside
    | aborted | failed =>
      cases List.mem_singleton.mp inside
      exact holds

structure Bounded (rt : Runtime) (s : Scanner) : Prop where
  reported : s.held ≤ s.retainedBytes
  frame : s.held ≤ maxNativeNonstreamSseBytes
  items : s.items.held rt ≤ maxNativeNonstreamItemsBytes

def Contained (l : Loop) : List Turn → Prop
  | [] => l.scanner.held + utf8Length l.decoder.finish ≤ maxNativeNonstreamSseBytes
  | .chunk value::_ => l.scanner.retainedBytes + value.length ≤ maxNativeNonstreamSseBytes →
    utf8Length (decode .start (l.read ++ value)).2 ≤ (l.read ++ value).length
  | _ => True

theorem Point.bounded (point : Point rt d b s) (above : 0 ≤ d)
    (room : b ≤ maxNativeNonstreamSseBytes) : Bounded rt s := by
  have retained := point.counted.retained
  have drift := point.drift
  exact ⟨by omega,point.bound.trans room,point.counted.items.capped⟩

theorem Loop.Tracks.above {l next : Loop} {rest} (tracks : l.Tracks rt)
    (above : 0 ≤ l.scanner.drift) (contained : Contained l (.chunk value::rest)) (found : l.next rt value = some next) :
    0 ≤ next.scanner.drift := by
  have drift := (tracks.next found).drift
  unfold Loop.next at found
  split at found
  · cases found
    exact above
  · split at found
    · contradiction
    · rename_i taken
      have small := contained (Int.not_lt.mp taken)
      split at found
      · split at found
        · contradiction
        · cases found
          simp only at drift ⊢
          omega
      · contradiction

theorem Loop.Tracks.bounded {body : List Turn} (tracks : l.Tracks rt) (above : 0 ≤ l.scanner.drift)
    (contained : Contained l body) : ∀ s ∈ turnPoints rt l body, Bounded rt s := by
  have retained := tracks.counted.retained
  have capped := tracks.capped
  have point : Point rt l.scanner.drift l.scanner.held l.scanner := ⟨tracks.counted,rfl,le_rfl⟩
  have here : Bounded rt l.scanner := point.bounded above (by omega)
  intro s inside
  cases body with
  | nil =>
    rcases List.mem_cons.mp inside with rfl | inside
    · exact here
    · obtain ⟨d,above,flushed⟩ := point.flushed above _ s inside
      exact flushed.bounded above contained
  | cons turn rest =>
    cases turn with
    | chunk value =>
      rcases List.mem_cons.mp inside with rfl | inside
      · exact here
      · split at inside
        · simp at inside
        · rename_i taken
          have taken := Int.not_lt.mp (not_or.mp taken).2
          have small := contained taken
          have drift := tracks.drift
          rw [tracks.decoded,utf8Append,List.length_append] at small
          refine (tracks.points value s inside).bounded ?_ ?_
          · rw [tracks.decoded,utf8Append,List.length_append]
            omega
          · omega
    | aborted | failed =>
      cases List.mem_singleton.mp inside
      exact here

theorem Loop.Tracks.contained {body : List Turn} (tracks : l.Tracks rt)
    (bounded : ∀ s ∈ turnPoints rt l body, Bounded rt s) : Contained l body := by
  cases body with
  | nil =>
    have first := (bounded _ (.tail _ (.head _))).frame
    simp only [Scanner.held,utf8Append] at first
    simp only [Contained,Scanner.held]
    omega
  | cons turn rest =>
    cases turn with
    | chunk value =>
      intro taken
      by_cases empty : value = []
      · have here := (bounded _ (.head _)).reported
        have retained := tracks.counted.retained
        have drift := tracks.drift
        rw [empty,List.append_nil]
        omega
      · have point := tracks.points value _ (.head _)
        have reported := (bounded _ (takenPoints rt rest empty taken _ (.head _))).reported
        have retained := point.counted.retained
        have drift := point.drift
        omega
    | aborted | failed => exact trivial

/-- A run stays in its bounds when, and only when, each of its turns is contained. -/
theorem memoryBounded (rt : Runtime) (body : List Turn) :
    (∀ turn ∈ loops rt .start body, ∀ s ∈ turnPoints rt turn.1 turn.2, Bounded rt s) ↔
      ∀ turn ∈ loops rt .start body, Contained turn.1 turn.2 := by
  constructor
  · intro bounded turn inside
    have tracks := loopsKeep (fun _ tracks found => Loop.Tracks.next tracks found) (tracksStart rt) (List.Subset.refl _) turn inside
    exact tracks.contained (bounded turn inside)
  · intro contained turn inside
    have kept : turn.1.Tracks rt ∧ 0 ≤ turn.1.scanner.drift := by
      refine loopsKeep (P := fun l => l.Tracks rt ∧ 0 ≤ l.scanner.drift) (fun here kept found => ?_)
        ⟨tracksStart rt,Int.le_refl _⟩ (List.Subset.refl _) turn inside
      exact ⟨kept.1.next found,kept.1.above kept.2 (contained _ here) found⟩
    exact kept.1.bounded kept.2 (contained turn inside)

theorem feedBroken (b : Bool) : (Decoder.clean b).feed 0xFF = (.clean true,[replacement]) := by
  cases b <;> decide

theorem decodeBroken (n : Nat) : ∀ b, (decode (.clean b) (List.replicate n 0xFF)).2 = List.replicate n replacement := by
  induction n with
  | zero => exact fun b => rfl
  | succ n ih =>
    intro b
    rw [List.replicate_succ,decode,feedBroken]
    simp only [ih]
    rfl

theorem replacementsLength (n : Nat) : utf8Length (List.replicate n replacement) = 3 * n := by
  have size : replacement.utf8Size = 3 := by decide
  rw [utf8Length,List.map_replicate,List.sum_replicate,size]
  exact Nat.mul_comm n 3

def unparsed : Runtime := ⟨fun _ => none,fun _ => none⟩

theorem tripled (length : value.length = maxNativeNonstreamSseBytes)
    (text : (decode .start value).2 = List.replicate value.length replacement) :
    ∃ turn ∈ loops unparsed .start [.chunk value],∃ s ∈ turnPoints unparsed turn.1 turn.2,
      s.retainedBytes = maxNativeNonstreamSseBytes ∧ s.held = 3 * maxNativeNonstreamSseBytes ∧ ¬ Bounded unparsed s := by
  have cap : 0 < maxNativeNonstreamSseBytes := Nat.zero_lt_succ _
  have empty : Loop.start.scanner.retainedBytes = 0 := rfl
  have some_ : value ≠ [] := by
    rintro rfl
    exact absurd length.symm (Nat.ne_of_gt cap)
  have inside := takenPoints unparsed [] some_ (by omega : Loop.start.scanner.retainedBytes + value.length ≤ maxNativeNonstreamSseBytes)
    _ (.head _)
  have held : utf8Length (decode .start value).2 = 3 * maxNativeNonstreamSseBytes := by
    rw [text,replacementsLength,length]
  refine ⟨(.start,[.chunk value]),.head _,_,inside,?_,held,fun bounded => ?_⟩
  · rw [length]
    simp [Scanner.retainedBytes,Loop.start,Scanner.start,PendingEvent.start]
  · have frame : utf8Length (decode .start value).2 ≤ maxNativeNonstreamSseBytes := bounded.frame
    omega

/-- A chunk of the size of the cap, none of it UTF-8, is held as three times the cap. -/
theorem memoryEscapes : ∃ turn ∈ loops unparsed .start [.chunk (List.replicate maxNativeNonstreamSseBytes 0xFF)],
    ∃ s ∈ turnPoints unparsed turn.1 turn.2, s.retainedBytes = maxNativeNonstreamSseBytes ∧
      s.held = 3 * maxNativeNonstreamSseBytes ∧ ¬ Bounded unparsed s := by
  refine tripled List.length_replicate ?_
  rw [List.length_replicate]
  exact decodeBroken _ false

end Clankermux.NativeNonstream
