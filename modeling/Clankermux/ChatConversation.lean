import Clankermux.ChatRequest

/-! The conversations that the upstream takes: every exchange of calls and results is whole. -/
namespace Clankermux.ChatRequest

def Block.callId : Block → Option String
  | .toolUse id _ _ => some id
  | _ => none

def Block.resultId : Block → Option String
  | .toolResult id _ => some id
  | _ => none

namespace Message

def calls (m : Message) : List String := m.content.filterMap Block.callId
def answers (m : Message) : List String := m.content.filterMap Block.resultId
def OnlyResults (m : Message) : Prop := m.content ≠ [] ∧ ∀ b ∈ m.content, isResult b = true

end Message

structure Legal (messages : List Message) : Prop where
  unique : (messages.flatMap Message.calls).Nodup
  speakers : ∀ m ∈ messages, (m.calls ≠ [] → m.role = .assistant) ∧ (m.answers ≠ [] → m.role = .user)
  answered : ∀ before m after, messages = before ++ m::after → m.calls ≠ [] → ∃ results rest, after = results ++ rest ∧
    (∀ r ∈ results, r.role = .user ∧ r.OnlyResults) ∧ (results.flatMap Message.answers).Perm m.calls
  preceded : ∀ before m after, messages = before ++ m::after → ∀ id ∈ m.answers, id ∈ before.flatMap Message.calls
  once : (messages.flatMap Message.answers).Perm (messages.flatMap Message.calls)

inductive Exchange where
  | turn (m : Message) (noCalls : m.calls = []) (noAnswers : m.answers = [])
  | settled (asked results : Message) (asks : asked.role = .assistant) (noAnswers : asked.answers = [])
      (replies : results.role = .user) (only : results.OnlyResults) (settles : results.answers.Perm asked.calls)

namespace Exchange

def messages : Exchange → List Message
  | turn m _ _ => [m]
  | settled asked results _ _ _ _ _ => [asked,results]

end Exchange

theorem onlyNoCalls {m : Message} (only : m.OnlyResults) : m.calls = [] := by
  refine List.filterMap_eq_nil_iff.mpr (fun b inside => ?_)
  have result := only.2 b inside
  cases b with
  | toolUse _ _ _ => cases result
  | _ => rfl

variable {exchanges : List Exchange}

theorem exchangesSpeak : ∀ m ∈ exchanges.flatMap Exchange.messages, (m.calls ≠ [] → m.role = .assistant) ∧ (m.answers ≠ [] → m.role = .user) := by
  intro m inside
  obtain ⟨exchange,-,there⟩ := List.mem_flatMap.mp inside
  cases exchange with
  | turn only noCalls noAnswers =>
    cases List.mem_singleton.mp there
    exact ⟨fun some_ => absurd noCalls some_,fun some_ => absurd noAnswers some_⟩
  | settled asked results asks noAnswers replies only settles =>
    rcases List.mem_cons.mp there with rfl | last
    · exact ⟨fun _ => asks,fun some_ => absurd noAnswers some_⟩
    · cases List.mem_singleton.mp last
      exact ⟨fun some_ => absurd (onlyNoCalls only) some_,fun _ => replies⟩

theorem exchangesAnswer : ∀ before m after, exchanges.flatMap Exchange.messages = before ++ m::after → m.calls ≠ [] →
    ∃ results rest, after = results ++ rest ∧ (∀ r ∈ results, r.role = .user ∧ r.OnlyResults) ∧
      (results.flatMap Message.answers).Perm m.calls := by
  induction exchanges with
  | nil => exact fun before m after split => absurd split (by simp)
  | cons exchange rest ih =>
    intro before m after split some_
    cases exchange with
    | turn only noCalls noAnswers =>
      cases before with
      | nil => exact absurd ((List.cons.inj split).1 ▸ noCalls) some_
      | cons first before => exact ih before m after (List.cons.inj split).2 some_
    | settled asked results asks noAnswers replies only settles =>
      match before,split with
      | [],split =>
        obtain ⟨rfl,behind⟩ := List.cons.inj split
        refine ⟨[results],rest.flatMap Exchange.messages,behind.symm,?_,by simpa using settles⟩
        rintro r inside
        cases List.mem_singleton.mp inside
        exact ⟨replies,only⟩
      | [first],split => exact absurd ((List.cons.inj (List.cons.inj split).2).1 ▸ onlyNoCalls only) some_
      | first::second::before,split => exact ih before m after (List.cons.inj (List.cons.inj split).2).2 some_

theorem exchangesPrecede : ∀ before m after, exchanges.flatMap Exchange.messages = before ++ m::after →
    ∀ id ∈ m.answers, id ∈ before.flatMap Message.calls := by
  induction exchanges with
  | nil => exact fun before m after split => absurd split (by simp)
  | cons exchange rest ih =>
    intro before m after split id inside
    cases exchange with
    | turn only noCalls noAnswers =>
      cases before with
      | nil =>
        rw [← (List.cons.inj split).1,noAnswers] at inside
        cases inside
      | cons first before => exact List.mem_append_right _ (ih before m after (List.cons.inj split).2 id inside)
    | settled asked results asks noAnswers replies only settles =>
      match before,split with
      | [],split =>
        rw [← (List.cons.inj split).1,noAnswers] at inside
        cases inside
      | [first],split =>
        obtain ⟨rfl,behind⟩ := List.cons.inj split
        rw [← (List.cons.inj behind).1] at inside
        simpa using settles.mem_iff.mp inside
      | first::second::before,split =>
        have later := ih before m after (List.cons.inj (List.cons.inj split).2).2 id inside
        exact List.mem_append_right _ (List.mem_append_right _ later)

theorem exchangesOnce : ((exchanges.flatMap Exchange.messages).flatMap Message.answers).Perm
    ((exchanges.flatMap Exchange.messages).flatMap Message.calls) := by
  induction exchanges with
  | nil => exact List.Perm.refl _
  | cons exchange rest ih =>
    rw [List.flatMap_cons,List.flatMap_append,List.flatMap_append]
    refine List.Perm.append ?_ ih
    cases exchange with
    | turn only noCalls noAnswers => simp [Exchange.messages,noCalls,noAnswers]
    | settled asked results asks noAnswers replies only settles => simpa [Exchange.messages,noAnswers,onlyNoCalls only] using settles

theorem exchangesLegal (unique : ((exchanges.flatMap Exchange.messages).flatMap Message.calls).Nodup) :
    Legal (exchanges.flatMap Exchange.messages) := ⟨unique,exchangesSpeak,exchangesAnswer,exchangesPrecede,exchangesOnce⟩

/-! A chat request that is accepted is a legal conversation, and says what the client said. -/
open Json Checked InsertionMap

inductive Item where
  | text (text : String)
  | call (id : String) (name : Option String) (input : Json)
  | result (id content : String)

namespace Item

def rename (f : String → Option String) : Item → Item
  | call id (some name) input => call id (f name) input
  | item => item

def name : Item → Option String
  | call _ name _ => name
  | _ => none

end Item

def textAt (value : Option Json) (name : String) : String :=
  match value.bind (Json.field name) with
  | some (.str text) => text
  | _ => ""

def nonempty (text : String) : List Item := if text = "" then [] else [.text text]

def partItems (part : Json) : List Item := if isStr (part.field "type") "text" then nonempty (textAt (some part) "text") else []

def contentItems : Option Json → List Item
  | some (.str text) => nonempty text
  | some (.arr parts) => parts.flatMap partItems
  | _ => []

variable (host : Host)

def callItem (call : Json) : Item :=
  let f := call.field "function"
  .call (textAt (some call) "id") (some (textAt f "name")) ((host.parseJson (textAt f "arguments")).getD .null)

def callItems (m : Json) : List Item :=
  match m.field "tool_calls" with
  | some (.arr calls) => calls.map (callItem host)
  | _ => []

def clientItems (m : Json) : List Item :=
  if isStr (m.field "role") "tool" then [.result (textAt (some m) "tool_call_id") (textAt (some m) "content")]
  else contentItems (m.field "content") ++ callItems host m

def entriesAt (value : Json) (name : String) : List Json :=
  match value.field name with
  | some (.arr entries) => entries
  | _ => []

def toolNames (value : Json) : List String := (entriesAt value "tools").map (fun tool => textAt (tool.field "function") "name")

def chosenName (value : Json) : Option String :=
  match ((value.field "tool_choice").bind (Json.field "function")).bind (Json.field "name") with
  | some (.str name) => some name
  | _ => none

def spoken (value : Json) : List Item := (entriesAt value "messages").flatMap (clientItems host)

def clientNames (value : Json) : List String := toolNames value ++ (chosenName value).toList ++ (spoken host value).filterMap Item.name

def Block.items (lookup : String → Option String) : Block → List Item
  | .text words => [.text words]
  | .toolUse id name input => [.call id (lookup name) input]
  | .toolResult id content => [.result id content]
  | .image _ => []
  | .thinking _ _ => []

def Message.items (lookup : String → Option String) (m : Message) : List Item := m.content.flatMap (Block.items lookup)

def MessagesBody.items (lookup : String → Option String) (body : MessagesBody) : List Item :=
  (body.system.getD []).map Item.text ++ body.messages.flatMap (Message.items lookup)

theorem renameTwice (f g : String → Option String) (item : Item) : (item.rename f).rename g = item.rename (fun name => (f name).bind g) := by
  cases item with
  | call id name input =>
    cases name with
    | none => rfl
    | some name => cases found : f name <;> simp [Item.rename,found]
  | _ => rfl

theorem renameSame {f : String → Option String} {item : Item} (same : ∀ name, item.name = some name → f name = some name) :
    item.rename f = item := by
  cases item with
  | call id name input =>
    cases name with
    | none => rfl
    | some name => simp [Item.rename,same name rfl]
  | _ => rfl

theorem blockItems (lookup : String → Option String) (b : Block) : b.items lookup = (b.items some).map (Item.rename lookup) := by
  cases b <;> rfl

theorem messageItems (lookup : String → Option String) (m : Message) : m.items lookup = (m.items some).map (Item.rename lookup) := by
  rw [Message.items,Message.items,List.map_flatMap]
  exact congrArg (fun f => List.flatMap f m.content) (funext (blockItems lookup))

theorem bodyItems (lookup : String → Option String) (body : MessagesBody) :
    body.items lookup = (body.items some).map (Item.rename lookup) := by
  rw [MessagesBody.items,MessagesBody.items,List.map_append,List.map_flatMap,List.map_map]
  exact congrArg _ (congrArg (fun f => List.flatMap f body.messages) (funext (messageItems lookup)))
variable {path : String} {blocks : List Block} {role : String} {i : Nat}

theorem objectOk {value : Option Json} {read : Json} (ok : object value path = .ok read) : value = some read := by
  unfold object at ok
  split at ok
  · cases ok
    rfl
  · cases ok

theorem stringOk {value} {empty : Bool} {text : String} (ok : string value path empty = .ok text) :
    value = some (.str text) := by
  unfold string at ok
  split at ok
  · split at ok
    · cases ok
    · cases ok
      rfl
  · cases ok

theorem encodeOk {host} {names read : InsertionMap String String} {name : String} (ok : encode host names name = .ok read) :
    read = InsertionMap.set names (encoded host name) name := by
  obtain ⟨-,-,ok⟩ := bindOk.mp ok
  exact (pureOk.mp ok).symm

theorem textAtField {json : Json} {name text : String} (field : json.field name = some (.str text)) : textAt (some json) name = text := by
  simp [textAt,field]

theorem nonemptyText (text : String) : (if text = "" then [] else [text]).flatMap (fun text => [Item.text text]) = nonempty text := by
  unfold nonempty
  split <;> rfl

theorem textPartOk {part : Json} {texts : List String} (ok : textPart path (part,i) = .ok texts) :
    texts.flatMap (fun text => [Item.text text]) = partItems part := by
  obtain ⟨_,read,ok⟩ := bindOk.mp ok
  cases objectOk read
  obtain ⟨-,-,ok⟩ := bindOk.mp ok
  obtain ⟨_,isText,ok⟩ := bindOk.mp ok
  obtain ⟨text,written,ok⟩ := bindOk.mp ok
  cases pureOk.mp ok
  rw [partItems,if_pos (checkOk.mp isText),textAtField (stringOk written),nonemptyText]

theorem textPartsOk {content : Option Json} {texts : List String} (ok : textParts content path = .ok texts) :
    texts.flatMap (fun text => [Item.text text]) = contentItems content := by
  unfold textParts at ok
  split at ok
  · cases ok
    exact nonemptyText _
  · exact indexedFlatMap _ partItems (fun _ _ _ => textPartOk) ok
  · cases ok

def Block.Plain (b : Block) : Prop := b.callId = none ∧ b.resultId = none

theorem contentPartOk {role : Role} {part : Json}
    (ok : contentPart path role (part,i) = .ok blocks) :
    blocks.flatMap (Block.items some) = partItems part ∧ ∀ b ∈ blocks, b.Plain := by
  obtain ⟨_,read,ok⟩ := bindOk.mp ok
  cases objectOk read
  split at ok
  · rename_i isText
    obtain ⟨-,-,ok⟩ := bindOk.mp ok
    obtain ⟨text,written,ok⟩ := bindOk.mp ok
    cases pureOk.mp ok
    rw [partItems,if_pos isText,textAtField (stringOk written),nonempty]
    split
    · exact ⟨rfl,by simp⟩
    · exact ⟨rfl,by simp [Block.Plain,Block.callId,Block.resultId]⟩
  · rename_i noText
    obtain ⟨-,-,ok⟩ := bindOk.mp ok
    obtain ⟨-,-,ok⟩ := bindOk.mp ok
    obtain ⟨-,-,ok⟩ := bindOk.mp ok
    obtain ⟨_,-,ok⟩ := bindOk.mp ok
    obtain ⟨-,-,ok⟩ := bindOk.mp ok
    obtain ⟨_,-,ok⟩ := bindOk.mp ok
    obtain ⟨source,-,ok⟩ := bindOk.mp ok
    cases pureOk.mp ok
    rw [partItems,if_neg noText]
    exact ⟨rfl,by simp [Block.Plain,Block.callId,Block.resultId]⟩

theorem contentPartsOk {content : Json} {role : Role} (ok : contentParts content path role = .ok blocks) :
    blocks.flatMap (Block.items some) = contentItems (some content) ∧ ∀ b ∈ blocks, b.Plain := by
  unfold contentParts at ok
  split at ok
  · exact ⟨indexedFlatMap _ partItems (fun _ _ _ read => (contentPartOk read).1) ok,
      indexedAll Block.Plain (fun _ _ _ read => (contentPartOk read).2) ok⟩
  · obtain ⟨texts,read,rfl⟩ := mapOk.mp ok
    refine ⟨?_,by simp [Block.Plain,Block.callId,Block.resultId]⟩
    rw [← textPartsOk read,List.flatMap_map]
    rfl

theorem spokenContentOk {m} {role : Role} {p : String} (ok : spokenContent m role p = .ok blocks) :
    blocks.flatMap (Block.items some) = contentItems (m.field "content") ∧ ∀ b ∈ blocks, b.Plain := by
  unfold spokenContent at ok
  split at ok
  · rename_i missing
    cases ok
    exact ⟨by simp [missing,contentItems],by simp⟩
  · rename_i null
    cases ok
    exact ⟨by simp [null,contentItems],by simp⟩
  · rename_i content _ found
    rw [found]
    exact contentPartsOk ok

theorem turnContentOk {m} {role : Role} {p : String} (ok : turnContent m role p = .ok blocks) :
    blocks.flatMap (Block.items some) = contentItems (m.field "content") ∧ ∀ b ∈ blocks, b.Plain := by
  obtain ⟨content,read,ok⟩ := bindOk.mp ok
  obtain ⟨said,plain⟩ := spokenContentOk read
  split at ok
  · cases pureOk.mp ok
    exact ⟨said,plain⟩
  · obtain ⟨thinking,-,ok⟩ := bindOk.mp ok
    cases pureOk.mp ok
    refine ⟨said,?_⟩
    intro b inside
    rcases List.mem_cons.mp inside with rfl | later
    · exact ⟨rfl,rfl⟩
    · exact plain b later

theorem addToSetNew {set : List String} {item : String} (fresh : item ∉ set) : addToSet set item = set ++ [item] := if_neg fresh

def upstream (host : Host) (name : String) : Option String := some (encoded host name)

def pair (host : Host) (name : String) : String × String := (encoded host name,name)

structure Called (host : Host) (first : Calls) (prior : List String) (done : List Json) (added : List Block) (st : Calls) : Prop where
  content : st.content = first.content ++ added
  length : added.length = done.length
  noResults : ∀ b ∈ added, b.resultId = none
  pending : st.pending = added.filterMap Block.callId
  used : st.used = first.used ++ added.filterMap Block.callId
  nodup : st.used.Nodup
  items : added.flatMap (Block.items some) = (done.map (callItem host)).map (Item.rename (upstream host))
  names : st.names = written ((prior ++ (done.map (callItem host)).filterMap Item.name).map (pair host))

variable {host} {first : Calls} {prior : List String} {done : List Json} {added : List Block} {st next : Calls}

theorem takeCallOk {call : Json} (ok : takeCall host path st (call,i) = .ok next) :
    ∃ id name input, callItem host call = .call id (some name) input ∧ id ∉ st.used ∧
      next = ⟨st.content ++ [.toolUse id (encoded host name) input],addToSet st.pending id,addToSet st.used id,
        InsertionMap.set st.names (encoded host name) name⟩ := by
  obtain ⟨_,read,ok⟩ := bindOk.mp ok
  cases objectOk read
  obtain ⟨-,-,ok⟩ := bindOk.mp ok
  obtain ⟨id,itsId,ok⟩ := bindOk.mp ok
  obtain ⟨_,unused,ok⟩ := bindOk.mp ok
  obtain ⟨f,itsFunction,ok⟩ := bindOk.mp ok
  obtain ⟨-,-,ok⟩ := bindOk.mp ok
  obtain ⟨args,itsArguments,ok⟩ := bindOk.mp ok
  obtain ⟨parsed,itsValue,ok⟩ := bindOk.mp ok
  obtain ⟨name,itsName,ok⟩ := bindOk.mp ok
  obtain ⟨names,itsNames,ok⟩ := bindOk.mp ok
  obtain ⟨input,itsInput,ok⟩ := bindOk.mp ok
  cases objectOk itsInput
  have value : host.parseJson args = some parsed := by
    unfold parseArguments at itsValue
    split at itsValue
    · rename_i found
      cases itsValue
      exact found
    · cases itsValue
  have conditions := checkOk.mp unused
  simp only [Bool.and_eq_true,Bool.not_eq_true',List.contains_eq_mem,decide_eq_false_iff_not] at conditions
  refine ⟨id,name,parsed,?_,conditions.2,?_⟩
  · simp only [callItem,objectOk itsFunction,textAtField (stringOk itsId),textAtField (stringOk itsName),textAtField (stringOk itsArguments),value,
      Option.getD_some]
  · rw [← encodeOk itsNames]
    exact (pureOk.mp ok).symm

theorem Called.step (called : Called host first prior done added st) {call : Json}
    (ok : takeCall host path st (call,i) = .ok next) : ∃ block, Called host first prior (done ++ [call]) (added ++ [block]) next := by
  obtain ⟨id,name,input,item,fresh,rfl⟩ := takeCallOk ok
  have idle : id ∉ st.pending := fun waiting => fresh (by rw [called.used,← called.pending]; exact List.mem_append_right _ waiting)
  refine ⟨.toolUse id (encoded host name) input,?_⟩
  constructor
  · simp [called.content]
  · simp [called.length]
  · intro b inside
    rcases List.mem_append.mp inside with before | last
    · exact called.noResults b before
    · cases List.mem_singleton.mp last
      rfl
  · rw [addToSetNew idle,called.pending,List.filterMap_append]
    rfl
  · rw [addToSetNew fresh,called.used,List.filterMap_append,← List.append_assoc]
    rfl
  · rw [addToSetNew fresh]
    exact List.nodup_append.mpr ⟨called.nodup,List.nodup_singleton id,fun a inside b last => by
      cases List.mem_singleton.mp last
      exact fun same => fresh (same ▸ inside)⟩
  · rw [List.flatMap_append,called.items,List.map_append,List.map_append]
    simp [item,Block.items,Item.rename,upstream]
  · have last : (prior ++ ((done ++ [call]).map (callItem host)).filterMap Item.name).map (pair host) =
        (prior ++ (done.map (callItem host)).filterMap Item.name).map (pair host) ++ [pair host name] := by simp [item,Item.name]
    rw [last,writtenAdded,← called.names]
    rfl

theorem callsTaken {m : Json} {p : String} (idle : first.pending = []) (nodup : first.used.Nodup)
    (names : first.names = written (prior.map (pair host))) (ok : takeCalls host m p first = .ok next) :
    ∃ done added, callItems host m = done.map (callItem host) ∧ Called host first prior done added next := by
  have start : Called host first prior [] [] first := ⟨by simp,rfl,by simp,idle,by simp,nodup,rfl,by simpa using names⟩
  unfold takeCalls at ok
  split at ok
  · rename_i absent
    cases ok
    exact ⟨[],[],by simp [callItems,absent],start⟩
  · rename_i call calls found
    obtain ⟨added,called⟩ := indexedFold (fun done st => ∃ added, Called host first prior done added st) (call::calls) ⟨[],start⟩
      (fun done call i st next here taken => by
        obtain ⟨added,called⟩ := here
        obtain ⟨block,more⟩ := called.step taken
        exact ⟨_,more⟩) ok
    exact ⟨call::calls,added,by simp [callItems,found],called⟩
  · cases ok

theorem contentTexts {content : Option Json} {item : Item} (inside : item ∈ contentItems content) : ∃ text, item = .text text := by
  have single : ∀ {text}, item ∈ nonempty text → ∃ text, item = .text text := by
    intro text there
    unfold nonempty at there
    split at there
    · cases there
    · exact ⟨text,List.mem_singleton.mp there⟩
  unfold contentItems at inside
  split at inside
  · exact single inside
  · obtain ⟨part,-,there⟩ := List.mem_flatMap.mp inside
    unfold partItems at there
    split at there
    · exact single there
    · cases there
  · cases inside

theorem contentRenamed (f : String → Option String) (content : Option Json) : (contentItems content).map (Item.rename f) = contentItems content := by
  have same : ∀ item ∈ contentItems content, item.rename f = id item := by
    intro item inside
    obtain ⟨text,rfl⟩ := contentTexts inside
    rfl
  exact (List.map_congr_left same).trans (List.map_id _)

theorem contentNames (content : Option Json) : (contentItems content).filterMap Item.name = [] := by
  refine List.filterMap_eq_nil_iff.mpr (fun item inside => ?_)
  obtain ⟨text,rfl⟩ := contentTexts inside
  rfl

inductive Ends : List Message → List String → Prop where
  | settled : Ends [] []
  | asked (m : Message) (asks : m.role = .assistant) (noAnswers : m.answers = []) (waits : m.calls ≠ []) : Ends [m] m.calls
  | partly (m results : Message) {pending : List String} (asks : m.role = .assistant) (noAnswers : m.answers = [])
      (replies : results.role = .user) (only : results.OnlyResults) (splits : (results.answers ++ pending).Perm m.calls)
      (waits : pending ≠ []) : Ends [m,results] pending

theorem Ends.idle {tail : List Message} {pending : List String} (ends : Ends tail pending) (idle : pending = []) : tail = [] := by
  cases ends with
  | settled => rfl
  | asked m _ _ waits => exact absurd idle waits
  | partly _ _ _ _ _ _ _ waits => exact absurd idle waits

theorem resultAdded {before tail} {pending : List String} {id content : String} (ends : Ends tail pending) (waits : id ∈ pending) :
    ∃ asked results, addResult (before ++ tail) (.toolResult id content) = before ++ [asked,results] ∧ asked.role = .assistant ∧
      asked.answers = [] ∧ results.role = .user ∧ results.OnlyResults ∧ (results.answers ++ pending.erase id).Perm asked.calls := by
  cases ends with
  | settled => cases waits
  | asked m asks noAnswers some_ =>
    refine ⟨m,⟨.user,[.toolResult id content]⟩,?_,asks,noAnswers,rfl,⟨by simp,by simp [isResult]⟩,(List.perm_cons_erase waits).symm⟩
    simp [addResult,asks]
  | partly m results asks noAnswers replies only splits some_ =>
    refine ⟨m,⟨.user,results.content ++ [.toolResult id content]⟩,?_,asks,noAnswers,rfl,⟨by simp,?_⟩,?_⟩
    · have full : results.content.all isResult = true := List.all_eq_true.mpr only.2
      have last : (before ++ [m,results]).getLast? = some results := by simp
      have front : (before ++ [m,results]).dropLast = before ++ [m] := by
        rw [show before ++ [m,results] = (before ++ [m]) ++ [results] by simp,List.dropLast_concat]
      simp [addResult,full,replies]
    · intro b inside
      rcases List.mem_append.mp inside with before | last
      · exact only.2 b before
      · cases List.mem_singleton.mp last
        rfl
    · have more : (⟨.user,results.content ++ [.toolResult id content]⟩ : Message).answers = results.answers ++ [id] := by
        simp [Message.answers,Block.resultId]
      rw [more,List.append_assoc]
      exact ((List.perm_cons_erase waits).symm.append_left _).trans splits

theorem addResultReads {γ : Type} (g : Block → List γ) (messages : List Message) (result : Block) :
    (addResult messages result).flatMap (fun m => m.content.flatMap g) = messages.flatMap (fun m => m.content.flatMap g) ++ g result := by
  have pushed : (messages ++ [Message.mk .user [result]]).flatMap (fun m => m.content.flatMap g) =
      messages.flatMap (fun m => m.content.flatMap g) ++ g result := by simp
  unfold addResult
  split
  · rename_i last found
    split
    · have whole := List.dropLast_append_getLast? last found
      nth_rewrite 2 [← whole]
      simp
    · exact pushed
  · exact pushed

theorem callsRead (m : Message) : m.calls = m.content.flatMap (fun b => b.callId.toList) := by
  rw [Message.calls,List.filterMap_eq_flatMap_toList]

theorem addResultCalls (messages : List Message) (id content : String) :
    (addResult messages (.toolResult id content)).flatMap Message.calls = messages.flatMap Message.calls := by
  have reads := addResultReads (fun b => b.callId.toList) messages (.toolResult id content)
  simp only [← callsRead] at reads
  simpa [Block.callId] using reads

structure Held (host : Host) (prior : List String) (done : List Json) (st : Conversation) : Prop where
  shape : ∃ exchanges tail, st.messages = List.flatMap Exchange.messages exchanges ++ tail ∧ Ends tail st.pending
  used : st.used = st.messages.flatMap Message.calls
  nodup : st.used.Nodup
  items : (st.system.getD []).map Item.text ++ st.messages.flatMap (Message.items some) =
    (done.flatMap (clientItems host)).map (Item.rename (upstream host))
  names : st.names = written ((prior ++ (done.flatMap (clientItems host)).filterMap Item.name).map (pair host))

variable {m : Json} {st next : Conversation} {p : String}

theorem takeInstructionOk (ok : takeInstruction st m role p = .ok next) : st.messages = [] ∧ m.field "tool_calls" = none ∧
    ∃ texts, texts.map Item.text = contentItems (m.field "content") ∧
      next = { st with instructionRole := some role,system := some (st.system.getD [] ++ texts) } := by
  obtain ⟨_,leading,ok⟩ := bindOk.mp ok
  obtain ⟨_,absent,ok⟩ := bindOk.mp ok
  obtain ⟨texts,read,ok⟩ := bindOk.mp ok
  have first := checkOk.mp leading
  have none_ := checkOk.mp absent
  simp only [Bool.and_eq_true,List.isEmpty_iff] at first
  simp only [Bool.and_eq_true,Option.isNone_iff_eq_none] at none_
  refine ⟨first.1,none_.1,texts,?_,(pureOk.mp ok).symm⟩
  rw [← textPartsOk read]
  exact List.map_eq_flatMap

theorem takeResultOk (ok : takeResult st m p = .ok next) : ∃ id content, m.field "tool_call_id" = some (.str id) ∧
    m.field "content" = some (.str content) ∧ id ∈ st.pending ∧
      next = { st with messages := addResult st.messages (.toolResult id content),pending := st.pending.erase id } := by
  obtain ⟨-,-,ok⟩ := bindOk.mp ok
  obtain ⟨id,itsId,ok⟩ := bindOk.mp ok
  obtain ⟨_,waits,ok⟩ := bindOk.mp ok
  obtain ⟨content,itsContent,ok⟩ := bindOk.mp ok
  exact ⟨id,content,stringOk itsId,stringOk itsContent,by simpa using checkOk.mp waits,(pureOk.mp ok).symm⟩

theorem takeTurnOk {role : Role} (ok : takeTurn host st m role p = .ok next) : st.pending = [] ∧ (role = .assistant ∨ m.field "tool_calls" = none) ∧
    ∃ content calls fields, content.flatMap (Block.items some) = contentItems (m.field "content") ∧ (∀ b ∈ content, b.Plain) ∧
      takeCalls host m p ⟨content,st.pending,st.used,st.names⟩ = .ok calls ∧
      next = { st with messages := st.messages ++ [⟨role,calls.content⟩],pending := calls.pending,used := calls.used,names := calls.names,
                       fields := fields } := by
  obtain ⟨_,idle,ok⟩ := bindOk.mp ok
  obtain ⟨_,absent,ok⟩ := bindOk.mp ok
  obtain ⟨content,read,ok⟩ := bindOk.mp ok
  obtain ⟨calls,taken,ok⟩ := bindOk.mp ok
  obtain ⟨-,-,ok⟩ := bindOk.mp ok
  have none_ := checkOk.mp absent
  simp only [Bool.and_eq_true,Bool.or_eq_true,decide_eq_true_eq,Option.isNone_iff_eq_none] at none_
  exact ⟨List.isEmpty_iff.mp (checkOk.mp idle),none_.2,content,calls,_,(turnContentOk read).1,(turnContentOk read).2,taken,(pureOk.mp ok).symm⟩

theorem takeMessageOk (ok : takeMessage host st (m,i) = .ok next) : ∃ role p, m.field "role" = some (.str role) ∧
    (role ≠ "tool" ∧ takeInstruction st m role p = .ok next ∨ role = "tool" ∧ takeResult st m p = .ok next ∨
      role ≠ "tool" ∧ ∃ speaker, takeTurn host st m speaker p = .ok next) := by
  obtain ⟨_,read,ok⟩ := bindOk.mp ok
  cases objectOk read
  obtain ⟨-,-,ok⟩ := bindOk.mp ok
  obtain ⟨role,itsRole,ok⟩ := bindOk.mp ok
  obtain ⟨-,-,ok⟩ := bindOk.mp ok
  refine ⟨role,at_ "messages" i,stringOk itsRole,?_⟩
  split at ok
  · rename_i instructs
    refine .inl ⟨?_,ok⟩
    rintro rfl
    exact absurd instructs (by decide)
  split at ok
  · rename_i isTool
    exact .inr (.inl ⟨isTool,ok⟩)
  split at ok
  · rename_i noTool _
    exact .inr (.inr ⟨noTool,_,ok⟩)
  split at ok
  · rename_i noTool _ _
    exact .inr (.inr ⟨noTool,_,ok⟩)
  · cases ok

theorem itemsOfTool (field : m.field "role" = some (.str role)) (tool : role = "tool") :
    clientItems host m = [.result (textAt (some m) "tool_call_id") (textAt (some m) "content")] := by
  rw [clientItems,if_pos (by simp [field,isStr,tool])]

theorem itemsOfOther (field : m.field "role" = some (.str role)) (other : role ≠ "tool") :
    clientItems host m = contentItems (m.field "content") ++ callItems host m := by
  rw [clientItems,if_neg (by simp [field,isStr,other])]

theorem noCallItems (absent : m.field "tool_calls" = none) : callItems host m = [] := by simp [callItems,absent]

section
variable (held : Held host prior done st)
include held

theorem Held.instruction (field : m.field "role" = some (.str role)) (other : role ≠ "tool")
    (ok : takeInstruction st m role p = .ok next) : Held host prior (done ++ [m]) next := by
  obtain ⟨empty,absent,texts,said,rfl⟩ := takeInstructionOk ok
  have items : clientItems host m = contentItems (m.field "content") := by rw [itemsOfOther field other,noCallItems absent,List.append_nil]
  refine ⟨held.shape,held.used,held.nodup,?_,?_⟩
  · have before := held.items
    rw [empty] at before
    simp only [List.flatMap_nil,List.append_nil] at before
    simp only [Option.getD_some,empty,List.flatMap_nil,List.append_nil,List.map_append,List.flatMap_append,List.flatMap_cons]
    rw [before,said,items,contentRenamed]
  · rw [List.flatMap_append,List.flatMap_cons,List.flatMap_nil,List.append_nil,items,List.filterMap_append,contentNames,List.append_nil]
    exact held.names

theorem Held.result (field : m.field "role" = some (.str "tool")) (ok : takeResult st m p = .ok next) :
    Held host prior (done ++ [m]) next := by
  obtain ⟨id,content,itsId,itsContent,waits,rfl⟩ := takeResultOk ok
  have items : clientItems host m = [.result id content] := by
    rw [itemsOfTool field rfl,textAtField itsId,textAtField itsContent]
  have reads := addResultReads (Block.items some) st.messages (.toolResult id content)
  refine ⟨?_,?_,held.nodup,?_,?_⟩
  · obtain ⟨exchanges,tail,same,ends⟩ := held.shape
    obtain ⟨asked,results,added,asks,noAnswers,replies,only,splits⟩ := @resultAdded (exchanges.flatMap Exchange.messages) _ _ _ content ends waits
    simp only [same,added]
    by_cases last : st.pending.erase id = []
    · rw [last,List.append_nil] at splits
      refine ⟨exchanges ++ [.settled asked results asks noAnswers replies only splits],[],?_,?_⟩
      · simp [Exchange.messages]
      · rw [last]
        exact .settled
    · exact ⟨exchanges,[asked,results],rfl,.partly asked results asks noAnswers replies only splits last⟩
  · rw [addResultCalls]
    exact held.used
  · have before := held.items
    simp only [List.flatMap_append,List.flatMap_cons,List.map_append,items]
    rw [← before,List.append_assoc]
    exact congrArg _ reads
  · rw [List.flatMap_append,List.flatMap_cons,List.flatMap_nil,List.append_nil,items,List.filterMap_append]
    have silent : [Item.result id content].filterMap Item.name = [] := rfl
    rw [silent,List.append_nil]
    exact held.names

theorem Held.turn {speaker : Role} (field : m.field "role" = some (.str role)) (other : role ≠ "tool")
    (ok : takeTurn host st m speaker p = .ok next) : Held host prior (done ++ [m]) next := by
  obtain ⟨idle,may,content,calls,fields,said,plain,taken,rfl⟩ := takeTurnOk ok
  obtain ⟨asked,added,its,called⟩ := callsTaken idle held.nodup held.names taken
  have items : clientItems host m = contentItems (m.field "content") ++ asked.map (callItem host) := by rw [itemsOfOther field other,its]
  have callIds : (Message.mk speaker calls.content).calls = calls.pending := by
    rw [Message.calls,called.content,List.filterMap_append,List.filterMap_eq_nil_iff.mpr (fun b inside => (plain b inside).1),called.pending]
    rfl
  have noAnswers : (Message.mk speaker calls.content).answers = [] := by
    rw [Message.answers,called.content,List.filterMap_append,List.filterMap_eq_nil_iff.mpr (fun b inside => (plain b inside).2),
      List.filterMap_eq_nil_iff.mpr called.noResults]
    rfl
  refine ⟨?_,?_,called.nodup,?_,?_⟩
  · obtain ⟨exchanges,tail,same,ends⟩ := held.shape
    rw [ends.idle idle,List.append_nil] at same
    simp only [same]
    by_cases quiet : calls.pending = []
    · refine ⟨exchanges ++ [.turn ⟨speaker,calls.content⟩ (callIds.trans quiet) noAnswers],[],?_,?_⟩
      · simp [Exchange.messages]
      · rw [quiet]
        exact .settled
    · refine ⟨exchanges,[⟨speaker,calls.content⟩],rfl,?_⟩
      have assistant : speaker = .assistant := by
        refine may.resolve_right (fun absent => quiet ?_)
        have none_ := its
        rw [noCallItems absent] at none_
        have empty : asked = [] := List.map_eq_nil_iff.mp none_.symm
        rw [called.pending,List.length_eq_zero_iff.mp (called.length.trans (by rw [empty]; rfl))]
        rfl
      rw [← callIds]
      exact .asked _ assistant noAnswers (by rwa [callIds])
  · rw [List.flatMap_append,List.flatMap_cons,List.flatMap_nil,List.append_nil,callIds,called.used,called.pending,← held.used]
  · have before := held.items
    simp only [List.flatMap_append,List.flatMap_cons,List.map_append,items]
    rw [← before,List.append_assoc,contentRenamed,← said,← called.items,← List.flatMap_append,← called.content]
    rfl
  · rw [List.flatMap_append,List.flatMap_cons,List.flatMap_nil,List.append_nil,items,List.filterMap_append,List.filterMap_append,contentNames,
      List.nil_append,← List.append_assoc]
    exact called.names

theorem Held.step (ok : takeMessage host st (m,i) = .ok next) : Held host prior (done ++ [m]) next := by
  obtain ⟨role,p,field,kinds⟩ := takeMessageOk ok
  rcases kinds with ⟨other,instructs⟩ | ⟨rfl,replies⟩ | ⟨other,speaker,speaks⟩
  · exact held.instruction field other instructs
  · exact held.result field replies
  · exact held.turn field other speaks

end

structure Declared (host : Host) (done : List Json) (st : Tools) : Prop where
  declared : st.declared = done.map (fun tool => textAt (tool.field "function") "name")
  tools : st.tools.map Tool.name = st.declared.map (encoded host)
  names : st.names = written (st.declared.map (pair host))

theorem Declared.step {st next : Tools} (before : Declared host done st) {tool : Json} (ok : addTool host st (tool,i) = .ok next) :
    Declared host (done ++ [tool]) next := by
  obtain ⟨_,read,ok⟩ := bindOk.mp ok
  cases objectOk read
  obtain ⟨-,-,ok⟩ := bindOk.mp ok
  obtain ⟨-,-,ok⟩ := bindOk.mp ok
  obtain ⟨f,itsFunction,ok⟩ := bindOk.mp ok
  obtain ⟨-,-,ok⟩ := bindOk.mp ok
  obtain ⟨-,-,ok⟩ := bindOk.mp ok
  obtain ⟨name,itsName,ok⟩ := bindOk.mp ok
  obtain ⟨-,-,ok⟩ := bindOk.mp ok
  obtain ⟨names,itsNames,ok⟩ := bindOk.mp ok
  obtain ⟨description,-,ok⟩ := bindOk.mp ok
  obtain ⟨schema,-,ok⟩ := bindOk.mp ok
  cases pureOk.mp ok
  refine ⟨?_,?_,?_⟩
  · simp [before.declared,objectOk itsFunction,textAtField (stringOk itsName)]
  · simp [before.tools]
  · have last : (st.declared ++ [name]).map (pair host) = st.declared.map (pair host) ++ [pair host name] := by simp
    refine (encodeOk itsNames).trans ?_
    rw [last,writtenAdded,← before.names]
    rfl

theorem toolsDeclared {req : Json} {st : Tools} (ok : readTools host req = .ok st) :
    Declared host (entriesAt req "tools") st := by
  have start : Declared host [] ⟨[],[],[]⟩ := ⟨rfl,rfl,rfl⟩
  unfold readTools at ok
  split at ok
  · rename_i absent
    cases ok
    simpa [entriesAt,absent] using start
  · rename_i entries found
    have read := indexedFold (Declared host) entries start (fun done tool i st next before => before.step) ok
    simpa [entriesAt,found] using read
  · cases ok

inductive Chosen (host : Host) (req : Json) (st : Tools) : Option ToolChoice × InsertionMap String String → Prop where
  | unnamed (choice : Option ToolChoice) (none_ : chosenName req = none) (free : ∀ name, choice ≠ some (.tool name)) : Chosen host req st (choice,st.names)
  | named (name : String) (chosen : chosenName req = some name) (declared : name ∈ st.declared) :
      Chosen host req st (some (.tool (encoded host name)),InsertionMap.set st.names (encoded host name) name)

theorem toolChosen {req} {st : Tools} {choice : Option ToolChoice × InsertionMap String String} (ok : toolChoice host req st = .ok choice) :
    Chosen host req st choice := by
  have ofText : ∀ {value} {text : String}, req.field "tool_choice" = some value → isStr (some value) text = true → chosenName req = none := by
    intro value text found isText
    cases value with
    | str _ =>
      rw [chosenName,found]
      rfl
    | _ => cases isText
  unfold toolChoice at ok
  split at ok
  · rename_i absent
    cases ok
    exact .unnamed none (by simp [chosenName,absent]) (by simp)
  · rename_i value found
    split at ok
    · rename_i isText
      cases ok
      exact .unnamed _ (ofText found isText) (by split <;> simp)
    split at ok
    · rename_i isText
      cases ok
      exact .unnamed _ (ofText found isText) (by split <;> simp)
    split at ok
    · rename_i isText
      obtain ⟨-,-,ok⟩ := bindOk.mp ok
      cases pureOk.mp ok
      exact .unnamed _ (ofText found isText) (by simp)
    · obtain ⟨_,read,ok⟩ := bindOk.mp ok
      cases objectOk read
      obtain ⟨-,-,ok⟩ := bindOk.mp ok
      obtain ⟨f,itsFunction,ok⟩ := bindOk.mp ok
      obtain ⟨-,-,ok⟩ := bindOk.mp ok
      obtain ⟨name,itsName,ok⟩ := bindOk.mp ok
      obtain ⟨_,known,ok⟩ := bindOk.mp ok
      obtain ⟨names,itsNames,ok⟩ := bindOk.mp ok
      cases pureOk.mp ok
      have conditions := checkOk.mp known
      simp only [Bool.and_eq_true,List.contains_eq_mem,decide_eq_true_eq] at conditions
      rw [encodeOk itsNames]
      exact .named name (by simp [chosenName,found,objectOk itsFunction,stringOk itsName]) conditions.2

structure Faithful (host : Host) (value : Json) (t : TranslatedChat) : Prop where
  legal : Legal t.body.messages
  said : t.body.items (InsertionMap.get t.names) = spoken host value
  tools : (t.body.tools.getD []).map (fun tool => InsertionMap.get t.names tool.name) = (toolNames value).map some
  choice : ∀ name, t.body.tool_choice = some (.tool name) →
    name ∈ (t.body.tools.getD []).map Tool.name ∧ ∃ chosen, chosenName value = some chosen ∧ InsertionMap.get t.names name = some chosen

theorem namesBack {names : List String} (apart : ∀ a ∈ names, ∀ b ∈ names, encoded host a = encoded host b → a = b) {name : String}
    (inside : name ∈ names) : InsertionMap.get (written (names.map (pair host))) (encoded host name) = some name := by
  have listed : encoded host name ∈ InsertionMap.keys (written (names.map (pair host))) := by
    rw [keysWritten.2]
    exact List.mem_map.mpr ⟨pair host name,List.mem_map.mpr ⟨name,inside,rfl⟩,rfl⟩
  obtain ⟨other,found⟩ := getOfMemKeys listed
  have there := found
  rw [getWritten] at there
  obtain ⟨source,its,same⟩ := List.mem_map.mp (List.mem_reverse.mp (memOfGet there))
  obtain ⟨code,rfl⟩ := Prod.mk.inj same
  rw [found,apart source its name inside code]

theorem Chosen.names {req} {st : Tools} {choice : Option ToolChoice × InsertionMap String String} (chosen : Chosen host req st choice)
    (declared : Declared host (entriesAt req "tools") st) :
    choice.2 = written ((toolNames req ++ (chosenName req).toList).map (pair host)) := by
  have same : toolNames req = st.declared := declared.declared.symm
  cases chosen with
  | unnamed choice none_ free => simpa [same,none_] using declared.names
  | named name its known =>
    have last : (toolNames req ++ (chosenName req).toList).map (pair host) = st.declared.map (pair host) ++ [pair host name] := by simp [same,its]
    rw [last,writtenAdded,← declared.names]
    rfl

structure Made (host : Host) (value : Json) (t : TranslatedChat) (tools : Tools) (choice : Option ToolChoice × InsertionMap String String)
    (st : Conversation) : Prop where
  read : readTools host value = .ok tools
  chosen : toolChoice host value tools = .ok choice
  taken : ∃ fields, (entriesAt value "messages").zipIdx.foldlM (takeMessage host) ⟨[],none,none,[],[],choice.2,fields⟩ = .ok st
  settled : st.pending = []
  itsTools : t.body.tools.getD [] = tools.tools
  itsChoice : t.body.tool_choice = choice.1
  itsMessages : t.body.messages = st.messages
  itsSystem : t.body.system = st.system
  itsNames : t.names = st.names

theorem translationMade {value : Json} {t : TranslatedChat} (accepted : translateChatRequest host value = .ok t) :
    ∃ tools choice st, Made host value t tools choice st := by
  obtain ⟨_,read,accepted⟩ := bindOk.mp accepted
  cases objectOk read
  obtain ⟨-,-,accepted⟩ := bindOk.mp accepted
  obtain ⟨model,-,accepted⟩ := bindOk.mp accepted
  obtain ⟨-,-,accepted⟩ := bindOk.mp accepted
  obtain ⟨-,-,accepted⟩ := bindOk.mp accepted
  obtain ⟨format,-,accepted⟩ := bindOk.mp accepted
  obtain ⟨includeUsage,-,accepted⟩ := bindOk.mp accepted
  obtain ⟨max_tokens,-,accepted⟩ := bindOk.mp accepted
  obtain ⟨temperature,-,accepted⟩ := bindOk.mp accepted
  obtain ⟨top_p,-,accepted⟩ := bindOk.mp accepted
  obtain ⟨stops,-,accepted⟩ := bindOk.mp accepted
  obtain ⟨tools,itsTools,accepted⟩ := bindOk.mp accepted
  obtain ⟨-,-,accepted⟩ := bindOk.mp accepted
  obtain ⟨choice,itsChoice,accepted⟩ := bindOk.mp accepted
  obtain ⟨entries,itsEntries,accepted⟩ := bindOk.mp accepted
  obtain ⟨st,taken,accepted⟩ := bindOk.mp accepted
  obtain ⟨_,settled,accepted⟩ := bindOk.mp accepted
  obtain ⟨-,-,accepted⟩ := bindOk.mp accepted
  cases pureOk.mp accepted
  have listed : entriesAt value "messages" = entries := by
    unfold messageEntries at itsEntries
    split at itsEntries
    · rename_i found
      cases itsEntries
      rw [entriesAt,found]
    · cases itsEntries
  refine ⟨tools,choice,st,itsTools,itsChoice,⟨_,by rw [listed]; exact taken⟩,List.isEmpty_iff.mp (checkOk.mp settled),?_,rfl,rfl,rfl,rfl⟩
  split
  · rename_i none_
    exact none_.symm
  · rfl

theorem acceptedFaithful (host : Host) (value : Json) (t : TranslatedChat) (accepted : translateChatRequest host value = .ok t)
    (apart : ∀ a ∈ clientNames host value, ∀ b ∈ clientNames host value, encoded host a = encoded host b → a = b) : Faithful host value t := by
  obtain ⟨tools,choice,st,made⟩ := translationMade accepted
  have declared := toolsDeclared made.read
  have chosen := toolChosen made.chosen
  obtain ⟨fields,taken⟩ := made.taken
  have start : Held host (toolNames value ++ (chosenName value).toList) [] ⟨[],none,none,[],[],choice.2,fields⟩ :=
    ⟨⟨[],[],rfl,.settled⟩,rfl,List.nodup_nil,rfl,by simpa using chosen.names declared⟩
  have held := indexedFold (Held host (toolNames value ++ (chosenName value).toList)) _ start (fun _ _ _ _ _ before => before.step) taken
  have names : t.names = written ((clientNames host value).map (pair host)) := made.itsNames.trans held.names
  have back : ∀ name ∈ clientNames host value, InsertionMap.get t.names (encoded host name) = some name := by
    intro name inside
    rw [names]
    exact namesBack apart inside
  refine ⟨?_,?_,?_,?_⟩
  · obtain ⟨exchanges,tail,same,ends⟩ := held.shape
    rw [ends.idle made.settled,List.append_nil] at same
    rw [made.itsMessages,same]
    exact exchangesLegal (by rw [← same,← held.used]; exact held.nodup)
  · have items : t.body.items some = (spoken host value).map (Item.rename (upstream host)) := by
      rw [MessagesBody.items,made.itsSystem,made.itsMessages]
      exact held.items
    rw [bodyItems,items,List.map_map]
    have same : ∀ item ∈ spoken host value, (Item.rename (InsertionMap.get t.names) ∘ Item.rename (upstream host)) item = id item := by
      intro item inside
      rw [Function.comp_apply,renameTwice]
      refine renameSame (fun name its => back name ?_)
      exact List.mem_append_right _ (List.mem_filterMap.mpr ⟨item,inside,its⟩)
    exact (List.map_congr_left same).trans (List.map_id _)
  · have same : toolNames value = tools.declared := declared.declared.symm
    rw [made.itsTools,same]
    have lookup : tools.tools.map (fun tool => InsertionMap.get t.names tool.name) = (tools.tools.map Tool.name).map (InsertionMap.get t.names) := by simp
    rw [lookup,declared.tools,List.map_map]
    refine List.map_congr_left (fun name inside => back name ?_)
    exact List.mem_append_left _ (List.mem_append_left _ (same ▸ inside))
  · intro name its
    rw [made.itsChoice] at its
    rw [made.itsTools,declared.tools]
    cases chosen with
    | unnamed choice none_ free => exact absurd its (free name)
    | named chosen itsName known =>
      cases its
      refine ⟨List.mem_map_of_mem known,chosen,itsName,back chosen ?_⟩
      exact List.mem_append_left _ (List.mem_append_right _ (by simp [itsName]))

def weatherHost : Host :=
  ⟨fun _ => "e33637ee6376db005d33fac0606c13c156466beb32247342353586093608152e",fun text => JsonText.parse text.toList⟩

def weatherFunction : Json := .obj [("name",.str "get_weather")]

def weatherCall : Json :=
  .obj [("id",.str "a"),("type",.str "function"),("function",.obj [("name",.str "get_weather"),("arguments",.str "\x7b\x7d")])]

def weatherChat : Json :=
  .obj [("model",.str "m"),("tools",.arr [.obj [("type",.str "function"),("function",weatherFunction)]]),
    ("tool_choice",.obj [("type",.str "function"),("function",weatherFunction)]),
    ("messages",.arr [.obj [("role",.str "user"),("content",.str "hi")],.obj [("role",.str "assistant"),("tool_calls",.arr [weatherCall])],
      .obj [("role",.str "tool"),("tool_call_id",.str "a"),("content",.str "rain")]])]

def weatherName : String := encoded weatherHost "get_weather"

def weatherTranslated : TranslatedChat where
  body :=
    { model := "m"
      stream := true
      messages := [⟨.user,[.text "hi"]⟩,⟨.assistant,[.toolUse "a" weatherName (.obj [])]⟩,⟨.user,[.toolResult "a" "rain"]⟩]
      system := none
      tools := some [⟨weatherName,none,.obj [("type",.str "object"),("properties",.obj [])]⟩]
      tool_choice := some (.tool weatherName)
      max_tokens := none
      temperature := none
      top_p := none
      stop_sequences := none
      output_config := none }
  stream := false
  includeUsage := false
  names := [(weatherName,"get_weather")]
  fields := []
  structuredOutput := none

theorem weatherAccepted : translateChatRequest weatherHost weatherChat = .ok weatherTranslated := by rfl

theorem weatherNames : ∀ a ∈ clientNames weatherHost weatherChat, a = "get_weather" := by
  have names : clientNames weatherHost weatherChat = ["get_weather","get_weather","get_weather"] := by rfl
  rw [names]
  simp

theorem weatherFaithful : Faithful weatherHost weatherChat weatherTranslated :=
  acceptedFaithful _ _ _ weatherAccepted fun a aIn b bIn _ => (weatherNames a aIn).trans (weatherNames b bIn).symm

end Clankermux.ChatRequest
