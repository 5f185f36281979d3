import Clankermux.BlockStream
import Clankermux.DevinStream
import Clankermux.Ledger

/-! The events of a Devin answer are a message in numbered blocks, or the beginning of one
that an error ends. -/
namespace Clankermux.DevinStream
open DevinConnect InsertionMap BlockStream

inductive Kind where
  | text
  | thinking
  | tool
  deriving DecidableEq

def BlockStart.kind : BlockStart → Kind
  | .text => .text
  | .thinking => .thinking
  | .toolUse _ _ => .tool

def Delta.kind : Delta → Kind
  | .text _ => .text
  | .thinking _ => .thinking
  | .signature _ => .thinking
  | .inputJson _ => .tool

def Event.shape : Event → BlockStream.Event Kind
  | .messageStart _ _ _ => .messageStart
  | .contentBlockStart index block => .blockStart index block.kind
  | .contentBlockDelta index delta => .blockDelta index delta.kind
  | .contentBlockStop index => .blockStop index
  | .messageDelta _ _ => .messageDelta
  | .messageStop => .messageStop

def opens (st : State) : List (Nat × Kind) :=
  (st.textIndex.map (fun index => (index,Kind.text))).toList ++
    ((st.thinkingIndex.map (fun index => (index,Kind.thinking))).toList ++
      st.tools.map (fun entry => (entry.2.index,Kind.tool)))

structure Follows (r : Reader Kind) (st : State) : Prop where
  stage : r.stage = if st.started then .content else .before
  next : r.next = st.index
  perm : r.openBlocks.Perm (opens st)
  unique : ((opens st).map Prod.fst).Nodup
  fresh : ∀ entry ∈ opens st, entry.1 < st.index
  idle : st.started = false → opens st = []

section
variable {r : Reader Kind} {st t : State}

theorem followsStart {context} : Follows .start (State.start context) :=
  ⟨rfl,rfl,List.Perm.refl _,List.nodup_nil,by simp [opens,State.start],fun _ => rfl⟩

theorem Follows.same (follows : Follows r st) (started : t.started = st.started) (index : t.index = st.index)
    (blocks : opens t = opens st) : Follows r t := by
  obtain ⟨stage,next,perm,unique,fresh,idle⟩ := follows
  refine ⟨by rw [started]; exact stage,by rw [index]; exact next,by rw [blocks]; exact perm,by rw [blocks]; exact unique,?_,?_⟩
  · rw [blocks,index]; exact fresh
  · rw [started,blocks]; exact idle

theorem Follows.content (follows : Follows r st) (started : st.started = true) : r.stage = .content := by
  rw [follows.stage,started]
  rfl

theorem Follows.begun {entry} (follows : Follows r st) (held : entry ∈ opens st) : st.started = true := by
  cases started : st.started with
  | true => rfl
  | false => rw [follows.idle started] at held; cases held

theorem Follows.delta {index kind} (follows : Follows r st) (held : (index,kind) ∈ opens st) :
    read r (.blockDelta index kind) = some r :=
  if_pos ⟨follows.content (follows.begun held),follows.perm.mem_iff.mpr held⟩

theorem Follows.opened {kind} (follows : Follows r st) (started : st.started = true)
    (same : t.started = st.started) (index : t.index = st.index+1) (blocks : (opens t).Perm ((st.index,kind)::opens st)) :
    ∃ s, read r (.blockStart st.index kind) = some s ∧ Follows s t := by
  refine ⟨{ r with
      next := r.next+1
      openBlocks := (st.index,kind)::r.openBlocks },if_pos ⟨follows.content started,follows.next.symm⟩,?_⟩
  have new : st.index ∉ (opens st).map Prod.fst := by
    intro held
    obtain ⟨entry,inside,number⟩ := List.mem_map.mp held
    exact absurd (follows.fresh entry inside) (by omega)
  refine ⟨?_,?_,(follows.perm.cons _).trans blocks.symm,?_,?_,?_⟩
  · rw [same]; exact follows.stage
  · rw [index,← follows.next]
  · exact (blocks.map Prod.fst).nodup_iff.mpr (List.nodup_cons.mpr ⟨new,follows.unique⟩)
  · intro entry inside
    rw [index]
    obtain rfl | old := List.mem_cons.mp (blocks.mem_iff.mp inside)
    · exact Nat.lt_succ_self _
    · exact Nat.lt_succ_of_lt (follows.fresh entry old)
  · intro idle
    rw [same,started] at idle
    cases idle

theorem Follows.closed {index kind} (follows : Follows r st) (started : t.started = st.started)
    (next : t.index = st.index) (blocks : (opens st).Perm ((index,kind)::opens t)) :
    ∃ s, read r (.blockStop index) = some s ∧ Follows s t := by
  have held : (index,kind) ∈ opens st := blocks.mem_iff.mpr (.head _)
  have inside : index ∈ keys r.openBlocks := List.mem_map.mpr ⟨_,follows.perm.mem_iff.mpr held,rfl⟩
  have unique := (blocks.map Prod.fst).nodup_iff.mp follows.unique
  rw [List.map_cons,List.nodup_cons] at unique
  refine ⟨{ r with openBlocks := delete r.openBlocks index },if_pos ⟨follows.content (follows.begun held),inside⟩,?_⟩
  refine ⟨by rw [started]; exact follows.stage,by rw [next]; exact follows.next,?_,unique.2,?_,?_⟩
  · exact deletePerm (follows.perm.trans blocks) unique.1
  · intro entry left
    rw [next]
    exact follows.fresh entry (blocks.mem_iff.mpr (.tail _ left))
  · intro idle
    rw [started,follows.begun held] at idle
    cases idle

end

def Told (events : List Event) (st : State) : Prop := ∃ r, reads .start (events.map Event.shape) = some r ∧ Follows r st

def Sound (I : List Event → State → Prop) (st : State) (part : Fallible) : Prop :=
  ∀ events, I events st → (∃ s, I (events ++ part.1) s) ∧ ∀ s, part.2 = .ok s → I (events ++ part.1) s

section
variable {I : List Event → State → Prop} {st : State}

theorem Sound.andThen {first second} (one : Sound I st first)
    (two : ∀ s, first.2 = .ok s → Sound I s (second s)) : Sound I st (Fallible.andThen first second) := by
  intro events here
  obtain ⟨halfway,next⟩ := one events here
  obtain ⟨before,result⟩ := first
  cases result with
  | error failure => exact ⟨halfway,fun s never => by cases never⟩
  | ok s =>
    have later := two s rfl (events ++ before) (next s rfl)
    rw [List.append_assoc] at later
    exact later

theorem Sound.pass {p} (one : ∀ events, I events st → I (events ++ p.1) p.2) :
    Sound I st (pass p) :=
  fun events here => ⟨⟨_,one events here⟩,fun s same => by cases same; exact one events here⟩

theorem Sound.throws {failure} : Sound I st ([],.error failure) := by
  intro events here
  refine ⟨⟨st,?_⟩,fun s never => by cases never⟩
  rw [List.append_nil]
  exact here

end

section
variable {st t : State} {events : List Event}

theorem Told.same (told : Told events st) (started : t.started = st.started) (index : t.index = st.index)
    (blocks : opens t = opens st) : Told (events ++ []) t := by
  obtain ⟨r,read_,follows⟩ := told
  exact ⟨r,by rw [List.append_nil]; exact read_,follows.same started index blocks⟩

theorem toldStep {r s event} (read_ : reads .start (events.map Event.shape) = some r)
    (one : read r event.shape = some s) : reads .start ((events ++ [event]).map Event.shape) = some s := by
  rw [List.map_append,readsAppend,read_,Option.bind_some]
  simp [one]

theorem Told.delta {index d} (told : Told events st) (held : (index,d.kind) ∈ opens st) :
    Told (events ++ [.contentBlockDelta index d]) st := by
  obtain ⟨r,read_,follows⟩ := told
  exact ⟨r,toldStep read_ (follows.delta held),follows⟩

theorem Told.opened {block} (told : Told events st) (started : st.started = true)
    (same : t.started = st.started) (index : t.index = st.index+1)
    (blocks : (opens t).Perm ((st.index,block.kind)::opens st)) : Told (events ++ [.contentBlockStart st.index block]) t := by
  obtain ⟨r,read_,follows⟩ := told
  obtain ⟨s,one,after⟩ := follows.opened started same index blocks
  exact ⟨s,toldStep read_ one,after⟩

theorem Told.closed {index k} (told : Told events st) (started : t.started = st.started)
    (next : t.index = st.index) (blocks : (opens st).Perm ((index,k)::opens t)) :
    Told (events ++ [.contentBlockStop index]) t := by
  obtain ⟨r,read_,follows⟩ := told
  obtain ⟨s,one,after⟩ := follows.closed started next blocks
  exact ⟨s,toldStep read_ one,after⟩
variable {msg : ChatMessage} {call : ChatToolCall}

theorem toldBegin (told : Told events st) : Told (events ++ (begin msg st).1) (begin msg st).2 := by
  unfold begin
  split
  · rename_i first
    rw [Bool.and_eq_true,Bool.not_eq_true'] at first
    obtain ⟨r,read_,follows⟩ := told
    have before : r.stage = .before := by rw [follows.stage,first.1]; rfl
    refine ⟨{ r with stage := .content },toldStep read_ (if_pos before),?_⟩
    refine { follows with stage := rfl, idle := fun idle => by cases idle }
  · exact told.same rfl rfl rfl

theorem toldCloseText (told : Told events st) : Told (events ++ (closeText st).1) (closeText st).2 := by
  unfold closeText
  split
  · exact told.same rfl rfl rfl
  · rename_i index held
    refine told.closed (k := .text) rfl rfl ?_
    simp [opens,held]

theorem toldOpenThinking (told : Told events st) (started : st.started = true) :
    Told (events ++ (openThinking st).1) (openThinking st).2.1 ∧ (openThinking st).2.1.started = true ∧
      ((openThinking st).2.2,Kind.thinking) ∈ opens (openThinking st).2.1 := by
  unfold openThinking
  split
  · rename_i index held
    exact ⟨told.same rfl rfl rfl,started,by simp [opens,held]⟩
  · rename_i held
    refine ⟨told.opened started rfl rfl ?_,started,by simp [opens]⟩
    simp only [opens,held]
    exact List.perm_middle

theorem toldOpenText (told : Told events st) (started : st.started = true) :
    Told (events ++ (openText st).1) (openText st).2.1 ∧ ((openText st).2.2,Kind.text) ∈ opens (openText st).2.1 := by
  unfold openText
  split
  · rename_i index held
    exact ⟨told.same rfl rfl rfl,by simp [opens,held]⟩
  · rename_i held
    refine ⟨told.opened started rfl rfl ?_,by simp [opens]⟩
    simp [opens,held,BlockStart.kind]

theorem closeTextStarted : (closeText st).2.started = st.started := by
  unfold closeText
  split <;> rfl

section
variable (told : Told events st)
include told

theorem toldThinking (started : msg.deltaThinking ≠ [] → st.started = true) :
    Told (events ++ (onThinking msg st).1) (onThinking msg st).2 := by
  unfold onThinking
  split
  · exact told.same rfl rfl rfl
  · rename_i some
    have closed := toldCloseText told
    obtain ⟨opened,_,held⟩ := toldOpenThinking closed (by rw [closeTextStarted]; exact started some)
    have filled := opened.delta (d := .thinking msg.deltaThinking) held
    simpa only [List.append_assoc] using filled

theorem toldSignature : Told events (onSignature msg st) := by
  unfold onSignature
  split
  · have same := told.same (t := { st with thinkingSignature := st.thinkingSignature ++ msg.deltaSignature }) rfl rfl rfl
    rwa [List.append_nil] at same
  · exact told

theorem toldThinkingEnd : Told (events ++ thinkingEnd st) { st with thinkingIndex := none } := by
  unfold thinkingEnd
  split
  · rename_i held
    exact told.same rfl rfl (by simp [opens,held])
  · rename_i index held
    have inside : (index,Kind.thinking) ∈ opens st := by simp [opens,held]
    have blocks : (opens st).Perm ((index,Kind.thinking)::opens { st with thinkingIndex := none }) := by
      simp only [opens,held]
      exact List.perm_middle
    split
    · rw [List.nil_append]
      exact told.closed rfl rfl blocks
    · have signed := told.delta (d := .signature (wrapDevinSignature st.model st.thinkingSignature)) inside
      have closed := signed.closed (t := { st with thinkingIndex := none }) rfl rfl blocks
      simpa only [List.append_assoc] using closed

theorem toldCloseThinking :
    Told (events ++ (closeThinking msg st).1) (closeThinking msg st).2 := by
  unfold closeThinking
  split
  · exact told.same rfl rfl rfl
  · exact toldThinkingEnd told

theorem toldText (started : msg.deltaText ≠ [] → st.started = true) :
    Told (events ++ (onText msg st).1) (onText msg st).2 := by
  unfold onText
  split
  · exact told.same rfl rfl rfl
  · rename_i some
    obtain ⟨opened,held⟩ := toldOpenText told (started some)
    have filled := opened.delta (d := .text msg.deltaText) held
    simpa only [List.append_assoc] using filled

theorem toldCloseTextForTools :
    Told (events ++ (closeTextForTools msg st).1) (closeTextForTools msg st).2 := by
  unfold closeTextForTools
  split
  · exact told.same rfl rfl rfl
  · exact toldCloseText told

end

theorem toolBlocks {tools : InsertionMap Text Tool} : tools.map (fun entry => (entry.2.index,Kind.tool)) =
    (tools.map (Prod.map id Tool.index)).map (fun entry => (entry.2,Kind.tool)) := by
  rw [List.map_map]
  rfl

theorem toldArguments {toolId fragment tool} (told : Told events st) (held : st.tools.get toolId = some tool) :
    Told (events ++ (onArguments toolId tool fragment st).1) (onArguments toolId tool fragment st).2 := by
  unfold onArguments
  split
  · exact told.same rfl rfl rfl
  · dsimp only
    have blocks : ∀ json, opens { st with tools := st.tools.set toolId { tool with json := json } } = opens st := by
      intro json
      have kept := mapSet (f := Tool.index) held (show Tool.index { tool with json := json } = Tool.index tool from rfl)
      simp only [opens]
      rw [toolBlocks,kept,← toolBlocks]
    split
    · exact told.same rfl rfl (blocks _)
    · have inside : (tool.index,Kind.tool) ∈ opens st := by
        refine List.mem_append_right _ (List.mem_append_right _ ?_)
        exact List.mem_map.mpr ⟨_,memOfGet held,rfl⟩
      have filled := told.delta (d := .inputJson ((extend tool.json fragment).drop tool.json.length)) inside
      have same := filled.same (t := { st with tools := st.tools.set toolId { tool with json := extend tool.json fragment } })
        rfl rfl (blocks _)
      rw [List.append_nil] at same
      exact same

theorem toldNamedCall {toolId} (started : st.started = true) :
    Sound Told st (onNamedCall toolId call st) := by
  unfold onNamedCall
  split
  · rename_i tool held
    split
    · exact Sound.throws
    · exact Sound.pass (fun events told => toldArguments told held)
  · rename_i new
    split
    · exact Sound.throws
    · refine Sound.andThen (Sound.pass (p := (_,_)) (fun events told => ?_)) (fun s same => ?_)
      · refine told.opened started rfl rfl ?_
        have fresh : toolId ∉ keys st.tools := by
          intro held
          obtain ⟨tool,found⟩ := getOfMemKeys held
          rw [new] at found
          cases found
        simp only [opens,setFresh fresh,List.map_append,← List.append_assoc]
        exact List.perm_append_singleton _ _
      · cases same
        exact Sound.pass (fun events told => toldArguments told getSetSelf)

theorem toldCall (started : st.started = true) : Sound Told st (onCall call st) := by
  unfold onCall
  split
  · exact Sound.throws
  · rename_i toolId _
    intro events told
    have same := told.same (t := { st with activeTool := some toolId }) rfl rfl rfl
    rw [List.append_nil] at same
    have step : Sound Told { st with activeTool := some toolId } (onNamedCall toolId call { st with activeTool := some toolId }) :=
      toldNamedCall started
    exact step events same

theorem callStarted {s} (started : st.started = true) (ok : (onCall call st).2 = .ok s) :
    s.started = true := by
  have arguments : ∀ toolId tool fragment u, u.started = true → (onArguments toolId tool fragment u).2.started = true := by
    intro toolId tool fragment u here
    unfold onArguments
    split
    · exact here
    · exact here
  unfold onCall at ok
  split at ok
  · cases ok
  · unfold onNamedCall at ok
    split at ok
    · split at ok
      · cases ok
      · cases ok
        exact arguments _ _ _ _ started
    · split at ok
      · cases ok
      · cases ok
        exact arguments _ _ _ _ started

theorem toldCalls (calls : List ChatToolCall) : ∀ st, (calls ≠ [] → st.started = true) → Sound Told st (onCalls calls st) := by
  induction calls with
  | nil => exact fun st _ => Sound.pass (p := ([],st)) (fun events told => told.same rfl rfl rfl)
  | cons call rest ih =>
    intro st started
    have begun := started (List.cons_ne_nil _ _)
    exact (toldCall begun).andThen (fun s ok => ih s (fun _ => callStarted begun ok))

theorem beginStarted (meaningful : msg.meaningful = true) : (begin msg st).2.started = true := by
  unfold begin
  cases started : st.started <;> simp [meaningful,started]

theorem thinkingStarted : (onThinking msg st).2.started = st.started := by
  unfold onThinking openThinking
  split
  · rfl
  · dsimp only
    split <;> exact closeTextStarted

theorem signatureStarted : (onSignature msg st).started = st.started := by
  unfold onSignature
  split <;> rfl

theorem closeThinkingStarted : (closeThinking msg st).2.started = st.started := by
  unfold closeThinking
  split <;> rfl

theorem textStarted : (onText msg st).2.started = st.started := by
  unfold onText openText
  split
  · rfl
  · dsimp only
    split <;> rfl

theorem closeTextForToolsStarted : (closeTextForTools msg st).2.started = st.started := by
  unfold closeTextForTools
  split
  · rfl
  · exact closeTextStarted

theorem toldParts : Sound Told st (onParts msg st) := by
  have started : msg.meaningful = true → (begin msg st).2.started = true := beginStarted
  generalize begins : begin msg st = begun at started
  unfold onParts
  rw [begins]
  have text : msg.deltaText ≠ [] → msg.meaningful = true := by
    intro some
    simp [ChatMessage.meaningful,some]
  have thinking : msg.deltaThinking ≠ [] → msg.meaningful = true := by
    intro some
    simp [ChatMessage.meaningful,some]
  have calls : msg.deltaToolCalls ≠ [] → msg.meaningful = true := by
    intro some
    simp [ChatMessage.meaningful,some]
  refine (Sound.pass (fun events told => by rw [← begins]; exact toldBegin told)).andThen ?_
  intro a same
  cases same
  refine (Sound.pass (fun events told => toldThinking told (fun some => started (thinking some)))).andThen ?_
  intro b same
  cases same
  refine (Sound.pass (fun events told => toldCloseThinking (toldSignature told))).andThen ?_
  intro c same
  cases same
  refine (Sound.pass (fun events told => toldText told (fun some => ?_))).andThen ?_
  · rw [closeThinkingStarted,signatureStarted,thinkingStarted]
    exact started (text some)
  intro d same
  cases same
  refine (Sound.pass (fun events told => toldCloseTextForTools told)).andThen ?_
  intro e same
  cases same
  refine toldCalls _ _ (fun some => ?_)
  rw [closeTextForToolsStarted,textStarted,closeThinkingStarted,signatureStarted,thinkingStarted]
  exact started (calls some)

theorem toldPayload {fromBinary payload} :
    Sound Told st (onPayload fromBinary payload st) := by
  unfold onPayload onMessage
  dsimp only
  split
  · exact Sound.throws
  · split
    · exact Sound.throws
    · rename_i msg _
      split
      · exact Sound.throws
      · intro events told
        have kept : Told events (observe msg { st with totalBytes := st.totalBytes+payload.length }) := by
          have same := told.same (t := observe msg { st with totalBytes := st.totalBytes+payload.length })
            (by unfold observe; split <;> rfl) (by unfold observe; split <;> rfl) (by unfold observe; split <;> rfl)
          rwa [List.append_nil] at same
        exact toldParts events kept

theorem toldPayloads (fromBinary : Bytes → Option ChatMessage) (payloads : List Bytes) : ∀ st,
    Sound Told st (onPayloads fromBinary payloads st) := by
  induction payloads with
  | nil => exact fun st => Sound.pass (p := ([],st)) (fun events told => told.same rfl rfl rfl)
  | cons payload rest ih => exact fun st => toldPayload.andThen (fun s _ => ih s)

theorem stopToolsPrefix (tools : List Tool) : ∃ rest, tools.map (fun tool => Event.contentBlockStop tool.index) =
    (stopTools tools).1 ++ rest ∧ ((stopTools tools).2 = none → rest = [] ∧ ∀ tool ∈ tools, wholeArguments tool.json = true) := by
  induction tools with
  | nil => exact ⟨[],rfl,fun _ => ⟨rfl,by simp⟩⟩
  | cons tool tools ih =>
    obtain ⟨rest,stops,whole⟩ := ih
    rw [stopTools]
    split
    · rename_i object
      refine ⟨rest,by rw [List.map_cons,stops]; rfl,fun fine => ⟨(whole fine).1,?_⟩⟩
      intro one inside
      obtain rfl | later := List.mem_cons.mp inside
      · exact object
      · exact (whole fine).2 one later
    · exact ⟨_,rfl,fun fine => by cases fine⟩

theorem readsPrefix {r s before} (after : List (BlockStream.Event Kind))
    (read_ : reads r (before ++ after) = some s) : ∃ t, reads r before = some t := by
  rw [readsAppend] at read_
  obtain ⟨t,first,_⟩ := Option.bind_eq_some_iff.mp read_
  exact ⟨t,first⟩

theorem readsStop {s} (shapes : List (BlockStream.Event Kind)) : ∀ r, reads r shapes = some s →
    .messageStop ∈ shapes → s.stage = .after := by
  induction shapes with
  | nil => exact fun r _ inside => by cases inside
  | cons shape rest ih =>
    intro r read_ inside
    obtain ⟨t,first,later⟩ := Option.bind_eq_some_iff.mp read_
    obtain rfl | inside := List.mem_cons.mp inside
    · have ended : t.stage = .after := by
        simp only [BlockStream.read,Option.ite_none_right_eq_some,Option.some.injEq] at first
        obtain ⟨_,rfl⟩ := first
        rfl
      have none_ := (readsAfter ended).mp (Option.isSome_iff_exists.mpr ⟨s,later⟩)
      rw [none_] at later
      cases later
      exact ended
    · exact ih t later inside

theorem Told.notStopped (told : Told events st) : .messageStop ∉ events := by
  intro inside
  obtain ⟨r,read_,follows⟩ := told
  have ended := readsStop _ _ read_ (List.mem_map.mpr ⟨_,inside,rfl⟩)
  rw [follows.stage] at ended
  cases started : st.started <;> simp [started] at ended

structure Read (events : List Event) (failure : Option DevinConnect.Failure) : Prop where
  read : ∃ r, reads .start (events.map Event.shape) = some r ∧ (failure = none → r.stage = .after)
  stopped : failure ≠ none → .messageStop ∉ events

theorem Told.broken {failure} (told : Told events st) : Read events (some failure) := by
  have quiet := told.notStopped
  obtain ⟨r,read_,_⟩ := told
  exact ⟨⟨r,read_,fun never => by cases never⟩,fun _ => quiet⟩

def onlyTools (st : State) : State := (closeText { st with thinkingIndex := none }).2

theorem onlyToolsOpens : opens (onlyTools st) = st.tools.map (fun entry => (entry.2.index,Kind.tool)) := by
  unfold onlyTools closeText
  split
  · rename_i held
    have held : st.textIndex = none := held
    simp [opens,held]
  · simp [opens]

theorem toldOnlyTools (told : Told events st) : Told (events ++ (thinkingEnd st ++ (closeText st).1)) (onlyTools st) := by
  have closed := toldCloseText (toldThinkingEnd told)
  have same : (closeText { st with thinkingIndex := none }).1 = (closeText st).1 := by
    unfold closeText
    dsimp only
    split <;> rfl
  rw [same,List.append_assoc] at closed
  exact closed

def toolStops (st : State) : List Event := st.tools.map (fun entry => .contentBlockStop entry.2.index)

def closing (reason : String) (usage : Usage) : List Event := [.messageDelta reason usage,.messageStop]

theorem toldStops (told : Told events st) (started : st.started = true)
    (tools : opens st = st.tools.map (fun entry => (entry.2.index,Kind.tool))) (reason : String) (usage : Usage) :
    ∃ r, reads .start ((events ++ (toolStops st ++ closing reason usage)).map Event.shape) = some r ∧ r.stage = .after := by
  obtain ⟨r,read_,follows⟩ := told
  have unique := follows.unique
  rw [tools,List.map_map] at unique
  have stops : (toolStops st ++ closing reason usage).map Event.shape =
      (st.tools.map (fun entry => entry.2.index)).map BlockStream.Event.blockStop ++ [.messageDelta,.messageStop] := by
    rw [List.map_append,toolStops,List.map_map,List.map_map]
    rfl
  rw [List.map_append,readsAppend,read_,stops,Option.bind_some]
  refine (readsEnd (follows.content started) unique).mpr (fun index => ?_)
  have blocks := (follows.perm.map Prod.fst).mem_iff (a := index)
  rw [tools,List.map_map] at blocks
  exact blocks.symm

theorem onlyToolsKept : (onlyTools st).started = st.started ∧ (onlyTools st).tools = st.tools := by
  unfold onlyTools closeText
  split <;> exact ⟨rfl,rfl⟩

theorem finishRead (told : Told events st) : Read (events ++ (finish st).1) (finish st).2 := by
  unfold finish
  split
  · rw [List.append_nil]; exact told.broken
  · split
    · rw [List.append_nil]; exact told.broken
    · rename_i started
      have started : st.started = true := by simpa using started
      have closed := toldOnlyTools told
      have stopped : toolStops (onlyTools st) = toolStops st := by rw [toolStops,onlyToolsKept.2,toolStops]
      have whole := toldStops closed (onlyToolsKept.1.trans started) (onlyToolsOpens.trans (by rw [onlyToolsKept.2]))
      rw [stopped] at whole
      obtain ⟨rest,stops,complete⟩ := stopToolsPrefix (st.tools.map Prod.snd)
      rw [List.map_map] at stops
      have same : toolStops st = (stopTools (st.tools.map Prod.snd)).1 ++ rest := stops
      have quiet : .messageStop ∉ events ++ (thinkingEnd st ++ (closeText st).1 ++ (stopTools (st.tools.map Prod.snd)).1) := by
        intro inside
        rw [← List.append_assoc,List.mem_append] at inside
        obtain before | stop := inside
        · exact closed.notStopped before
        · have listed : .messageStop ∈ toolStops st := by rw [same]; exact List.mem_append_left _ stop
          obtain ⟨entry,_,never⟩ := List.mem_map.mp listed
          cases never
      have begun : ∃ r, reads .start ((events ++ (thinkingEnd st ++ (closeText st).1 ++
          (stopTools (st.tools.map Prod.snd)).1)).map Event.shape) = some r := by
        obtain ⟨r,read_,_⟩ := whole "" st.usage
        rw [same] at read_
        refine readsPrefix ((rest ++ closing "" st.usage).map Event.shape) (s := r) ?_
        rw [← List.map_append]
        simpa only [List.append_assoc] using read_
      dsimp only
      split
      · obtain ⟨r,read_⟩ := begun
        exact ⟨⟨r,read_,fun never => by cases never⟩,fun _ => quiet⟩
      · rename_i fine
        split
        · obtain ⟨r,read_⟩ := begun
          exact ⟨⟨r,read_,fun never => by cases never⟩,fun _ => quiet⟩
        · obtain ⟨r,read_,ended⟩ := whole (stopReason st) st.usage
          rw [same,(complete fine).1,List.append_nil] at read_
          refine ⟨⟨r,?_,fun _ => ended⟩,fun never => absurd rfl never⟩
          simpa only [closing,List.append_assoc] using read_

theorem translateRead (gunzip : Bytes → Option Bytes) (fromBinary : Bytes → Option ChatMessage) (context : Context)
    (chunks : List Bytes) : Read (translate gunzip fromBinary context chunks).1 (translate gunzip fromBinary context chunks).2 := by
  have begun : Told [] (State.start context) := ⟨_,rfl,followsStart⟩
  obtain ⟨broken,whole⟩ := toldPayloads fromBinary (decodeConnect gunzip [] chunks).1 _ [] begun
  unfold translate
  dsimp only
  split
  · obtain ⟨s,told⟩ := broken
    exact told.broken
  · rename_i st said
    split
    · exact (whole st said).broken
    · exact finishRead (whole st said)

end

end Clankermux.DevinStream
