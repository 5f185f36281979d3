import Mathlib.Data.List.Chain
import Clankermux.DevinWellFormed

/-! The arguments of the tool calls: what the stream says of a call, put together, is what
its fragments are put together to. -/
namespace Clankermux.DevinStream
open DevinConnect InsertionMap

def activeAfter (active : Option Text) (call : ChatToolCall) : Option Text :=
  if call.id ≠ [] then some call.id else active

def fragments : Option Text → List ChatToolCall → List (Text × Text)
  | _,[] => []
  | active,call::calls => ((activeAfter active call).map (fun id => (id,call.argumentsJson))).toList ++
      fragments (activeAfter active call) calls

def fragmentsOf (id : Text) (calls : List ChatToolCall) : List Text :=
  (fragments none calls).filterMap (fun fragment => if fragment.1 = id ∧ fragment.2 ≠ [] then some fragment.2 else none)

def assemble (fragments : List Text) : Text := fragments.foldl extend []

def Snapshots (fragments : List Text) : Prop := fragments.IsChain (fun before after => before <+: after)

def Increments (fragments : List Text) : Prop :=
  ∀ before fragment after, fragments = before ++ fragment::after → before.flatten ≠ [] → ¬before.flatten <+: fragment

section
variable {json fragment : Text} {parts : List Text}

theorem extendPrefix : json <+: extend json fragment := by
  unfold extend
  split
  · rename_i grown
    exact List.isPrefixOf_iff_prefix.mp grown
  · exact List.prefix_append _ _

theorem extendNothing : extend json [] = json := by
  unfold extend
  split
  · rename_i before
    exact (List.prefix_nil.mp (List.isPrefixOf_iff_prefix.mp before)).symm
  · exact List.append_nil _

theorem extendDrop : json ++ (extend json fragment).drop json.length = extend json fragment := by
  obtain ⟨rest,same⟩ : json <+: extend json fragment := extendPrefix
  rw [← same,List.drop_left]

theorem assembleSnoc : assemble (parts ++ [fragment]) = extend (assemble parts) fragment := by
  rw [assemble,List.foldl_append]
  rfl

theorem assembleSnapshots (snapshots : Snapshots parts) : assemble parts = parts.getLastD [] := by
  induction parts using List.reverseRecOn with
  | nil => rfl
  | append_singleton before fragment ih =>
    have earlier : Snapshots before := (List.isChain_append.mp snapshots).1
    have grown : before.getLastD [] <+: fragment := by
      cases last : before.getLast? with
      | none =>
        rw [List.getLast?_eq_none_iff.mp last]
        exact List.nil_prefix
      | some text =>
        have chained := (List.isChain_append.mp snapshots).2.2 text (by rw [last]; rfl) fragment rfl
        rw [List.getLastD_eq_getLast?,last]
        exact chained
    rw [assembleSnoc,ih earlier,extend,if_pos (List.isPrefixOf_iff_prefix.mpr grown),List.getLastD_eq_getLast?,
      List.getLast?_append]
    rfl

theorem assembleIncrements (increments : Increments parts) : assemble parts = parts.flatten := by
  induction parts using List.reverseRecOn with
  | nil => rfl
  | append_singleton before fragment ih =>
    have earlier : Increments before := by
      intro first middle last same
      exact increments first middle (last ++ [fragment]) (by rw [same]; simp)
    rw [assembleSnoc,ih earlier,List.flatten_append,List.flatten_singleton,extend]
    split
    · rename_i looks
      by_cases none_ : before.flatten = []
      · rw [none_,List.nil_append]
      · exact absurd (List.isPrefixOf_iff_prefix.mp looks) (increments before fragment [] rfl none_)
    · rfl

theorem fragmentsPrefix {taken calls} (first : taken <+: calls) : ∀ active,
    fragments active taken <+: fragments active calls := by
  induction taken generalizing calls with
  | nil => exact fun active => List.nil_prefix
  | cons call rest ih =>
    obtain ⟨later,rfl⟩ := first
    intro active
    exact (List.prefix_append_right_inj _).mpr (ih (List.prefix_append _ _) _)

theorem fragmentsOfPrefix {taken calls} (first : taken <+: calls) (id : Text) :
    fragmentsOf id taken <+: fragmentsOf id calls :=
  (fragmentsPrefix first none).filterMap _

theorem Snapshots.first {more} (snapshots : Snapshots more) (first : parts <+: more) : Snapshots parts := by
  obtain ⟨rest,rfl⟩ := first
  exact (List.isChain_append.mp snapshots).1

theorem Increments.first {more} (increments : Increments more) (first : parts <+: more) : Increments parts := by
  obtain ⟨rest,rfl⟩ := first
  intro before fragment after same
  exact increments before fragment (after ++ rest) (by rw [same]; simp)

end

def partialsAt (index : Nat) (events : List Event) : List Text :=
  events.filterMap (fun event => match event with
    | .contentBlockDelta i (.inputJson partialJson) => if i = index then some partialJson else none
    | _ => none)

def toolStarts (events : List Event) : List (Nat × Text × Text) :=
  events.filterMap (fun event => match event with
    | .contentBlockStart index (.toolUse id name) => some (index,id,name)
    | _ => none)

section
variable {events more : List Event} {index : Nat}

theorem partialsAppend : partialsAt index (events ++ more) = partialsAt index events ++ partialsAt index more :=
  List.filterMap_append

theorem toolStartsAppend : toolStarts (events ++ more) = toolStarts events ++ toolStarts more :=
  List.filterMap_append

end

/-- A part takes what it is given, or the first of it before it throws, and `I` holds of all
that was taken. -/
def Takes {α : Type*} (I : List α → List Event → State → Prop) (more : List α) (st : State) (part : Fallible) : Prop :=
  ∀ before events, I before events st →
    (∃ taken s, taken <+: more ∧ I (before ++ taken) (events ++ part.1) s) ∧
      ∀ s, part.2 = .ok s → I (before ++ more) (events ++ part.1) s

section
variable {α : Type*} {I : List α → List Event → State → Prop} {more later : List α} {st : State}

theorem Takes.andThen {first second}
    (one : Takes I more st first) (two : ∀ s, first.2 = .ok s → Takes I later s (second s)) :
    Takes I (more ++ later) st (Fallible.andThen first second) := by
  intro before events here
  obtain ⟨⟨taken,s,some_,broken⟩,whole⟩ := one before events here
  obtain ⟨told,result⟩ := first
  cases result with
  | error failure => exact ⟨⟨taken,s,some_.trans (List.prefix_append _ _),broken⟩,fun s never => by cases never⟩
  | ok middle =>
    obtain ⟨⟨taken,s,some_,broken⟩,ended⟩ := two middle rfl (before ++ more) (events ++ told) (whole middle rfl)
    refine ⟨⟨more ++ taken,s,(List.prefix_append_right_inj _).mpr some_,?_⟩,fun s ok => ?_⟩
    · rw [List.append_assoc,List.append_assoc] at broken
      exact broken
    · have after := ended s ok
      rw [List.append_assoc,List.append_assoc] at after
      exact after

theorem takesNothing {failure} : Takes I more st ([],.error failure) := by
  intro before events here
  refine ⟨⟨[],st,List.nil_prefix,?_⟩,fun s never => by cases never⟩
  rw [List.append_nil,List.append_nil]
  exact here

theorem takesPass {part} (one : ∀ before events, I before events st → I before (events ++ part.1) part.2) :
    Takes I [] st (pass part) := by
  intro before events here
  have kept := one before events here
  rw [← List.append_nil before] at kept
  exact ⟨⟨[],part.2,List.nil_prefix,kept⟩,fun s ok => by cases ok; exact kept⟩

end

structure Tools (calls : List ChatToolCall) (events : List Event) (st : State) : Prop where
  active : st.activeTool = calls.foldl activeAfter none
  started : ∀ id tool, st.tools.get id = some tool → (tool.index,id,tool.name) ∈ toolStarts events
  held : ∀ index id name, (index,id,name) ∈ toolStarts events → ∃ tool, st.tools.get id = some tool ∧ tool.index = index
  partials : ∀ id tool, st.tools.get id = some tool → (partialsAt tool.index events).flatten = tool.json
  json : ∀ id, ((st.tools.get id).map Tool.json).getD [] = assemble (fragmentsOf id calls)
  apart : ∀ id other tool second, st.tools.get id = some tool → st.tools.get other = some second →
    tool.index = second.index → id = other
  below : ∀ id tool, st.tools.get id = some tool → tool.index < st.index
  fresh : ∀ index, st.index ≤ index → partialsAt index events = []
  filled : ∀ index, [] ∉ partialsAt index events

structure Quiet (st : State) (part : List Event × State) : Prop where
  starts : toolStarts part.1 = []
  partials : ∀ index, partialsAt index part.1 = []
  tools : part.2.tools = st.tools
  active : part.2.activeTool = st.activeTool
  index : st.index ≤ part.2.index

section
variable {calls : List ChatToolCall} {events : List Event} {st : State}

theorem toolsStart {context} : Tools [] [] (State.start context) := by
  refine ⟨rfl,?_,?_,?_,fun id => rfl,?_,?_,fun index _ => rfl,fun index => List.not_mem_nil⟩
  · intro id tool found; cases found
  · intro index id name inside; cases inside
  · intro id tool found; cases found
  · intro id other tool second found; cases found
  · intro id tool found; cases found
variable {call : ChatToolCall} {msg : ChatMessage} {part : List Event × State} {toolId : Text}

theorem Tools.quiet (tools : Tools calls events st) (quiet : Quiet st part) :
    Tools calls (events ++ part.1) part.2 := by
  have same : ∀ index, partialsAt index (events ++ part.1) = partialsAt index events := by
    intro index
    rw [partialsAppend,quiet.partials,List.append_nil]
  have starts : toolStarts (events ++ part.1) = toolStarts events := by
    rw [toolStartsAppend,quiet.starts,List.append_nil]
  refine ⟨quiet.active.trans tools.active,?_,?_,?_,?_,?_,?_,?_,?_⟩
  · rw [quiet.tools,starts]; exact tools.started
  · rw [quiet.tools,starts]; exact tools.held
  · intro id tool found
    rw [quiet.tools] at found
    rw [same]
    exact tools.partials id tool found
  · rw [quiet.tools]; exact tools.json
  · rw [quiet.tools]; exact tools.apart
  · intro id tool found
    rw [quiet.tools] at found
    exact Nat.lt_of_lt_of_le (tools.below id tool found) quiet.index
  · intro index beyond
    rw [same]
    exact tools.fresh index (Nat.le_trans quiet.index beyond)
  · intro index
    rw [same]
    exact tools.filled index

theorem quietNothing {t} (tools : t.tools = st.tools) (active : t.activeTool = st.activeTool) (index : st.index ≤ t.index) :
    Quiet st ([],t) := ⟨rfl,fun _ => rfl,tools,active,index⟩

theorem Quiet.append {first second} (one : Quiet st first) (two : Quiet first.2 second) :
    Quiet st (first.1 ++ second.1,second.2) := by
  refine ⟨?_,?_,two.tools.trans one.tools,two.active.trans one.active,Nat.le_trans one.index two.index⟩
  · rw [toolStartsAppend,one.starts,two.starts]
    rfl
  · intro index
    rw [partialsAppend,one.partials,two.partials]
    rfl

theorem quietBegin : Quiet st (begin msg st) := by
  unfold begin
  split
  · exact ⟨rfl,fun _ => rfl,rfl,rfl,le_rfl⟩
  · exact quietNothing rfl rfl le_rfl

theorem quietCloseText : Quiet st (closeText st) := by
  unfold closeText
  split
  · exact quietNothing rfl rfl le_rfl
  · exact ⟨rfl,fun _ => rfl,rfl,rfl,le_rfl⟩

theorem quietOpenThinking : Quiet st ((openThinking st).1,(openThinking st).2.1) := by
  unfold openThinking
  split
  · exact quietNothing rfl rfl le_rfl
  · exact ⟨rfl,fun _ => rfl,rfl,rfl,Nat.le_succ _⟩

theorem quietOpenText : Quiet st ((openText st).1,(openText st).2.1) := by
  unfold openText
  split
  · exact quietNothing rfl rfl le_rfl
  · exact ⟨rfl,fun _ => rfl,rfl,rfl,Nat.le_succ _⟩

theorem quietDelta {index d} (other : d.kind ≠ .tool) : Quiet st ([.contentBlockDelta index d],st) := by
  refine ⟨rfl,fun i => ?_,rfl,rfl,le_rfl⟩
  cases d with
  | inputJson partialJson => exact absurd rfl other
  | _ => rfl

theorem quietThinking : Quiet st (onThinking msg st) := by
  unfold onThinking
  split
  · exact quietNothing rfl rfl le_rfl
  · exact (quietCloseText.append quietOpenThinking).append (quietDelta (by simp [Delta.kind]))

theorem quietThinkingEnd {t} (tools : t.tools = st.tools) (active : t.activeTool = st.activeTool) (index : st.index ≤ t.index) :
    Quiet st (thinkingEnd st,t) := by
  unfold thinkingEnd
  split
  · exact quietNothing tools active index
  · split
    · exact ⟨rfl,fun _ => rfl,tools,active,index⟩
    · exact ⟨rfl,fun _ => rfl,tools,active,index⟩

theorem quietCloseThinking : Quiet st (closeThinking msg (onSignature msg st)) := by
  have signed : Quiet st ([],onSignature msg st) := by
    unfold onSignature
    split <;> exact quietNothing rfl rfl le_rfl
  have closed : Quiet (onSignature msg st) (closeThinking msg (onSignature msg st)) := by
    unfold closeThinking
    split
    · exact quietNothing rfl rfl le_rfl
    · exact quietThinkingEnd rfl rfl le_rfl
  have both := signed.append closed
  rwa [List.nil_append] at both

theorem quietText : Quiet st (onText msg st) := by
  unfold onText
  split
  · exact quietNothing rfl rfl le_rfl
  · exact quietOpenText.append (quietDelta (by simp [Delta.kind]))

theorem quietCloseTextForTools : Quiet st (closeTextForTools msg st) := by
  unfold closeTextForTools
  split
  · exact quietNothing rfl rfl le_rfl
  · exact quietCloseText

theorem fragmentsSnoc (calls : List ChatToolCall) : ∀ active, fragments active (calls ++ [call]) =
    fragments active calls ++ ((activeAfter (calls.foldl activeAfter active) call).map (fun id => (id,call.argumentsJson))).toList := by
  induction calls with
  | nil => intro active; simp [fragments]
  | cons first rest ih =>
    intro active
    rw [List.cons_append,fragments,ih,fragments,List.append_assoc]
    rfl

theorem fragmentsOfSnoc (active : activeAfter (calls.foldl activeAfter none) call = some toolId)
    (id : Text) : fragmentsOf id (calls ++ [call]) =
      fragmentsOf id calls ++ if toolId = id ∧ call.argumentsJson ≠ [] then [call.argumentsJson] else [] := by
  rw [fragmentsOf,fragmentsSnoc,active,List.filterMap_append,fragmentsOf]
  by_cases same : toolId = id ∧ call.argumentsJson ≠ []
  · simp [same]
  · simp [same]

structure Argued (toolId : Text) (tool : Tool) (fragment : Text) (st : State) (part : List Event × State) : Prop where
  starts : toolStarts part.1 = []
  others : ∀ index, index ≠ tool.index → partialsAt index part.1 = []
  own : tool.json ++ (partialsAt tool.index part.1).flatten = extend tool.json fragment
  filled : [] ∉ partialsAt tool.index part.1
  tools : ∀ id, part.2.tools.get id = if id = toolId then some { tool with json := extend tool.json fragment } else st.tools.get id
  active : part.2.activeTool = st.activeTool
  index : part.2.index = st.index

theorem argued {tool} (fragment : Text) (held : st.tools.get toolId = some tool) :
    Argued toolId tool fragment st (onArguments toolId tool fragment st) := by
  unfold onArguments
  split
  · rename_i empty
    have same : extend tool.json fragment = tool.json := by rw [empty,extendNothing]
    refine ⟨rfl,fun _ _ => rfl,by rw [same]; exact List.append_nil _,List.not_mem_nil,fun id => ?_,rfl,rfl⟩
    rw [same]
    split
    · rename_i own
      rw [own]
      exact held
    · rfl
  · dsimp only
    have grown : tool.json ++ (extend tool.json fragment).drop tool.json.length = extend tool.json fragment := extendDrop
    generalize (extend tool.json fragment).drop tool.json.length = delta at grown
    have tools : ∀ id, (st.tools.set toolId { tool with json := extend tool.json fragment }).get id =
        if id = toolId then some { tool with json := extend tool.json fragment } else st.tools.get id := fun id => getSet
    split
    · rename_i empty
      refine ⟨rfl,fun _ _ => rfl,?_,List.not_mem_nil,tools,rfl,rfl⟩
      rw [← grown,empty]
      rfl
    · rename_i some_
      refine ⟨rfl,fun index other => ?_,?_,?_,tools,rfl,rfl⟩
      · simp [partialsAt,Ne.symm other]
      · rw [← grown]
        simp [partialsAt]
      · simpa [partialsAt] using some_

theorem Tools.argued {tool}
    (tools : Tools calls events st) (named : activeAfter (calls.foldl activeAfter none) call = some toolId)
    (held : st.tools.get toolId = some tool)
    (step : Argued toolId tool call.argumentsJson { st with activeTool := some toolId } part) :
    Tools (calls ++ [call]) (events ++ part.1) part.2 := by
  have starts : toolStarts (events ++ part.1) = toolStarts events := by
    rw [toolStartsAppend,step.starts,List.append_nil]
  have lookup : ∀ id found, part.2.tools.get id = some found → ∃ old, st.tools.get id = some old ∧
      old.index = found.index ∧ old.name = found.name := by
    intro id found here
    rw [step.tools] at here
    split at here
    · rename_i own
      cases here
      exact ⟨tool,by rw [own]; exact held,rfl,rfl⟩
    · exact ⟨found,here,rfl,rfl⟩
  refine ⟨?_,?_,?_,?_,?_,?_,?_,?_,?_⟩
  · rw [step.active,List.foldl_append]
    exact named.symm
  · intro id found here
    obtain ⟨old,before,index,name⟩ := lookup id found here
    rw [starts,← index,← name]
    exact tools.started id old before
  · intro index id name inside
    rw [starts] at inside
    obtain ⟨old,before,number⟩ := tools.held index id name inside
    rw [step.tools]
    split
    · rename_i own
      rw [own,held] at before
      cases before
      exact ⟨_,rfl,number⟩
    · exact ⟨old,before,number⟩
  · intro id found here
    rw [step.tools] at here
    split at here
    · cases here
      rw [partialsAppend,List.flatten_append,tools.partials toolId tool held]
      exact step.own
    · rename_i other
      have elsewhere : found.index ≠ tool.index := fun same => other (tools.apart id toolId found tool here held same)
      rw [partialsAppend,step.others _ elsewhere,List.append_nil]
      exact tools.partials id found here
  · intro id
    have told := tools.json id
    rw [step.tools,fragmentsOfSnoc named]
    by_cases own : id = toolId
    · subst own
      rw [held] at told
      have told : tool.json = assemble (fragmentsOf id calls) := told
      rw [if_pos rfl]
      show extend tool.json call.argumentsJson = _
      by_cases empty : call.argumentsJson = []
      · rw [if_neg (fun both => both.2 empty),List.append_nil,← told,empty,extendNothing]
      · rw [if_pos ⟨rfl,empty⟩,assembleSnoc,← told]
    · rw [if_neg own,if_neg (fun both => own both.1.symm),List.append_nil]
      exact told
  · intro id other found second here there same
    obtain ⟨old,before,index,_⟩ := lookup id found here
    obtain ⟨older,beside,number,_⟩ := lookup other second there
    exact tools.apart id other old older before beside (by rw [index,number]; exact same)
  · intro id found here
    obtain ⟨old,before,index,_⟩ := lookup id found here
    rw [step.index,← index]
    exact tools.below id old before
  · intro index beyond
    rw [step.index] at beyond
    have beyond : st.index ≤ index := beyond
    have below := tools.below toolId tool held
    have elsewhere : index ≠ tool.index := by omega
    rw [partialsAppend,tools.fresh index beyond,step.others index elsewhere]
    rfl
  · intro index inside
    rw [partialsAppend] at inside
    obtain before | here := List.mem_append.mp inside
    · exact tools.filled index before
    · by_cases own : index = tool.index
      · rw [own] at here
        exact step.filled here
      · rw [step.others index own] at here
        cases here

theorem Tools.opened (name : Text) (tools : Tools calls events st) (new : st.tools.get toolId = none) :
    Tools calls (events ++ [.contentBlockStart st.index (.toolUse toolId name)]) { st with
      index := st.index+1
      tools := st.tools.set toolId ⟨st.index,name,[]⟩ } := by
  have starts : toolStarts (events ++ [.contentBlockStart st.index (.toolUse toolId name)]) =
      toolStarts events ++ [(st.index,toolId,name)] := toolStartsAppend
  have partials : ∀ index, partialsAt index (events ++ [.contentBlockStart st.index (.toolUse toolId name)]) =
      partialsAt index events := fun index => partialsAppend.trans (List.append_nil _)
  have lookup : ∀ id found, (st.tools.set toolId ⟨st.index,name,[]⟩).get id = some found →
      id = toolId ∧ found = ⟨st.index,name,[]⟩ ∨ st.tools.get id = some found := by
    intro id found here
    rw [getSet] at here
    split at here
    · rename_i own
      exact .inl ⟨own,(Option.some.inj here).symm⟩
    · exact .inr here
  refine ⟨tools.active,?_,?_,?_,?_,?_,?_,?_,fun index => by rw [partials]; exact tools.filled index⟩
  · intro id found here
    rw [starts]
    obtain ⟨rfl,rfl⟩ | before := lookup id found here
    · exact List.mem_append_right _ (.head _)
    · exact List.mem_append_left _ (tools.started id found before)
  · intro index id called inside
    rw [starts] at inside
    obtain before | here := List.mem_append.mp inside
    · obtain ⟨old,held,number⟩ := tools.held index id called before
      refine ⟨old,?_,number⟩
      have other : id ≠ toolId := by
        intro same
        rw [same,new] at held
        cases held
      exact (getSetOther other).trans held
    · cases List.mem_singleton.mp here
      exact ⟨_,getSetSelf,rfl⟩
  · intro id found here
    rw [partials]
    obtain ⟨rfl,rfl⟩ | before := lookup id found here
    · rw [tools.fresh st.index le_rfl]
      rfl
    · exact tools.partials id found before
  · intro id
    have told := tools.json id
    rw [getSet]
    split
    · rename_i own
      rw [own,new] at told
      rw [own]
      exact told
    · exact told
  · intro id other found second here there same
    obtain ⟨rfl,rfl⟩ | before := lookup id found here
    · obtain ⟨rfl,_⟩ | beside := lookup other second there
      · rfl
      · have below := tools.below other second beside
        have same : st.index = second.index := same
        omega
    · obtain ⟨rfl,rfl⟩ | beside := lookup other second there
      · have below := tools.below id found before
        have same : found.index = st.index := same
        omega
      · exact tools.apart id other found second before beside same
  · intro id found here
    obtain ⟨rfl,rfl⟩ | before := lookup id found here
    · exact Nat.lt_succ_self _
    · exact Nat.lt_succ_of_lt (tools.below id found before)
  · intro index beyond
    rw [partials]
    exact tools.fresh index (Nat.le_of_succ_le beyond)

theorem toolsCall {s} (tools : Tools calls events st) (ok : (onCall call st).2 = .ok s) :
    Tools (calls ++ [call]) (events ++ (onCall call st).1) s := by
  have named : (if call.id ≠ [] then some call.id else st.activeTool) = activeAfter (calls.foldl activeAfter none) call := by
    rw [tools.active]
    rfl
  unfold onCall at ok ⊢
  rw [named] at ok ⊢
  cases active : activeAfter (calls.foldl activeAfter none) call with
  | none => rw [active] at ok; cases ok
  | some toolId =>
    rw [active] at ok
    unfold onNamedCall at ok ⊢
    cases held : st.tools.get toolId with
    | some tool =>
      simp only [held] at ok ⊢
      split at ok
      · cases ok
      · rename_i kept
        cases ok
        rw [if_neg kept]
        exact tools.argued active held (DevinStream.argued _ held)
    | none =>
      simp only [held] at ok ⊢
      split at ok
      · cases ok
      · rename_i called
        cases ok
        rw [if_neg called]
        have opened := tools.opened call.name held
        have first := opened.argued active getSetSelf (DevinStream.argued _ getSetSelf)
        rw [List.append_assoc] at first
        exact first

theorem takesQuiet (quiet : Quiet st part) : Takes Tools [] st (pass part) :=
  takesPass (fun _ _ tools => tools.quiet quiet)

theorem callThrows {failure} (thrown : (onCall call st).2 = .error failure) :
    (onCall call st).1 = [] := by
  unfold onCall at thrown ⊢
  split at thrown
  · rfl
  · unfold onNamedCall at thrown ⊢
    split at thrown
    · split at thrown
      · rename_i changed
        rw [if_pos changed]
      · cases thrown
    · split at thrown
      · rename_i unnamed
        rw [if_pos unnamed]
      · cases thrown

theorem takesCall : Takes Tools [call] st (onCall call st) := by
  intro calls events tools
  cases result : (onCall call st).2 with
  | ok s =>
    have told := toolsCall tools result
    exact ⟨⟨[call],s,List.prefix_rfl,told⟩,fun t same => by cases same; exact told⟩
  | error failure =>
    rw [callThrows result]
    refine ⟨⟨[],st,List.nil_prefix,?_⟩,fun s never => by cases never⟩
    rw [List.append_nil,List.append_nil]
    exact tools

theorem takesCalls (calls : List ChatToolCall) : ∀ st, Takes Tools calls st (onCalls calls st) := by
  induction calls with
  | nil => exact fun st => takesQuiet (quietNothing rfl rfl le_rfl)
  | cons call rest ih => exact fun st => takesCall.andThen (fun s _ => ih s)

theorem takesParts : Takes Tools msg.deltaToolCalls st (onParts msg st) := by
  refine (takesQuiet quietBegin).andThen (fun a same => ?_)
  refine (takesQuiet quietThinking).andThen (fun b same => ?_)
  refine (takesQuiet quietCloseThinking).andThen (fun c same => ?_)
  refine (takesQuiet quietText).andThen (fun d same => ?_)
  refine (takesQuiet quietCloseTextForTools).andThen (fun e same => ?_)
  exact takesCalls _ e

def messagesOf (fromBinary : Bytes → Option ChatMessage) (payloads : List Bytes) : List ChatMessage :=
  payloads.filterMap fromBinary

def callsOf (messages : List ChatMessage) : List ChatToolCall := messages.flatMap ChatMessage.deltaToolCalls

theorem takesPayload {fromBinary payload} :
    Takes Tools (callsOf (messagesOf fromBinary [payload])) st (onPayload fromBinary payload st) := by
  unfold onPayload
  dsimp only
  split
  · exact takesNothing
  · cases said : fromBinary payload with
    | none => exact takesNothing
    | some msg =>
      have calls : callsOf (messagesOf fromBinary [payload]) = msg.deltaToolCalls := by simp [callsOf,messagesOf,said]
      rw [calls]
      unfold onMessage
      dsimp only
      split
      · exact takesNothing
      · intro calls events tools
        have seen : Quiet st ([],observe msg { st with totalBytes := st.totalBytes+payload.length }) := by
          unfold observe
          split <;> exact quietNothing rfl rfl le_rfl
        have kept := tools.quiet seen
        rw [List.append_nil] at kept
        exact takesParts calls events kept

theorem takesPayloads (fromBinary : Bytes → Option ChatMessage) (payloads : List Bytes) : ∀ st,
    Takes Tools (callsOf (messagesOf fromBinary payloads)) st (onPayloads fromBinary payloads st) := by
  induction payloads with
  | nil => exact fun st => takesQuiet (quietNothing rfl rfl le_rfl)
  | cons payload rest ih =>
    intro st
    have split : callsOf (messagesOf fromBinary (payload::rest)) =
        callsOf (messagesOf fromBinary [payload]) ++ callsOf (messagesOf fromBinary rest) := by
      rw [callsOf,callsOf,callsOf,← List.flatMap_append,messagesOf,messagesOf,messagesOf,← List.filterMap_append]
      rfl
    rw [split]
    exact takesPayload.andThen (fun s _ => ih s)

theorem stopToolsSilent (tools : List Tool) : toolStarts (stopTools tools).1 = [] ∧
    ∀ index, partialsAt index (stopTools tools).1 = [] := by
  induction tools with
  | nil => exact ⟨rfl,fun _ => rfl⟩
  | cons tool rest ih =>
    rw [stopTools]
    split
    · exact ih
    · exact ⟨rfl,fun _ => rfl⟩

theorem quietFinish : Quiet st ((finish st).1,st) := by
  have open_ : Quiet st (thinkingEnd st ++ (closeText st).1,st) := by
    have closed : Quiet st ((closeText st).1,st) :=
      ⟨quietCloseText.starts,quietCloseText.partials,rfl,rfl,le_rfl⟩
    exact (quietThinkingEnd (t := st) rfl rfl le_rfl).append closed
  have stops : Quiet st ((stopTools (st.tools.map Prod.snd)).1,st) :=
    ⟨(stopToolsSilent _).1,(stopToolsSilent _).2,rfl,rfl,le_rfl⟩
  have closing : Quiet st ([.messageDelta (stopReason st) st.usage,.messageStop],st) :=
    ⟨rfl,fun _ => rfl,rfl,rfl,le_rfl⟩
  unfold finish
  split
  · exact quietNothing rfl rfl le_rfl
  · split
    · exact quietNothing rfl rfl le_rfl
    · dsimp only
      split
      · exact open_.append stops
      · split
        · exact open_.append stops
        · exact (open_.append stops).append closing

theorem finishWhole (fine : (finish st).2 = none) : ∀ id tool, st.tools.get id = some tool → wholeArguments tool.json = true := by
  unfold finish at fine
  split at fine
  · cases fine
  · split at fine
    · cases fine
    · dsimp only at fine
      split at fine
      · cases fine
      · rename_i whole
        obtain ⟨_,_,object⟩ := stopToolsPrefix (st.tools.map Prod.snd)
        intro id tool held
        exact (object whole).2 tool (List.mem_map.mpr ⟨_,memOfGet held,rfl⟩)

end

section
variable {gunzip : Bytes → Option Bytes} {fromBinary : Bytes → Option ChatMessage} {context : Context} {chunks : List Bytes}

def Accepted (fromBinary : Bytes → Option ChatMessage) (context : Context) (payloads : List Bytes) : Prop :=
  ∃ st, (onPayloads fromBinary payloads (State.start context)).2 = .ok st

theorem translateAccepted (fine : (translate gunzip fromBinary context chunks).2 = none) :
    Accepted fromBinary context (decodeConnect gunzip [] chunks).1 := by
  unfold translate at fine
  dsimp only at fine
  split at fine
  · cases fine
  · rename_i st said
    exact ⟨st,said⟩

theorem translateTools (gunzip : Bytes → Option Bytes) (fromBinary : Bytes → Option ChatMessage) (context : Context)
    (chunks : List Bytes) : ∃ taken st, taken <+: callsOf (messagesOf fromBinary (decodeConnect gunzip [] chunks).1) ∧
    Tools taken (translate gunzip fromBinary context chunks).1 st ∧
    (Accepted fromBinary context (decodeConnect gunzip [] chunks).1 →
      taken = callsOf (messagesOf fromBinary (decodeConnect gunzip [] chunks).1)) ∧
    ((translate gunzip fromBinary context chunks).2 = none →
      ∀ id tool, st.tools.get id = some tool → wholeArguments tool.json = true) := by
  obtain ⟨⟨taken,s,first,broken⟩,whole⟩ := takesPayloads fromBinary (decodeConnect gunzip [] chunks).1 _ [] [] toolsStart
  unfold translate
  dsimp only
  cases said : (onPayloads fromBinary (decodeConnect gunzip [] chunks).1 (State.start context)).2 with
  | error failure =>
    refine ⟨taken,s,first,broken,fun never => ?_,nofun⟩
    obtain ⟨st,ok⟩ := never
    rw [said] at ok
    cases ok
  | ok st =>
    cases (decodeConnect gunzip [] chunks).2 with
    | some failure => exact ⟨_,st,List.prefix_rfl,whole st said,fun _ => rfl,nofun⟩
    | none => exact ⟨_,st,List.prefix_rfl,(whole st said).quiet quietFinish,fun _ => rfl,finishWhole⟩

end

end Clankermux.DevinStream
