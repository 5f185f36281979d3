import Mathlib.Data.List.Range
import Clankermux.DevinArguments

/-! The reply without a stream is what the stream's events are folded to. -/
namespace Clankermux.DevinStream
open DevinConnect InsertionMap BlockStream

def heads (events : List Event) : List (Text × Text × Usage) :=
  events.filterMap (fun event => match event with
    | .messageStart id model usage => some (id,model,usage)
    | _ => none)

def endings (events : List Event) : List (String × Usage) :=
  events.filterMap (fun event => match event with
    | .messageDelta stopReason usage => some (stopReason,usage)
    | _ => none)

def starts (events : List Event) : List (Nat × BlockStart) :=
  events.filterMap (fun event => match event with
    | .contentBlockStart index block => some (index,block)
    | _ => none)

def deltas (index : Nat) (events : List Event) : List Delta :=
  events.filterMap (fun event => match event with
    | .contentBlockDelta i delta => if i = index then some delta else none
    | _ => none)

@[grind] def Delta.said : Delta → Option Text
  | .text words => some words
  | _ => none

@[grind] def Delta.thought : Delta → Option Text
  | .thinking words => some words
  | _ => none

@[grind] def Delta.signed : Delta → Option Text
  | .signature words => some words
  | _ => none

@[grind] def Delta.argued : Delta → Option Text
  | .inputJson words => some words
  | _ => none

@[grind] def spell (deltas : List Delta) : BlockStart → Option Block
  | .text => some (.text (deltas.filterMap Delta.said).flatten)
  | .thinking => some (.thinking (deltas.filterMap Delta.thought).flatten
      (if deltas.filterMap Delta.signed = [] then none else some (deltas.filterMap Delta.signed).flatten))
  | .toolUse id name => (JsonText.parse (if (deltas.filterMap Delta.argued).flatten = [] then "\x7b\x7d".toList
      else (deltas.filterMap Delta.argued).flatten)).map (.toolUse id name)

def contentOf (events : List Event) : List (Option Block) :=
  (starts events).map (fun entry => spell (deltas entry.1 events) entry.2)

def drafted (deltas : List Delta) (start : BlockStart) : Block := deltas.foldl Block.apply start.block

section
variable {said : List Delta}

theorem draftedSnoc {delta : Delta} {start : BlockStart} : drafted (said ++ [delta]) start = (drafted said start).apply delta := by
  rw [drafted,List.foldl_append]
  rfl

theorem draftedText : drafted said .text = .text (said.filterMap Delta.said).flatten := by
  induction said using List.reverseRecOn with
  | nil => rfl
  | append_singleton before delta ih =>
    rw [draftedSnoc,ih,List.filterMap_append,List.flatten_append]
    cases delta <;> simp [Block.apply,Delta.said]

theorem draftedThinking : drafted said .thinking = .thinking (said.filterMap Delta.thought).flatten
    (if said.filterMap Delta.signed = [] then none else some (said.filterMap Delta.signed).flatten) := by
  induction said using List.reverseRecOn with
  | nil => rfl
  | append_singleton before delta ih =>
    rw [draftedSnoc,ih,List.filterMap_append,List.flatten_append,List.filterMap_append,List.flatten_append]
    generalize before.filterMap Delta.signed = signatures
    cases delta with
    | signature signature => cases signatures <;> simp [Block.apply,Delta.thought,Delta.signed]
    | _ => simp only [Block.apply,Delta.thought,Delta.signed,List.filterMap_cons,List.filterMap_nil,List.append_nil,
        List.flatten_cons,List.flatten_nil]

theorem draftedTool {id name : Text} : drafted said (.toolUse id name) = .toolUse id name (.obj []) := by
  induction said using List.reverseRecOn with
  | nil => rfl
  | append_singleton before delta ih =>
    rw [draftedSnoc,ih]
    cases delta <;> rfl

end

section
variable {α β : Type*} {items : List (Nat × α)} {n : Nat}

theorem numberedAt {index : Nat} {item : α} (numbers : items.map Prod.fst = List.range n) (inside : (index,item) ∈ items) :
    items[index]? = some (index,item) := by
  obtain ⟨place,bound,here⟩ := List.mem_iff_getElem.mp inside
  have number : (items.map Prod.fst)[place]? = some index := by
    rw [List.getElem?_map,List.getElem?_eq_getElem bound,here]
    rfl
  rw [numbers] at number
  obtain ⟨_,same⟩ := List.getElem?_eq_some_iff.mp number
  rw [List.getElem_range] at same
  rw [← same,List.getElem?_eq_getElem bound,here,same]

theorem numberedOnce {index : Nat} {item other : α} (numbers : items.map Prod.fst = List.range n)
    (inside : (index,item) ∈ items) (beside : (index,other) ∈ items) : item = other := by
  have here := numberedAt numbers inside
  rw [numberedAt numbers beside] at here
  cases here
  rfl

theorem setNumbered {index} {item : α} {f g : Nat × α → β} (numbers : items.map Prod.fst = List.range n)
    (inside : (index,item) ∈ items) (others : ∀ entry ∈ items, entry.1 ≠ index → g entry = f entry) :
    (items.map f).set index (g (index,item)) = items.map g := by
  have here := numberedAt numbers inside
  refine List.ext_getElem? (fun place => ?_)
  rw [List.getElem?_set,List.getElem?_map,List.getElem?_map]
  split
  · rename_i same
    subst same
    obtain ⟨bound,_⟩ := List.getElem?_eq_some_iff.mp here
    rw [here,List.length_map,if_pos bound]
    rfl
  · rename_i other
    cases at_ : items[place]? with
    | none => rfl
    | some entry =>
      have listed : entry ∈ items := List.mem_of_getElem? at_
      have place_ := numberedAt numbers listed
      have number : (items.map Prod.fst)[place]? = some entry.1 := by rw [List.getElem?_map,at_]; rfl
      rw [numbers] at number
      obtain ⟨_,same⟩ := List.getElem?_eq_some_iff.mp number
      rw [List.getElem_range] at same
      rw [Option.map_some,Option.map_some,others entry listed (by rw [← same]; exact Ne.symm other)]

end

inductive Ended : Stage → List (String × Usage) → Option String → Option Usage → Prop where
  | before : Ended .before [] none none
  | content : Ended .content [] none none
  | closing (reason : String) (usage : Usage) : Ended .closing [(reason,usage)] (some reason) (some usage)
  | after (reason : String) (usage : Usage) : Ended .after [(reason,usage)] (some reason) (some usage)

structure Gathers (events : List Event) (r : Reader Kind) (c : Collector) : Prop where
  head : heads events = c.message.toList
  begun : c.message = none ↔ r.stage = .before
  ended : Ended r.stage (endings events) c.stopReason c.usage
  numbers : (starts events).map Prod.fst = List.range r.next
  blocks : c.blocks = (starts events).map (fun entry => some (drafted (deltas entry.1 events) entry.2))
  opened : ∀ index kind, (index,kind) ∈ r.openBlocks → ∃ start, (index,start) ∈ starts events ∧ start.kind = kind
  fresh : ∀ index, r.next ≤ index → deltas index events = []
  json : ∀ index, c.json.get index = if partialsAt index events = [] then none else some (partialsAt index events).flatten
  unique : (keys c.json).Nodup
  tools : ∀ index, partialsAt index events ≠ [] → ∃ id name, (index,.toolUse id name) ∈ starts events

section
variable {events more : List Event} {index : Nat} {r s : Reader Kind} {c : Collector}

theorem headsAppend : heads (events ++ more) = heads events ++ heads more := List.filterMap_append

theorem endingsAppend : endings (events ++ more) = endings events ++ endings more := List.filterMap_append

theorem startsAppend : starts (events ++ more) = starts events ++ starts more := List.filterMap_append

theorem deltasAppend : deltas index (events ++ more) = deltas index events ++ deltas index more := List.filterMap_append

theorem partialsArgued : partialsAt index events = (deltas index events).filterMap Delta.argued := by
  rw [deltas,List.filterMap_filterMap]
  refine congrArg (fun f => List.filterMap f events) (funext (fun event => ?_))
  cases event with
  | contentBlockDelta i delta =>
    by_cases same : i = index
    · cases delta <;> simp [same,Delta.argued]
    · cases delta <;> simp [same]
  | _ => rfl

theorem gathersStart : Gathers [] .start Collector.start := by
  refine ⟨rfl,⟨fun _ => rfl,fun _ => rfl⟩,.before,rfl,rfl,?_,fun _ _ => rfl,fun _ => rfl,List.nodup_nil,?_⟩
  · intro index kind inside; cases inside
  · intro index some_; exact absurd rfl some_

theorem Gathers.around {event : Event} {d : Collector} (g : Gathers events r c) (starts_ : starts [event] = [])
    (deltas_ : ∀ index, deltas index [event] = []) (next : s.next = r.next) (opens : ∀ entry ∈ s.openBlocks, entry ∈ r.openBlocks)
    (blocks : d.blocks = c.blocks) (json : d.json = c.json) (head : heads (events ++ [event]) = d.message.toList)
    (begun : d.message = none ↔ s.stage = .before)
    (ended : Ended s.stage (endings (events ++ [event])) d.stopReason d.usage) : Gathers (events ++ [event]) s d := by
  have sameStarts : starts (events ++ [event]) = starts events := by rw [startsAppend,starts_,List.append_nil]
  have sameDeltas : ∀ index, deltas index (events ++ [event]) = deltas index events := by
    intro index
    rw [deltasAppend,deltas_,List.append_nil]
  have samePartials : ∀ index, partialsAt index (events ++ [event]) = partialsAt index events := by
    intro index
    rw [partialsArgued,sameDeltas,← partialsArgued]
  refine ⟨head,begun,ended,?_,?_,?_,?_,?_,?_,?_⟩
  · rw [sameStarts,next]; exact g.numbers
  · rw [blocks,sameStarts]
    simp only [sameDeltas]
    exact g.blocks
  · intro index kind inside
    rw [sameStarts]
    exact g.opened index kind (opens _ inside)
  · intro index beyond
    rw [sameDeltas]
    exact g.fresh index (next ▸ beyond)
  · intro index
    rw [json,samePartials]
    exact g.json index
  · rw [json]; exact g.unique
  · intro index some_
    rw [samePartials] at some_
    rw [sameStarts]
    exact g.tools index some_

theorem Ended.told {stage said} {reason : Option String} {usage : Option Usage}
    (ended : Ended stage said reason usage) (early : stage = .before ∨ stage = .content) :
    said = [] ∧ reason = none ∧ usage = none := by
  cases ended with
  | before | content => exact ⟨rfl,rfl,rfl⟩
  | _ => simp at early

theorem Ended.last {stage said} {reason : Option String} {usage : Option Usage}
    (ended : Ended stage said reason usage) (late : stage = .closing ∨ stage = .after) :
    ∃ one used, said = [(one,used)] ∧ reason = some one ∧ usage = some used := by
  cases ended with
  | closing one used | after one used => exact ⟨one,used,rfl,rfl,rfl⟩
  | _ => simp at late

theorem Gathers.messageStart {id model : Text} {usage : Usage} (g : Gathers events r c) (before : r.stage = .before) :
    Gathers (events ++ [.messageStart id model usage]) { r with stage := .content } { c with message := some (id,model,usage) } := by
  have none_ := g.begun.mpr before
  refine g.around rfl (fun _ => rfl) rfl (fun _ inside => inside) rfl rfl ?_ ⟨nofun,nofun⟩ ?_
  · rw [headsAppend,g.head,none_]
    rfl
  · obtain ⟨nothing,reason,usage⟩ := g.ended.told (.inl before)
    rw [endingsAppend,nothing,reason,usage]
    exact .content

theorem Gathers.blockStop {index : Nat} (g : Gathers events r c) : Gathers (events ++ [.contentBlockStop index])
    { r with openBlocks := delete r.openBlocks index } c := by
  refine g.around rfl (fun _ => rfl) rfl ?_ rfl rfl ?_ g.begun ?_
  · intro entry inside
    rw [deleteEqFilter] at inside
    exact List.mem_of_mem_filter inside
  · rw [headsAppend,g.head]
    exact List.append_nil _
  · rw [endingsAppend]
    have ended := g.ended
    rwa [← List.append_nil (endings events)] at ended

theorem Gathers.messageDelta {reason : String} {usage : Usage} (g : Gathers events r c) (content : r.stage = .content) :
    Gathers (events ++ [.messageDelta reason usage]) { r with stage := .closing } { c with
      stopReason := some reason
      usage := some usage } := by
  refine g.around rfl (fun _ => rfl) rfl (fun _ inside => inside) rfl rfl ?_ ?_ ?_
  · rw [headsAppend,g.head]
    exact List.append_nil _
  · refine ⟨fun never => ?_,fun never => by cases never⟩
    have before := g.begun.mp never
    rw [content] at before
    cases before
  · rw [endingsAppend,(g.ended.told (.inr content)).1]
    exact .closing reason usage

theorem Gathers.messageStop (g : Gathers events r c) (closing : r.stage = .closing) :
    Gathers (events ++ [.messageStop]) { r with stage := .after } c := by
  refine g.around rfl (fun _ => rfl) rfl (fun _ inside => inside) rfl rfl ?_ ?_ ?_
  · rw [headsAppend,g.head]
    exact List.append_nil _
  · refine ⟨fun never => ?_,fun never => by cases never⟩
    have before := g.begun.mp never
    rw [closing] at before
    cases before
  · obtain ⟨one,used,said,reason,usage⟩ := g.ended.last (.inl closing)
    rw [endingsAppend,said,reason,usage]
    exact .after one used

theorem putLast {α : Type} (items : List (Option α)) (item : α) : put items items.length item = items ++ [some item] := by
  rw [put,if_neg (Nat.lt_irrefl _),Nat.sub_self,List.replicate_zero,List.append_nil]

theorem Gathers.blockStart {block : BlockStart} (g : Gathers events r c) :
    Gathers (events ++ [.contentBlockStart r.next block]) { r with next := r.next+1,openBlocks := (r.next,block.kind)::r.openBlocks }
      { c with blocks := put c.blocks r.next block.block } := by
  have new : starts (events ++ [.contentBlockStart r.next block]) = starts events ++ [(r.next,block)] := startsAppend
  have sameDeltas : ∀ index, deltas index (events ++ [.contentBlockStart r.next block]) = deltas index events :=
    fun index => deltasAppend.trans (List.append_nil _)
  have samePartials : ∀ index, partialsAt index (events ++ [.contentBlockStart r.next block]) = partialsAt index events := by
    intro index
    rw [partialsArgued,sameDeltas,← partialsArgued]
  have long : c.blocks.length = r.next := by
    have counted := congrArg List.length g.numbers
    rw [List.length_map,List.length_range] at counted
    rw [g.blocks,List.length_map,counted]
  refine ⟨?_,g.begun,?_,?_,?_,?_,?_,?_,g.unique,?_⟩
  · rw [headsAppend,g.head]
    exact List.append_nil _
  · rw [endingsAppend]
    have ended := g.ended
    rwa [← List.append_nil (endings events)] at ended
  · rw [new,List.map_append,g.numbers,List.range_succ]
    rfl
  · have last := putLast c.blocks block.block
    rw [long] at last
    rw [last,new,List.map_append,g.blocks]
    simp only [sameDeltas,List.map_cons,g.fresh r.next le_rfl]
    rfl
  · intro index kind inside
    rw [new]
    obtain same | old := List.mem_cons.mp inside
    · cases same
      exact ⟨block,List.mem_append_right _ (.head _),rfl⟩
    · obtain ⟨start,listed,same⟩ := g.opened index kind old
      exact ⟨start,List.mem_append_left _ listed,same⟩
  · intro index beyond
    rw [sameDeltas]
    exact g.fresh index (Nat.le_of_succ_le beyond)
  · intro index
    rw [samePartials]
    exact g.json index
  · intro index some_
    rw [samePartials] at some_
    obtain ⟨id,name,inside⟩ := g.tools index some_
    exact ⟨id,name,by rw [new]; exact List.mem_append_left _ inside⟩

theorem blockAt {start : BlockStart} (g : Gathers events r c) (inside : (index,start) ∈ starts events) :
    (c.blocks[index]?).join = some (drafted (deltas index events) start) := by
  rw [g.blocks,List.getElem?_map,numberedAt g.numbers inside]
  rfl

theorem Gathers.blockDelta {delta} {start : BlockStart} {d : Collector} (g : Gathers events r c)
    (inside : (index,start) ∈ starts events)
    (message : d.message = c.message) (reason : d.stopReason = c.stopReason) (usage : d.usage = c.usage)
    (blocks : d.blocks = c.blocks.set index (some ((drafted (deltas index events) start).apply delta)))
    (json : ∀ i, d.json.get i = if partialsAt i (events ++ [.contentBlockDelta index delta]) = [] then none
      else some (partialsAt i (events ++ [.contentBlockDelta index delta])).flatten)
    (unique : (keys d.json).Nodup)
    (tool : delta.argued ≠ none → ∃ id name, start = .toolUse id name) :
    Gathers (events ++ [.contentBlockDelta index delta]) r d := by
  have same : starts (events ++ [.contentBlockDelta index delta]) = starts events := startsAppend.trans (List.append_nil _)
  have own : deltas index (events ++ [.contentBlockDelta index delta]) = deltas index events ++ [delta] := by
    simp [deltas]
  have others : ∀ i, i ≠ index → deltas i (events ++ [.contentBlockDelta index delta]) = deltas i events := by
    intro i other
    simp [deltas,Ne.symm other]
  have listed : index < r.next := by
    have number : index ∈ (starts events).map Prod.fst := List.mem_map.mpr ⟨_,inside,rfl⟩
    rw [g.numbers] at number
    exact List.mem_range.mp number
  refine ⟨?_,by rw [message]; exact g.begun,?_,by rw [same]; exact g.numbers,?_,?_,?_,json,unique,?_⟩
  · rw [headsAppend,g.head,message]
    exact List.append_nil _
  · rw [endingsAppend,reason,usage]
    have ended := g.ended
    rwa [← List.append_nil (endings events)] at ended
  · have replaced := setNumbered (f := fun entry : Nat × BlockStart => some (drafted (deltas entry.1 events) entry.2))
      (g := fun entry : Nat × BlockStart => some (drafted (deltas entry.1 (events ++ [.contentBlockDelta index delta])) entry.2))
      g.numbers inside (fun entry _ other => by rw [others entry.1 other])
    rw [same,← replaced,blocks,g.blocks]
    rw [own,draftedSnoc]
  · intro i kind open_
    rw [same]
    exact g.opened i kind open_
  · intro i beyond
    rw [others i (by omega)]
    exact g.fresh i beyond
  · intro i some_
    rw [same]
    by_cases here : i = index
    · subst here
      rw [partialsArgued,own,List.filterMap_append,← partialsArgued] at some_
      by_cases before : partialsAt i events = []
      · have argued : delta.argued ≠ none := by
          intro never
          rw [before,List.nil_append,List.filterMap_cons,never] at some_
          exact some_ rfl
        obtain ⟨id,name,rfl⟩ := tool argued
        exact ⟨id,name,inside⟩
      · exact g.tools i before
    · rw [partialsArgued,others i here,← partialsArgued] at some_
      exact g.tools i some_

theorem partialsSilent {delta : Delta} (silent : delta.argued = none) (i : Nat) :
    partialsAt i (events ++ [.contentBlockDelta index delta]) = partialsAt i events := by
  rw [partialsAppend]
  cases delta with
  | inputJson partialJson => cases silent
  | _ => exact List.append_nil _

theorem partialsArgument {partialJson : Text} (i : Nat) :
    partialsAt i (events ++ [.contentBlockDelta index (.inputJson partialJson)]) =
      if i = index then partialsAt i events ++ [partialJson] else partialsAt i events := by
  split
  · rename_i same
    simp [partialsAt,same]
  · rename_i other
    simp [partialsAt,Ne.symm other]

theorem toolKind {start : BlockStart} (kind : start.kind = .tool) : ∃ id name, start = .toolUse id name := by
  cases start with
  | toolUse id name => exact ⟨id,name,rfl⟩
  | _ => cases kind

theorem gathersStep {event : Event} (g : Gathers events r c) (read_ : BlockStream.read r event.shape = some s) :
    ∃ d, c.event event = some d ∧ Gathers (events ++ [event]) s d := by
  cases event with
  | messageStart id model usage =>
    obtain ⟨before,same⟩ := Option.ite_none_right_eq_some.mp read_
    cases same
    exact ⟨_,rfl,g.messageStart before⟩
  | contentBlockStart i block =>
    obtain ⟨⟨_,number⟩,same⟩ := Option.ite_none_right_eq_some.mp read_
    cases same
    subst number
    exact ⟨_,rfl,g.blockStart⟩
  | contentBlockStop i =>
    obtain ⟨_,same⟩ := Option.ite_none_right_eq_some.mp read_
    cases same
    exact ⟨c,rfl,g.blockStop⟩
  | messageDelta reason usage =>
    obtain ⟨⟨content,_⟩,same⟩ := Option.ite_none_right_eq_some.mp read_
    cases same
    exact ⟨_,rfl,g.messageDelta content⟩
  | messageStop =>
    obtain ⟨closing,same⟩ := Option.ite_none_right_eq_some.mp read_
    cases same
    exact ⟨c,rfl,g.messageStop closing⟩
  | contentBlockDelta i delta =>
    obtain ⟨⟨_,open_⟩,same⟩ := Option.ite_none_right_eq_some.mp read_
    cases same
    obtain ⟨start,inside,kind⟩ := g.opened i delta.kind open_
    have block := blockAt g inside
    unfold Collector.event
    dsimp only
    rw [block]
    cases delta with
    | inputJson partialJson =>
      obtain ⟨id,name,rfl⟩ := toolKind kind
      refine ⟨_,rfl,g.blockDelta inside rfl rfl rfl ?_ ?_ ?_ (fun _ => ⟨id,name,rfl⟩)⟩
      · rw [draftedTool] at block
        have here : c.blocks[i]? = some (some (.toolUse id name (.obj []))) := Option.join_eq_some_iff.mp block
        obtain ⟨bound,same⟩ := List.getElem?_eq_some_iff.mp here
        have kept := List.set_getElem_self bound
        rw [same] at kept
        rw [draftedTool]
        exact kept.symm
      · intro j
        rw [partialsArgument,getSet,g.json,g.json]
        split
        · rename_i own
          subst own
          rw [if_neg (fun never : partialsAt j events ++ [partialJson] = [] => List.append_ne_nil_of_right_ne_nil _ (List.cons_ne_nil _ _) never),
            List.flatten_append,List.flatten_singleton]
          split
          · rename_i none_
            rw [none_]
            rfl
          · rfl
        · rfl
      · rw [keysSet]
        split
        · exact g.unique
        · rename_i new
          exact List.nodup_append.mpr ⟨g.unique,List.nodup_singleton _,fun a old b here => by
            rw [List.mem_singleton.mp here]
            exact fun same => new (same ▸ old)⟩
    | _ =>
      refine ⟨_,rfl,g.blockDelta inside rfl rfl rfl rfl ?_ g.unique (fun never => absurd rfl never)⟩
      intro j
      rw [partialsSilent rfl]
      exact g.json j

theorem gathersRun (events : List Event) (read_ : reads .start (events.map Event.shape) = some r) :
    ∃ c, events.foldlM Collector.event Collector.start = some c ∧ Gathers events r c := by
  induction events using List.reverseRecOn generalizing r with
  | nil =>
    cases read_
    exact ⟨_,rfl,gathersStart⟩
  | append_singleton before event ih =>
    rw [List.map_append,readsAppend] at read_
    obtain ⟨middle,first,last⟩ := Option.bind_eq_some_iff.mp read_
    obtain ⟨c,held,g⟩ := ih first
    have one : BlockStream.read middle event.shape = some r := by
      obtain ⟨t,here,same⟩ := Option.bind_eq_some_iff.mp last
      cases same
      exact here
    obtain ⟨d,taken,after⟩ := gathersStep g one
    refine ⟨d,?_,after⟩
    rw [List.foldlM_append,held]
    simp [taken]

end

def settle (json : InsertionMap Nat Text) (index : Nat) (block : Block) : Block :=
  match (json.get index).bind JsonText.parse with
  | some input => block.setInput input
  | none => block

section
variable {events : List Event} {r : Reader Kind} {c : Collector}

theorem readInputsSettle {α : Type*} {items : List (Nat × α)} {n : Nat} (numbers : items.map Prod.fst = List.range n)
    (json : InsertionMap Nat Text) : ∀ f : Nat × α → Block, (keys json).Nodup →
      (∀ entry ∈ json, (∃ item, (entry.1,item) ∈ items) ∧ (JsonText.parse entry.2).isSome) →
      readInputs json (items.map (fun item => some (f item))) = some (items.map (fun item => some (settle json item.1 (f item)))) := by
  induction json with
  | nil => exact fun f _ _ => rfl
  | cons entry rest ih =>
    intro f unique known
    obtain ⟨index,value⟩ := entry
    obtain ⟨fresh,unique⟩ := List.nodup_cons.mp unique
    obtain ⟨⟨item,inside⟩,parses⟩ := known (index,value) (.head _)
    obtain ⟨input,parsed⟩ := Option.isSome_iff_exists.mp parses
    have block : ((items.map (fun item => some (f item)))[index]?).join = some (f (index,item)) := by
      rw [List.getElem?_map,numberedAt numbers inside]
      rfl
    have replaced := setNumbered (f := fun one => some (f one))
      (g := fun one => some (if one.1 = index then (f one).setInput input else f one)) numbers inside
      (fun one _ other => by rw [if_neg other])
    rw [if_pos rfl] at replaced
    rw [readInputs,block,parsed]
    dsimp only
    rw [replaced,ih _ unique (fun one later => known one (.tail _ later))]
    refine congrArg some (List.map_congr_left (fun one _ => congrArg some ?_))
    have absent : get rest index = none := by
      cases held : get rest index with
      | none => rfl
      | some other => exact absurd (memKeysOfGet held) fresh
    unfold settle
    by_cases own : one.1 = index
    · rw [own,if_pos rfl,absent]
      have parsed : JsonText.parse value = some input := parsed
      simp [InsertionMap.get,parsed]
    · rw [if_neg own]
      simp [InsertionMap.get,Ne.symm own]

def ArgumentsRead (events : List Event) : Prop :=
  ∀ index, [] ∉ partialsAt index events ∧
    (partialsAt index events ≠ [] → (JsonText.parse (partialsAt index events).flatten).isSome = true)

theorem Gathers.contents (g : Gathers events r c) (arguments : ArgumentsRead events) : contentOf events =
    (starts events).map (fun entry => some (settle c.json entry.1 (drafted (deltas entry.1 events) entry.2))) := by
  refine List.map_congr_left (fun entry inside => ?_)
  obtain ⟨index,start⟩ := entry
  have silent : start.kind ≠ .tool → (c.json.get index).bind JsonText.parse = none := by
    intro other
    rw [g.json]
    split
    · rfl
    · rename_i some_
      obtain ⟨id,name,listed⟩ := g.tools index some_
      rw [numberedOnce g.numbers inside listed] at other
      exact absurd rfl other
  unfold settle
  cases start with
  | text => rw [silent (by simp [BlockStart.kind])]; exact congrArg some draftedText.symm
  | thinking => rw [silent (by simp [BlockStart.kind])]; exact congrArg some draftedThinking.symm
  | toolUse id name =>
    rw [g.json,draftedTool,spell,← partialsArgued]
    by_cases none_ : partialsAt index events = []
    · rw [if_pos none_,none_]
      have empty : JsonText.parse "\x7b\x7d".toList = some (.obj []) := rfl
      rfl
    · obtain ⟨filled,parses⟩ := arguments index
      obtain ⟨input,parsed⟩ := Option.isSome_iff_exists.mp (parses none_)
      have some_ : (partialsAt index events).flatten ≠ [] := by
        intro never
        obtain ⟨first,inside⟩ := List.exists_mem_of_ne_nil _ none_
        rw [List.flatten_eq_nil_iff] at never
        exact filled (never first inside ▸ inside)
      rw [if_neg none_,if_neg some_,parsed,Option.bind_some,parsed]
      rfl

theorem Gathers.read (g : Gathers events r c) (arguments : ArgumentsRead events) :
    readInputs c.json c.blocks = some (contentOf events) := by
  have held : ∀ entry ∈ c.json, partialsAt entry.1 events ≠ [] ∧ (partialsAt entry.1 events).flatten = entry.2 := by
    intro entry inside
    have found := g.json entry.1
    rw [getOfMem g.unique inside] at found
    split at found
    · cases found
    · rename_i some_
      exact ⟨some_,(Option.some.inj found).symm⟩
  have known : ∀ entry ∈ c.json, (∃ start, (entry.1,start) ∈ starts events) ∧ (JsonText.parse entry.2).isSome := by
    intro entry inside
    obtain ⟨some_,same⟩ := held entry inside
    obtain ⟨id,name,listed⟩ := g.tools entry.1 some_
    exact ⟨⟨_,listed⟩,by rw [← same]; exact (arguments entry.1).2 some_⟩
  rw [g.blocks,readInputsSettle g.numbers c.json _ g.unique known,g.contents arguments]

theorem collectFolded (read_ : reads .start (events.map Event.shape) = some r) (ended : r.stage = .after)
    (arguments : ArgumentsRead events) : ∃ head ending, heads events = [head] ∧ endings events = [ending] ∧
      collect events = some ⟨head.1,head.2.1,some ending.1,ending.2,contentOf events⟩ := by
  obtain ⟨c,gathered,g⟩ := gathersRun events read_
  cases message : c.message with
  | none =>
    have before := g.begun.mp message
    rw [ended] at before
    cases before
  | some head =>
    obtain ⟨reason,usage,last,reason_,usage_⟩ := g.ended.last (.inr ended)
    refine ⟨head,(reason,usage),by rw [g.head,message]; rfl,last,?_⟩
    simp [collect,gathered,g.read arguments,message,reason_,usage_]

end

section
variable {events : List Event} {index : Nat} {id name : Text}

theorem toolStarted : (index,id,name) ∈ toolStarts events ↔ (index,BlockStart.toolUse id name) ∈ starts events := by
  rw [toolStarts,starts,List.mem_filterMap,List.mem_filterMap]
  constructor
  · rintro ⟨event,inside,here⟩
    refine ⟨event,inside,?_⟩
    split at here
    · cases here
      rfl
    · cases here
  · rintro ⟨event,inside,here⟩
    refine ⟨event,inside,?_⟩
    split at here
    · cases here
      rfl
    · cases here

theorem wholeParses {json : Text} (whole : wholeArguments json = true) (some_ : json ≠ []) : (JsonText.parse json).isSome = true := by
  unfold wholeArguments at whole
  rw [if_neg some_] at whole
  split at whole
  · rename_i parsed
    rw [parsed]
    rfl
  · cases whole

end

section
variable {gunzip : Bytes → Option Bytes} {fromBinary : Bytes → Option ChatMessage} {context : Context} {chunks : List Bytes}

theorem replyFolded (fine : (translate gunzip fromBinary context chunks).2 = none) : ∃ head ending,
    heads (translate gunzip fromBinary context chunks).1 = [head] ∧
    endings (translate gunzip fromBinary context chunks).1 = [ending] ∧
    reply (translate gunzip fromBinary context chunks) =
      .ok ⟨head.1,head.2.1,some ending.1,ending.2,contentOf (translate gunzip fromBinary context chunks).1⟩ := by
  obtain ⟨⟨r,read_,stage⟩,_⟩ := translateRead gunzip fromBinary context chunks
  obtain ⟨taken,st,_,tools,_,whole⟩ := translateTools gunzip fromBinary context chunks
  obtain ⟨c,_,g⟩ := gathersRun _ read_
  have arguments : ArgumentsRead (translate gunzip fromBinary context chunks).1 := by
    intro index
    refine ⟨tools.filled index,fun some_ => ?_⟩
    obtain ⟨id,name,listed⟩ := g.tools index some_
    obtain ⟨tool,held,rfl⟩ := tools.held index id name (toolStarted.mpr listed)
    have object := whole fine id tool held
    rw [tools.partials id tool held]
    refine wholeParses object (fun never => ?_)
    rw [← tools.partials id tool held] at never
    obtain ⟨first,inside⟩ := List.exists_mem_of_ne_nil _ some_
    rw [List.flatten_eq_nil_iff] at never
    exact tools.filled tool.index (never first inside ▸ inside)
  obtain ⟨head,ending,one,last,collected⟩ := collectFolded read_ (stage fine) arguments
  refine ⟨head,ending,one,last,?_⟩
  rw [reply,fine]
  rw [collected]

end

end Clankermux.DevinStream
