import Clankermux.OpenAIStreamOrder

/-! Whole replies: for which of them the translated stream is one well-formed message that
stops on a tool only when it has one. -/
namespace Clankermux.OpenAIFormats
open BlockStream InsertionMap

variable {c : Context} {r : Reader Kind} {past : List Piece} {named : List Nat} {rt : Runtime}

def Beside (c d : Context) : Prop := ∃ hasStarted extractedModel promptTokens completionTokens cacheReadInputTokens
    cacheCreationInputTokens sawCacheRead sawCacheCreation finishReason,
  d = { c with hasStarted,extractedModel,promptTokens,completionTokens,cacheReadInputTokens,cacheCreationInputTokens
               sawCacheRead,sawCacheCreation,finishReason }

theorem readChunkBeside (c : Context) (data : Chunk) :
    Beside c (readChunk c data) ∧ (readChunk c data).finishReason = (truthy data.finishReason).or c.finishReason := by
  unfold readChunk readUsage readFinishReason readModel
  cases c.hasStarted with
  | true => cases data.usage <;> exact ⟨⟨_,_,_,_,_,_,_,_,_,rfl⟩,rfl⟩
  | false => cases truthy data.model <;> cases data.usage <;> exact ⟨⟨_,_,_,_,_,_,_,_,_,rfl⟩,rfl⟩

theorem Passed.beside {d} (passed : Passed c past r) (beside : Beside c d) : Passed d past r := by
  obtain ⟨_,_,_,_,_,_,_,_,_,rfl⟩ := beside
  obtain ⟨b,t⟩ := passed
  exact ⟨{ b with },
    { t with }⟩

theorem Named.beside {d} (known : Named c named) (beside : Beside c d) : Named d named := by
  obtain ⟨_,_,_,_,_,_,_,_,_,rfl⟩ := beside
  exact known

structure Keeps (c d : Context) : Prop where
  sent : d.hasSentStart = c.hasSentStart
  finish : d.finishReason = c.finishReason

theorem Keeps.trans {d e} (first : Keeps c d) (second : Keeps d e) : Keeps c e :=
  ⟨second.sent.trans first.sent,second.finish.trans first.finish⟩

theorem onItemKeeps (known : Named c named) (item : Item) : Keeps c (onItem c item).context := by
  cases item with
  | reasoning text =>
    simp only [onItem,onReasoning,Emits.andThen,startThinkingSame]
    split <;> exact ⟨rfl,rfl⟩
  | text text =>
    simp only [onItem,onContent,Emits.andThen,startTextSame]
    split <;> exact ⟨rfl,rfl⟩
  | toolCall toolCall =>
    have buffer : ∀ d idx, Keeps d (bufferArguments d idx toolCall) := by
      intro d idx
      obtain ⟨accumulators,same,-⟩ := bufferSame d idx toolCall
      rw [same]
      exact ⟨rfl,rfl⟩
    simp only [onItem]
    cases known.effect toolCall with
    | refused unnamed same =>
      rw [same]
      exact ⟨rfl,rfl⟩
    | continued idx inside mine same =>
      rw [same]
      exact Keeps.trans (c := c) (d := encountered c) ⟨rfl,rfl⟩ (buffer _ _)
    | opened idx id name its fresh same =>
      rw [same]
      refine Keeps.trans (d := (openTool (encountered c) idx id name).context) ?_ (buffer _ _)
      rw [openToolSame]
      exact ⟨rfl,rfl⟩

def namedAfter (named : List Nat) (items : List Item) : List Nat := items.foldl namedBy named

theorem Named.items (items : List Item) : ∀ {c named}, Named c named →
    Named (onItems c items).context (namedAfter named items) ∧ Keeps c (onItems c items).context := by
  induction items with
  | nil => exact fun known => ⟨known,rfl,rfl⟩
  | cons item rest ih =>
    intro c named known
    obtain ⟨last,keeps⟩ := ih (known.item item)
    exact ⟨last,(onItemKeeps known item).trans keeps⟩

theorem piecesAppend (named : List Nat) (items others : List Item) :
    pieces named (items ++ others) = pieces named items ++ pieces (namedAfter named items) others := by
  induction items generalizing named with
  | nil => rfl
  | cons item rest ih => simp [pieces,namedAfter,ih]

theorem onChunkItems (c : Context) (data : Chunk) :
    onChunk c data = (sendStart (readChunk c data)).andThen (onItems · (chunkItems data)) := by
  unfold onChunk chunkItems
  cases data.delta with
  | none => rfl
  | some delta => simp [onDeltaItems]

def bodyItems (chunks : List Chunk) : List Item := chunks.flatMap chunkItems

def finishOf (chunks : List Chunk) : Option String := (chunks.filterMap (fun data => truthy data.finishReason)).getLast?

theorem readChunkSent (c : Context) (data : Chunk) : (readChunk c data).hasSentStart = c.hasSentStart := by
  obtain ⟨_,_,_,_,_,_,_,_,_,same⟩ := (readChunkBeside c data).1
  rw [same]

theorem onChunkSent (sent : c.hasSentStart = true) (data : Chunk) :
    onChunk c data = onItems (readChunk c data) (chunkItems data) := by
  rw [onChunkItems,sendStart,if_pos ((readChunkSent c data).trans sent)]
  rfl

theorem Named.chunk (known : Named c named) (sent : c.hasSentStart = true) (data : Chunk) :
    Named (readChunk c data) named ∧ Named (onItems (readChunk c data) (chunkItems data)).context (namedAfter named (chunkItems data)) ∧
    (onItems (readChunk c data) (chunkItems data)).context.hasSentStart = true := by
  obtain ⟨beside,-⟩ := readChunkBeside c data
  obtain ⟨next,keeps⟩ := (known.beside beside).items (chunkItems data)
  exact ⟨known.beside beside,next,keeps.sent.trans ((readChunkSent c data).trans sent)⟩

def chunkLines (chunks : List Chunk) : List Line := chunks.map .chunk

theorem bodyCons (c : Context) (data : Chunk) (rest : List Chunk) :
    onLines rt c (chunkLines (data::rest)) = (onChunk c data).andThen (onLines rt · (chunkLines rest)) := rfl

theorem bodyItemsCons (data : Chunk) (rest : List Chunk) : bodyItems (data::rest) = chunkItems data ++ bodyItems rest := rfl

theorem finishCons (data : Chunk) (rest : List Chunk) (before : Option String) :
    (finishOf (data::rest)).or before = (finishOf rest).or ((truthy data.finishReason).or before) := by
  unfold finishOf
  cases given : truthy data.finishReason with
  | none => simp [given]
  | some finishReason =>
    cases later : (rest.filterMap (fun data => truthy data.finishReason)).getLast? with
    | none => simp [given,List.getLast?_eq_none_iff.mp later]
    | some last => simp [given,List.getLast?_cons,later]

theorem Named.body (rt : Runtime) (chunks : List Chunk) : ∀ {c named}, Named c named → c.hasSentStart = true →
    Named (onLines rt c (chunkLines chunks)).context (namedAfter named (bodyItems chunks)) ∧
    (onLines rt c (chunkLines chunks)).context.hasSentStart = true ∧
    (onLines rt c (chunkLines chunks)).context.finishReason = (finishOf chunks).or c.finishReason := by
  induction chunks with
  | nil => exact fun known sent => ⟨known,sent,rfl⟩
  | cons data rest ih =>
    intro c named known sent
    obtain ⟨beside,finish⟩ := readChunkBeside c data
    obtain ⟨next,keeps⟩ := (known.beside beside).items (chunkItems data)
    have still := keeps.sent.trans ((readChunkSent c data).trans sent)
    rw [bodyCons,onChunkSent sent,bodyItemsCons,namedAfter,List.foldl_append,finishCons,← finish,← keeps.finish]
    exact ih next still

theorem Passed.body (chunks : List Chunk) : ∀ {c past r named}, Passed c past r → Named c named → WellOrdered past →
    c.hasSentStart = true →
    (WellOrdered (past ++ pieces named (bodyItems chunks)) →
      ∃ s, reads r (OpenAIFormats.blocks (onLines rt c (chunkLines chunks)).events) = some s ∧
        Passed (onLines rt c (chunkLines chunks)).context (past ++ pieces named (bodyItems chunks)) s) ∧
    (¬ WellOrdered (past ++ pieces named (bodyItems chunks)) →
      reads r (OpenAIFormats.blocks (onLines rt c (chunkLines chunks)).events) = none) := by
  induction chunks with
  | nil =>
    intro c past r named passed known ordered sent
    simp only [bodyItems,List.flatMap_nil,pieces,List.append_nil]
    exact ⟨fun _ => ⟨r,rfl,passed⟩,fun bad => absurd ordered bad⟩
  | cons data rest ih =>
    intro c past r named passed known ordered sent
    obtain ⟨beside,-⟩ := readChunkBeside c data
    obtain ⟨read,later,still⟩ := known.chunk sent data
    obtain ⟨good,bad⟩ := (passed.beside beside).items (chunkItems data) read ordered
    rw [bodyCons,onChunkSent sent,bodyItemsCons,piecesAppend,← List.append_assoc]
    simp only [Emits.andThen,blocksAppend,readsAppend]
    by_cases next : WellOrdered (past ++ pieces named (chunkItems data))
    · obtain ⟨s,read,passed⟩ := good next
      rw [read]
      exact ih passed later next still
    · rw [bad next]
      exact ⟨fun whole => absurd whole.before next,fun _ => rfl⟩

theorem passedStart (resolvedModel : Option String) {d}
    (beside : Beside { Context.start resolvedModel with hasSentStart := true } d) : Passed d [] ⟨.content,0,[]⟩ := by
  obtain ⟨_,_,_,_,_,_,_,_,_,rfl⟩ := beside
  refine ⟨⟨rfl,rfl,fun index kind => ?_,?_,?_,?_,?_,?_,?_,?_⟩,⟨?_,?_,?_,?_,?_,?_,?_⟩⟩
  · cases kind <;> simp [IsOpen,Context.start,toolBlocks]
  all_goals simp [Context.start,toolBlocks,Ended]

theorem namedStart (resolvedModel : Option String) : Named (.start resolvedModel) [] := by
  intro idx
  simp [Context.start]

structure First (data : Chunk) (d : Context) : Prop where
  passed : Passed d [] ⟨.content,0,[]⟩
  named : Named d []
  sent : d.hasSentStart = true
  finish : d.finishReason = truthy data.finishReason

theorem firstChunk (resolvedModel : Option String) (data : Chunk) : ∃ d model, First data d ∧
    onChunk (.start resolvedModel) data =
      ⟨(onItems d (chunkItems data)).context,[.messageStart model,.ping] ++ (onItems d (chunkItems data)).events⟩ := by
  obtain ⟨beside,finish⟩ := readChunkBeside (.start resolvedModel) data
  have read : Named (readChunk (.start resolvedModel) data) [] := (namedStart resolvedModel).beside beside
  refine ⟨{ readChunk (.start resolvedModel) data with hasSentStart := true },
    (readChunk (.start resolvedModel) data).extractedModel,⟨?_,read,rfl,?_⟩,?_⟩
  · refine passedStart resolvedModel ?_
    obtain ⟨_,_,_,_,_,_,_,_,_,its⟩ := beside
    exact ⟨_,_,_,_,_,_,_,_,_,by rw [its]⟩
  · simpa [Context.start] using finish
  · rw [onChunkItems,sendStart,if_neg (by simp [readChunkSent,Context.start]),Emits.andThen]

structure Told (c : Context) (chunks : List Chunk) : Prop where
  named : Named c (namedAfter [] (bodyItems chunks))
  sent : c.hasSentStart = true
  finish : c.finishReason = finishOf chunks

def bodyPieces (chunks : List Chunk) : List Piece := pieces [] (bodyItems chunks)

theorem bodyPiecesCons (data : Chunk) (rest : List Chunk) :
    bodyPieces (data::rest) = pieces [] (chunkItems data) ++ pieces (namedAfter [] (chunkItems data)) (bodyItems rest) :=
  piecesAppend _ _ _

theorem startBody (rt : Runtime) (resolvedModel : Option String) {chunks} (some_ : chunks ≠ []) :
    Told (onLines rt (.start resolvedModel) (chunkLines chunks)).context chunks ∧
    (WellOrdered (bodyPieces chunks) →
      ∃ s, reads .start (blocks (onLines rt (.start resolvedModel) (chunkLines chunks)).events) = some s ∧
        Passed (onLines rt (.start resolvedModel) (chunkLines chunks)).context (bodyPieces chunks) s) ∧
    (¬ WellOrdered (bodyPieces chunks) →
      reads .start (blocks (onLines rt (.start resolvedModel) (chunkLines chunks)).events) = none) := by
  cases chunks with
  | nil => exact absurd rfl some_
  | cons data rest =>
    obtain ⟨d,model,first,emitted⟩ := firstChunk resolvedModel data
    have empty : WellOrdered [] := fun a _ b _ _ sub => by simp at sub
    obtain ⟨next,keeps⟩ := first.named.items (chunkItems data)
    have still := keeps.sent.trans first.sent
    obtain ⟨later,sent,last⟩ := next.body rt rest still
    have events : reads .start (blocks (onLines rt (.start resolvedModel) (chunkLines (data::rest))).events) =
        (reads ⟨.content,0,[]⟩ (blocks (onItems d (chunkItems data)).events)).bind
          (reads · (blocks (onLines rt (onItems d (chunkItems data)).context (chunkLines rest)).events)) := by
      rw [bodyCons,emitted]
      simp [Emits.andThen,readsAppend,BlockStream.read,Reader.start]
    have context : (onLines rt (.start resolvedModel) (chunkLines (data::rest))).context =
        (onLines rt (onItems d (chunkItems data)).context (chunkLines rest)).context := by
      rw [bodyCons,emitted]
      rfl
    rw [events,context]
    obtain ⟨good,bad⟩ := first.passed.items (chunkItems data) first.named empty
    refine ⟨⟨?_,sent,?_⟩,?_⟩
    · rw [bodyItemsCons,namedAfter,List.foldl_append]
      exact later
    · have whole := finishCons data rest none
      simp only [Option.or_none] at whole
      rw [last,keeps.finish,first.finish,whole]
    · rw [bodyPiecesCons]
      by_cases ordered : WellOrdered (pieces [] (chunkItems data))
      · obtain ⟨s,read,passed⟩ := good ordered
        rw [read]
        exact passed.body rest next ordered still
      · rw [bad ordered]
        exact ⟨fun whole => absurd whole.before ordered,fun _ => rfl⟩

def Settled (ps : List Piece) : Prop := ∀ p, (ps.filter (· ≠ .call)).getLast? = some p → p = .opening

theorem settledEnded {ps} (ordered : WellOrdered ps) :
    Settled ps ↔ (.reasoning ∈ ps → Ended .reasoning ps) ∧ (.text ∈ ps → Ended .text ps) := by
  induction ps using List.reverseRecOn with
  | nil => simp [Settled]
  | append_singleton past p ih =>
    obtain ⟨before,fresh⟩ := wellOrderedSnoc.mp ordered
    have ih := ih before
    cases p with
    | call => simpa [Settled,endedSnoc] using ih
    | opening =>
      simp only [Settled,endedSnoc]
      simp +contextual
    | reasoning => simp [Settled,endedSnoc,fresh (.inl rfl)]
    | text => simp [Settled,endedSnoc,fresh (.inr rfl)]

theorem oneEnded {ps} (ordered : WellOrdered ps) (none_ : .opening ∉ ps) :
    ¬ (Ended .reasoning ps ∧ Ended .text ps) := by
  induction ps using List.reverseRecOn with
  | nil => simp [Ended]
  | append_singleton past p ih =>
    obtain ⟨before,fresh⟩ := wellOrderedSnoc.mp ordered
    have ih := ih before (fun inside => none_ (List.mem_append_left _ inside))
    cases p with
    | call => simpa [endedSnoc] using ih
    | opening => simp at none_
    | reasoning => simp [endedSnoc,fresh (.inl rfl)]
    | text => simp [endedSnoc,fresh (.inr rfl)]

def Ends (r : Reader Kind) (events : List Event) : Prop := ∃ s, reads r (blocks events) = some s ∧ s.stage = .after

theorem Blocks.endTurn (b : Blocks c r) (block : Option Nat) :
    Ends r (endTurn c block) ↔ ∀ index, index ∈ block.toList ↔ ∃ kind, IsOpen c index kind := by
  have same : OpenAIFormats.blocks (OpenAIFormats.endTurn c block) =
      block.toList.map .blockStop ++ [.messageDelta,.messageStop] := by
    cases block <;> rfl
  have unique : block.toList.Nodup := by cases block <;> simp
  rw [Ends,same,readsEnd b.content unique]
  have keys_ : ∀ index, index ∈ keys r.openBlocks ↔ ∃ kind, IsOpen c index kind := by
    intro index
    simp [keys,b.opened]
  simp only [keys_]

theorem Blocks.toolCalls (b : Blocks c r) : Ends r (emitToolCalls rt c) ↔
    (c.hasSentThinkingBlockStart = true → c.thinkingBlockClosed = true) ∧
      (c.hasSentContentBlockStart = true → c.textBlockClosed = true) := by
  have same : OpenAIFormats.blocks (emitToolCalls rt c) =
      ((toolBlocks c).map fun index => (index,Kind.toolUse)).map (fun entry => .blockDelta entry.1 entry.2) ++
        ((toolBlocks c).map .blockStop ++ [.messageDelta,.messageStop]) := by
    simp [emitToolCalls,emitStreamEnd,OpenAIFormats.blocks,toolBlocks,
      emitToolCallJson,Function.comp_def]
  have filled := readsDeltas ((toolBlocks c).map fun index => (index,Kind.toolUse)) b.content (by
    intro entry inside
    obtain ⟨index,its,rfl⟩ := List.mem_map.mp inside
    exact (b.opened index .toolUse).mpr its)
  rw [Ends,same,readsAppend,filled,Option.bind_some,readsEnd b.content b.unique]
  have keys_ : ∀ index, index ∈ keys r.openBlocks ↔ ∃ kind, IsOpen c index kind := by
    intro index
    simp [keys,b.opened]
  simp only [keys_]
  constructor
  · intro all
    constructor
    · intro sent
      by_contra closed
      exact (b.thinking sent).2 ((all _).mpr ⟨.thinking,sent,by simpa using closed,rfl⟩)
    · intro sent
      by_contra closed
      exact (b.text sent).2 ((all _).mpr ⟨.text,sent,by simpa using closed,rfl⟩)
  · rintro ⟨thinking,text⟩ index
    refine ⟨fun inside => ⟨.toolUse,inside⟩,?_⟩
    rintro ⟨kind,its⟩
    cases kind with
    | thinking => exact absurd (thinking its.1) (by simp [its.2.1])
    | text => exact absurd (text its.1) (by simp [its.2.1])
    | toolUse => exact its

theorem Passed.settles (passed : Passed c past r) (ordered : WellOrdered past) : Ends r (emitToolCalls rt c) ↔ Settled past := by
  rw [passed.shown.toolCalls,settledEnded ordered,passed.told.reasoning,passed.told.text,passed.told.reasoningEnded,
    passed.told.textEnded]

theorem Passed.lastOpen (passed : Passed c past r) (ordered : WellOrdered past) (none_ : .opening ∉ past)
    (sent : c.hasSentContentBlockStart = true) : Ends r (endTurn c (some (lastBlockIndex c))) := by
  obtain ⟨b,told⟩ := passed
  have tools : toolBlocks c = [] := by
    have empty : c.toolCallBlockIndices = [] := by simpa using (not_congr told.openings).mpr none_
    simp [toolBlocks,empty]
  have one := oneEnded ordered none_
  have both := bothEnded past .text .reasoning (by decide) (by decide) (told.text.mp sent)
  rw [b.endTurn]
  intro index
  have which : (∃ kind, IsOpen c index kind) ↔ IsOpen c index .thinking ∨ IsOpen c index .text := by
    constructor
    · rintro ⟨kind,its⟩
      cases kind with
      | thinking => exact .inl its
      | text => exact .inr its
      | toolUse => simp [IsOpen,tools] at its
    · rintro (its | its)
      · exact ⟨_,its⟩
      · exact ⟨_,its⟩
  rw [which]
  simp only [IsOpen,lastBlockIndex,sent]
  rw [← told.reasoningEnded,← told.textEnded] at one
  rw [← told.reasoning,← told.reasoningEnded,← told.textEnded] at both
  cases text : c.textBlockClosed with
  | true =>
    have thinking : c.thinkingBlockClosed = false := by simpa [text] using one
    have started : c.hasSentThinkingBlockStart = true := by
      obtain ⟨other,kind,ne,sub⟩ := told.textEnded.mp text
      have inside : other ∈ past := sub.subset (.tail _ (.head _))
      refine told.reasoning.mpr ?_
      cases other with
      | reasoning => exact inside
      | text => exact absurd rfl ne
      | opening => exact absurd inside none_
      | call => simp at kind
    simp [started,thinking,eq_comm]
  | false =>
    have thinking : c.hasSentThinkingBlockStart = true → c.thinkingBlockClosed = true := by simpa [text] using both
    simp only [Bool.false_eq_true,if_false]
    cases started : c.hasSentThinkingBlockStart with
    | true => simp [thinking started]
    | false => simp

theorem Passed.thinkingOpen (passed : Passed c past r) (none_ : .opening ∉ past)
    (sent : c.hasSentThinkingBlockStart = true) : Ends r (endTurn c (some c.thinkingBlockIndex)) ↔ ¬ Ended .reasoning past := by
  obtain ⟨b,told⟩ := passed
  have empty : c.toolCallBlockIndices = [] := by simpa using (not_congr told.openings).mpr none_
  have both := bothEnded past .reasoning .text (by decide) (by decide) (told.reasoning.mp sent)
  rw [← told.text,← told.reasoningEnded,← told.textEnded] at both
  rw [b.endTurn,← told.reasoningEnded]
  constructor
  · intro all closed
    obtain ⟨kind,its⟩ := (all c.thinkingBlockIndex).mp (by simp)
    cases kind with
    | thinking => exact absurd closed (by simp [its.2.1])
    | text => exact b.apart sent its.1 its.2.2
    | toolUse => simp [IsOpen,toolBlocks,empty] at its
  · intro fresh index
    constructor
    · intro its
      exact ⟨.thinking,sent,by simpa using fresh,by simpa [eq_comm] using its⟩
    · rintro ⟨kind,its⟩
      cases kind with
      | thinking => simp [its.2.2]
      | text => exact absurd ((both its.1).resolve_left fresh) (by simp [its.2.1])
      | toolUse => simp [IsOpen,toolBlocks,empty] at its

theorem Passed.unstarted (passed : Passed c past r) (none_ : .opening ∉ past) (unsent : c.hasSentThinkingBlockStart = false) :
    Ends r (endTurn c (if c.hasSentContentBlockStart && !c.textBlockClosed then some c.textBlockIndex else none)) := by
  obtain ⟨b,told⟩ := passed
  have empty : c.toolCallBlockIndices = [] := by simpa using (not_congr told.openings).mpr none_
  rw [b.endTurn]
  intro index
  constructor
  · intro its
    split at its
    · rename_i opened
      obtain ⟨sent,fresh⟩ : c.hasSentContentBlockStart = true ∧ c.textBlockClosed = false := by simpa using opened
      exact ⟨.text,sent,fresh,by simpa [Option.toList] using its⟩
    · cases its
  · rintro ⟨kind,its⟩
    cases kind with
    | thinking => exact absurd its.1 (by simp [unsent])
    | text => simp [its.1,its.2.1,its.2.2]
    | toolUse => simp [IsOpen,toolBlocks,empty] at its

theorem Passed.doneEnds (rt : Runtime) (passed : Passed c past r) (ordered : WellOrdered past) (sent : c.hasSentStart = true) :
    Ends r (onDone rt c) ↔ (.call ∈ past ∨ .opening ∈ past → Settled past) := by
  have told := passed.told
  unfold onDone
  cases calls : c.encounteredToolCall with
  | true =>
    rw [if_pos rfl,passed.settles ordered]
    simp [told.calls.mp calls]
  | false =>
    have neither : ¬ (.call ∈ past ∨ .opening ∈ past) := fun either => by simp [told.calls.mpr either] at calls
    have none_ : .opening ∉ past := fun inside => neither (.inr inside)
    refine iff_of_true ?_ (fun either => absurd either neither)
    cases text : c.hasSentContentBlockStart with
    | true => exact passed.lastOpen ordered none_ text
    | false =>
      cases thinking : c.hasSentThinkingBlockStart with
      | true =>
        refine (passed.thinkingOpen none_ thinking).mpr ?_
        rintro ⟨other,kind,ne,sub⟩
        have inside : other ∈ past := sub.subset (.tail _ (.head _))
        cases other with
        | reasoning => exact ne rfl
        | text => exact absurd (told.text.mpr inside) (by simp [text])
        | opening => exact none_ inside
        | call => simp at kind
      | false => simpa [text,sent] using passed.unstarted none_ thinking

theorem Passed.flushEnds (rt : Runtime) (passed : Passed c past r) (ordered : WellOrdered past) (sent : c.hasSentStart = true)
    (finished : c.finishReason.isSome = true) : Ends r (flush rt c) ↔
      (.opening ∈ past → Settled past) ∧ (.opening ∉ past → .call ∈ past → ¬ Ended .reasoning past) := by
  have told := passed.told
  unfold flush
  by_cases opening : .opening ∈ past
  · have some_ : c.toolCallAccumulators.isEmpty = false := by simpa using told.accumulators.mpr opening
    rw [if_pos (by simp [told.calls.mpr (.inr opening),some_]),passed.settles ordered]
    simp [opening]
  · have none_ : c.toolCallAccumulators = [] := by simpa using (not_congr told.accumulators).mpr opening
    rw [if_neg (by simp [none_])]
    cases text : c.hasSentContentBlockStart && !c.encounteredToolCall with
    | true =>
      rw [Bool.and_eq_true,Bool.not_eq_true'] at text
      have call : .call ∉ past := fun inside => by simp [told.calls.mpr (.inl inside)] at text
      exact iff_of_true (passed.lastOpen ordered opening text.1) ⟨fun inside => absurd inside opening,fun _ inside => absurd inside call⟩
    | false =>
      rw [if_neg (by simp)]
      cases thinking : c.hasSentThinkingBlockStart with
      | true =>
        rw [if_pos rfl,passed.thinkingOpen opening thinking]
        constructor
        · exact fun fresh => ⟨fun inside => absurd inside opening,fun _ _ => fresh⟩
        · rintro ⟨-,fresh⟩ ended
          refine fresh opening ?_ ended
          obtain ⟨other,kind,ne,sub⟩ := ended
          have inside : other ∈ past := sub.subset (.tail _ (.head _))
          cases other with
          | reasoning => exact absurd rfl ne
          | text =>
            have calls : c.encounteredToolCall = true := by simpa [told.text.mpr inside] using text
            exact (told.calls.mp calls).resolve_right opening
          | opening => exact absurd inside opening
          | call => simp at kind
      | false =>
        rw [if_neg (by simp),if_pos (by simp [sent,finished])]
        refine iff_of_true (passed.unstarted opening thinking) ⟨fun inside => absurd inside opening,fun _ _ ended => ?_⟩
        exact absurd (told.reasoning.mpr ended.member) (by simp [thinking])

def StopsOnTool (events : List Event) : Prop := ∃ usage, .messageDelta "tool_use" usage ∈ events

def StartsTool (events : List Event) : Prop := ∃ index id name, .contentBlockStart index (.toolUse id name) ∈ events

theorem stopsAppend {events others} : StopsOnTool (events ++ others) ↔ StopsOnTool events ∨ StopsOnTool others := by
  simp only [StopsOnTool,List.mem_append,exists_or]

theorem startsAppend {events others} : StartsTool (events ++ others) ↔ StartsTool events ∨ StartsTool others := by
  simp only [StartsTool,List.mem_append,exists_or]

theorem startsNil : ¬ StartsTool [] := by simp [StartsTool]

theorem contentNeverStops {events s} (read : reads r (blocks events) = some s)
    (content : s.stage = .content) : ¬ StopsOnTool events := by
  rintro ⟨usage,inside⟩
  exact readsContent read content (List.mem_filterMap.mpr ⟨_,inside,rfl⟩)

theorem lengthStop (c : Context) (stopReason : String) : (lengthStopReason c).getD stopReason =
    if c.finishReason = some "length" then "max_tokens" else stopReason := by
  unfold lengthStopReason
  split
  · rename_i cut
    simp [mapOpenAIFinishReason,cut]
  · rfl

theorem endTurnTool (c : Context) (block : Option Nat) : ¬ StopsOnTool (endTurn c block) ∧ ¬ StartsTool (endTurn c block) := by
  have reason : (lengthStopReason c).getD "end_turn" ≠ "tool_use" := by
    rw [lengthStop]
    split <;> decide
  cases block <;> simp [endTurn,emitStreamEnd,StopsOnTool,StartsTool,reason.symm]

theorem toolCallsTool (rt : Runtime) (c : Context) : (StopsOnTool (emitToolCalls rt c) ↔ c.finishReason ≠ some "length") ∧
    ¬ StartsTool (emitToolCalls rt c) := by
  constructor
  · simp only [emitToolCalls,emitStreamEnd,emitToolCallJson,StopsOnTool,lengthStop]
    by_cases cut : c.finishReason = some "length" <;> simp
  · simp [emitToolCalls,emitStreamEnd,emitToolCallJson,StartsTool]

theorem doneTool (rt : Runtime) (c : Context) :
    (StopsOnTool (onDone rt c) ↔ c.encounteredToolCall = true ∧ c.finishReason ≠ some "length") ∧ ¬ StartsTool (onDone rt c) := by
  unfold onDone
  cases calls : c.encounteredToolCall with
  | true => simpa using toolCallsTool rt c
  | false =>
    simp only [Bool.false_eq_true,if_false,false_and,iff_false]
    split
    · exact endTurnTool _ _
    split
    · exact endTurnTool _ _
    split
    · exact endTurnTool _ _
    · simp [StopsOnTool,StartsTool]

theorem flushTool (rt : Runtime) (c : Context) : (StopsOnTool (flush rt c) → c.toolCallAccumulators ≠ []) := by
  unfold flush
  split
  · rename_i calls
    intro _ none_
    simp [none_] at calls
  · intro stops
    split at stops
    · exact absurd stops (endTurnTool _ _).1
    split at stops
    · exact absurd stops (endTurnTool _ _).1
    split at stops
    · exact absurd stops (endTurnTool _ _).1
    · simp [StopsOnTool] at stops

theorem blocksNonempty {events e} (inside : e ∈ events) (block : e.toBlock.isSome = true) :
    blocks events ≠ [] := by
  intro empty
  have gone := List.filterMap_eq_nil_iff.mp empty e inside
  rw [gone] at block
  cases block

theorem closersStart (c : Context) : ¬ StartsTool (OpenAIFormats.closeThinking c).events ∧
    ¬ StartsTool (OpenAIFormats.closeText c).events := by
  unfold OpenAIFormats.closeThinking OpenAIFormats.closeText StartsTool
  constructor <;> split <;> simp

theorem reasoningStart (c : Context) (text : String) : ¬ StartsTool (onReasoning c text).events := by
  simp only [onReasoning,Emits.andThen,startsAppend,not_or]
  constructor
  · unfold OpenAIFormats.startThinking
    split
    · exact startsNil
    · simp only [Emits.andThen,startsAppend,not_or]
      exact ⟨(closersStart _).2,by simp [StartsTool]⟩
  · simp [StartsTool]

theorem contentStart (c : Context) (text : String) : ¬ StartsTool (onContent c text).events := by
  simp only [onContent,Emits.andThen,startsAppend,not_or]
  constructor
  · unfold OpenAIFormats.startText
    split
    · exact startsNil
    · simp only [Emits.andThen,startsAppend,not_or]
      exact ⟨(closersStart _).1,by simp [StartsTool]⟩
  · simp [StartsTool]

theorem Named.emits (known : Named c named) (item : Item) :
    (StartsTool (onItem c item).events ↔ pieceOf named item = .opening) ∧
    (blocks (onItem c item).events = [] ↔ pieceOf named item = .call) := by
  cases item with
  | reasoning text =>
    refine ⟨by simpa [pieceOf,onItem] using reasoningStart c text,?_⟩
    refine iff_of_false (blocksNonempty (List.mem_append_right _ (.head _)) rfl) (by simp [pieceOf])
  | text text =>
    refine ⟨by simpa [pieceOf,onItem] using contentStart c text,?_⟩
    refine iff_of_false (blocksNonempty (List.mem_append_right _ (.head _)) rfl) (by simp [pieceOf])
  | toolCall toolCall =>
    simp only [onItem]
    cases known.effect toolCall with
    | refused unnamed same =>
      rw [same]
      simp [pieceOf,unnamed,StartsTool]
    | continued idx inside mine same =>
      rw [same,pieceContinued inside mine]
      simp [StartsTool]
    | opened idx id name its fresh same =>
      have opening : pieceOf named (.toolCall toolCall) = .opening := by simp [pieceOf,its,fresh]
      have inside : ∃ index, Event.contentBlockStart index (.toolUse id name) ∈ (onToolCall c toolCall).events := by
        rw [same]
        exact ⟨_,List.mem_append_left _ (List.mem_append_right _ (.head _))⟩
      obtain ⟨index,inside⟩ := inside
      rw [opening]
      exact ⟨iff_of_true ⟨index,id,name,inside⟩ rfl,iff_of_false (blocksNonempty inside rfl) (by simp)⟩

theorem Named.itemsEmit (items : List Item) : ∀ {c named}, Named c named →
    (StartsTool (onItems c items).events ↔ .opening ∈ pieces named items) ∧
    (OpenAIFormats.blocks (onItems c items).events = [] ↔ ∀ p ∈ pieces named items, p = .call) := by
  induction items with
  | nil =>
    intro c named known
    simp [onItems,pieces,StartsTool]
  | cons item rest ih =>
    intro c named known
    obtain ⟨starts,empty⟩ := known.emits item
    obtain ⟨startsRest,emptyRest⟩ := ih (known.item item)
    simp only [onItems,Emits.andThen,startsAppend,blocksAppend,List.append_eq_nil_iff,pieces,List.mem_cons,forall_eq_or_imp]
    rw [starts,startsRest,empty,emptyRest,eq_comm (a := Piece.opening)]
    exact ⟨Iff.rfl,Iff.rfl⟩

theorem Named.bodyStarts (chunks : List Chunk) : ∀ {c named}, Named c named → c.hasSentStart = true →
    (StartsTool (onLines rt c (chunkLines chunks)).events ↔ .opening ∈ pieces named (bodyItems chunks)) := by
  induction chunks with
  | nil =>
    intro c named known sent
    simp [chunkLines,onLines,bodyItems,pieces,StartsTool]
  | cons data rest ih =>
    intro c named known sent
    obtain ⟨read,next,still⟩ := known.chunk sent data
    rw [bodyCons,onChunkSent sent,bodyItemsCons,piecesAppend,Emits.andThen,startsAppend,List.mem_append,
      (read.itemsEmit _).1,ih next still]

theorem startBodyStarts (rt : Runtime) (resolvedModel : Option String) {chunks} (some_ : chunks ≠ []) :
    StartsTool (onLines rt (.start resolvedModel) (chunkLines chunks)).events ↔ .opening ∈ bodyPieces chunks := by
  cases chunks with
  | nil => exact absurd rfl some_
  | cons data rest =>
    obtain ⟨d,model,first,emitted⟩ := firstChunk resolvedModel data
    obtain ⟨next,keeps⟩ := first.named.items (chunkItems data)
    have announced : ¬ StartsTool [.messageStart model,.ping] := by simp [StartsTool]
    rw [bodyCons,emitted,bodyPiecesCons,Emits.andThen,startsAppend,startsAppend,List.mem_append,
      (first.named.itemsEmit _).1,next.bodyStarts rest (keeps.sent.trans first.sent)]
    simp [announced]

def lineItems : Line → List Item
  | .done => []
  | .chunk data => chunkItems data

def Quiet (named : List Nat) (lines : List Line) : Prop :=
  (∀ line ∈ lines, line ≠ .done) ∧ ∀ p ∈ pieces named (lines.flatMap lineItems), p = .call

theorem doneLast (rt : Runtime) (sent : c.hasSentStart = true) : ∃ events, onDone rt c = events ++ [.messageStop] := by
  have last : ∀ stop block reason indices, ∃ events, emitStreamEnd c stop indices block reason = events ++ [.messageStop] := by
    intro stop block reason indices
    exact ⟨_,List.append_cons _ _ _⟩
  unfold onDone
  split
  · obtain ⟨events,same⟩ := last "tool_use" none (lengthStopReason c) (some c.toolCallBlockIndices)
    exact ⟨_,by rw [emitToolCalls,same,List.append_assoc]⟩
  split
  · exact last _ _ _ _
  split
  · exact last _ _ _ _
  · exact last _ _ _ _

theorem doneNonempty (sent : c.hasSentStart = true) : blocks (onDone rt c) ≠ [] := by
  obtain ⟨events,same⟩ := doneLast rt sent
  exact blocksNonempty (e := .messageStop) (by simp [same]) rfl

theorem Named.quiet (rt : Runtime) (lines : List Line) : ∀ {c named}, Named c named → c.hasSentStart = true →
    (OpenAIFormats.blocks (onLines rt c lines).events = [] ↔ Quiet named lines) := by
  induction lines with
  | nil =>
    intro c named known sent
    simp [onLines,Quiet,pieces]
  | cons line rest ih =>
    intro c named known sent
    cases line with
    | done =>
      refine iff_of_false ?_ (fun quiet => quiet.1 .done (.head _) rfl)
      simp only [onLines,Emits.andThen,blocksAppend,List.append_eq_nil_iff,not_and]
      exact fun empty => absurd empty (doneNonempty sent)
    | chunk data =>
      obtain ⟨read,next,still⟩ := known.chunk sent data
      simp only [onLines,onLine,onChunkSent sent,Emits.andThen,blocksAppend,List.append_eq_nil_iff,
        (read.itemsEmit _).2,ih next still,Quiet,List.flatMap_cons,lineItems,piecesAppend,List.mem_append]
      grind

theorem doneAfter {s} (sent : c.hasSentStart = true) (read : reads r (blocks (onDone rt c)) = some s) :
    s.stage = .after := by
  obtain ⟨events,same⟩ := doneLast rt sent
  rw [same,blocksAppend,readsAppend] at read
  obtain ⟨mid,-,last⟩ := Option.bind_eq_some_iff.mp read
  have stop : BlockStream.read mid .messageStop = some s := by simpa using last
  simp only [BlockStream.read,Option.ite_none_right_eq_some,Option.some.injEq] at stop
  rw [← stop.2]

def calls (rt : Runtime) (buffer : List Char) : List (List Char) → List (List Line)
  | [] => []
  | text::rest => (splitLines (buffer ++ text)).1.filterMap (readLine rt)::calls rt (splitLines (buffer ++ text)).2 rest

def heard : List (List Line) → List Line × Bool
  | [] => ([],false)
  | call::rest => if call.any Line.isDone then (call,true) else (call ++ (heard rest).1,(heard rest).2)

theorem onLinesAppend (rt : Runtime) (c : Context) (lines others : List Line) :
    onLines rt c (lines ++ others) = (onLines rt c lines).andThen (onLines rt · others) := by
  induction lines generalizing c with
  | nil => rfl
  | cons line rest ih => simp [onLines,thenThen,ih]

theorem transformGone (rt : Runtime) (texts : List (List Char)) : transformAll rt none texts = [] := by
  induction texts with
  | nil => rfl
  | cons text rest ih => simpa [transformAll,transform] using ih

theorem transformHeard (rt : Runtime) (texts : List (List Char)) : ∀ buffer c,
    transformAll rt (some ⟨buffer,c⟩) texts = (onLines rt c (heard (calls rt buffer texts)).1).events ++
      if (heard (calls rt buffer texts)).2 then [] else flush rt (onLines rt c (heard (calls rt buffer texts)).1).context := by
  induction texts with
  | nil => exact fun buffer c => rfl
  | cons text rest ih =>
    intro buffer c
    simp only [transformAll,transform,calls,heard]
    split
    · simp [transformGone]
    · rw [ih,onLinesAppend]
      simp [Emits.andThen]

theorem heardOpen {lines} (open_ : (heard lines).2 = false) :
    ∃ chunks, (heard lines).1 = chunkLines chunks := by
  induction lines with
  | nil => exact ⟨[],rfl⟩
  | cons call rest ih =>
    unfold heard at open_ ⊢
    split at open_
    · cases open_
    · rename_i none_
      obtain ⟨chunks,same⟩ := ih open_
      have body : ∀ call, ¬ call.any Line.isDone = true → ∃ chunks, call = chunkLines chunks := by
        intro call
        induction call with
        | nil => exact fun _ => ⟨[],rfl⟩
        | cons line later ih =>
          intro none_
          cases line with
          | done => simp [Line.isDone] at none_
          | chunk data =>
            obtain ⟨chunks,same⟩ := ih (by simpa [Line.isDone] using none_)
            exact ⟨data::chunks,by rw [same]; rfl⟩
      obtain ⟨first,its⟩ := body call none_
      refine ⟨first ++ chunks,?_⟩
      rw [if_neg none_]
      simp [same,its,chunkLines]

theorem lineCases (lines : List Line) : ∃ n chunks later, lines = List.replicate n .done ++ (chunkLines chunks ++ later) ∧
    (later = [] ∨ chunks ≠ [] ∧ ∃ rest, later = .done::rest) := by
  induction lines with
  | nil => exact ⟨0,[],[],rfl,.inl rfl⟩
  | cons line rest ih =>
    obtain ⟨n,chunks,later,same,ended⟩ := ih
    cases line with
    | done => exact ⟨n + 1,chunks,later,by rw [same]; rfl,ended⟩
    | chunk data =>
      cases n with
      | zero =>
        refine ⟨0,data::chunks,later,by rw [same]; rfl,?_⟩
        exact ended.imp id (fun done => ⟨by simp,done.2⟩)
      | succ n => exact ⟨0,[data],rest,rfl,.inr ⟨by simp,_,by rw [same]; rfl⟩⟩

def Proper (events : List Event) : Prop := WellFormed (blocks events) ∧ (StopsOnTool events → StartsTool events)

structure OrderlyDone (chunks : List Chunk) (later : List Line) : Prop where
  some_ : chunks ≠ []
  ordered : WellOrdered (bodyPieces chunks)
  calls : .call ∈ bodyPieces chunks ∨ .opening ∈ bodyPieces chunks → Settled (bodyPieces chunks)
  reason : .call ∈ bodyPieces chunks → .opening ∉ bodyPieces chunks → finishOf chunks = some "length"
  quiet : Quiet (namedAfter [] (bodyItems chunks)) later

structure OrderlyEnd (chunks : List Chunk) : Prop where
  some_ : chunks ≠ []
  ordered : WellOrdered (bodyPieces chunks)
  calls : .opening ∈ bodyPieces chunks → Settled (bodyPieces chunks)
  refused : .opening ∉ bodyPieces chunks → .call ∈ bodyPieces chunks → ¬ Ended .reasoning (bodyPieces chunks)

theorem quietTool (events : List Event) (empty : blocks events = []) : ¬ StopsOnTool events ∧ ¬ StartsTool events := by
  constructor
  · rintro ⟨usage,inside⟩
    exact blocksNonempty inside rfl empty
  · rintro ⟨index,id,name,inside⟩
    exact blocksNonempty inside rfl empty

theorem doneReply (resolvedModel : Option String) {chunks} (some_ : chunks ≠ []) (later : List Line) :
    Proper (onLines rt (.start resolvedModel) (chunkLines chunks ++ .done::later)).events ↔ OrderlyDone chunks later := by
  obtain ⟨told,good,bad⟩ := startBody rt resolvedModel some_
  have starts := startBodyStarts rt resolvedModel some_
  rw [onLinesAppend]
  obtain ⟨e,its⟩ : ∃ e, e = onLines rt (.start resolvedModel) (chunkLines chunks) := ⟨_,rfl⟩
  rw [← its] at told good bad starts ⊢
  have events : (e.andThen (onLines rt · (.done::later))).events =
      e.events ++ (onDone rt e.context ++ (onLines rt e.context later).events) := rfl
  rw [Proper,WellFormed,events]
  by_cases ordered : WellOrdered (bodyPieces chunks)
  · obtain ⟨s,read,passed⟩ := good ordered
    have silent := contentNeverStops read passed.shown.content
    have ends := passed.doneEnds rt ordered told.sent
    have quiet := told.named.quiet rt later told.sent
    have tool := doneTool rt e.context
    have whole : (∃ r, reads .start (blocks (e.events ++ (onDone rt e.context ++ (onLines rt e.context later).events))) = some r ∧
        r.stage = .after) ↔ Ends s (onDone rt e.context) ∧ blocks (onLines rt e.context later).events = [] := by
      rw [blocksAppend,readsAppend,read,Option.bind_some,blocksAppend,readsAppend]
      constructor
      · rintro ⟨r,both,after⟩
        obtain ⟨mid,done,rest⟩ := Option.bind_eq_some_iff.mp both
        have stage := doneAfter told.sent done
        exact ⟨⟨mid,done,stage⟩,(readsAfter stage).mp (by rw [rest]; rfl)⟩
      · rintro ⟨⟨mid,done,stage⟩,empty⟩
        exact ⟨mid,by rw [done,empty]; rfl,stage⟩
    have empty := quietTool (onLines rt e.context later).events
    rw [whole,ends,stopsAppend,stopsAppend,startsAppend,startsAppend,starts,tool.1,passed.told.calls,told.finish]
    constructor
    · rintro ⟨⟨settled,still⟩,stops⟩
      refine ⟨some_,ordered,settled,fun call refused => ?_,quiet.mp still⟩
      by_contra full
      rcases stops (.inr (.inl ⟨.inl call,full⟩)) with opening | starts | starts
      · exact refused opening
      · exact tool.2 starts
      · exact (empty still).2 starts
    · intro orderly
      have still := quiet.mpr orderly.quiet
      refine ⟨⟨orderly.calls,still⟩,?_⟩
      rintro (stops | ⟨call | opening,full⟩ | stops)
      · exact absurd stops silent
      · exact .inl (by_contra fun refused => full (orderly.reason call refused))
      · exact .inl opening
      · exact absurd stops (empty still).1
  · rw [blocksAppend,readsAppend,bad ordered]
    exact iff_of_false (by simp) (fun orderly => ordered orderly.ordered)

theorem endReply (resolvedModel : Option String) {chunks} (finished : (finishOf chunks).isSome = true) :
    Proper ((onLines rt (.start resolvedModel) (chunkLines chunks)).events ++
      flush rt (onLines rt (.start resolvedModel) (chunkLines chunks)).context) ↔ OrderlyEnd chunks := by
  have some_ : chunks ≠ [] := by
    rintro rfl
    cases finished
  obtain ⟨told,good,bad⟩ := startBody rt resolvedModel some_
  have starts := startBodyStarts rt resolvedModel some_
  obtain ⟨e,its⟩ : ∃ e, e = onLines rt (.start resolvedModel) (chunkLines chunks) := ⟨_,rfl⟩
  rw [← its] at told good bad starts ⊢
  rw [Proper,WellFormed,blocksAppend,readsAppend]
  by_cases ordered : WellOrdered (bodyPieces chunks)
  · obtain ⟨s,read,passed⟩ := good ordered
    have silent := contentNeverStops read passed.shown.content
    have ends := passed.flushEnds rt ordered told.sent (by rw [told.finish]; exact finished)
    have tool : StopsOnTool (flush rt e.context) → .opening ∈ bodyPieces chunks :=
      fun stops => passed.told.accumulators.mp (flushTool rt e.context stops)
    rw [read,Option.bind_some,stopsAppend,startsAppend,starts]
    constructor
    · rintro ⟨wellFormed,-⟩
      obtain ⟨settled,refused⟩ := ends.mp wellFormed
      exact ⟨some_,ordered,settled,refused⟩
    · intro orderly
      refine ⟨ends.mpr ⟨orderly.calls,orderly.refused⟩,?_⟩
      rintro (stops | stops)
      · exact absurd stops silent
      · exact .inl (tool stops)
  · rw [bad ordered]
    exact iff_of_false (by simp) (fun orderly => ordered orderly.ordered)

theorem leadingDone (resolvedModel : Option String) (n : Nat) (lines : List Line) :
    onLines rt (.start resolvedModel) (List.replicate n .done ++ lines) = onLines rt (.start resolvedModel) lines := by
  induction n with
  | zero => rfl
  | succ n ih =>
    rw [List.replicate_succ,List.cons_append,onLines,onLine]
    simpa [Emits.andThen,onDone,Context.start] using ih

def Orderly : List Line × Bool → Prop
  | (lines,true) => ∃ n chunks later, lines = List.replicate n .done ++ (chunkLines chunks ++ .done::later) ∧
      OrderlyDone chunks later
  | (lines,false) => ∃ chunks, lines = chunkLines chunks ∧ OrderlyEnd chunks

def Finished : List Line × Bool → Prop
  | (_,true) => True
  | (lines,false) => ∃ data, .chunk data ∈ lines ∧ (truthy data.finishReason).isSome = true

theorem neverEnds (resolvedModel : Option String) (chunks : List Chunk) :
    ¬ WellFormed (blocks (onLines rt (.start resolvedModel) (chunkLines chunks)).events) := by
  rintro ⟨r,read,after⟩
  by_cases none_ : chunks = []
  · subst none_
    cases read
    cases after
  · obtain ⟨-,good,bad⟩ := startBody rt resolvedModel none_
    by_cases ordered : WellOrdered (bodyPieces chunks)
    · obtain ⟨s,its,passed⟩ := good ordered
      rw [its,Option.some.injEq] at read
      rw [← read,passed.shown.content] at after
      cases after
    · rw [bad ordered] at read
      cases read

theorem streamWellFormed (rt : Runtime) (resolvedModel : Option String) (texts : List (List Char))
    (finished : Finished (heard (calls rt [] texts))) :
    Proper (transformStreamingResponse rt resolvedModel texts) ↔ Orderly (heard (calls rt [] texts)) := by
  rw [transformStreamingResponse,transformHeard]
  cases ended : (heard (calls rt [] texts)).2 with
  | true =>
    obtain ⟨lines,same⟩ : ∃ lines, heard (calls rt [] texts) = (lines,true) := ⟨_,Prod.ext rfl ended⟩
    rw [same]
    simp only [if_true,List.append_nil]
    constructor
    · intro proper
      obtain ⟨n,chunks,later,its,shape⟩ := lineCases lines
      rw [its,leadingDone] at proper
      rcases shape with rfl | ⟨some_,rest,rfl⟩
      · rw [List.append_nil] at proper
        exact absurd proper.1 (neverEnds _ _)
      · exact ⟨n,chunks,rest,its,(doneReply resolvedModel some_ rest).mp proper⟩
    · rintro ⟨n,chunks,later,its,orderly⟩
      rw [its,leadingDone]
      exact (doneReply resolvedModel orderly.some_ later).mpr orderly
  | false =>
    obtain ⟨chunks,same⟩ := heardOpen ended
    have whole : heard (calls rt [] texts) = (chunkLines chunks,false) := Prod.ext same ended
    rw [whole] at finished ⊢
    have reason : (finishOf chunks).isSome = true := by
      obtain ⟨data,inside,given⟩ := finished
      obtain ⟨reason,its⟩ := Option.isSome_iff_exists.mp given
      have member : data ∈ chunks := by simpa [chunkLines] using inside
      have found : reason ∈ chunks.filterMap (fun data => truthy data.finishReason) := List.mem_filterMap.mpr ⟨data,member,its⟩
      rw [finishOf,Option.isSome_iff_ne_none]
      intro none_
      rw [List.getLast?_eq_none_iff.mp none_] at found
      cases found
    simp only [Bool.false_eq_true,if_false]
    rw [endReply resolvedModel reason]
    constructor
    · exact fun orderly => ⟨chunks,rfl,orderly⟩
    · rintro ⟨others,its,orderly⟩
      have injective : Function.Injective Line.chunk := fun a b same => by cases same; rfl
      rw [List.map_injective_iff.mpr injective its]
      exact orderly

def deltaChunk (delta : Delta) : Chunk := ⟨none,some delta,none,none⟩

def chars (parts : List String) : List Char := parts.flatMap String.toList

def sampleJson : List (List Char × Chunk) :=
  [(chars ["\x7b\"choices\":[\x7b\"","delta\":\x7b\"conte","nt\":\"a\"\x7d\x7d]\x7d"],
    deltaChunk ⟨none,some "a",none⟩),
   (chars ["\x7b\"choices\":[\x7b\"","delta\":\x7b\"reaso","ning_content\":","\"b\"\x7d\x7d]\x7d"],
    deltaChunk ⟨some "b",none,none⟩),
   (chars ["\x7b\"choices\":[\x7b\"","delta\":\x7b\"tool_","calls\":[\x7b\"inde","x\":0\x7d]\x7d\x7d]\x7d"],
    deltaChunk ⟨none,none,some [⟨some 0,none,none,none⟩]⟩)]

def sampleRuntime : Runtime where
  parseChunk text := (sampleJson.find? (·.1 = text)).map Prod.snd
  parseJson text := if text = "{}" then some (.obj []) else none

def sseBody (chunks : List (List Char)) : List Char :=
  (chunks.flatMap fun json => "data: ".toList ++ json ++ ['\n','\n']) ++ chars ["data: ","[DONE]"] ++ ['\n','\n']

def sampleText (chunks : List Nat) : List Char := sseBody (chunks.map fun i => (sampleJson.getD i ([],deltaChunk ⟨none,none,none⟩)).1)

def translated (texts : List (List Char)) : List Event := transformStreamingResponse sampleRuntime none texts

theorem streamWellFormedReasoned : Proper (translated [(sampleText [1,0]).take 20,(sampleText [1,0]).drop 20]) := by
  have lines : heard (calls sampleRuntime [] [(sampleText [1,0]).take 20,(sampleText [1,0]).drop 20]) =
      (chunkLines [deltaChunk ⟨some "b",none,none⟩,deltaChunk ⟨none,some "a",none⟩] ++ [.done],true) := by decide +kernel
  refine (streamWellFormed sampleRuntime none _ (by rw [lines]; trivial)).mpr ?_
  rw [lines]
  have pieces_ : bodyPieces [deltaChunk ⟨some "b",none,none⟩,deltaChunk ⟨none,some "a",none⟩] = [.reasoning,.text] := by
    decide +kernel
  refine ⟨0,[deltaChunk ⟨some "b",none,none⟩,deltaChunk ⟨none,some "a",none⟩],[],rfl,by simp,?_,?_,?_,by simp [Quiet,pieces]⟩
  · rw [pieces_]
    unfold WellOrdered
    decide
  · rw [pieces_]
    simp
  · rw [pieces_]
    simp

/-- A third text after reasoning goes to a block that is stopped, a nameless tool call
leaves the text open and stops on a tool there is none of, and text behind [DONE] goes on. -/
theorem streamIllFormed : ¬ Proper (translated [sampleText [0,1,0]]) ∧ ¬ Proper (translated [sampleText [0,2]]) ∧
    ¬ Proper (translated [sampleText [0] ++ sampleText [0]]) := by
  have unread : ∀ {events : List Event}, (reads .start (blocks events)).isNone = true → ¬ Proper events := by
    rintro events none_ ⟨⟨r,read,-⟩,-⟩
    rw [read] at none_
    cases none_
  refine ⟨unread ?_,unread ?_,unread ?_⟩
  all_goals decide +kernel

end Clankermux.OpenAIFormats
