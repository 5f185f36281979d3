import Clankermux.BlockStream
import Clankermux.OpenAIStream

/-! When the translated stream is one well-formed message. -/
namespace Clankermux.OpenAIFormats
open BlockStream InsertionMap

inductive Kind where | text | thinking | toolUse deriving DecidableEq

def ContentBlock.kind : ContentBlock → Kind
  | .text => .text
  | .thinking => .thinking
  | .toolUse _ _ => .toolUse

def BlockDelta.kind : BlockDelta → Kind
  | .textDelta _ => .text
  | .thinkingDelta _ => .thinking
  | .inputJsonDelta _ => .toolUse

def Event.toBlock : Event → Option (BlockStream.Event Kind)
  | .messageStart _ => some .messageStart
  | .ping => none
  | .contentBlockStart index block => some (.blockStart index block.kind)
  | .contentBlockDelta index delta => some (.blockDelta index delta.kind)
  | .contentBlockStop index => some (.blockStop index)
  | .messageDelta _ _ => some .messageDelta
  | .messageStop => some .messageStop

def blocks (events : List Event) : List (BlockStream.Event Kind) := events.filterMap Event.toBlock

@[simp] theorem blocksNil : blocks [] = [] := rfl

@[simp] theorem blocksAppend (events others : List Event) : blocks (events ++ others) = blocks events ++ blocks others :=
  List.filterMap_append

@[simp] theorem blocksCons (e : Event) (events : List Event) : blocks (e::events) = e.toBlock.toList ++ blocks events := by
  cases e <;> rfl

attribute [simp] Event.toBlock ContentBlock.kind BlockDelta.kind

def toolBlocks (c : Context) : List Nat := c.toolCallBlockIndices.map Prod.snd

def IsOpen (c : Context) (index : Nat) : Kind → Prop
  | .thinking => c.hasSentThinkingBlockStart = true ∧ c.thinkingBlockClosed = false ∧ index = c.thinkingBlockIndex
  | .text => c.hasSentContentBlockStart = true ∧ c.textBlockClosed = false ∧ index = c.textBlockIndex
  | .toolUse => index ∈ toolBlocks c

structure Blocks (c : Context) (r : Reader Kind) : Prop where
  content : r.stage = .content
  next : r.next = c.nextBlockIndex
  opened : ∀ index kind, (index,kind) ∈ r.openBlocks ↔ IsOpen c index kind
  unique : (toolBlocks c).Nodup
  below : ∀ index ∈ toolBlocks c, index < c.nextBlockIndex
  thinking : c.hasSentThinkingBlockStart = true → c.thinkingBlockIndex < c.nextBlockIndex ∧ c.thinkingBlockIndex ∉ toolBlocks c
  text : c.hasSentContentBlockStart = true → c.textBlockIndex < c.nextBlockIndex ∧ c.textBlockIndex ∉ toolBlocks c
  apart : c.hasSentThinkingBlockStart = true → c.hasSentContentBlockStart = true → c.thinkingBlockIndex ≠ c.textBlockIndex
  thinkingSent : c.thinkingBlockClosed = true → c.hasSentThinkingBlockStart = true
  textSent : c.textBlockClosed = true → c.hasSentContentBlockStart = true

def Follows (r : Reader Kind) (e : Emits) : Prop := ∃ s, reads r (blocks e.events) = some s ∧ Blocks e.context s

variable {c : Context} {r : Reader Kind}

theorem Blocks.stay (b : Blocks c r) : Follows r ⟨c,[]⟩ := ⟨r,rfl,b⟩

theorem Follows.andThen {e : Emits} {next} (first : Follows r e)
    (later : ∀ s, Blocks e.context s → Follows s (next e.context)) : Follows r (e.andThen next) := by
  obtain ⟨s,read,b⟩ := first
  obtain ⟨t,read',b'⟩ := later s b
  exact ⟨t,by simp [Emits.andThen,readsAppend,read,read'],b'⟩

theorem memDelete {m : InsertionMap Nat Kind} {key index : Nat} {kind} :
    (index,kind) ∈ delete m key ↔ (index,kind) ∈ m ∧ index ≠ key := by
  rw [deleteEqFilter]
  simp

theorem Blocks.openKey (b : Blocks c r) {index : Nat} (kind : Kind) (its : IsOpen c index kind) : index ∈ keys r.openBlocks :=
  List.mem_map.mpr ⟨(index,kind),(b.opened index kind).mpr its,rfl⟩

theorem Blocks.closeThinking (b : Blocks c r) : Follows r (closeThinking c) := by
  unfold OpenAIFormats.closeThinking
  split
  · rename_i opened
    obtain ⟨sent,fresh⟩ : c.hasSentThinkingBlockStart = true ∧ c.thinkingBlockClosed = false := by simpa using opened
    have inside := b.openKey .thinking ⟨sent,fresh,rfl⟩
    refine ⟨{ r with openBlocks := delete r.openBlocks c.thinkingBlockIndex },?_,?_⟩
    · simp [BlockStream.read,b.content,inside]
    · refine { b with opened := fun index kind => ?_,thinkingSent := fun _ => sent }
      rw [memDelete,b.opened]
      have away := (b.thinking sent).2
      have apart := b.apart sent
      cases kind <;> grind [IsOpen,toolBlocks]
  · exact b.stay

theorem Blocks.closeText (b : Blocks c r) : Follows r (closeText c) := by
  unfold OpenAIFormats.closeText
  split
  · rename_i opened
    obtain ⟨sent,fresh⟩ : c.hasSentContentBlockStart = true ∧ c.textBlockClosed = false := by simpa using opened
    have inside := b.openKey .text ⟨sent,fresh,rfl⟩
    refine ⟨{ r with openBlocks := delete r.openBlocks c.textBlockIndex },?_,?_⟩
    · simp [BlockStream.read,b.content,inside]
    · refine { b with opened := fun index kind => ?_,textSent := fun _ => sent }
      rw [memDelete,b.opened]
      have away := (b.text sent).2
      have apart := b.apart
      cases kind <;> grind [IsOpen,toolBlocks]
  · exact b.stay

theorem toolBlocksStart (c : Context) (idx : Nat) (id name : String) :
    (toolBlocks (startTool c idx id name).context).Perm (c.nextBlockIndex::toolBlocks c) :=
  (List.perm_orderedInsert _ _ _).map Prod.snd

theorem Blocks.startTool (b : Blocks c r) (idx : Nat) (id name : String) : Follows r (startTool c idx id name) := by
  have perm := toolBlocksStart c idx id name
  refine ⟨{ r with next := r.next + 1,openBlocks := (c.nextBlockIndex,.toolUse)::r.openBlocks },?_,?_⟩
  · simp [OpenAIFormats.startTool,BlockStream.read,b.content,b.next]
  · have fresh : c.nextBlockIndex ∉ toolBlocks c := fun inside => absurd (b.below _ inside) (lt_irrefl _)
    have thinking := b.thinking
    have text := b.text
    constructor
    · exact b.content
    · exact congrArg (· + 1) b.next
    · intro index kind
      rw [List.mem_cons,b.opened]
      cases kind with
      | thinking => simp [IsOpen,OpenAIFormats.startTool]
      | text => simp [IsOpen,OpenAIFormats.startTool]
      | toolUse => simp [IsOpen,perm.mem_iff]
    · exact perm.nodup_iff.mpr (List.nodup_cons.mpr ⟨fresh,b.unique⟩)
    · intro index inside
      rcases List.mem_cons.mp (perm.mem_iff.mp inside) with rfl | old
      · exact Nat.lt_succ_self _
      · exact Nat.lt_succ_of_lt (b.below index old)
    · intro sent
      rw [perm.mem_iff]
      have old := thinking sent
      simp only [OpenAIFormats.startTool]
      exact ⟨by omega,by grind⟩
    · intro sent
      rw [perm.mem_iff]
      have old := text sent
      simp only [OpenAIFormats.startTool]
      exact ⟨by omega,by grind⟩
    · exact b.apart
    · exact b.thinkingSent
    · exact b.textSent

theorem Blocks.openThinking (b : Blocks c r) (unsent : c.hasSentThinkingBlockStart = false) :
    Follows r ⟨{ c with
      hasSentThinkingBlockStart := true
      thinkingBlockIndex := c.nextBlockIndex
      nextBlockIndex := c.nextBlockIndex + 1 },[.contentBlockStart c.nextBlockIndex .thinking]⟩ := by
  have fresh : c.thinkingBlockClosed = false := by
    cases closed : c.thinkingBlockClosed with
    | false => rfl
    | true => exact absurd (b.thinkingSent closed) (by simp [unsent])
  refine ⟨{ r with next := r.next + 1,openBlocks := (c.nextBlockIndex,.thinking)::r.openBlocks },?_,?_⟩
  · simp [BlockStream.read,b.content,b.next]
  constructor
  · exact b.content
  · exact congrArg (· + 1) b.next
  · intro index kind
    rw [List.mem_cons,b.opened]
    cases kind <;> simp [IsOpen,unsent,fresh,toolBlocks]
  · exact b.unique
  · exact fun index inside => Nat.lt_succ_of_lt (b.below index inside)
  · exact fun _ => ⟨Nat.lt_succ_self _,fun inside => absurd (b.below _ inside) (lt_irrefl _)⟩
  · exact fun sent => ⟨Nat.lt_succ_of_lt (b.text sent).1,(b.text sent).2⟩
  · exact fun _ sent => Nat.ne_of_gt (b.text sent).1
  · exact fun _ => rfl
  · exact b.textSent

theorem Blocks.openText (b : Blocks c r) (unsent : c.hasSentContentBlockStart = false) :
    Follows r ⟨{ c with
      hasSentContentBlockStart := true
      textBlockIndex := c.nextBlockIndex
      nextBlockIndex := c.nextBlockIndex + 1 },[.contentBlockStart c.nextBlockIndex .text]⟩ := by
  have fresh : c.textBlockClosed = false := by
    cases closed : c.textBlockClosed with
    | false => rfl
    | true => exact absurd (b.textSent closed) (by simp [unsent])
  refine ⟨{ r with next := r.next + 1,openBlocks := (c.nextBlockIndex,.text)::r.openBlocks },?_,?_⟩
  · simp [BlockStream.read,b.content,b.next]
  constructor
  · exact b.content
  · exact congrArg (· + 1) b.next
  · intro index kind
    rw [List.mem_cons,b.opened]
    cases kind <;> simp [IsOpen,unsent,fresh,toolBlocks]
  · exact b.unique
  · exact fun index inside => Nat.lt_succ_of_lt (b.below index inside)
  · exact fun sent => ⟨Nat.lt_succ_of_lt (b.thinking sent).1,(b.thinking sent).2⟩
  · exact fun _ => ⟨Nat.lt_succ_self _,fun inside => absurd (b.below _ inside) (lt_irrefl _)⟩
  · exact fun sent _ => Nat.ne_of_lt (b.thinking sent).1
  · exact b.thinkingSent
  · exact fun _ => rfl

theorem startThinkingEq (unsent : c.hasSentThinkingBlockStart = false) :
    startThinking c = (closeText c).andThen fun c =>
      ⟨{ c with
      hasSentThinkingBlockStart := true
      thinkingBlockIndex := c.nextBlockIndex
      nextBlockIndex := c.nextBlockIndex + 1 },[.contentBlockStart c.nextBlockIndex .thinking]⟩ := by
  rw [startThinking,if_neg (by simp [unsent])]
  unfold OpenAIFormats.closeText
  cases opened : c.hasSentContentBlockStart && !c.textBlockClosed with
  | true =>
    rfl
  | false =>
    rfl

theorem startTextEq (unsent : c.hasSentContentBlockStart = false) :
    startText c = (OpenAIFormats.closeThinking c).andThen fun c =>
      ⟨{ c with
      hasSentContentBlockStart := true
      textBlockIndex := c.nextBlockIndex
      nextBlockIndex := c.nextBlockIndex + 1 },[.contentBlockStart c.nextBlockIndex .text]⟩ := by
  rw [startText,if_neg (by simp [unsent])]
  unfold OpenAIFormats.closeThinking
  cases opened : c.hasSentThinkingBlockStart && !c.thinkingBlockClosed with
  | true =>
    rfl
  | false =>
    rfl

theorem closeTextSame (c : Context) : (OpenAIFormats.closeText c).context =
    { c with textBlockClosed := c.textBlockClosed || c.hasSentContentBlockStart } := by
  unfold OpenAIFormats.closeText
  split
  · simp_all
  · have same : (c.textBlockClosed || c.hasSentContentBlockStart) = c.textBlockClosed := by grind
    rw [same]

theorem closeThinkingSame (c : Context) : (OpenAIFormats.closeThinking c).context =
    { c with thinkingBlockClosed := c.thinkingBlockClosed || c.hasSentThinkingBlockStart } := by
  unfold OpenAIFormats.closeThinking
  split
  · simp_all
  · have same : (c.thinkingBlockClosed || c.hasSentThinkingBlockStart) = c.thinkingBlockClosed := by grind
    rw [same]

theorem Blocks.startThinking (b : Blocks c r) : Follows r (startThinking c) := by
  cases sent : c.hasSentThinkingBlockStart with
  | true =>
    rw [OpenAIFormats.startThinking,if_pos sent]
    exact b.stay
  | false =>
    rw [startThinkingEq sent]
    exact b.closeText.andThen fun s b => b.openThinking (by simp [closeTextSame,sent])

theorem Blocks.startText (b : Blocks c r) : Follows r (startText c) := by
  cases sent : c.hasSentContentBlockStart with
  | true =>
    rw [OpenAIFormats.startText,if_pos sent]
    exact b.stay
  | false =>
    rw [startTextEq sent]
    exact b.closeThinking.andThen fun s b => b.openText (by simp [closeThinkingSame,sent])

theorem Blocks.delta (b : Blocks c r) (index : Nat) (delta : BlockDelta) [Decidable (IsOpen c index delta.kind)] :
    reads r (blocks [.contentBlockDelta index delta]) = if IsOpen c index delta.kind then some r else none := by
  rw [← if_congr (b.opened index delta.kind) rfl rfl]
  by_cases inside : (index,delta.kind) ∈ r.openBlocks
  · rw [if_pos inside]
    simpa [BlockStream.read,b.content] using inside
  · rw [if_neg inside]
    simpa [BlockStream.read,b.content] using inside

inductive Item where
  | reasoning (text : String)
  | text (text : String)
  | toolCall (toolCall : ToolCallDelta)

def itemsOf (delta : Delta) : List Item :=
  match delta.toolCalls with
  | some toolCalls => toolCalls.map .toolCall
  | none => (truthy delta.reasoningContent).toList.map .reasoning ++ (truthy delta.content).toList.map .text

def chunkItems (data : Chunk) : List Item := (data.delta.map itemsOf).getD []

inductive Piece where | reasoning | text | opening | call deriving DecidableEq

def namedIndex (toolCall : ToolCallDelta) : Option Nat :=
  if (truthy toolCall.id).isSome ∧ (truthy toolCall.name).isSome then toolCallIndex toolCall else none

def pieceOf (named : List Nat) : Item → Piece
  | .reasoning _ => .reasoning
  | .text _ => .text
  | .toolCall toolCall => if (namedIndex toolCall).any (· ∉ named) then .opening else .call

def namedBy (named : List Nat) : Item → List Nat
  | .toolCall toolCall => (namedIndex toolCall).toList ++ named
  | _ => named

def pieces (named : List Nat) : List Item → List Piece
  | [] => []
  | item::rest => pieceOf named item::pieces (namedBy named item) rest

def onItem (c : Context) : Item → Emits
  | .reasoning text => onReasoning c text
  | .text text => onContent c text
  | .toolCall toolCall => onToolCall c toolCall

def onItems (c : Context) : List Item → Emits
  | [] => ⟨c,[]⟩
  | item::rest => (onItem c item).andThen (onItems · rest)

@[simp] theorem nothingThen (c : Context) (next : Context → Emits) : (⟨c,[]⟩ : Emits).andThen next = next c := rfl

@[simp] theorem thenNothing (e : Emits) : e.andThen (fun c => ⟨c,[]⟩) = e := by simp [Emits.andThen]

theorem thenThen (e : Emits) (next later : Context → Emits) :
    (e.andThen next).andThen later = e.andThen (fun c => (next c).andThen later) := by
  simp [Emits.andThen]

theorem onItemsAppend (c : Context) (items others : List Item) :
    onItems c (items ++ others) = (onItems c items).andThen (onItems · others) := by
  induction items generalizing c with
  | nil => rfl
  | cons item rest ih => simp [onItems,thenThen,ih]

theorem onDeltaItems (c : Context) (delta : Delta) : onDelta c delta = onItems c (itemsOf delta) := by
  unfold onDelta itemsOf
  cases delta.toolCalls with
  | some toolCalls =>
    induction toolCalls generalizing c with
    | nil => rfl
    | cons toolCall rest ih => simp [onToolCalls,onItems,onItem,ih]
  | none =>
    simp only [onItemsAppend]
    have one : ∀ c text, onText onReasoning text c = onItems c ((truthy text).toList.map .reasoning) := by
      intro c text
      cases given : truthy text <;> simp [onText,given,onItems,onItem]
    have two : ∀ c text, onText onContent text c = onItems c ((truthy text).toList.map .text) := by
      intro c text
      cases given : truthy text <;> simp [onText,given,onItems,onItem]
    rw [one,funext (two · delta.content)]

def WellOrdered (ps : List Piece) : Prop :=
  ∀ a ∈ [Piece.reasoning,.text],∀ b ∈ [Piece.reasoning,.text,.opening],a ≠ b → ¬ [a,b,a].Sublist ps

def Ended (a : Piece) (ps : List Piece) : Prop := ∃ b ∈ [Piece.reasoning,.text,.opening],a ≠ b ∧ [a,b].Sublist ps

theorem sublistSnoc {α : Type*} {l m : List α} {a b} :
    (l ++ [a]).Sublist (m ++ [b]) ↔ (l ++ [a]).Sublist m ∨ a = b ∧ l.Sublist m := by
  rw [← List.reverse_sublist,List.reverse_append,List.reverse_append]
  simp only [List.reverse_singleton,List.singleton_append,List.cons_sublist_cons']
  rw [← @List.reverse_sublist _ (l ++ [a]),← @List.reverse_sublist _ l,List.reverse_append]
  rfl

theorem eitherFirst {α : Type*} {l : List α} {a b} (ne : a ≠ b) (left : a ∈ l) (right : b ∈ l) :
    [a,b].Sublist l ∨ [b,a].Sublist l := by
  induction l with
  | nil => exact absurd left List.not_mem_nil
  | cons head tail ih =>
    rcases List.mem_cons.mp left with rfl | leftLater
    · have later : b ∈ tail := (List.mem_cons.mp right).resolve_left (Ne.symm ne)
      exact .inl ((List.singleton_sublist.mpr later).cons_cons _)
    rcases List.mem_cons.mp right with rfl | rightLater
    · exact .inr ((List.singleton_sublist.mpr leftLater).cons_cons _)
    · exact (ih leftLater rightLater).imp (·.cons _) (·.cons _)

variable {past : List Piece} {p : Piece}

theorem Ended.member {a : Piece} (ended : Ended a past) : a ∈ past := by
  obtain ⟨b,-,-,sub⟩ := ended
  exact sub.subset (.head _)

theorem endedSnoc {a : Piece} : Ended a (past ++ [p]) ↔ Ended a past ∨ (p ≠ .call ∧ a ≠ p ∧ a ∈ past) := by
  have pair : ∀ b, [a,b].Sublist (past ++ [p]) ↔ [a,b].Sublist past ∨ b = p ∧ a ∈ past := fun b => by
    simpa using sublistSnoc (l := [a]) (a := b) (m := past) (b := p)
  constructor
  · rintro ⟨b,other,ne,sub⟩
    rcases (pair b).mp sub with before | ⟨rfl,inside⟩
    · exact .inl ⟨b,other,ne,before⟩
    · exact .inr ⟨by rintro rfl; simp at other,ne,inside⟩
  · rintro (⟨b,other,ne,before⟩ | ⟨other,ne,inside⟩)
    · exact ⟨b,other,ne,(pair b).mpr (.inl before)⟩
    · exact ⟨p,by cases p <;> simp at other ⊢,ne,(pair p).mpr (.inr ⟨rfl,inside⟩)⟩

theorem wellOrderedSnoc : WellOrdered (past ++ [p]) ↔
    WellOrdered past ∧ ((p = .reasoning ∨ p = .text) → ¬ Ended p past) := by
  have triple : ∀ a b, [a,b,a].Sublist (past ++ [p]) ↔ [a,b,a].Sublist past ∨ a = p ∧ [a,b].Sublist past := fun a b => by
    simpa using sublistSnoc (l := [a,b]) (a := a) (m := past) (b := p)
  constructor
  · intro ordered
    refine ⟨fun a inside b other ne sub => ordered a inside b other ne ((triple a b).mpr (.inl sub)),?_⟩
    rintro kind ⟨b,other,ne,sub⟩
    exact ordered p (by simpa using kind) b other ne ((triple p b).mpr (.inr ⟨rfl,sub⟩))
  · rintro ⟨ordered,fresh⟩ a inside b other ne sub
    rcases (triple a b).mp sub with before | ⟨rfl,before⟩
    · exact ordered a inside b other ne before
    · exact fresh (by simpa using inside) ⟨b,other,ne,before⟩

theorem WellOrdered.before {later : List Piece} (ordered : WellOrdered (past ++ later)) : WellOrdered past :=
  fun a inside b other ne sub => ordered a inside b other ne (sub.trans (List.sublist_append_left _ _))

structure Past (c : Context) (past : List Piece) : Prop where
  reasoning : c.hasSentThinkingBlockStart = true ↔ .reasoning ∈ past
  text : c.hasSentContentBlockStart = true ↔ .text ∈ past
  reasoningEnded : c.thinkingBlockClosed = true ↔ Ended .reasoning past
  textEnded : c.textBlockClosed = true ↔ Ended .text past
  calls : c.encounteredToolCall = true ↔ .call ∈ past ∨ .opening ∈ past
  openings : c.toolCallBlockIndices ≠ [] ↔ .opening ∈ past
  accumulators : c.toolCallAccumulators ≠ [] ↔ .opening ∈ past

def Named (c : Context) (named : List Nat) : Prop := ∀ idx, get c.toolCallAccumulators idx ≠ none ↔ idx ∈ named

theorem startThinkingSame (c : Context) : (OpenAIFormats.startThinking c).context =
    if c.hasSentThinkingBlockStart then c
    else { c with
      textBlockClosed := c.textBlockClosed || c.hasSentContentBlockStart
      hasSentThinkingBlockStart := true
      thinkingBlockIndex := c.nextBlockIndex
      nextBlockIndex := c.nextBlockIndex + 1 } := by
  cases sent : c.hasSentThinkingBlockStart with
  | true => simp [OpenAIFormats.startThinking,sent]
  | false =>
    rw [startThinkingEq sent]
    simp [Emits.andThen,closeTextSame]

theorem startTextSame (c : Context) : (OpenAIFormats.startText c).context =
    if c.hasSentContentBlockStart then c
    else { c with
      thinkingBlockClosed := c.thinkingBlockClosed || c.hasSentThinkingBlockStart
      hasSentContentBlockStart := true
      textBlockIndex := c.nextBlockIndex
      nextBlockIndex := c.nextBlockIndex + 1 } := by
  cases sent : c.hasSentContentBlockStart with
  | true => simp [OpenAIFormats.startText,sent]
  | false =>
    rw [startTextEq sent]
    simp [Emits.andThen,closeThinkingSame]

structure Passed (c : Context) (past : List Piece) (r : Reader Kind) : Prop where
  shown : Blocks c r
  told : Past c past

theorem bothEnded (past : List Piece) (a b : Piece) (apart : a ≠ b) (kinds : a ≠ .call ∧ b ≠ .call) (first : a ∈ past) (second : b ∈ past) :
    Ended a past ∨ Ended b past := by
  rcases eitherFirst apart first second with sub | sub
  · exact .inl ⟨b,by cases b <;> simp at kinds ⊢,apart,sub⟩
  · exact .inr ⟨a,by cases a <;> simp at kinds ⊢,apart.symm,sub⟩

theorem Past.reasoningNext (told : Past c past) (fresh : ¬ Ended .reasoning past) :
    Past (OpenAIFormats.startThinking c).context (past ++ [.reasoning]) := by
  have both := bothEnded past .text .reasoning (by decide) (by decide)
  rw [startThinkingSame]
  obtain ⟨reasoning,text,reasoningEnded,textEnded,calls,openings,accumulators⟩ := told
  cases sent : c.hasSentThinkingBlockStart with
  | true =>
    rw [if_pos rfl]
    have came : .reasoning ∈ past := reasoning.mp sent
    refine ⟨by simp [sent],by simpa using text,by simpa [endedSnoc] using reasoningEnded,?_,by simpa using calls,
      by simpa using openings,by simpa using accumulators⟩
    rw [textEnded,endedSnoc]
    grind
  | false =>
    refine ⟨by simp,by simpa using text,by simpa [endedSnoc] using reasoningEnded,?_,by simpa using calls,
      by simpa using openings,by simpa using accumulators⟩
    simp [endedSnoc,textEnded,text]

theorem Past.textNext (told : Past c past) (fresh : ¬ Ended .text past) :
    Past (OpenAIFormats.startText c).context (past ++ [.text]) := by
  have both := bothEnded past .text .reasoning (by decide) (by decide)
  rw [startTextSame]
  obtain ⟨reasoning,text,reasoningEnded,textEnded,calls,openings,accumulators⟩ := told
  cases sent : c.hasSentContentBlockStart with
  | true =>
    rw [if_pos rfl]
    have came : .text ∈ past := text.mp sent
    refine ⟨by simpa using reasoning,by simp [sent],?_,by simpa [endedSnoc] using textEnded,by simpa using calls,
      by simpa using openings,by simpa using accumulators⟩
    rw [reasoningEnded,endedSnoc]
    grind
  | false =>
    refine ⟨by simpa using reasoning,by simp,?_,by simpa [endedSnoc] using textEnded,by simpa using calls,
      by simpa using openings,by simpa using accumulators⟩
    simp [endedSnoc,reasoningEnded,reasoning]

theorem Follows.shows {start : Emits} {piece} {index : Context → Nat} {delta : BlockDelta} (started : Follows r start)
    (opened : IsOpen start.context (index start.context) delta.kind ↔ ¬ Ended piece past)
    (next : ¬ Ended piece past → Past start.context (past ++ [piece])) :
    let shown := start.andThen fun c => ⟨c,[.contentBlockDelta (index c) delta]⟩
    (¬ Ended piece past → ∃ s, reads r (blocks shown.events) = some s ∧ Passed shown.context (past ++ [piece]) s) ∧
    (Ended piece past → reads r (blocks shown.events) = none) := by
  obtain ⟨s,read,b⟩ := started
  classical
  have events : reads r (blocks (start.andThen fun c => ⟨c,[.contentBlockDelta (index c) delta]⟩).events) =
      if IsOpen start.context (index start.context) delta.kind then some s else none := by
    simp only [Emits.andThen,blocksAppend,readsAppend,read,Option.bind_some,b.delta]
  exact ⟨fun fresh => ⟨s,events.trans (if_pos (opened.mpr fresh)),b,next fresh⟩,
    fun ended => events.trans (if_neg fun its => opened.mp its ended)⟩

theorem Passed.reasoning (passed : Passed c past r) (text : String) :
    (¬ Ended .reasoning past → ∃ s, reads r (blocks (onReasoning c text).events) = some s ∧
      Passed (onReasoning c text).context (past ++ [.reasoning]) s) ∧
    (Ended .reasoning past → reads r (blocks (onReasoning c text).events) = none) := by
  refine passed.shown.startThinking.shows ?_ passed.told.reasoningNext
  rw [← passed.told.reasoningEnded,startThinkingSame]
  split <;> simp_all [IsOpen]

theorem Passed.text (passed : Passed c past r) (text : String) :
    (¬ Ended .text past → ∃ s, reads r (blocks (onContent c text).events) = some s ∧
      Passed (onContent c text).context (past ++ [.text]) s) ∧
    (Ended .text past → reads r (blocks (onContent c text).events) = none) := by
  refine passed.shown.startText.shows ?_ passed.told.textNext
  rw [← passed.told.textEnded,startTextSame]
  split <;> simp_all [IsOpen]

def encountered (c : Context) : Context := { c with encounteredToolCall := true }

def openTool (c : Context) (idx : Nat) (id name : String) : Emits :=
  ((OpenAIFormats.closeThinking c).andThen OpenAIFormats.closeText).andThen (OpenAIFormats.startTool · idx id name)

variable {named : List Nat} {toolCall : ToolCallDelta} {idx : Nat}

inductive ToolCallEffect (c : Context) (named : List Nat) (toolCall : ToolCallDelta) : Prop where
  | refused (unnamed : namedIndex toolCall = none) (same : onToolCall c toolCall = ⟨encountered c,[]⟩)
  | continued (idx : Nat) (known : idx ∈ named) (mine : ∀ other, namedIndex toolCall = some other → other = idx)
      (same : onToolCall c toolCall = ⟨bufferArguments (encountered c) idx toolCall,[]⟩)
  | opened (idx : Nat) (id name : String) (its : namedIndex toolCall = some idx) (fresh : idx ∉ named)
      (same : onToolCall c toolCall =
        (openTool (encountered c) idx id name).andThen fun c => ⟨bufferArguments c idx toolCall,[]⟩)

theorem Named.effect (known : Named c named) (toolCall : ToolCallDelta) : ToolCallEffect c named toolCall := by
  cases found : toolCallIndex toolCall with
  | none => exact .refused (by simp [namedIndex,found]) (by simp [onToolCall,found,encountered])
  | some idx =>
    by_cases fresh : get c.toolCallAccumulators idx = none
    · have absent : idx ∉ named := fun inside => (known idx).mpr inside fresh
      cases hasId : truthy toolCall.id with
      | none =>
        exact .refused (by simp [namedIndex,hasId]) (by simp [onToolCall,found,fresh,hasId,encountered])
      | some id =>
        cases hasName : truthy toolCall.name with
        | none =>
          exact .refused (by simp [namedIndex,hasName]) (by simp [onToolCall,found,fresh,hasName,encountered])
        | some name =>
          refine .opened idx id name (by simp [namedIndex,hasId,hasName,found]) absent ?_
          simp [onToolCall,found,fresh,hasId,hasName,encountered,openTool]
    · refine .continued idx ((known idx).mp fresh) (fun other its => ?_) (by simp [onToolCall,found,fresh,encountered])
      unfold namedIndex at its
      split at its
      · exact Option.some.inj (its.symm.trans found)
      · cases its

theorem pieceContinued {toolCall idx} (known : idx ∈ named) (mine : ∀ other, namedIndex toolCall = some other → other = idx) :
    pieceOf named (.toolCall toolCall) = .call := by
  cases its : namedIndex toolCall with
  | none => simp [pieceOf,its]
  | some other => simp [pieceOf,its,mine other its,known]

theorem bufferSame (c : Context) (idx : Nat) (toolCall : ToolCallDelta) : ∃ accumulators,
    bufferArguments c idx toolCall = { c with toolCallAccumulators := accumulators } ∧
      (accumulators = c.toolCallAccumulators ∨ ∃ value, accumulators = InsertionMap.set c.toolCallAccumulators idx value) := by
  unfold bufferArguments
  simp only
  split
  · exact ⟨c.toolCallAccumulators,rfl,.inl rfl⟩
  · exact ⟨_,rfl,.inr ⟨_,rfl⟩⟩

theorem Named.buffered (known : Named c named) (inside : idx ∈ named) (toolCall : ToolCallDelta) :
    Named (bufferArguments c idx toolCall) named := by
  obtain ⟨accumulators,same,rfl | ⟨value,rfl⟩⟩ := bufferSame c idx toolCall
  · rw [same]
    exact known
  · rw [same]
    intro other
    rw [getSet]
    split
    · rename_i its
      simp [its,inside]
    · exact known other

theorem openToolSame (c : Context) (idx : Nat) (id name : String) : (openTool c idx id name).context =
    { c with
      thinkingBlockClosed := c.thinkingBlockClosed || c.hasSentThinkingBlockStart
      textBlockClosed := c.textBlockClosed || c.hasSentContentBlockStart
      toolCallAccumulators := InsertionMap.set c.toolCallAccumulators idx ""
      nextBlockIndex := c.nextBlockIndex + 1
      toolCallBlockIndices := c.toolCallBlockIndices.orderedInsert (fun a b => a.1 ≤ b.1) (idx,c.nextBlockIndex) } := by
  simp only [openTool,Emits.andThen,closeThinkingSame,closeTextSame,OpenAIFormats.startTool]

theorem Named.call (known : Named c named) (toolCall : ToolCallDelta) :
    Named (onToolCall c toolCall).context ((namedIndex toolCall).toList ++ named) := by
  cases known.effect toolCall with
  | refused unnamed same =>
    rw [same,unnamed]
    exact known
  | continued idx inside mine same =>
    rw [same]
    intro other
    rw [Named.buffered (c := encountered c) known inside toolCall other]
    constructor
    · exact List.mem_append_right _
    · intro either
      rcases List.mem_append.mp either with its | old
      · rw [mine other (by simpa using its)]
        exact inside
      · exact old
  | opened idx id name its fresh same =>
    rw [same,its]
    refine Named.buffered (c := (openTool (encountered c) idx id name).context) (fun other => ?_) (.head _) toolCall
    rw [openToolSame]
    have old : get c.toolCallAccumulators other ≠ none ↔ other ∈ named := known other
    by_cases it : other = idx
    · simp [it]
    · simp [encountered,getSet,it,← old]

theorem Named.item (known : Named c named) (item : Item) : Named (onItem c item).context (namedBy named item) := by
  cases item with
  | reasoning text =>
    intro other
    simp only [onItem,onReasoning,Emits.andThen,startThinkingSame,namedBy,← known other]
    split <;> rfl
  | text text =>
    intro other
    simp only [onItem,onContent,Emits.andThen,startTextSame,namedBy,← known other]
    split <;> rfl
  | toolCall toolCall => exact known.call toolCall

theorem Blocks.encountered (b : Blocks c r) : Blocks (encountered c) r :=
  { b with }

theorem Blocks.buffered (b : Blocks c r) (idx : Nat) (toolCall : ToolCallDelta) : Blocks (bufferArguments c idx toolCall) r := by
  obtain ⟨accumulators,same,-⟩ := bufferSame c idx toolCall
  rw [same]
  exact { b with }

theorem setNonempty {m : InsertionMap Nat String} {key : Nat} {value} : InsertionMap.set m key value ≠ [] := by
  cases m with
  | nil => simp [InsertionMap.set]
  | cons head rest =>
    rw [InsertionMap.set.eq_def]
    simp only
    split <;> simp

theorem Past.callNext (told : Past c past) : Past (OpenAIFormats.encountered c) (past ++ [.call]) := by
  obtain ⟨reasoning,text,reasoningEnded,textEnded,calls,openings,accumulators⟩ := told
  refine ⟨?_,?_,?_,?_,by simp [OpenAIFormats.encountered],?_,?_⟩
  · simpa [OpenAIFormats.encountered] using reasoning
  · simpa [OpenAIFormats.encountered] using text
  · simpa [OpenAIFormats.encountered,endedSnoc] using reasoningEnded
  · simpa [OpenAIFormats.encountered,endedSnoc] using textEnded
  · simpa [OpenAIFormats.encountered] using openings
  · simpa [OpenAIFormats.encountered] using accumulators

theorem Past.buffered (told : Past c past) (nonempty : c.toolCallAccumulators ≠ []) (idx : Nat) (toolCall : ToolCallDelta) :
    Past (bufferArguments c idx toolCall) past := by
  obtain ⟨accumulators,same,rfl | ⟨value,rfl⟩⟩ := bufferSame c idx toolCall
  · rw [same]
    exact told
  · rw [same]
    refine { told with accumulators := ?_ }
    exact iff_of_true setNonempty (told.accumulators.mp nonempty)

theorem Past.openingNext (told : Past c past) (idx : Nat) (id name : String) :
    Past (openTool (OpenAIFormats.encountered c) idx id name).context (past ++ [.opening]) := by
  rw [openToolSame]
  obtain ⟨reasoning,text,reasoningEnded,textEnded,calls,openings,accumulators⟩ := told
  refine ⟨?_,?_,?_,?_,by simp [OpenAIFormats.encountered],?_,?_⟩
  · simpa [OpenAIFormats.encountered] using reasoning
  · simpa [OpenAIFormats.encountered] using text
  · simp [endedSnoc,OpenAIFormats.encountered,reasoningEnded,reasoning]
  · simp [endedSnoc,OpenAIFormats.encountered,textEnded,text]
  · have perm := List.perm_orderedInsert (fun a b : Nat × Nat => a.1 ≤ b.1) (idx,c.nextBlockIndex) c.toolCallBlockIndices
    simp only [OpenAIFormats.encountered,List.mem_append,List.mem_singleton,or_true,iff_true]
    intro empty
    rw [empty] at perm
    cases perm.length_eq
  · simpa using setNonempty

theorem Blocks.openTool (b : Blocks c r) (idx : Nat) (id name : String) : Follows r (openTool c idx id name) :=
  (b.closeThinking.andThen fun _ b => b.closeText).andThen fun _ b => b.startTool idx id name

theorem Passed.call (passed : Passed c past r) (known : Named c named) (toolCall : ToolCallDelta) :
    ∃ s, reads r (blocks (onToolCall c toolCall).events) = some s ∧
      Passed (onToolCall c toolCall).context (past ++ [pieceOf named (.toolCall toolCall)]) s := by
  cases known.effect toolCall with
  | refused unnamed same =>
    rw [same]
    refine ⟨r,rfl,passed.shown.encountered,?_⟩
    simpa [pieceOf,unnamed] using passed.told.callNext
  | continued idx inside mine same =>
    rw [same,pieceContinued inside mine]
    refine ⟨r,rfl,passed.shown.encountered.buffered idx toolCall,passed.told.callNext.buffered ?_ idx toolCall⟩
    intro empty
    have absent : c.toolCallAccumulators = [] := empty
    exact (known idx).mpr inside (by rw [absent]; rfl)
  | opened idx id name its fresh same =>
    have opening : pieceOf named (.toolCall toolCall) = .opening := by simp [pieceOf,its,fresh]
    rw [same,opening]
    obtain ⟨s,read,b⟩ := passed.shown.encountered.openTool idx id name
    refine ⟨s,by simpa [Emits.andThen] using read,b.buffered idx toolCall,
      (passed.told.openingNext idx id name).buffered ?_ idx toolCall⟩
    exact setNonempty

theorem Passed.item (passed : Passed c past r) (known : Named c named) (item : Item) (ordered : WellOrdered past) :
    (WellOrdered (past ++ [pieceOf named item]) → ∃ s, reads r (blocks (onItem c item).events) = some s ∧
      Passed (onItem c item).context (past ++ [pieceOf named item]) s) ∧
    (¬ WellOrdered (past ++ [pieceOf named item]) → reads r (blocks (onItem c item).events) = none) := by
  rw [wellOrderedSnoc]
  cases item with
  | reasoning text =>
    have both := passed.reasoning text
    exact ⟨fun next => both.1 (next.2 (.inl rfl)),fun bad => both.2 (by
      by_contra fresh
      exact bad ⟨ordered,fun _ => fresh⟩)⟩
  | text text =>
    have both := passed.text text
    exact ⟨fun next => both.1 (next.2 (.inr rfl)),fun bad => both.2 (by
      by_contra fresh
      exact bad ⟨ordered,fun _ => fresh⟩)⟩
  | toolCall toolCall =>
    refine ⟨fun _ => passed.call known toolCall,fun bad => absurd ⟨ordered,fun kind => ?_⟩ bad⟩
    simp only [pieceOf] at kind
    split at kind <;> simp at kind

theorem Passed.items (items : List Item) : ∀ {c past r named}, Passed c past r → Named c named → WellOrdered past →
    (WellOrdered (past ++ pieces named items) → ∃ s, reads r (blocks (onItems c items).events) = some s ∧
      Passed (onItems c items).context (past ++ pieces named items) s) ∧
    (¬ WellOrdered (past ++ pieces named items) → reads r (blocks (onItems c items).events) = none) := by
  induction items with
  | nil =>
    intro c past r named passed known ordered
    simp only [pieces,List.append_nil]
    exact ⟨fun _ => ⟨r,rfl,passed⟩,fun bad => absurd ordered bad⟩
  | cons item rest ih =>
    intro c past r named passed known ordered
    have split_ : past ++ pieces named (item::rest) = (past ++ [pieceOf named item]) ++ pieces (namedBy named item) rest := by
      simp [pieces]
    have events : reads r (blocks (onItems c (item::rest)).events) = (reads r (blocks (onItem c item).events)).bind
        (reads · (blocks (onItems (onItem c item).context rest).events)) := by
      simp [onItems,Emits.andThen,readsAppend]
    have context : (onItems c (item::rest)).context = (onItems (onItem c item).context rest).context := rfl
    rw [split_,events,context]
    by_cases next : WellOrdered (past ++ [pieceOf named item])
    · obtain ⟨s,read,passed⟩ := (passed.item known item ordered).1 next
      rw [read]
      exact ih passed (known.item item) next
    · rw [(passed.item known item ordered).2 next]
      exact ⟨fun whole => absurd whole.before next,fun _ => rfl⟩

end Clankermux.OpenAIFormats
