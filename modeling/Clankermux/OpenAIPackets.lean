import Clankermux.OpenAIStreamWellFormed
import Clankermux.Splitting
import Clankermux.Utf8

/-! The translation of a body as its bytes arrive. The decoder and the buffer make the lines
those of the whole body, however it is cut; what is cut decides is which of the lines behind
the first `[DONE]` are still handled, those of the same chunk. -/
namespace Clankermux.OpenAIFormats
open Splitting

def decodeChunks (d : Utf8.Decoder) : List (List UInt8) → List (List Char)
  | [] => []
  | chunk::rest => (Utf8.decode d chunk).2::decodeChunks (Utf8.decode d chunk).1 rest

def transformBytes (rt : Runtime) (resolvedModel : Option String) (chunks : List (List UInt8)) : List Event :=
  transformStreamingResponse rt resolvedModel (decodeChunks .start chunks)

def bodyLines (rt : Runtime) (body : List UInt8) : List Line :=
  (splitLines (Utf8.decode .start body).2).1.filterMap (readLine rt)

/-- Behind the first `[DONE]` no line emits anything: none is a chunk where no chunk came before, and else none says
`[DONE]` again or brings more than refused and continued tool calls. -/
def Silent (chunks : List Chunk) (later : List Line) : Prop :=
  if chunks = [] then ∀ line ∈ later, line = .done else Quiet (namedAfter [] (bodyItems chunks)) later

def SilentBehind (rt : Runtime) (body : List UInt8) : Prop :=
  ∀ chunks later, bodyLines rt body = chunkLines chunks ++ .done::later → Silent chunks later

section Lines
variable {rt : Runtime} {text buffer : List Char} {body : List UInt8} {d : Utf8.Decoder} {c : Context}

theorem splitLinesCut (text : List Char) : splitLines text = cut '\n' text := by
  induction text with
  | nil => rfl
  | cons ch rest ih =>
    rw [splitLines,cutCons,ih]
    cases cut '\n' rest with
    | mk pieces last => cases pieces <;> rfl

theorem decodeChunksFlatten (chunks : List (List UInt8)) : ∀ d, (decodeChunks d chunks).flatten = (Utf8.decode d chunks.flatten).2 := by
  induction chunks with
  | nil => exact fun d => rfl
  | cons chunk rest ih =>
    intro d
    rw [decodeChunks,List.flatten_cons,ih,List.flatten_cons,Utf8.decodeAppend]

theorem callsFlatten (rt : Runtime) (texts : List (List Char)) : ∀ buffer, '\n' ∉ buffer →
    (calls rt buffer texts).flatten = (splitLines (buffer ++ texts.flatten)).1.filterMap (readLine rt) := by
  induction texts with
  | nil =>
    intro buffer open_
    rw [List.flatten_nil,List.append_nil,splitLinesCut,cutFree _ open_]
    rfl
  | cons text rest ih =>
    intro buffer open_
    have left : '\n' ∉ (splitLines (buffer ++ text)).2 := by
      rw [splitLinesCut]
      exact cutOpen _
    rw [calls,List.flatten_cons,ih _ left,List.flatten_cons,← List.append_assoc]
    simp only [splitLinesCut]
    rw [cutAppend (buffer ++ text) rest.flatten,List.filterMap_append]

theorem bodyCalls (rt : Runtime) (chunks : List (List UInt8)) :
    (calls rt [] (decodeChunks .start chunks)).flatten = bodyLines rt chunks.flatten := by
  rw [callsFlatten rt _ [] (by simp),decodeChunksFlatten,List.nil_append,bodyLines]

theorem chunkLinesDone (chunks : List Chunk) : (chunkLines chunks).any Line.isDone = false := by
  induction chunks with
  | nil => rfl
  | cons data rest ih => exact ih

theorem firstDone (lines : List Line) : (∃ chunks, lines = chunkLines chunks) ∨
    ∃ chunks later, lines = chunkLines chunks ++ .done::later := by
  induction lines with
  | nil => exact .inl ⟨[],rfl⟩
  | cons line rest ih =>
    cases line with
    | done => exact .inr ⟨[],rest,rfl⟩
    | chunk data =>
      rcases ih with ⟨chunks,rfl⟩ | ⟨chunks,later,rfl⟩
      · exact .inl ⟨data::chunks,rfl⟩
      · exact .inr ⟨data::chunks,later,rfl⟩
variable {chunks : List Chunk} {later : List Line}

theorem heardChunks {lines} (whole : lines.flatten = chunkLines chunks) :
    heard lines = (chunkLines chunks,false) := by
  induction lines generalizing chunks with
  | nil => rw [← whole]; rfl
  | cons call rest ih =>
    obtain ⟨first,others,rfl,here,there⟩ := List.append_eq_map_iff.mp whole
    have none_ : call.any Line.isDone = false := by
      rw [← here]
      exact chunkLinesDone first
    rw [heard,none_,ih there.symm,← here]
    simp [chunkLines]

theorem heardDone {lines}
    (whole : lines.flatten = chunkLines chunks ++ .done::later) :
    ∃ same, same <+: later ∧ heard lines = (chunkLines chunks ++ .done::same,true) ∧ ∃ call ∈ lines, .done::same <:+ call := by
  induction lines generalizing chunks with
  | nil => simp at whole
  | cons call rest ih =>
    have skipped : ∀ {first others}, call = chunkLines first → rest.flatten = chunkLines others ++ .done::later →
        ∃ same, same <+: later ∧ heard (call::rest) = (chunkLines first ++ (chunkLines others ++ .done::same),true) ∧
          ∃ its ∈ call::rest, .done::same <:+ its := by
      intro first others here there
      obtain ⟨same,before,its,its_,inside,ends⟩ := ih there
      have none_ : call.any Line.isDone = false := by
        rw [here]
        exact chunkLinesDone first
      refine ⟨same,before,?_,its_,.tail _ inside,ends⟩
      rw [heard,none_,its,here]
      rfl
    rcases List.append_eq_append_iff.mp whole with ⟨more,split_,there⟩ | ⟨more,here,split_⟩
    · obtain ⟨first,others,rfl,firsts,others_⟩ := List.append_eq_map_iff.mp split_.symm
      rw [← others_] at there
      obtain ⟨same,before,its⟩ := skipped firsts.symm there
      exact ⟨same,before,by simpa [chunkLines] using its⟩
    · cases more with
      | nil =>
        obtain ⟨same,before,its⟩ := @skipped chunks [] (by simpa using here) split_.symm
        exact ⟨same,before,by simpa [chunkLines] using its⟩
      | cons line same =>
        obtain ⟨rfl,its⟩ := List.cons.inj split_
        refine ⟨same,⟨_,its.symm⟩,?_,call,.head _,_,here.symm⟩
        rw [heard,if_pos (by simp [here,Line.isDone]),here]

theorem Named.callSilent (known : Named c named) {item} (call : pieceOf named item = .call) : (onItem c item).events = [] := by
  cases item with
  | reasoning text => simp [pieceOf] at call
  | text text => simp [pieceOf] at call
  | toolCall toolCall =>
    simp only [onItem]
    cases known.effect toolCall with
    | refused unnamed same => rw [same]
    | continued idx inside mine same => rw [same]
    | opened idx id name its fresh same => simp [pieceOf,its,fresh] at call

theorem Named.callsSilent (items : List Item) : ∀ {c named}, Named c named → (∀ p ∈ pieces named items, p = .call) →
    (onItems c items).events = [] := by
  induction items with
  | nil => exact fun _ _ => rfl
  | cons item rest ih =>
    intro c named known all
    rw [pieces,List.forall_mem_cons] at all
    rw [onItems,Emits.andThen,known.callSilent all.1,ih (known.item item) all.2]
    rfl

theorem Named.silent (rt : Runtime) (lines : List Line) : ∀ {c named}, Named c named → c.hasSentStart = true →
    Quiet named lines → (onLines rt c lines).events = [] := by
  induction lines with
  | nil => exact fun _ _ _ => rfl
  | cons line rest ih =>
    intro c named known sent quiet
    obtain ⟨open_,all⟩ := quiet
    cases line with
    | done => exact absurd rfl (open_ .done (.head _))
    | chunk data =>
      rw [List.flatMap_cons,lineItems,piecesAppend,List.forall_mem_append] at all
      obtain ⟨read,next,still⟩ := known.chunk sent data
      have here := read.callsSilent _ all.1
      have there := ih next still ⟨fun line inside => open_ line (.tail _ inside),all.2⟩
      rw [onLines,onLine,onChunkSent sent,Emits.andThen,here,there]
      rfl

theorem silentLater (rt : Runtime) (resolvedModel : Option String) (chunks : List Chunk) (later : List Line) :
    (onLines rt (onLines rt (.start resolvedModel) (chunkLines chunks)).context later).events = [] ↔ Silent chunks later := by
  unfold Silent
  by_cases none_ : chunks = []
  · subst none_
    change (onLines rt (.start resolvedModel) later).events = [] ↔ _
    induction later with
    | nil => simp [onLines]
    | cons line rest ih =>
      cases line with
      | done =>
        have same : (onLines rt (.start resolvedModel) (.done::rest)).events = (onLines rt (.start resolvedModel) rest).events := by
          simp [onLines,onLine,onDone,Context.start]
        rw [same,ih]
        simp
      | chunk data =>
        obtain ⟨d,model,-,emitted⟩ := firstChunk resolvedModel data
        refine iff_of_false ?_ (fun all => absurd (all _ (.head _)) (by simp))
        rw [onLines,onLine,emitted]
        simp [Emits.andThen]
  · obtain ⟨told,-⟩ := startBody rt resolvedModel none_
    rw [if_neg none_]
    refine ⟨fun empty => (told.named.quiet rt later told.sent).mp ?_,told.named.silent rt later told.sent⟩
    rw [empty]
    rfl

theorem eventsPrefix (rt : Runtime) {same later} (before : same <+: later) (empty : (onLines rt c later).events = []) :
    (onLines rt c same).events = [] := by
  obtain ⟨more,rfl⟩ := before
  rw [onLinesAppend,Emits.andThen,List.append_eq_nil_iff] at empty
  exact empty.1

theorem doneEvents (rt : Runtime) (resolvedModel : Option String) (chunks : List Chunk) (same : List Line) :
    (onLines rt (.start resolvedModel) (chunkLines chunks ++ .done::same)).events =
      (onLines rt (.start resolvedModel) (chunkLines chunks ++ [.done])).events ++
        (onLines rt (onLines rt (.start resolvedModel) (chunkLines chunks)).context same).events := by
  simp [onLinesAppend,onLines,onLine,Emits.andThen]

theorem transformDone (resolvedModel : Option String) {packets}
    (lines : bodyLines rt packets.flatten = chunkLines chunks ++ .done::later) :
    ∃ same, same <+: later ∧
      transformBytes rt resolvedModel packets = (onLines rt (.start resolvedModel) (chunkLines chunks ++ .done::same)).events ∧
      ∃ call ∈ calls rt [] (decodeChunks .start packets), .done::same <:+ call := by
  obtain ⟨same,before,its,inside⟩ := heardDone ((bodyCalls rt packets).trans lines)
  refine ⟨same,before,?_,inside⟩
  rw [transformBytes,transformStreamingResponse,transformHeard,its]
  exact List.append_nil _

theorem transformUndone (resolvedModel : Option String) {packets}
    (lines : bodyLines rt packets.flatten = chunkLines chunks) : transformBytes rt resolvedModel packets =
      (onLines rt (.start resolvedModel) (chunkLines chunks)).events ++
        flush rt (onLines rt (.start resolvedModel) (chunkLines chunks)).context := by
  rw [transformBytes,transformStreamingResponse,transformHeard,heardChunks ((bodyCalls rt packets).trans lines)]
  rfl

theorem transformWhole (resolvedModel : Option String)
    (lines : bodyLines rt body = chunkLines chunks ++ .done::later) : transformBytes rt resolvedModel [body] =
      (onLines rt (.start resolvedModel) (chunkLines chunks ++ .done::later)).events := by
  have call : calls rt [] (decodeChunks .start [body]) = [chunkLines chunks ++ .done::later] := by
    rw [← lines]
    rfl
  rw [transformBytes,transformStreamingResponse,transformHeard,call,heard,if_pos (by simp [Line.isDone])]
  exact List.append_nil _

theorem feedNewlines (d : Utf8.Decoder) (byte : UInt8) : (d.feed byte).2.count '\n' ≤ 1 := by
  have lead : ∀ (d : Utf8.Decoder) (n : Nat), (d.lead n).2.count '\n' ≤ 1 := by
    intro d n
    unfold Utf8.Decoder.lead
    split_ifs
    all_goals exact (List.count_le_length).trans (by simp)
  have replaced : ∀ text, (Utf8.replacement::text).count '\n' = text.count '\n' := by
    intro text
    exact List.count_cons_of_ne (by decide)
  have step : (d.step byte.toNat).2.count '\n' ≤ 1 := by
    unfold Utf8.Decoder.step
    split_ifs
    · exact lead _ _
    · rw [replaced]
      exact lead _ _
    · exact (List.count_le_length).trans (by simp)
    · exact (List.count_le_length).trans (by simp)
  have emit : ∀ (d : Utf8.Decoder) (text : List Char), ((d.emit text).2).Sublist text := by
    intro d text
    cases text with
    | nil => exact List.Sublist.refl _
    | cons ch rest =>
      simp only [Utf8.Decoder.emit]
      split_ifs
      · exact List.Sublist.refl _
      · exact List.sublist_cons_self _ _
      · exact List.Sublist.refl _
  exact ((emit _ _).count_le _).trans step

theorem cutCount (text : List Char) : (cut '\n' text).1.length = text.count '\n' := by
  induction text with
  | nil => rfl
  | cons ch rest ih =>
    rw [cutCons,List.count_cons,← ih]
    by_cases same : ch = '\n'
    · simp [same]
    · cases pieces : (cut '\n' rest).1 <;> simp [same]

theorem singlesFlatten (bytes : List UInt8) : (bytes.map ([·])).flatten = bytes :=
  (List.flatMap_def ..).symm.trans (List.flatMap_singleton' bytes)

theorem singleCalls (bytes : List UInt8) : ∀ d buffer, '\n' ∉ buffer →
    ∀ call ∈ calls rt buffer (decodeChunks d (bytes.map ([·]))), call.length ≤ 1 := by
  induction bytes with
  | nil =>
    intro d buffer open_ call inside
    cases inside
  | cons byte rest ih =>
    intro d buffer open_ call inside
    rw [List.map_cons,decodeChunks,calls,splitLinesCut,Utf8.decodeOne] at inside
    rcases List.mem_cons.mp inside with rfl | later
    · refine (List.length_filterMap_le _ _).trans ?_
      rw [cutCount,List.count_append,List.count_eq_zero.mpr open_,Nat.zero_add]
      exact feedNewlines d byte
    · exact ih _ _ (cutOpen _) call later

theorem transformSingle (resolvedModel : Option String)
    (lines : bodyLines rt body = chunkLines chunks ++ .done::later) : transformBytes rt resolvedModel (body.map ([·])) =
      (onLines rt (.start resolvedModel) (chunkLines chunks ++ [.done])).events := by
  rw [← singlesFlatten body] at lines
  obtain ⟨same,-,its,call,inside,ends⟩ := transformDone resolvedModel lines
  have short := ends.length_le.trans (singleCalls body .start [] (by simp) call inside)
  cases List.eq_nil_of_length_eq_zero (l := same) (by simpa using short)
  exact its

end Lines

/-- The reply does not depend on how the body is cut exactly when nothing behind the first
`[DONE]` emits. -/
theorem packetsSame (rt : Runtime) (resolvedModel : Option String) (body : List UInt8) :
    (∀ packets others, packets.flatten = body → others.flatten = body →
      transformBytes rt resolvedModel packets = transformBytes rt resolvedModel others) ↔ SilentBehind rt body := by
  constructor
  · intro same chunks later lines
    have apart := same [body] (body.map ([·])) (by simp) (singlesFlatten body)
    rw [transformWhole resolvedModel lines,transformSingle resolvedModel lines,doneEvents] at apart
    exact (silentLater rt resolvedModel chunks later).mp (List.append_right_eq_self.mp apart)
  · intro silent packets others its theirs
    rcases firstDone (bodyLines rt body) with ⟨chunks,lines⟩ | ⟨chunks,later,lines⟩
    · rw [transformUndone resolvedModel (its.symm ▸ lines),transformUndone resolvedModel (theirs.symm ▸ lines)]
    · have empty := (silentLater rt resolvedModel chunks later).mpr (silent chunks later lines)
      have cutEvents : ∀ {packets : List (List UInt8)}, packets.flatten = body → transformBytes rt resolvedModel packets =
          (onLines rt (.start resolvedModel) (chunkLines chunks ++ [.done])).events := by
        intro packets whole
        obtain ⟨same,before,events,-⟩ := transformDone resolvedModel (whole.symm ▸ lines)
        rw [events,doneEvents,eventsPrefix rt before empty,List.append_nil]
      rw [cutEvents its,cutEvents theirs]

/-- Two replies in one body: the second is translated when it comes in the packet of the
first one's `[DONE]`, and not when it comes in the next. -/
theorem packetsDiffer : transformBytes sampleRuntime none [Utf8.encode (sampleText [0] ++ sampleText [0])] ≠
    transformBytes sampleRuntime none [Utf8.encode (sampleText [0]),Utf8.encode (sampleText [0])] := by
  decide +kernel

end Clankermux.OpenAIFormats
