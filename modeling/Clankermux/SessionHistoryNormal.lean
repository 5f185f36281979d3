import Clankermux.SessionHistory

/-! The normal form of a history, and what is told of a history that goes on from stored digests. -/
namespace Clankermux.SessionHistory

def ApiMessage.asClient (m : ApiMessage) : ClientMessage :=
  ⟨match m.role with
    | .user => .user
    | .assistant => .assistant,.blocks m.content⟩

def said (messages : List ClientMessage) : List (Role × Json) :=
  messages.flatMap (fun m => (apiRole m.role).toList.flatMap (fun role => (kept m).map (role,·)))

def spoken (normalized : List ApiMessage) : List (Role × Json) := normalized.flatMap (fun m => m.content.map (m.role,·))

def isResult (said : Role × Json) : Bool := ofType "tool_result" said.2

structure Normal (messages : List ClientMessage) : Prop where
  alternates : (normalizeHistory messages).IsChain (fun a b => a.role ≠ b.role)
  nonempty : ∀ m ∈ normalizeHistory messages, m.content ≠ []
  resultsAhead : ∀ m ∈ normalizeHistory messages, m.role = .user → ∃ results others, m.content = results ++ others ∧
    (∀ b ∈ results, ofType "tool_result" b = true) ∧ ∀ b ∈ others, ofType "tool_result" b = false
  keepsResults : (spoken (normalizeHistory messages)).filter isResult = (said messages).filter isResult
  keepsOthers : (spoken (normalizeHistory messages)).filter (fun b => !isResult b) = (said messages).filter (fun b => !isResult b)
  idempotent : normalizeHistory ((normalizeHistory messages).map ApiMessage.asClient) = normalizeHistory messages

variable {content : List Json} {messages : List ClientMessage} {m : ClientMessage} {role : Role} {block : Json} {name : String}

theorem resultsFirstParts : resultsFirst content = content.filter (ofType "tool_result") ++ content.filter (fun b => !ofType "tool_result" b) := by
  unfold resultsFirst
  dsimp only
  split
  · rename_i none_
    have empty := List.isEmpty_iff.mp none_
    rw [empty,List.nil_append]
    refine (List.filter_eq_self.mpr (fun b inside => ?_)).symm
    simpa using List.filter_eq_nil_iff.mp empty b inside
  · rfl

theorem resultsFirstTwice : resultsFirst (resultsFirst content) = resultsFirst content := by
  rw [@resultsFirstParts (resultsFirst content),resultsFirstParts,List.filter_append,List.filter_append,List.filter_filter,List.filter_filter,
    List.filter_filter,List.filter_filter]
  simp

theorem resultsFirstFilter (p : Json → Bool) (only : (∀ b, p b = true → ofType "tool_result" b = true) ∨
    ∀ b, p b = true → ofType "tool_result" b = false) : (resultsFirst content).filter p = content.filter p := by
  rw [resultsFirstParts,List.filter_append,List.filter_filter,List.filter_filter]
  rcases only with yes | no
  · have all : ∀ b, (p b && ofType "tool_result" b) = p b := by
      intro b
      cases holds : p b with
      | false => rfl
      | true => exact yes b holds
    have none_ : ∀ b, (p b && !ofType "tool_result" b) = false := by
      intro b
      cases holds : p b with
      | false => rfl
      | true => simp [yes b holds]
    simp [all,none_]
  · have all : ∀ b, (p b && !ofType "tool_result" b) = p b := by
      intro b
      cases holds : p b with
      | false => rfl
      | true => simp [no b holds]
    have none_ : ∀ b, (p b && ofType "tool_result" b) = false := by
      intro b
      cases holds : p b with
      | false => rfl
      | true => exact no b holds
    simp [all,none_]

theorem arrangedFilter (g : Role × List Json) (p : Json → Bool) (only : (∀ b, p b = true → ofType "tool_result" b = true) ∨
    ∀ b, p b = true → ofType "tool_result" b = false) : (arranged g).content.filter p = g.2.filter p := by
  unfold arranged
  split
  · exact resultsFirstFilter p only
  · rfl

theorem arrangedTwice (g : Role × List Json) : arranged ((arranged g).role,(arranged g).content) = arranged g := by
  unfold arranged
  by_cases user : g.1 = .user
  · simp only [if_pos user,resultsFirstTwice]
  · simp only [if_neg user]

theorem arrangedEmpty (g : Role × List Json) (some_ : g.2 ≠ []) : (arranged g).content ≠ [] := by
  unfold arranged
  split
  · intro empty
    obtain ⟨b,inside⟩ := List.exists_mem_of_ne_nil _ some_
    rw [resultsFirstParts,List.append_eq_nil_iff] at empty
    have noResult := List.filter_eq_nil_iff.mp empty.1 b inside
    have noOther := List.filter_eq_nil_iff.mp empty.2 b inside
    simp [noResult] at noOther
  · exact some_

theorem stripField (other : name ≠ "cache_control") : (stripCacheControl block).field name = block.field name := by
  cases block with
  | obj fields =>
    simp only [stripCacheControl,Json.field,← List.filter_reverse,List.find?_filter]
    congr 1
    refine congrArg (fun p => List.find? p fields.reverse) (funext fun entry => ?_)
    by_cases same : entry.1 = name
    · simp [same,other]
    · simp [same]
  | _ => rfl

theorem stripType (type : String) : ofType type (stripCacheControl block) = ofType type block := by
  rw [ofType,stripField (by decide)]
  rfl

theorem stripKept : keepBlock (stripCacheControl block) = keepBlock block := by
  simp only [keepBlock,stripType,stripField (show "signature" ≠ "cache_control" by decide),stripField (show "data" ≠ "cache_control" by decide)]

theorem stripTwice : stripCacheControl (stripCacheControl block) = stripCacheControl block := by
  cases block with
  | obj fields => simp [stripCacheControl]
  | _ => rfl

theorem keptAgain (blocks : List Json) (from_ : ∀ b ∈ blocks, ∃ m, b ∈ kept m) : (blocks.filter keepBlock).map stripCacheControl = blocks := by
  have each : ∀ b ∈ blocks, keepBlock b = true ∧ stripCacheControl b = b := by
    intro b inside
    obtain ⟨m,there⟩ := from_ b inside
    obtain ⟨source,its,rfl⟩ := List.mem_map.mp there
    exact ⟨stripKept.trans (List.mem_filter.mp its).2,stripTwice⟩
  rw [List.filter_eq_self.mpr (fun b inside => (each b inside).1)]
  exact (List.map_congr_left (fun b inside => (each b inside).2)).trans (List.map_id _)

theorem addedKept {group} (found : added m = some group) : apiRole m.role = some group.1 ∧ group.2 = kept m ∧ group.2 ≠ [] := by
  unfold added at found
  split at found
  · cases found
  · rename_i role its
    split at found
    · cases found
    · rename_i some_
      cases found
      exact ⟨its,rfl,by simpa using some_⟩

theorem addedSaid (m : ClientMessage) : (added m).toList.flatMap (fun g => g.2.flatMap (fun b => [(g.1,b)])) =
    (apiRole m.role).toList.flatMap (fun role => (kept m).map (role,·)) := by
  unfold added
  cases role : apiRole m.role with
  | none => rfl
  | some role =>
    dsimp only
    split
    · rename_i none_
      simp [List.isEmpty_iff.mp none_]
    · simp [List.map_eq_flatMap]

theorem groupsSaid : (AdjacentGroups.groups (messages.filterMap added)).flatMap (fun g => g.2.flatMap (fun b => [(g.1,b)])) = said messages := by
  rw [AdjacentGroups.groupsRead (fun role b => [(role,b)]),List.filterMap_eq_flatMap_toList,List.flatMap_assoc,said]
  exact congrArg (fun f => List.flatMap f messages) (funext addedSaid)

theorem spokenFilter (p : Json → Bool) (only : (∀ b, p b = true → ofType "tool_result" b = true) ∨
    ∀ b, p b = true → ofType "tool_result" b = false) :
    (spoken (normalizeHistory messages)).filter (fun b => p b.2) = (said messages).filter (fun b => p b.2) := by
  rw [← groupsSaid,spoken,normalizeHistory,List.flatMap_map,List.filter_flatMap,List.filter_flatMap]
  refine congrArg (fun f => List.flatMap f (AdjacentGroups.groups (messages.filterMap added))) (funext fun g => ?_)
  have same := arrangedFilter g p only
  have read : ∀ blocks : List Json, (blocks.map (g.1,·)).filter (fun b => p b.2) = (blocks.filter p).map (g.1,·) := fun blocks => by
    rw [List.filter_map]
    rfl
  rw [show g.2.flatMap (fun b => [(g.1,b)]) = g.2.map (g.1,·) from List.map_eq_flatMap.symm,read,← same]
  exact read _

theorem groupsNonempty : ∀ g ∈ AdjacentGroups.groups (messages.filterMap added), g.2 ≠ [] :=
  AdjacentGroups.groupsAll (P := fun _ content => content ≠ [])
    (fun g inside => by
      obtain ⟨m,-,found⟩ := List.mem_filterMap.mp inside
      exact (addedKept found).2.2)
    (fun _ a b some_ _ => by simp [some_])

theorem normalBlocks : ∀ m ∈ normalizeHistory messages, ∀ b ∈ m.content, ∃ source, b ∈ kept source := by
  have each : ∀ g ∈ AdjacentGroups.groups (messages.filterMap added), ∀ b ∈ g.2, ∃ source, b ∈ kept source :=
    AdjacentGroups.groupsAll (P := fun _ content => ∀ b ∈ content, ∃ source, b ∈ kept source)
      (fun g inside b there => by
        obtain ⟨m,-,found⟩ := List.mem_filterMap.mp inside
        exact ⟨m,(addedKept found).2.1 ▸ there⟩)
      (fun _ a b first second block inside => (List.mem_append.mp inside).elim (first block) (second block))
  intro m inside b there
  obtain ⟨g,its,rfl⟩ := List.mem_map.mp inside
  refine each g its b ?_
  unfold arranged at there
  split at there
  · rw [resultsFirstParts] at there
    rcases List.mem_append.mp there with result | other
    · exact (List.mem_filter.mp result).1
    · exact (List.mem_filter.mp other).1
  · exact there

theorem alternates : (normalizeHistory messages).IsChain (fun a b => a.role ≠ b.role) := by
  rw [normalizeHistory,List.isChain_map]
  exact AdjacentGroups.groupsAlternate

theorem normalizeFixed {normalized} (alternate : normalized.IsChain (fun a b => a.role ≠ b.role))
    (some_ : ∀ m ∈ normalized, m.content ≠ []) (from_ : ∀ m ∈ normalized, ∀ b ∈ m.content, ∃ source, b ∈ kept source)
    (tidy : ∀ m ∈ normalized, arranged (m.role,m.content) = m) : normalizeHistory (normalized.map ApiMessage.asClient) = normalized := by
  have each : ∀ m ∈ normalized, added m.asClient = some (m.role,m.content) := by
    intro m inside
    have whole : kept m.asClient = m.content := keptAgain m.content (from_ m inside)
    have role : apiRole m.asClient.role = some m.role := by
      unfold ApiMessage.asClient apiRole
      cases m.role <;> rfl
    unfold added
    rw [role]
    simp [whole,some_ m inside]
  have items : (normalized.map ApiMessage.asClient).filterMap added = normalized.map (fun m => (m.role,m.content)) := by
    rw [List.filterMap_map,← List.filterMap_eq_map]
    exact List.filterMap_congr (fun m inside => each m inside)
  rw [normalizeHistory,items,AdjacentGroups.groupsFixed ((List.isChain_map _).mpr alternate),List.map_map]
  exact (List.map_congr_left (fun m inside => tidy m inside)).trans (List.map_id _)

theorem normalForm (messages : List ClientMessage) : Normal messages := by
  have nonempty : ∀ m ∈ normalizeHistory messages, m.content ≠ [] := by
    intro m inside
    obtain ⟨g,its,rfl⟩ := List.mem_map.mp inside
    exact arrangedEmpty g (groupsNonempty g its)
  refine ⟨alternates,nonempty,fun m inside user => ?_,?_,?_,?_⟩
  · obtain ⟨g,its,rfl⟩ := List.mem_map.mp inside
    refine ⟨_,_,(if_pos user).trans resultsFirstParts,fun b there => (List.mem_filter.mp there).2,fun b there => ?_⟩
    simpa using (List.mem_filter.mp there).2
  · exact spokenFilter (ofType "tool_result") (.inl fun _ yes => yes)
  · exact spokenFilter (fun b => !ofType "tool_result" b) (.inr fun _ no => by simpa using no)
  · refine normalizeFixed alternates nonempty normalBlocks (fun m inside => ?_)
    obtain ⟨g,its,rfl⟩ := List.mem_map.mp inside
    exact arrangedTwice g

variable {h : Host} {normalized tail : List ApiMessage} {stored : List String} {message : ApiMessage}

theorem digestsCons {found rest} (first : messageDigest h message = some found) (later : digests h normalized = some rest) :
    digests h (message::normalized) = some (found.toList ++ rest) := by
  unfold digests at later ⊢
  obtain ⟨all,read,rfl⟩ := Option.map_eq_some_iff.mp later
  rw [List.mapM_cons,first,read]
  cases found <;> rfl

theorem skipEmptySplit (ran : skipEmpty h normalized = some tail) : ∃ i, i ≤ normalized.length ∧ normalized.drop i = tail ∧
    digests h (normalized.take i) = some [] := by
  induction normalized with
  | nil =>
    cases ran
    exact ⟨0,le_rfl,rfl,rfl⟩
  | cons message rest ih =>
    obtain ⟨found,first,ran⟩ := Option.bind_eq_some_iff.mp ran
    cases found with
    | none =>
      obtain ⟨i,le,dropped,taken⟩ := ih ran
      exact ⟨i+1,Nat.succ_le_succ le,dropped,digestsCons first taken⟩
    | some digest =>
      cases ran
      exact ⟨0,Nat.zero_le _,rfl,rfl⟩

theorem normalizedAfterSplit (ran : normalizedAfter h normalized stored = some (some tail)) : ∃ i, i ≤ normalized.length ∧
    normalized.drop i = tail ∧ digests h (normalized.take i) = some stored := by
  induction normalized generalizing stored with
  | nil =>
    cases stored with
    | nil =>
      cases ran
      exact ⟨0,le_rfl,rfl,rfl⟩
    | cons _ _ => cases ran
  | cons message rest ih =>
    cases stored with
    | nil =>
      obtain ⟨skipped,went,same⟩ := Option.map_eq_some_iff.mp ran
      cases same
      exact skipEmptySplit went
    | cons digest stored =>
      obtain ⟨found,first,ran⟩ := Option.bind_eq_some_iff.mp ran
      cases found with
      | none =>
        obtain ⟨i,le,dropped,taken⟩ := ih ran
        exact ⟨i+1,Nat.succ_le_succ le,dropped,digestsCons first taken⟩
      | some found =>
        dsimp only at ran
        split at ran
        · cases ran
        · rename_i same
          obtain ⟨i,le,dropped,taken⟩ := ih ran
          rw [not_not] at same
          subst same
          exact ⟨i+1,Nat.succ_le_succ le,dropped,digestsCons first taken⟩

theorem normalizeSplit {i} (le : i ≤ (normalizeHistory messages).length) : ∃ before after, messages = before ++ after ∧
    normalizeHistory before = (normalizeHistory messages).take i ∧ normalizeHistory after = (normalizeHistory messages).drop i := by
  rw [normalizeHistory,List.length_map] at le
  obtain ⟨first,second,items,one,two⟩ := AdjacentGroups.groupsSplit le
  obtain ⟨before,after,rfl,ahead,behind⟩ := List.filterMap_eq_append_iff.mp items
  refine ⟨before,after,rfl,?_,?_⟩
  · rw [normalizeHistory,ahead,one]
    exact List.map_take
  · rw [normalizeHistory,behind,two]
    exact List.map_drop

theorem normalizeEmptyReply (m : ClientMessage) (rest : List ClientMessage) (empty : (normalizeHistory [m]).isEmpty = true) :
    normalizeHistory (m::rest) = normalizeHistory rest := by
  have none_ : added m = none := by
    cases found : added m with
    | none => rfl
    | some group => simp [normalizeHistory,found,AdjacentGroups.groups,AdjacentGroups.addFirst] at empty
  rw [normalizeHistory,List.filterMap_cons,none_]
  rfl

def Follows (h : Host) (messages : List ClientMessage) (stored : List String) (tail : List ApiMessage) : Prop :=
  ∃ before after, messages = before ++ after ∧ messageDigests h before = some stored ∧ normalizeHistory after = tail

theorem messagesAfterFollows (ran : messagesAfter h messages stored = some (some tail)) : Follows h messages stored tail := by
  have ofDirect : ∀ {part} {left : List ApiMessage}, normalizedAfter h (normalizeHistory part) stored = some (some left) →
      Follows h part stored left := by
    intro part left direct
    obtain ⟨i,le,dropped,taken⟩ := normalizedAfterSplit direct
    obtain ⟨before,after,same,one,two⟩ := normalizeSplit le
    exact ⟨before,after,same,by rw [messageDigests,one,taken],two.trans dropped⟩
  obtain ⟨direct,its,ran⟩ := Option.bind_eq_some_iff.mp ran
  cases direct with
  | some left =>
    cases ran
    exact ofDirect its
  | none =>
    dsimp only at ran
    unfold afterEmptyReply at ran
    split at ran
    · cases ran
    · rename_i reply last
      split at ran
      · cases ran
      · rename_i replayed found
        split at ran
        · cases ran
        · rename_i empty
          obtain ⟨before,matched,ran⟩ := Option.bind_eq_some_iff.mp ran
          split at ran
          · cases ran
            obtain ⟨i,le,dropped,taken⟩ := normalizedAfterSplit matched
            have all : (normalizeHistory (messages.take reply)).take i = normalizeHistory (messages.take reply) :=
              List.take_of_length_le (List.drop_eq_nil_iff.mp dropped)
            rw [all] at taken
            obtain ⟨bound,at_⟩ := List.getElem?_eq_some_iff.mp found
            refine ⟨messages.take reply,messages.drop reply,(List.take_append_drop _ _).symm,taken,?_⟩
            rw [List.drop_eq_getElem_cons bound,at_]
            exact normalizeEmptyReply _ _ (by simpa using empty)
          · cases ran

end Clankermux.SessionHistory
