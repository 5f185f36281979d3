import Clankermux.SessionHistoryNormal

/-! What the digests of a history do not see: thinking, the marks of the cache, and where a run of
text is split. -/
namespace Clankermux.SessionHistory
open Json

@[grind] def endsInside (inside : Bool) (text : List Char) : Bool :=
  match text.getLast? with
  | none => inside
  | some ch => isWhitespace ch

theorem endsAppend (inside : Bool) (a b : List Char) : endsInside inside (a ++ b) = endsInside (endsInside inside a) b := by
  unfold endsInside
  rw [List.getLast?_append]
  cases b.getLast? <;> rfl

theorem collapseAppend (a b : List Char) : ∀ inside, collapse inside (a ++ b) = collapse inside a ++ collapse (endsInside inside a) b := by
  induction a with
  | nil => exact fun inside => rfl
  | cons ch rest ih =>
    intro inside
    have ends : endsInside inside (ch::rest) = endsInside (isWhitespace ch) rest := endsAppend inside [ch] rest
    rw [ends]
    cases space : isWhitespace ch with
    | true => cases inside <;> simp [collapse,space,ih]
    | false => simp [collapse,space,ih]

theorem collapseSpaces {gap} (spaces : ∀ ch ∈ gap, isWhitespace ch = true) : collapse true gap = [] := by
  induction gap with
  | nil => rfl
  | cons ch rest ih =>
    rw [collapse,if_pos (spaces ch (by simp)),if_pos rfl]
    exact ih (fun c inside => spaces c (.tail _ inside))

theorem endsSpaces {gap} (spaces : ∀ ch ∈ gap, isWhitespace ch = true) (some_ : gap ≠ []) (inside : Bool) :
    endsInside inside gap = true := by
  unfold endsInside
  rw [List.getLast?_eq_some_getLast some_]
  exact spaces _ (List.getLast_mem some_)

theorem collapseGap {gap other} (spaces : ∀ ch ∈ gap, isWhitespace ch = true) (some_ : gap ≠ [])
    (spaces' : ∀ ch ∈ other, isWhitespace ch = true) (some_' : other ≠ []) (inside : Bool) : collapse inside gap = collapse inside other := by
  have first : ∀ {text}, (∀ ch ∈ text, isWhitespace ch = true) → text ≠ [] → collapse false text = [' '] := by
    intro text all nonempty
    obtain ⟨ch,rest,rfl⟩ := List.exists_cons_of_ne_nil nonempty
    rw [collapse,if_pos (all ch (by simp)),if_neg (by decide),collapseSpaces (fun c inside => all c (.tail _ inside))]
  cases inside with
  | true => rw [collapseSpaces spaces,collapseSpaces spaces']
  | false => rw [first spaces some_,first spaces' some_']

theorem collapseBetween {gap other} (spaces : ∀ ch ∈ gap, isWhitespace ch = true) (some_ : gap ≠ [])
    (spaces' : ∀ ch ∈ other, isWhitespace ch = true) (some_' : other ≠ []) (before after : List Char) (inside : Bool) :
    collapse inside (before ++ gap ++ after) = collapse inside (before ++ other ++ after) := by
  rw [List.append_assoc,List.append_assoc,collapseAppend before,collapseAppend before,collapseAppend gap,collapseAppend other,
    collapseGap spaces some_ spaces' some_',endsSpaces spaces some_,endsSpaces spaces' some_']

structure TextBlock (block : Json) (text : List Char) : Prop where
  type : ofType "text" block = true
  text : block.field "text" = some (.str (String.ofList text))

def Spaces (text : List Char) : Prop := ∀ ch ∈ text, isWhitespace ch = true

inductive Resplit : List Json → List Json → Prop where
  | refl (blocks : List Json) : Resplit blocks blocks
  | keep (block : Json) {a b} (rest : Resplit a b) : Resplit (block::a) (block::b)
  | split {one first second before gap after left right} (spaces : Spaces gap) (some_ : gap ≠ []) (lefts : Spaces left)
      (rights : Spaces right) (whole : TextBlock one (before ++ gap ++ after)) (ahead : TextBlock first (before ++ left))
      (behind : TextBlock second (right ++ after)) (rest : List Json) : Resplit (one::rest) (first::second::rest)
  | symm {a b} (other : Resplit a b) : Resplit b a
  | trans {a b c} (first : Resplit a b) (second : Resplit b c) : Resplit a c
variable {messages others : List ClientMessage} {a b : List Json}

theorem Resplit.ahead (resplit : Resplit a b) (front : List Json) : Resplit (front ++ a) (front ++ b) := by
  induction front with
  | nil => exact resplit
  | cons block front ih => exact ih.keep block

theorem Resplit.behind (resplit : Resplit a b) (back : List Json) : Resplit (a ++ back) (b ++ back) := by
  induction resplit with
  | refl blocks => exact .refl _
  | keep block _ ih => exact ih.keep block
  | split spaces some_ lefts rights whole ahead behind rest => exact .split spaces some_ lefts rights whole ahead behind (rest ++ back)
  | symm _ ih => exact ih.symm
  | trans _ _ first second => exact first.trans second

theorem Resplit.append {a a' b b'} (first : Resplit a a') (second : Resplit b b') : Resplit (a ++ b) (a' ++ b') :=
  (first.behind b).trans (second.ahead a')

theorem Resplit.filter (resplit : Resplit a b) {p text} (alike : ∀ block, ofType "text" block = true → p block = text) :
    Resplit (a.filter p) (b.filter p) := by
  induction resplit with
  | refl blocks => exact .refl _
  | keep block _ ih =>
    rw [List.filter_cons,List.filter_cons]
    split
    · exact ih.keep block
    · exact ih
  | split spaces some_ lefts rights whole ahead behind rest =>
    rw [List.filter_cons,List.filter_cons,List.filter_cons,alike _ whole.type,alike _ ahead.type,alike _ behind.type]
    cases text with
    | true => exact .split spaces some_ lefts rights whole ahead behind _
    | false => exact .refl _
  | symm _ ih => exact ih.symm
  | trans _ _ first second => exact first.trans second

theorem ofTypeOnly {type other block} (its : ofType type block = true) (different : type ≠ other) : ofType other block = false := by
  unfold ofType isStr at its ⊢
  split at its
  · rename_i value found
    have same : value = type := by simpa using its
    simpa [same] using different
  · cases its

structure Same (s t : Shape) : Prop where
  done : s.done = t.done
  text : collapse false s.text = collapse false t.text
  ends : endsInside false s.text = endsInside false t.text
  empty : s.text = [] ↔ t.text = []

theorem Same.refl (s : Shape) : Same s s := ⟨rfl,rfl,rfl,.rfl⟩

theorem Same.symm {s t} (same : Same s t) : Same t s := ⟨same.done.symm,same.text.symm,same.ends.symm,same.empty.symm⟩

theorem Same.trans {s t u} (first : Same s t) (second : Same t u) : Same s u :=
  ⟨first.done.trans second.done,first.text.trans second.text,first.ends.trans second.ends,first.empty.trans second.empty⟩

theorem Same.flush {s t} (same : Same s t) : s.flush = t.flush := by
  unfold Shape.flush squash
  rw [same.done,same.text]
  by_cases none_ : s.text = []
  · rw [if_pos none_,if_pos (same.empty.mp none_)]
  · rw [if_neg none_,if_neg (fun empty => none_ (same.empty.mpr empty))]

theorem Same.read {s t} (same : Same s t) {a b} (alike : ∀ inside, collapse inside (a ++ [' ']) = collapse inside (b ++ [' '])) :
    Same ⟨s.done,s.text ++ a ++ [' ']⟩ ⟨t.done,t.text ++ b ++ [' ']⟩ := by
  refine ⟨same.done,?_,?_,by simp⟩
  · show collapse false (s.text ++ a ++ [' ']) = collapse false (t.text ++ b ++ [' '])
    rw [List.append_assoc,List.append_assoc,collapseAppend s.text,collapseAppend t.text,same.text,same.ends,alike]
  · rw [endsAppend,endsAppend _ (t.text ++ b)]
    rfl

def Agree (a b : Option Shape) : Prop := (a = none ∧ b = none) ∨ ∃ s t, a = some s ∧ b = some t ∧ Same s t

theorem Agree.symm {a b} (agree : Agree a b) : Agree b a := by
  rcases agree with ⟨first,second⟩ | ⟨s,t,first,second,same⟩
  · exact .inl ⟨second,first⟩
  · exact .inr ⟨t,s,second,first,same.symm⟩

theorem Agree.trans {a b c} (one : Agree a b) (two : Agree b c) : Agree a c := by
  rcases one with ⟨first,second⟩ | ⟨s,t,first,second,same⟩
  · rcases two with ⟨third,fourth⟩ | ⟨s,t,third,fourth,same⟩
    · exact .inl ⟨first,fourth⟩
    · cases second.symm.trans third
  · rcases two with ⟨third,fourth⟩ | ⟨t',u,third,fourth,again⟩
    · cases second.symm.trans third
    · cases second.symm.trans third
      exact .inr ⟨s,u,first,fourth,same.trans again⟩

theorem Agree.bind {a b} (agree : Agree a b) {f g} (next : ∀ {s t}, Same s t → Agree (f s) (g t)) :
    Agree (a.bind f) (b.bind g) := by
  rcases agree with ⟨rfl,rfl⟩ | ⟨s,t,rfl,rfl,same⟩
  · exact .inl ⟨rfl,rfl⟩
  · exact next same

theorem Agree.flush {a b} (agree : Agree a b) : a.map Shape.flush = b.map Shape.flush := by
  rcases agree with ⟨rfl,rfl⟩ | ⟨s,t,rfl,rfl,same⟩
  · rfl
  · exact congrArg some same.flush

variable {h : Host} {s t : Shape} {block : Json}

theorem takeSame (same : Same s t) (block : Json) : Agree (s.take h block) (t.take h block) := by
  unfold Shape.take
  split
  · exact .inr ⟨s,t,rfl,rfl,same⟩
  split
  · cases textOr h (block.field "text") with
    | none => exact .inl ⟨rfl,rfl⟩
    | some text => exact .inr ⟨_,_,rfl,rfl,same.read (fun _ => rfl)⟩
  · rw [same.flush]
    cases blockShape h block with
    | none => exact .inl ⟨rfl,rfl⟩
    | some shape => exact .inr ⟨_,_,rfl,rfl,Same.refl _⟩

theorem foldSame (same : Same s t) (blocks : List Json) : Agree (blocks.foldlM (Shape.take h) s) (blocks.foldlM (Shape.take h) t) := by
  induction blocks generalizing s t with
  | nil => exact .inr ⟨s,t,rfl,rfl,same⟩
  | cons block rest ih =>
    exact (takeSame same block).bind ih

theorem TextBlock.take {text} (its : TextBlock block text) (s : Shape) :
    s.take h block = some ⟨s.done,s.text ++ text ++ [' ']⟩ := by
  have calm : isThinking block = false := by
    rw [isThinking,ofTypeOnly its.type (by decide),ofTypeOnly its.type (by decide)]
    rfl
  unfold Shape.take
  rw [calm,its.type,its.text]
  simp [textOr,textOf]

theorem resplitReads (resplit : Resplit a b) : ∀ {s t}, Same s t → Agree (a.foldlM (Shape.take h) s) (b.foldlM (Shape.take h) t) := by
  induction resplit with
  | refl blocks => exact fun same => foldSame same blocks
  | keep block _ ih =>
    intro s t same
    exact (takeSame same block).bind ih
  | @split one first second before gap after left right spaces some_ lefts rights whole ahead behind rest =>
    intro s t same
    simp only [List.foldlM_cons,whole.take,ahead.take,behind.take]
    refine foldSame ?_ rest
    have between : Spaces (left ++ [' '] ++ right) := by
      intro ch inside
      simp only [List.mem_append,List.mem_singleton] at inside
      rcases inside with (there | rfl) | there
      · exact lefts ch there
      · decide
      · exact rights ch there
    have texts := same.read (a := before ++ gap ++ after) (b := before ++ (left ++ [' '] ++ right) ++ after) (fun inside => by
      rw [List.append_assoc (before ++ gap),List.append_assoc (before ++ _)]
      exact collapseBetween spaces some_ between (by simp) before (after ++ [' ']) inside)
    simpa using texts
  | symm _ ih => exact fun same => (ih same.symm).symm
  | trans _ _ first second => exact fun same => (first (Same.refl _)).trans (second same)

theorem resplitShape (resplit : Resplit a b) : digestShape h a = digestShape h b :=
  (resplitReads resplit (Same.refl _)).flush

def unthought (blocks : List Json) : List Json := blocks.filter (fun block => !isThinking block)

theorem unthoughtShape (blocks : List Json) : digestShape h (unthought blocks) = digestShape h blocks := by
  have fold : ∀ s, (unthought blocks).foldlM (Shape.take h) s = blocks.foldlM (Shape.take h) s := by
    induction blocks with
    | nil => exact fun _ => rfl
    | cons block rest ih =>
      intro s
      unfold unthought at ih ⊢
      rw [List.filter_cons,List.foldlM_cons]
      cases thinks : isThinking block with
      | true =>
        have skipped : s.take h block = some s := by simp [Shape.take,thinks]
        rw [skipped]
        exact ih s
      | false =>
        exact congrArg (fun f => (s.take h block).bind f) (funext ih)
  rw [digestShape,fold,digestShape]

def plain (m : ClientMessage) : List Json := (unthought (blocksOf m)).map stripCacheControl

theorem keptUnthought (m : ClientMessage) : unthought (kept m) = plain m := by
  have calm : ∀ block, isThinking (stripCacheControl block) = isThinking block := fun block => by simp only [isThinking,stripType]
  have stays : ∀ block, (!isThinking block && keepBlock block) = !isThinking block := by
    intro block
    cases thinks : isThinking block with
    | true => rfl
    | false =>
      have parts := Bool.or_eq_false_iff.mp thinks
      simp [keepBlock,parts.1,parts.2]
  rw [unthought,kept,List.filter_map,List.filter_filter,plain,unthought]
  refine congrArg _ (List.filter_congr (fun block _ => ?_))
  rw [Function.comp_apply,calm]
  exact stays block

structure Alike (a b : ClientMessage) : Prop where
  role : a.role = b.role
  blocks : Resplit (plain a) (plain b)
  empty : kept a = [] ↔ kept b = []

def SameSaid (a b : List Json) : Prop := Resplit (unthought a) (unthought b)

theorem SameSaid.append {a a' b b'} (first : SameSaid a a') (second : SameSaid b b') : SameSaid (a ++ b) (a' ++ b') := by
  unfold SameSaid unthought at first second ⊢
  rw [List.filter_append,List.filter_append]
  exact Resplit.append first second

theorem SameSaid.arranged {first second} (same : first.1 = second.1 ∧ SameSaid first.2 second.2) :
    digestShape h (arranged first).content = digestShape h (arranged second).content := by
  have filtered : ∀ {a b}, SameSaid a b → ∀ p (text : Bool), (∀ block, ofType "text" block = true → p block = text) →
      SameSaid (a.filter p) (b.filter p) := by
    intro a b said p text alike
    have swap : ∀ blocks, unthought (blocks.filter p) = (unthought blocks).filter p := fun blocks => by
      simp only [unthought,List.filter_filter,Bool.and_comm]
    unfold SameSaid
    rw [swap,swap]
    exact Resplit.filter said alike
  rw [← unthoughtShape,← @unthoughtShape h (SessionHistory.arranged second).content]
  refine resplitShape ?_
  unfold SessionHistory.arranged
  rw [same.1]
  split
  · rw [resultsFirstParts,resultsFirstParts]
    exact SameSaid.append (filtered same.2 _ false (fun block text => ofTypeOnly text (by decide)))
      (filtered same.2 _ true (fun block text => by rw [ofTypeOnly text (by decide)]; rfl))
  · exact same.2

theorem addedAlike (alike : List.Forall₂ Alike messages others) :
    AdjacentGroups.Matched SameSaid (messages.filterMap added) (others.filterMap added) := by
  induction alike with
  | nil => exact .nil
  | @cons a b as bs here _ ih =>
    have said : SameSaid (kept a) (kept b) := by
      unfold SameSaid
      rw [keptUnthought,keptUnthought]
      exact here.blocks
    cases its : apiRole a.role with
    | none =>
      have none_ : ∀ m, apiRole m.role = none → added m = none := fun m system => by simp [added,system]
      rw [List.filterMap_cons,List.filterMap_cons,none_ a its,none_ b (here.role ▸ its)]
      exact ih
    | some role =>
      have there : apiRole b.role = some role := here.role ▸ its
      by_cases empty : kept a = []
      · have first : added a = none := by simp [added,empty,its]
        have second : added b = none := by simp [added,here.empty.mp empty,there]
        rw [List.filterMap_cons,List.filterMap_cons,first,second]
        exact ih
      · have first : added a = some (role,kept a) := by simp [added,empty,its]
        have some_ : kept b ≠ [] := fun none_ => empty (here.empty.mpr none_)
        have second : added b = some (role,kept b) := by simp [added,there,some_]
        rw [List.filterMap_cons,List.filterMap_cons,first,second]
        exact .cons ⟨rfl,said⟩ ih

theorem digestsMatched {first second} (matched : AdjacentGroups.Matched SameSaid first second) :
    digests h (first.map arranged) = digests h (second.map arranged) := by
  have each : (first.map arranged).mapM (messageDigest h) = (second.map arranged).mapM (messageDigest h) := by
    induction matched with
    | nil => rfl
    | @cons a b as bs here _ ih =>
      have same : messageDigest h (arranged a) = messageDigest h (arranged b) := by
        have role : (arranged a).role = (arranged b).role := here.1
        rw [messageDigest,messageDigest,SameSaid.arranged here,role]
      rw [List.map_cons,List.map_cons,List.mapM_cons,List.mapM_cons,same,ih]
  rw [digests,each,digests]

theorem digestsAlike (alike : List.Forall₂ Alike messages others) :
    messageDigests h messages = messageDigests h others := by
  exact digestsMatched (AdjacentGroups.groupsMatched SameSaid.append (addedAlike alike))

def shapeDigest (h : Host) (shape : Role × List Json) : String :=
  h.sha256 (h.stringify (.arr [.str (roleText shape.1),.arr shape.2]))

def shapes (h : Host) (normalized : List ApiMessage) : Option (List (Role × List Json)) :=
  (normalized.mapM (fun m => (digestShape h m.content).map (m.role,·))).map (List.filter (fun shape => !shape.2.isEmpty))

theorem digestsOfShapes (normalized : List ApiMessage) : digests h normalized = (shapes h normalized).map (List.map (shapeDigest h)) := by
  induction normalized with
  | nil => rfl
  | cons m rest ih =>
    unfold digests shapes at ih ⊢
    rw [List.mapM_cons,List.mapM_cons,messageDigest]
    cases read : digestShape h m.content with
    | none => rfl
    | some shape =>
      cases first : rest.mapM (messageDigest h) with
      | none =>
        cases second : rest.mapM (fun m => (digestShape h m.content).map (m.role,·)) with
        | none => rfl
        | some shapes => simp [first,second] at ih
      | some found =>
        cases second : rest.mapM (fun m => (digestShape h m.content).map (m.role,·)) with
        | none => simp [first,second] at ih
        | some shapes =>
          have later : found.filterMap id = (shapes.filter (fun shape => !shape.2.isEmpty)).map (shapeDigest h) := by simpa [first,second] using ih
          cases shape with
          | nil => simpa using later
          | cons _ _ => simpa [shapeDigest] using later

theorem digestsShapes (injective : Function.Injective (shapeDigest h))
    (same : messageDigests h messages = messageDigests h others) : shapes h (normalizeHistory messages) = shapes h (normalizeHistory others) := by
  rw [messageDigests,messageDigests,digestsOfShapes,digestsOfShapes] at same
  exact Option.map_injective (List.map_injective_iff.mpr injective) same

end Clankermux.SessionHistory
