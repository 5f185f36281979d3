import Clankermux.ToolTranslation

/-! The identities of a request's tools under their names: no two are confused, every one is
found again, and the last definition of each is the one that goes upstream. -/
namespace Clankermux.ToolTranslation
open InsertionMap

theorem quotedAhead {a b rest more} (same : JsonText.quote a ++ rest = JsonText.quote b ++ more) : a = b ∧ rest = more := by
  have texts : a.flatMap JsonText.quoteChar ++ '"'::rest = b.flatMap JsonText.quoteChar ++ '"'::more := by
    simpa [JsonText.quote] using same
  have first := @JsonText.readQuoted rest a (max a.length b.length + 1) (by omega)
  rw [texts,JsonText.readQuoted b _ (by omega)] at first
  exact ⟨(Prod.mk.inj (Option.some.inj first)).1.symm,(Prod.mk.inj (Option.some.inj first)).2.symm⟩

theorem typeTextInj {a b : ToolType} (same : (typeText a).toList = (typeText b).toList) : a = b := by
  cases a <;> cases b <;> first | rfl | exact absurd same (by decide)

theorem keyInj {a b : ToolIdentity} (same : key a = key b) : a = b := by
  obtain ⟨aType,aName,aNamespace⟩ := a
  obtain ⟨bType,bName,bNamespace⟩ := b
  have chars : keyChars ⟨aType,aName,aNamespace⟩ = keyChars ⟨bType,bName,bNamespace⟩ := String.ofList_injective same
  have later : ∀ {x y}, ','::(JsonText.quote aName.toList ++ ','::(JsonText.quote (typeText aType).toList ++ x)) =
      ','::(JsonText.quote bName.toList ++ ','::(JsonText.quote (typeText bType).toList ++ y)) → aName = bName ∧ aType = bType := by
    intro x y equal
    obtain ⟨names,rest⟩ := quotedAhead (List.cons.inj equal).2
    obtain ⟨types,-⟩ := quotedAhead (List.cons.inj rest).2
    exact ⟨String.toList_injective names,typeTextInj types⟩
  have behind := (List.cons.inj chars).2
  cases aNamespace with
  | none =>
    cases bNamespace with
    | none =>
      obtain ⟨rfl,rfl⟩ := later (List.append_cancel_left behind)
      rfl
    | some name => cases behind
  | some first =>
    cases bNamespace with
    | none => exact absurd behind (by simp [JsonText.quote])
    | some second =>
      obtain ⟨namespaces,rest⟩ := quotedAhead behind
      obtain ⟨rfl,rfl⟩ := later rest
      rw [String.toList_injective namespaces]

def IsHex (digest : String) : Prop := digest.toList.length = 64 ∧ ∀ ch ∈ digest.toList, ch ∈ "0123456789abcdef".toList

variable {host : Host}

theorem nameWell (hex : ∀ text, IsHex (host.sha256Hex text)) (id : ToolIdentity) : wellNamed (nameOf host id) = true := by
  rw [nameOf]
  split
  · rename_i plain
    simp only [isPlain,Bool.and_eq_true] at plain
    exact plain.2
  · obtain ⟨length,digits⟩ := hex (key id)
    have digit := List.all_eq_true.mp (show "0123456789abcdef".toList.all isNameChar = true from rfl)
    have known := List.all_eq_true.mp (show PREFIX.toList.all isNameChar = true from rfl)
    simp only [wellNamed,String.toList_ofList,Bool.and_eq_true,List.all_eq_true,List.mem_append,List.length_append,
      List.length_take,length]
    refine ⟨⟨fun ch inside => ?_,by decide⟩,by decide⟩
    rcases inside with prefix_ | inside
    · exact known ch prefix_
    · exact digit ch (digits ch (List.mem_of_mem_take inside))

inductive Mention where
  | declared (d : Declaration)
  | replayed (id : ToolIdentity)

def Mention.identity : Mention → ToolIdentity
  | .declared d => d.identity
  | .replayed id => id

def Mention.declaration : Mention → Option Declaration
  | .declared d => some d
  | .replayed _ => none

mutual

def toolDeclarations (host : Host) (namespace_ namespaceDescription : Option String) : ResponsesTool → List Declaration
  | .nested name description tools => declarations host (some name) description tools
  | .builtin _ => []
  | .function name description parameters => [functionDeclaration namespace_ namespaceDescription name description parameters]
  | .custom name description format => [customDeclaration host namespace_ namespaceDescription name description format]

def declarations (host : Host) (namespace_ namespaceDescription : Option String) : List ResponsesTool → List Declaration
  | [] => []
  | tool::rest => toolDeclarations host namespace_ namespaceDescription tool ++ declarations host namespace_ namespaceDescription rest

end

mutual

def flatTool (inside : Bool) : ResponsesTool → Bool
  | .nested _ _ tools => !inside && flatTools true tools
  | _ => true

def flatTools (inside : Bool) : List ResponsesTool → Bool
  | [] => true
  | tool::rest => flatTool inside tool && flatTools inside rest

end

def itemMentions (host : Host) : ResponseItem → List Mention
  | .additionalTools tools => (declarations host none none tools).map .declared
  | .functionCall name namespace_ => [.replayed (callIdentity .function name namespace_)]
  | .customToolCall name namespace_ => [.replayed (callIdentity .custom name namespace_)]
  | .other => []

def mentions (host : Host) (req : ResponsesRequest) : List Mention :=
  (declarations host none none (req.tools.getD [])).map .declared ++ req.input.flatMap (itemMentions host)

def flatItem : ResponseItem → Bool
  | .additionalTools tools => flatTools false tools
  | _ => true

def flat (req : ResponsesRequest) : Bool := flatTools false (req.tools.getD []) && req.input.all flatItem

def identitiesOf (host : Host) (req : ResponsesRequest) : List ToolIdentity := (mentions host req).map Mention.identity

def lastIn (ms : List Mention) (id : ToolIdentity) : Option Declaration :=
  (ms.filterMap Mention.declaration).reverse.find? (fun d => d.identity = id)

def lastDeclared (host : Host) (req : ResponsesRequest) (id : ToolIdentity) : Option Declaration := lastIn (mentions host req) id

def take (host : Host) (t : Translation) : Mention → Except ToolTranslationError Translation
  | .declared d => t.declare host d
  | .replayed id => (t.name host id).map Prod.snd

def Accepts (outcome : Except ToolTranslationError Translation) (good : Bool) (steps : Except ToolTranslationError Translation) : Prop :=
  ∀ t, outcome = .ok t ↔ good = true ∧ steps = .ok t

theorem acceptsBind {first steps : Except ToolTranslationError Translation} {good goods next run}
    (accepts : Accepts first good steps) (later : ∀ t, Accepts (next t) goods (run t)) : Accepts (first >>= next) (good && goods) (steps >>= run) := by
  intro t
  have ok : ∀ {x : Except ToolTranslationError Translation} {f : Translation → Except ToolTranslationError Translation},
      (x >>= f) = .ok t ↔ ∃ mid, x = .ok mid ∧ f mid = .ok t := by
    intro x f
    cases x with
    | error problem => simp [bind,Except.bind]
    | ok mid => simp [bind,Except.bind]
  rw [ok,ok,Bool.and_eq_true]
  constructor
  · rintro ⟨mid,one,two⟩
    obtain ⟨goodOne,one⟩ := (accepts mid).mp one
    obtain ⟨goodTwo,two⟩ := (later mid t).mp two
    exact ⟨⟨goodOne,goodTwo⟩,mid,one,two⟩
  · rintro ⟨⟨goodOne,goodTwo⟩,mid,one,two⟩
    exact ⟨mid,(accepts mid).mpr ⟨goodOne,one⟩,(later mid t).mpr ⟨goodTwo,two⟩⟩

mutual

theorem toolAccepts (namespace_ namespaceDescription : Option String) : ∀ (tool : ResponsesTool) (t : Translation),
    Accepts (addTool host namespace_ namespaceDescription t tool) (flatTool namespace_.isSome tool)
      (((toolDeclarations host namespace_ namespaceDescription tool).map Mention.declared).foldlM (take host) t)
  | .nested name description tools,t => by
    rw [addTool,flatTool,toolDeclarations]
    cases namespace_ with
    | none => simpa using addAccepts (some name) description tools t
    | some outer => exact fun _ => by simp
  | .builtin _,_ => fun _ => by simp [addTool,flatTool,toolDeclarations,pure,Except.pure]
  | .function _ _ _,_ => fun _ => by simp [addTool,flatTool,toolDeclarations,take]
  | .custom _ _ _,_ => fun _ => by simp [addTool,flatTool,toolDeclarations,take]

theorem addAccepts (namespace_ namespaceDescription : Option String) : ∀ (tools : List ResponsesTool) (t : Translation),
    Accepts (add host namespace_ namespaceDescription t tools) (flatTools namespace_.isSome tools)
      (((declarations host namespace_ namespaceDescription tools).map Mention.declared).foldlM (take host) t)
  | [],_ => fun _ => by simp [add,flatTools,declarations,pure,Except.pure]
  | tool::rest,t => by
    rw [add,flatTools,declarations,List.map_append,List.foldlM_append]
    exact acceptsBind (toolAccepts namespace_ namespaceDescription tool t) (addAccepts namespace_ namespaceDescription rest)

end

theorem itemAccepts (item : ResponseItem) (t : Translation) : Accepts (takeItem host t item) (flatItem item) ((itemMentions host item).foldlM (take host) t) := by
  cases item with
  | additionalTools tools => exact addAccepts none none tools t
  | other => exact fun _ => by simp [takeItem,flatItem,itemMentions,pure,Except.pure]
  | functionCall name namespace_ => exact fun _ => by simp [takeItem,flatItem,itemMentions,take]
  | customToolCall name namespace_ => exact fun _ => by simp [takeItem,flatItem,itemMentions,take]

theorem itemsAccept (items : List ResponseItem) : ∀ t, Accepts (items.foldlM (takeItem host) t) (items.all flatItem)
    ((items.flatMap (itemMentions host)).foldlM (take host) t) := by
  induction items with
  | nil => exact fun _ _ => by simp
  | cons item rest ih =>
    intro t
    rw [List.foldlM_cons,List.all_cons,List.flatMap_cons,List.foldlM_append]
    exact acceptsBind (itemAccepts item t) ih

theorem createAccepts (req : ResponsesRequest) :
    Accepts (createToolTranslation host req) (flat req) ((mentions host req).foldlM (take host) .start) := by
  rw [createToolTranslation,flat,mentions,List.foldlM_append]
  exact acceptsBind (addAccepts none none _ _) (itemsAccept req.input)

def Consistent (host : Host) (ms : List Mention) : Prop :=
  ∀ a ∈ ms, ∀ b ∈ ms, nameOf host a.identity = nameOf host b.identity → a.identity = b.identity

structure Built (host : Host) (ms : List Mention) (t : Translation) : Prop where
  identities : t.identities = written (ms.map (fun m => (nameOf host m.identity,m.identity)))
  consistent : Consistent host ms
  names : (t.tools.map AnthropicTool.name).Nodup
  index : ∀ name i, get t.definitions name = some i ↔ (t.tools[i]?).map AnthropicTool.name = some name
  tools : ∀ tool, tool ∈ t.tools ↔ ∃ d, lastIn ms d.identity = some d ∧ translated host d = tool

theorem builtStart : Built host [] .start :=
  ⟨rfl,by simp [Consistent],List.nodup_nil,by simp [Translation.start],by simp [Translation.start,lastIn]⟩

variable {ms : List Mention} {t : Translation} {m : Mention} {id : ToolIdentity}

theorem lastListed {d : Declaration} (found : lastIn ms id = some d) : .declared d ∈ ms ∧ d.identity = id := by
  have inside := List.mem_reverse.mp (List.mem_of_find?_eq_some found)
  obtain ⟨mention,there,same⟩ := List.mem_filterMap.mp inside
  have identity := List.find?_some found
  refine ⟨?_,by simpa using identity⟩
  cases mention with
  | declared other => exact Option.some.inj same ▸ there
  | replayed _ => exact absurd same (by simp [Mention.declaration])

theorem lastDeclares (ms : List Mention) (d : Declaration) (id : ToolIdentity) :
    lastIn (ms ++ [.declared d]) id = if d.identity = id then some d else lastIn ms id := by
  rw [lastIn,List.filterMap_append,List.reverse_append]
  show (d::(ms.filterMap Mention.declaration).reverse).find? _ = _
  by_cases same : d.identity = id
  · simp [same]
  · simp [same,lastIn]

theorem lastReplays (ms : List Mention) (other id : ToolIdentity) : lastIn (ms ++ [.replayed other]) id = lastIn ms id := by
  rw [lastIn,List.filterMap_append]
  exact congrArg (fun ds => (List.reverse ds).find? (fun d : Declaration => d.identity = id)) (List.append_nil _)

theorem Built.found (built : Built host ms t) {name : String} : get t.identities name = some id → ∃ m ∈ ms, m.identity = id ∧ nameOf host id = name := by
  intro found
  rw [built.identities,getWritten] at found
  have inside := List.mem_reverse.mp (memOfGet found)
  obtain ⟨m,there,same⟩ := List.mem_map.mp inside
  obtain ⟨rfl,rfl⟩ := Prod.mk.inj same
  exact ⟨m,there,rfl,rfl⟩

theorem Built.known (built : Built host ms t) (inside : m ∈ ms) : get t.identities (nameOf host m.identity) = some m.identity := by
  have listed : nameOf host m.identity ∈ keys t.identities := by
    rw [built.identities,keysWritten.2]
    simp only [List.map_map,List.mem_map]
    exact ⟨m,inside,rfl⟩
  obtain ⟨id,found⟩ := getOfMemKeys listed
  obtain ⟨other,there,rfl,same⟩ := built.found found
  rw [found,built.consistent other there m inside same]

theorem nameTaken (t : Translation) (id : ToolIdentity) (free : ∀ existing, get t.identities (nameOf host id) = some existing → existing = id) :
    t.name host id = .ok (nameOf host id,{ t with identities := InsertionMap.set t.identities (nameOf host id) id }) := by
  rw [Translation.name]
  cases found : get t.identities (nameOf host id) with
  | none => rfl
  | some existing =>
    cases free existing found
    exact if_neg (by simp)

theorem nameCollides (t : Translation) {existing : ToolIdentity} (found : get t.identities (nameOf host id) = some existing) (other : existing ≠ id) :
    t.name host id = .error ⟨"Tool identity collision"⟩ := by
  rw [Translation.name]
  simp only [found]
  exact if_pos (fun same => other (keyInj same))

theorem Built.named (built : Built host ms t) (m : Mention) : Consistent host (ms ++ [m]) ↔
    ∀ existing, get t.identities (nameOf host m.identity) = some existing → existing = m.identity := by
  constructor
  · intro consistent existing found
    obtain ⟨other,there,rfl,same⟩ := built.found found
    exact consistent other (List.mem_append_left _ there) m (by simp) same
  · intro free a aIn b bIn same
    rcases List.mem_append.mp aIn with aIn | aIn
    · rcases List.mem_append.mp bIn with bIn | bIn
      · exact built.consistent a aIn b bIn same
      · cases List.mem_singleton.mp bIn
        exact free _ (same ▸ built.known aIn)
    · cases List.mem_singleton.mp aIn
      rcases List.mem_append.mp bIn with bIn | bIn
      · exact (free _ (same ▸ built.known bIn)).symm
      · cases List.mem_singleton.mp bIn
        rfl

theorem setNames {tools : List AnthropicTool} {i new} (there : (tools[i]?).map AnthropicTool.name = some new.name) :
    (tools.set i new).map AnthropicTool.name = tools.map AnthropicTool.name := by
  obtain ⟨old,found,same⟩ := Option.map_eq_some_iff.mp there
  rw [List.map_set]
  refine List.ext_getElem? (fun j => ?_)
  by_cases here : i = j
  · subst here
    obtain ⟨bound,rfl⟩ := List.getElem?_eq_some_iff.mp found
    rw [List.getElem?_set_self (by simpa using bound),List.getElem?_map,found]
    exact congrArg some same.symm
  · rw [List.getElem?_set_ne here]

theorem setMembers {tools : List AnthropicTool} {i new} (distinct : (tools.map AnthropicTool.name).Nodup)
    (there : (tools[i]?).map AnthropicTool.name = some new.name) (tool : AnthropicTool) :
    tool ∈ tools.set i new ↔ tool = new ∨ tool ∈ tools ∧ tool.name ≠ new.name := by
  obtain ⟨old,found,same⟩ := Option.map_eq_some_iff.mp there
  obtain ⟨bound,at_⟩ := List.getElem?_eq_some_iff.mp found
  have only : ∀ j, (tools[j]?).map AnthropicTool.name = some new.name → j = i := by
    intro j named
    refine ((List.getElem?_inj (by simpa using bound) distinct).mp ?_).symm
    rw [List.getElem?_map,List.getElem?_map,there,named]
  rw [List.mem_iff_getElem?]
  constructor
  · rintro ⟨j,present⟩
    by_cases here : i = j
    · subst here
      rw [List.getElem?_set_self bound] at present
      exact .inl (Option.some.inj present).symm
    · rw [List.getElem?_set_ne here] at present
      exact .inr ⟨List.mem_of_getElem? present,fun named => here (only j (by rw [present]; exact congrArg some named)).symm⟩
  · rintro (rfl | ⟨inside,other⟩)
    · exact ⟨i,List.getElem?_set_self bound⟩
    · obtain ⟨j,present⟩ := List.mem_iff_getElem?.mp inside
      refine ⟨j,?_⟩
      rw [List.getElem?_set_ne (fun here => ?_),present]
      subst here
      rw [found] at present
      exact other (Option.some.inj present ▸ same)

theorem Built.replay (built : Built host ms t) (free : Consistent host (ms ++ [.replayed id])) :
    Built host (ms ++ [.replayed id]) { t with identities := InsertionMap.set t.identities (nameOf host id) id } := by
  refine ⟨?_,free,built.names,built.index,fun tool => ?_⟩
  · rw [built.identities,List.map_append,List.map_singleton,writtenAdded]
    rfl
  · simp only [lastReplays]
    exact built.tools tool

theorem Built.declare (built : Built host ms t) {d : Declaration} (free : Consistent host (ms ++ [.declared d])) :
    Built host (ms ++ [.declared d])
      (Translation.define { t with identities := InsertionMap.set t.identities (nameOf host d.identity) d.identity } (translated host d)) := by
  have identities : InsertionMap.set t.identities (nameOf host d.identity) d.identity =
      written ((ms ++ [Mention.declared d]).map (fun m => (nameOf host m.identity,m.identity))) := by
    rw [built.identities,List.map_append,List.map_singleton,writtenAdded]
    rfl
  have apart : ∀ {other}, .declared other ∈ ms → (nameOf host other.identity = nameOf host d.identity ↔ other.identity = d.identity) :=
    fun {other} there => ⟨free (.declared other) (List.mem_append_left _ there) (.declared d) (by simp),fun same => by rw [same]⟩
  rw [Translation.define]
  cases found : get t.definitions (translated host d).name with
  | none =>
    have absent : ∀ tool ∈ t.tools, tool.name ≠ nameOf host d.identity := by
      intro tool inside named
      obtain ⟨i,present⟩ := List.mem_iff_getElem?.mp inside
      have index := (built.index (nameOf host d.identity) i).mpr (by rw [present]; exact congrArg some named)
      cases found.symm.trans index
    have fresh : lastIn ms d.identity = none := by
      cases last : lastIn ms d.identity with
      | none => rfl
      | some other =>
        have identity := (lastListed last).2
        exact absurd (congrArg (nameOf host) identity) (absent _ ((built.tools _).mpr ⟨other,identity ▸ last,rfl⟩))
    refine ⟨identities,free,?_,fun name i => ?_,fun tool => ?_⟩
    · rw [List.map_append]
      refine List.nodup_append.mpr ⟨built.names,List.nodup_singleton _,fun name inside other new same => ?_⟩
      obtain ⟨tool,there,rfl⟩ := List.mem_map.mp inside
      exact absent tool there (same.trans (List.mem_singleton.mp new))
    · rw [getSet]
      by_cases same : name = (translated host d).name
      · subst same
        rw [if_pos rfl]
        constructor
        · intro here
          cases here
          simp
        · intro named
          obtain ⟨tool,present,same⟩ := Option.map_eq_some_iff.mp named
          rcases Nat.lt_trichotomy i t.tools.length with before | rfl | after
          · rw [List.getElem?_append_left before] at present
            exact absurd same (absent tool (List.mem_of_getElem? present))
          · rfl
          · rw [List.getElem?_eq_none (by simp; omega)] at present
            cases present
      · rw [if_neg same,built.index]
        rcases Nat.lt_trichotomy i t.tools.length with before | rfl | after
        · rw [List.getElem?_append_left before]
        · simp [Ne.symm same]
        · rw [List.getElem?_eq_none (by omega),List.getElem?_eq_none (by simp; omega)]
    · simp only [List.mem_append,List.mem_singleton,built.tools,lastDeclares]
      constructor
      · rintro (⟨other,last,rfl⟩ | rfl)
        · refine ⟨other,?_,rfl⟩
          rw [if_neg (fun same => ?_),last]
          rw [← same,fresh] at last
          cases last
        · exact ⟨d,if_pos rfl,rfl⟩
      · rintro ⟨other,last,rfl⟩
        split at last
        · cases last
          exact .inr rfl
        · exact .inl ⟨other,last,rfl⟩
  | some i =>
    have there : (t.tools[i]?).map AnthropicTool.name = some (translated host d).name := (built.index _ i).mp found
    refine ⟨identities,free,?_,fun name j => ?_,fun tool => ?_⟩
    · exact (setNames there).symm ▸ built.names
    · have named := congrArg (fun names => names[j]?) (setNames there)
      simp only [List.getElem?_map] at named
      rw [named]
      exact built.index name j
    · rw [setMembers built.names there,built.tools]
      simp only [lastDeclares]
      constructor
      · rintro (rfl | ⟨⟨other,last,rfl⟩,different⟩)
        · exact ⟨d,if_pos rfl,rfl⟩
        · exact ⟨other,by rw [if_neg (fun same => different (congrArg (nameOf host) same.symm)),last],rfl⟩
      · rintro ⟨other,last,rfl⟩
        split at last
        · cases Option.some.inj last
          exact .inl rfl
        · rename_i different
          exact .inr ⟨⟨other,last,rfl⟩,fun same => different ((apart (lastListed last).1).mp same).symm⟩

theorem Built.take (built : Built host ms t) (m : Mention) :
    (∃ after, ToolTranslation.take host t m = .ok after ∧ Built host (ms ++ [m]) after) ∨
    (∃ problem, ToolTranslation.take host t m = .error problem) ∧ ¬ Consistent host (ms ++ [m]) := by
  by_cases free : Consistent host (ms ++ [m])
  · have named := nameTaken t m.identity ((built.named m).mp free)
    cases m with
    | declared d => exact .inl ⟨_,by rw [ToolTranslation.take,Translation.declare,show t.name host d.identity = _ from named]; rfl,built.declare free⟩
    | replayed id => exact .inl ⟨_,by rw [ToolTranslation.take,show t.name host id = _ from named]; rfl,built.replay free⟩
  · have taken : ∃ existing, get t.identities (nameOf host m.identity) = some existing ∧ existing ≠ m.identity := by
      by_contra none_
      push Not at none_
      exact free ((built.named m).mpr none_)
    obtain ⟨existing,found,other⟩ := taken
    have collides := nameCollides t found other
    refine .inr ⟨?_,free⟩
    cases m with
    | declared d => exact ⟨_,by rw [ToolTranslation.take,Translation.declare,show t.name host d.identity = _ from collides]; rfl⟩
    | replayed id => exact ⟨_,by rw [ToolTranslation.take,show t.name host id = _ from collides]; rfl⟩

theorem consistentPart {more : List Mention} (consistent : Consistent host (ms ++ more)) : Consistent host ms :=
  fun a aIn b bIn => consistent a (List.mem_append_left _ aIn) b (List.mem_append_left _ bIn)

theorem Built.takeAll (rest : List Mention) : ∀ {ms t}, Built host ms t →
    (∃ after, rest.foldlM (ToolTranslation.take host) t = .ok after ∧ Built host (ms ++ rest) after) ∨
    (∃ problem, rest.foldlM (ToolTranslation.take host) t = .error problem) ∧ ¬ Consistent host (ms ++ rest) := by
  induction rest with
  | nil => exact fun {ms t} built => .inl ⟨t,rfl,by simpa using built⟩
  | cons m rest ih =>
    intro ms t built
    rw [List.foldlM_cons,List.append_cons]
    rcases built.take m with ⟨after,took,next⟩ | ⟨⟨problem,failed⟩,clash⟩
    · rw [took]
      exact ih next
    · rw [failed]
      exact .inr ⟨⟨problem,rfl⟩,fun consistent => clash (consistentPart consistent)⟩

theorem created {req : ResponsesRequest} (plain : flat req = true) (consistent : Consistent host (mentions host req)) :
    ∃ t, createToolTranslation host req = .ok t ∧ Built host (mentions host req) t := by
  rcases (show Built host [] .start from builtStart).takeAll (mentions host req) with ⟨t,took,built⟩ | ⟨-,clash⟩
  · exact ⟨t,(createAccepts req t).mpr ⟨plain,took⟩,built⟩
  · exact absurd consistent clash

theorem createdBuilt {req : ResponsesRequest} (made : createToolTranslation host req = .ok t) : flat req = true ∧ Built host (mentions host req) t := by
  obtain ⟨plain,took⟩ := (createAccepts req t).mp made
  rcases (show Built host [] .start from builtStart).takeAll (mentions host req) with ⟨after,same,built⟩ | ⟨⟨problem,failed⟩,-⟩
  · cases same.symm.trans took
    exact ⟨plain,built⟩
  · exact absurd (failed.symm.trans took) (by simp)

theorem Built.identityOf (built : Built host ms t) (name : String) : (∃ m ∈ ms, nameOf host m.identity = name ∧ t.identity name = m.identity) ∨
    (∀ m ∈ ms, nameOf host m.identity ≠ name) ∧ t.identity name = ⟨.function,name,none⟩ := by
  by_cases taken : ∃ m ∈ ms, nameOf host m.identity = name
  · obtain ⟨m,inside,rfl⟩ := taken
    exact .inl ⟨m,inside,rfl,by rw [Translation.identity,built.known inside]; rfl⟩
  · push Not at taken
    refine .inr ⟨taken,?_⟩
    cases found : get t.identities name with
    | none => rw [Translation.identity,found]; rfl
    | some id =>
      obtain ⟨m,inside,rfl,same⟩ := built.found found
      exact absurd same (taken m inside)

theorem Built.sameIdentities {others other} (built : Built host ms t) (built' : Built host others other)
    (same : ∀ id, id ∈ others.map Mention.identity ↔ id ∈ ms.map Mention.identity) (name : String) : other.identity name = t.identity name := by
  rcases built.identityOf name with ⟨m,inside,rfl,found⟩ | ⟨none_,fallback⟩
  · obtain ⟨m',inside',equal⟩ := List.mem_map.mp ((same m.identity).mpr (List.mem_map_of_mem inside))
    rw [found,← equal,Translation.identity,built'.known inside']
    rfl
  · rcases built'.identityOf name with ⟨m',inside',named,-⟩ | ⟨-,fallback'⟩
    · obtain ⟨m,inside,equal⟩ := List.mem_map.mp ((same m'.identity).mp (List.mem_map_of_mem inside'))
      exact absurd (equal ▸ named) (none_ m inside)
    · rw [fallback,fallback']

theorem Built.sameTools {others other} (built : Built host ms t) (built' : Built host others other)
    (last : ∀ id, lastIn others id = lastIn ms id) : other.tools.Perm t.tools := by
  refine (List.perm_ext_iff_of_nodup built'.names.of_map built.names.of_map).mpr (fun tool => ?_)
  rw [built'.tools,built.tools]
  simp only [last]

theorem sameConsistent {others : List Mention} (same : ∀ id, id ∈ others.map Mention.identity ↔ id ∈ ms.map Mention.identity)
    (consistent : Consistent host ms) : Consistent host others := by
  intro a aIn b bIn named
  obtain ⟨a',aIn',aSame⟩ := List.mem_map.mp ((same a.identity).mp (List.mem_map_of_mem aIn))
  obtain ⟨b',bIn',bSame⟩ := List.mem_map.mp ((same b.identity).mp (List.mem_map_of_mem bIn))
  rw [← aSame,← bSame] at named ⊢
  exact consistent a' aIn' b' bIn' named

structure RoundTrip (host : Host) (req : ResponsesRequest) (t : Translation) : Prop where
  distinct : ∀ a ∈ identitiesOf host req, ∀ b ∈ identitiesOf host req, nameOf host a = nameOf host b → a = b
  wellNamed : ∀ id, wellNamed (nameOf host id) = true
  asked : ∀ id ∈ identitiesOf host req, ∃ after, t.name host id = .ok (nameOf host id,after)
  back : ∀ id ∈ identitiesOf host req, t.identity (nameOf host id) = id
  single : (t.tools.map AnthropicTool.name).Nodup
  last : ∀ tool, tool ∈ t.tools ↔ ∃ d, lastDeclared host req d.identity = some d ∧ translated host d = tool
  unordered : ∀ other, flat other = true → (∀ id, id ∈ identitiesOf host other ↔ id ∈ identitiesOf host req) →
    ∃ t', createToolTranslation host other = .ok t' ∧ (∀ name, t'.identity name = t.identity name) ∧
      ((∀ id, lastDeclared host other id = lastDeclared host req id) → t'.tools.Perm t.tools)

theorem roundTrips (host : Host) (hex : ∀ text, IsHex (host.sha256Hex text)) (req : ResponsesRequest) (t : Translation)
    (made : createToolTranslation host req = .ok t) : RoundTrip host req t := by
  obtain ⟨-,built⟩ := createdBuilt made
  refine ⟨?_,nameWell hex,?_,?_,built.names,built.tools,fun other plain same => ?_⟩
  · intro a aIn b bIn named
    obtain ⟨m,mIn,rfl⟩ := List.mem_map.mp aIn
    obtain ⟨n,nIn,rfl⟩ := List.mem_map.mp bIn
    exact built.consistent m mIn n nIn named
  · intro id inside
    obtain ⟨m,mIn,rfl⟩ := List.mem_map.mp inside
    exact ⟨_,nameTaken t m.identity (fun existing found => Option.some.inj (found.symm.trans (built.known mIn)))⟩
  · intro id inside
    obtain ⟨m,mIn,rfl⟩ := List.mem_map.mp inside
    rw [Translation.identity,built.known mIn]
    rfl
  · obtain ⟨t',made',built'⟩ := created plain (sameConsistent same built.consistent)
    exact ⟨t',made',built.sameIdentities built' same,built.sameTools built'⟩

def zeros (n : Nat) : List Char := List.replicate n '0'

def plainHost : Host := ⟨fun _ => String.ofList (zeros 64),fun _ => ""⟩

theorem zerosHex (n : Nat) : (zeros n).length = n ∧ ∀ ch ∈ zeros n, ch = '0' := ⟨List.length_replicate,fun _ => List.eq_of_mem_replicate⟩

theorem plainHex (text : String) : IsHex (plainHost.sha256Hex text) := by
  have digits : (plainHost.sha256Hex text).toList = zeros 64 := String.toList_ofList
  rw [IsHex,digits]
  refine ⟨(zerosHex 64).1,fun ch inside => ?_⟩
  rw [(zerosHex 64).2 ch inside]
  decide

def weatherRequest : ResponsesRequest := ⟨some [.function "get_weather" none none],[.functionCall "get_weather" none]⟩

def weatherTranslation : Translation :=
  ⟨[⟨"get_weather",none,.obj []⟩],[("get_weather",⟨.function,"get_weather",none⟩)],[("get_weather",0)]⟩

theorem weatherRoundTrip : RoundTrip plainHost weatherRequest weatherTranslation := roundTrips _ plainHex _ _ (by rfl)

end Clankermux.ToolTranslation
