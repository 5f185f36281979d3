import Clankermux.Json

/-! The promotion of a request's cache breakpoints to an hour. A block is read as the script reads it:
only an object has fields, and an array of the body is changed in place. -/
namespace Clankermux.CacheTtl
open Json

variable {Bytes : Type}

structure Host (Bytes : Type) where
  parse : Bytes → Option Json
  encodeJson : Json → Bytes

structure RequestBodyContext (Bytes : Type) where
  currentBuffer : Option Bytes
  parsedBody : Option Json
  parseAttempted : Bool
  parseFailed : Bool
  dirty : Bool

def isObjectLike : Json → Bool
  | .obj _ => true
  | .arr _ => true
  | _ => false

namespace RequestBodyContext
variable (h : Host Bytes) (c : RequestBodyContext Bytes)

def ofBuffer (buffer : Option Bytes) : RequestBodyContext Bytes := ⟨buffer,none,false,false,false⟩

def getParsedJson : RequestBodyContext Bytes × Option Json :=
  if c.parseAttempted then (c,c.parsedBody)
  else
    let c := { c with parseAttempted := true }
    match c.currentBuffer with
    | none => (c,none)
    | some buffer =>
      match (h.parse buffer).filter isObjectLike with
      | some parsed => ({ c with parsedBody := some parsed },some parsed)
      | none => ({ c with parseFailed := true },none)

def mutateParsedJson (fn : Json → Json) : RequestBodyContext Bytes × Bool :=
  let (c,body) := match c.parsedBody with
    | some body => (c,some body)
    | none => c.getParsedJson h
  match body with
  | none => (c,false)
  | some body => ({ c with parsedBody := some (fn body), dirty := true },true)

def getBuffer : RequestBodyContext Bytes × Option Bytes :=
  match c.dirty,c.parsedBody with
  | true,some body => ({ c with currentBuffer := some (h.encodeJson body), dirty := false },some (h.encodeJson body))
  | _,_ => (c,c.currentBuffer)

end RequestBodyContext

def isEphemeral (block : Json) : Bool := (block.field "cache_control").bind (·.field "type") = some (.str "ephemeral")

def getTtl (block : Json) : Option Json := (block.field "cache_control").bind (·.field "ttl")

def lacksHour (block : Json) : Bool := isEphemeral block && getTtl block ≠ some (.str "1h")

def upgradeBlock (block : Json) : Json :=
  if lacksHour block then alter "cache_control" (·.setField "ttl" (.str "1h")) block else block

def upgradeBlocks (blocks : Json) : Json := alterItems upgradeBlock blocks

def arrayNeedsUpgrade (blocks : Option Json) : Bool := (itemsOf blocks).any lacksHour

def needsUpgrade (body : Json) : Bool :=
  arrayNeedsUpgrade (body.field "system") || (itemsOf (body.field "messages")).any (fun message => arrayNeedsUpgrade (message.field "content"))

def upgradeBody (body : Json) : Json :=
  alter "messages" (alterItems (alter "content" upgradeBlocks)) (alter "system" upgradeBlocks body)

def injectCacheTtl1h (h : Host Bytes) (context : RequestBodyContext Bytes) : RequestBodyContext Bytes :=
  match context.getParsedJson h with
  | (context,none) => context
  | (context,some body) => if needsUpgrade body then (context.mutateParsedJson h upgradeBody).1 else context

@[grind] def check (sawEphemeral : Bool) : List Json → Option Bool
  | [] => some sawEphemeral
  | block::rest =>
    if isEphemeral block then
      if getTtl block ≠ some (.str "1h") then none else check true rest
    else check sawEphemeral rest

def bodyCacheTtlIsOneHour (body : Json) : Bool :=
  match check false (itemsOf (body.field "system")) with
  | none => false
  | some sawEphemeral =>
    ((itemsOf (body.field "messages")).foldlM (fun saw message => check saw (itemsOf (message.field "content"))) sawEphemeral).getD false

/-! After the promotion every breakpoint of the system prompt and of the messages is of an hour; those of the tools and
those inside of a tool result stay as they are. -/
variable {Bytes : Type} {h : Host Bytes} {c : RequestBodyContext Bytes} {body block v : Json} {blocks : List Json} {saw : Bool}

def marker (block : Json) : List Json := if isEphemeral block then (block.field "cache_control").toList else []

def walked (body : Json) : List Json :=
  itemsOf (body.field "system") ++ (itemsOf (body.field "messages")).flatMap (fun message => itemsOf (message.field "content"))

def nested (block : Json) : List Json :=
  if block.field "type" = some (.str "tool_result") then itemsOf (block.field "content") else []

def promptBlocks (body : Json) : List Json :=
  itemsOf (body.field "tools") ++ itemsOf (body.field "system") ++
    (itemsOf (body.field "messages")).flatMap (fun message => (itemsOf (message.field "content")).flatMap (fun block => nested block ++ [block]))

def unwalked (body : Json) : List Json :=
  itemsOf (body.field "tools") ++
    (itemsOf (body.field "messages")).flatMap (fun message => (itemsOf (message.field "content")).flatMap nested)

def markers (body : Json) : List Json := (promptBlocks body).flatMap marker

def Hourly (marker : Json) : Prop := marker.field "ttl" = some (.str "1h")

theorem promptBlocksMem : block ∈ promptBlocks body ↔ block ∈ walked body ∨ block ∈ unwalked body := by
  simp only [promptBlocks,walked,unwalked,List.mem_append,List.mem_flatMap,List.mem_singleton]
  constructor
  · rintro ((tool | system) | ⟨message,there,outer,inside,within | rfl⟩)
    · exact .inr (.inl tool)
    · exact .inl (.inl system)
    · exact .inr (.inr ⟨message,there,outer,inside,within⟩)
    · exact .inl (.inr ⟨message,there,inside⟩)
  · rintro ((system | ⟨message,there,inside⟩) | tool | ⟨message,there,outer,inside,within⟩)
    · exact .inl (.inr system)
    · exact .inr ⟨message,there,block,inside,.inr rfl⟩
    · exact .inl (.inl tool)
    · exact .inr ⟨message,there,outer,inside,.inl within⟩

theorem hourlyBlock (b : Json) : lacksHour b = false ↔ ∀ m ∈ marker b, Hourly m := by
  unfold lacksHour marker Hourly getTtl isEphemeral
  cases b.field "cache_control" with
  | none => simp
  | some v => by_cases kind : v.field "type" = some (.str "ephemeral") <;> simp

theorem markersHourly : (∀ m ∈ markers body, Hourly m) ↔
    (∀ b ∈ walked body, lacksHour b = false) ∧ ∀ b ∈ unwalked body, lacksHour b = false := by
  simp only [markers,List.mem_flatMap,hourlyBlock]
  constructor
  · exact fun all => ⟨fun b inside m here => all m ⟨b,promptBlocksMem.mpr (.inl inside),here⟩,
      fun b inside m here => all m ⟨b,promptBlocksMem.mpr (.inr inside),here⟩⟩
  · rintro ⟨first,second⟩ m ⟨b,inside,here⟩
    rcases promptBlocksMem.mp inside with its | its
    · exact first b its m here
    · exact second b its m here

theorem markersNone : markers body ≠ [] ↔ (∃ b ∈ walked body, isEphemeral b = true) ∨ ∃ b ∈ unwalked body, isEphemeral b = true := by
  have one : ∀ b, marker b ≠ [] ↔ isEphemeral b = true := by
    intro b
    unfold marker isEphemeral
    cases b.field "cache_control" <;> simp
  rw [markers,Ne,List.flatMap_eq_nil_iff]
  push Not
  constructor
  · rintro ⟨b,inside,some_⟩
    rcases promptBlocksMem.mp inside with its | its
    · exact .inl ⟨b,its,(one b).mp some_⟩
    · exact .inr ⟨b,its,(one b).mp some_⟩
  · rintro (⟨b,its,kind⟩ | ⟨b,its,kind⟩)
    · exact ⟨b,promptBlocksMem.mpr (.inl its),(one b).mpr kind⟩
    · exact ⟨b,promptBlocksMem.mpr (.inr its),(one b).mpr kind⟩

theorem upgradeField {name : String} (other : name ≠ "cache_control") : (upgradeBlock block).field name = block.field name := by
  unfold upgradeBlock
  split
  · exact fieldAlterOther _ other
  · rfl

theorem upgradeNested : nested (upgradeBlock block) = nested block := by
  rw [nested,nested,upgradeField (by decide),upgradeField (by decide)]

theorem upgradeEphemeral : isEphemeral (upgradeBlock block) = isEphemeral block := by
  unfold upgradeBlock
  split
  · rw [isEphemeral,isEphemeral,fieldAlterSelf]
    cases block.field "cache_control" with
    | none => rfl
    | some v => simp only [Option.map_some,Option.bind_some,fieldSetOther v _ (show "type" ≠ "ttl" by decide)]
  · rfl

theorem ephemeralObject (kind : isEphemeral block = true) : ∃ fields, block.field "cache_control" = some (.obj fields) := by
  unfold isEphemeral at kind
  cases found : block.field "cache_control" with
  | none => simp [found] at kind
  | some v =>
    rw [found,Option.bind_some] at kind
    cases v with
    | obj fields => exact ⟨fields,rfl⟩
    | null | bool b | num n | str t | arr items => simp [field] at kind

theorem upgradeHourly : lacksHour (upgradeBlock block) = false := by
  by_cases lacks : lacksHour block = true
  · obtain ⟨fields,found⟩ := ephemeralObject (Bool.and_eq_true_iff.mp lacks).1
    rw [lacksHour,upgradeEphemeral,upgradeBlock,if_pos lacks,getTtl,fieldAlterSelf,found,Option.map_some,Option.bind_some,fieldSet rfl,
      if_pos rfl]
    simp
  · rw [upgradeBlock,if_neg lacks]
    simpa using lacks

theorem walkedUpgraded : walked (upgradeBody body) = (walked body).map upgradeBlock := by
  unfold walked upgradeBody upgradeBlocks
  rw [fieldAlterOther _ (by decide),fieldAlterSelf,itemsAlter,fieldAlterSelf,fieldAlterOther _ (by decide),itemsAlter,List.map_append,
    List.flatMap_map,List.map_flatMap]
  simp only [fieldAlterSelf,itemsAlter]

theorem unwalkedUpgraded : unwalked (upgradeBody body) = unwalked body := by
  unfold unwalked upgradeBody upgradeBlocks
  rw [fieldAlterOther _ (by decide),fieldAlterOther _ (by decide),fieldAlterSelf,fieldAlterOther _ (by decide),itemsAlter,List.flatMap_map]
  simp only [fieldAlterSelf,itemsAlter,List.flatMap_map,upgradeNested]

theorem needsUpgradeIff : needsUpgrade body = true ↔ ∃ b ∈ walked body, lacksHour b = true := by
  simp only [needsUpgrade,arrayNeedsUpgrade,walked,Bool.or_eq_true,List.any_eq_true,List.mem_append,List.mem_flatMap]
  constructor
  · rintro (⟨b,its,lacks⟩ | ⟨message,there,b,its,lacks⟩)
    · exact ⟨b,.inl its,lacks⟩
    · exact ⟨b,.inr ⟨message,there,its⟩,lacks⟩
  · rintro ⟨b,its | ⟨message,there,its⟩,lacks⟩
    · exact .inl ⟨b,its,lacks⟩
    · exact .inr ⟨message,there,b,its,lacks⟩

theorem checkIff (blocks : List Json) : check saw blocks = if blocks.all (!lacksHour ·) then some (saw || blocks.any isEphemeral) else none := by
  induction blocks generalizing saw with
  | nil => simp [check]
  | cons b rest ih =>
    unfold check
    by_cases kind : isEphemeral b = true
    · by_cases hour : getTtl b = some (.str "1h")
      · simp [kind,hour,ih,lacksHour]
      · simp [kind,hour,lacksHour]
    · simp [kind,ih,lacksHour]

theorem checkAppend (first second : List Json) : check saw (first ++ second) = (check saw first).bind (check · second) := by
  rw [checkIff,checkIff,List.all_append,List.any_append]
  by_cases hour : first.all (!lacksHour ·) = true
  · rw [if_pos hour,Option.bind_some,checkIff,hour,Bool.true_and,Bool.or_assoc]
  · rw [if_neg hour,Bool.eq_false_iff.mpr hour,Bool.false_and]
    rfl

theorem checkMessages (messages : List Json) : messages.foldlM (fun saw message => check saw (itemsOf (message.field "content"))) saw =
    check saw (messages.flatMap (fun message => itemsOf (message.field "content"))) := by
  induction messages generalizing saw with
  | nil => simp [check]
  | cons message rest ih =>
    rw [List.foldlM_cons,List.flatMap_cons,checkAppend]
    simp only [ih]
    rfl

theorem oneHourIff : bodyCacheTtlIsOneHour body = true ↔
    (∃ b ∈ walked body, isEphemeral b = true) ∧ ∀ b ∈ walked body, lacksHour b = false := by
  have asked : bodyCacheTtlIsOneHour body = (check false (walked body)).getD false := by
    rw [bodyCacheTtlIsOneHour,walked,checkAppend]
    cases check false (itemsOf (body.field "system")) with
    | none => rfl
    | some saw => rw [Option.bind_some,← checkMessages]
  rw [asked,checkIff]
  split
  · rename_i all
    rw [Option.getD_some,Bool.false_or,List.any_eq_true]
    exact ⟨fun some_ => ⟨some_,by simpa using all⟩,And.left⟩
  · rename_i all
    exact ⟨fun nope => absurd nope (by decide),fun both => absurd both.2 (by simpa using all)⟩

def withoutTtl (block : Json) : Json := if isEphemeral block then alter "cache_control" (dropField "ttl") block else block

def othersOf (body : Json) : Json :=
  alter "messages" (alterItems (alter "content" (alterItems withoutTtl))) (alter "system" (alterItems withoutTtl) body)

theorem withoutUpgraded : withoutTtl (upgradeBlock block) = withoutTtl block := by
  unfold withoutTtl
  rw [upgradeEphemeral]
  split
  · unfold upgradeBlock
    split
    · rw [alterTwice]
      exact congrArg (fun f => alter "cache_control" f block) (funext fun _ => dropFieldSet _)
    · rfl
  · rename_i plain
    rw [upgradeBlock,if_neg (by simp [lacksHour,plain])]

theorem othersUpgraded : othersOf (upgradeBody body) = othersOf body := by
  have same : withoutTtl ∘ upgradeBlock = withoutTtl := funext fun _ => withoutUpgraded
  have items : (alterItems withoutTtl ∘ upgradeBlocks) = alterItems withoutTtl :=
    funext fun v => by rw [Function.comp,upgradeBlocks,alterItemsTwice,same]
  have contents : (alter "content" (alterItems withoutTtl) ∘ alter "content" upgradeBlocks) = alter "content" (alterItems withoutTtl) :=
    funext fun v => by rw [Function.comp,alterTwice,items]
  have messages : (alterItems (alter "content" (alterItems withoutTtl)) ∘ alterItems (alter "content" upgradeBlocks)) =
      alterItems (alter "content" (alterItems withoutTtl)) := funext fun v => by rw [Function.comp,alterItemsTwice,contents]
  rw [othersOf,upgradeBody,alterSwap _ (show "messages" ≠ "system" by decide),alterTwice,alterTwice,items,messages,othersOf]

def promoted (body : Json) : Json := if needsUpgrade body then upgradeBody body else body

theorem promotedWalked : ∀ b ∈ walked (promoted body), lacksHour b = false := by
  intro b inside
  unfold promoted at inside
  split at inside
  · rw [walkedUpgraded,List.mem_map] at inside
    obtain ⟨before,_,rfl⟩ := inside
    exact upgradeHourly
  · rename_i calm
    by_contra lacks
    exact calm (needsUpgradeIff.mpr ⟨b,inside,by simpa using lacks⟩)

theorem promotedUnwalked : unwalked (promoted body) = unwalked body := by
  unfold promoted
  split
  · exact unwalkedUpgraded
  · rfl

theorem promotedEphemeral : (∃ b ∈ walked (promoted body), isEphemeral b = true) ↔ ∃ b ∈ walked body, isEphemeral b = true := by
  unfold promoted
  split
  · simp only [walkedUpgraded,List.mem_map,exists_exists_and_eq_and,upgradeEphemeral]
  · rfl

theorem promotedOthers : othersOf (promoted body) = othersOf body := by
  unfold promoted
  split
  · exact othersUpgraded
  · rfl

theorem promotedSettled : needsUpgrade (promoted body) = false := by
  rw [← Bool.not_eq_true,needsUpgradeIff]
  rintro ⟨b,inside,lacks⟩
  exact absurd (promotedWalked b inside) (by simp [lacks])

theorem promotedHourly : (∀ m ∈ markers (promoted body), Hourly m) ↔ ∀ b ∈ unwalked body, lacksHour b = false := by
  rw [markersHourly,promotedUnwalked]
  exact ⟨And.right,And.intro promotedWalked⟩

theorem promotedOneHour : bodyCacheTtlIsOneHour (promoted body) = true ↔ ∃ b ∈ walked body, isEphemeral b = true := by
  rw [oneHourIff,promotedEphemeral]
  exact ⟨And.left,fun some_ => ⟨some_,promotedWalked⟩⟩

/-! The promotion of a request whose body is read from its context, and exactly when it is uniform. -/
variable {Bytes : Type} {h : Host Bytes} {c : RequestBodyContext Bytes} {body : Json}

structure Carries (h : Host Bytes) (c : RequestBodyContext Bytes) (body : Json) : Prop where
  read : (c.getParsedJson h).2 = some body
  clean : c.dirty = false → ∃ buffer, c.currentBuffer = some buffer ∧ h.parse buffer = some body
  written : h.parse (h.encodeJson (promoted body)) = some (promoted body)

theorem ofBufferCarries {buffer : Bytes} (parsed : h.parse buffer = some body) (like : isObjectLike body = true)
    (written : h.parse (h.encodeJson (promoted body)) = some (promoted body)) : Carries h (.ofBuffer (some buffer)) body where
  read := by simp [RequestBodyContext.ofBuffer,RequestBodyContext.getParsedJson,parsed,Option.filter,like]
  clean := fun _ => ⟨buffer,rfl,parsed⟩
  written := written

theorem readAgain (read : (c.getParsedJson h).2 = some body) :
    (c.getParsedJson h).1 = { c with parsedBody := some body, parseAttempted := true } := by
  obtain ⟨buffer,parsed,attempted,failed,dirty⟩ := c
  unfold RequestBodyContext.getParsedJson at read ⊢
  cases attempted with
  | true =>
    simp only [if_true] at read ⊢
    rw [read]
  | false =>
    cases buffer with
    | none => simp at read
    | some buffer =>
      simp only [Bool.false_eq_true,if_false] at read ⊢
      cases found : (h.parse buffer).filter isObjectLike with
      | none => simp [found] at read
      | some v =>
        simp only [found] at read ⊢
        rw [read]

theorem readParsed (parsed : c.parsedBody = some body) (attempted : c.parseAttempted = true) : c.getParsedJson h = (c,some body) := by
  rw [RequestBodyContext.getParsedJson,if_pos attempted,parsed]

theorem injected (read : (c.getParsedJson h).2 = some body) : injectCacheTtl1h h c =
    { c with parsedBody := some (promoted body), parseAttempted := true, dirty := c.dirty || needsUpgrade body } := by
  have split : c.getParsedJson h = ({ c with parsedBody := some body, parseAttempted := true },some body) :=
    Prod.ext (readAgain read) read
  rw [injectCacheTtl1h,split,promoted]
  cases upgrade : needsUpgrade body with
  | true => simp [upgrade,RequestBodyContext.mutateParsedJson]
  | false => simp [upgrade]

theorem injectedTwice (read : (c.getParsedJson h).2 = some body) :
    injectCacheTtl1h h (injectCacheTtl1h h c) = injectCacheTtl1h h c := by
  have again : ((injectCacheTtl1h h c).getParsedJson h).2 = some (promoted body) := by
    rw [injected read,readParsed rfl rfl]
  have settled : promoted (promoted body) = promoted body := if_neg (by simp [promotedSettled])
  rw [injected again,injected read,promotedSettled,settled,Bool.or_false]

theorem injectedSent (carries : Carries h c body) :
    ∃ sent, ((injectCacheTtl1h h c).getBuffer h).2 = some sent ∧ h.parse sent = some (promoted body) := by
  rw [injected carries.read]
  by_cases dirty : (c.dirty || needsUpgrade body) = true
  · exact ⟨_,by simp only [RequestBodyContext.getBuffer,dirty],carries.written⟩
  · rw [Bool.not_eq_true,Bool.or_eq_false_iff] at dirty
    obtain ⟨buffer,held,parsed⟩ := carries.clean dirty.1
    refine ⟨buffer,by simp only [RequestBodyContext.getBuffer,dirty,Bool.or_self,held],?_⟩
    rw [parsed,promoted,if_neg (by simp [dirty.2])]

structure Uniform (h : Host Bytes) (c : RequestBodyContext Bytes) (body : Json) : Prop where
  held : ∃ after, ((injectCacheTtl1h h c).getParsedJson h).2 = some after ∧ (∀ m ∈ markers after, Hourly m) ∧
    (markers after).Pairwise (fun first later => Hourly later → Hourly first) ∧ othersOf after = othersOf body ∧ unwalked after = unwalked body
  calm : (∀ m ∈ markers body, Hourly m) → injectCacheTtl1h h c = (c.getParsedJson h).1
  twice : injectCacheTtl1h h (injectCacheTtl1h h c) = injectCacheTtl1h h c
  sent : ∃ buffer after, ((injectCacheTtl1h h c).getBuffer h).2 = some buffer ∧ h.parse buffer = some after ∧
    (bodyCacheTtlIsOneHour after = true ↔ markers after ≠ [] ∧ ∀ m ∈ markers after, Hourly m)

structure OutsideHourly (body : Json) : Prop where
  hourly : ∀ b ∈ unwalked body, lacksHour b = false
  beside : (∃ b ∈ unwalked body, isEphemeral b = true) → ∃ b ∈ walked body, isEphemeral b = true

theorem promotionUniform (carries : Carries h c body) : Uniform h c body ↔ OutsideHourly body := by
  have read : ((injectCacheTtl1h h c).getParsedJson h).2 = some (promoted body) := by rw [injected carries.read,readParsed rfl rfl]
  obtain ⟨buffer,sent,parsed⟩ := injectedSent carries
  constructor
  · intro uniform
    obtain ⟨after,got,hourly,_⟩ := uniform.held
    obtain rfl := Option.some.inj (got.symm.trans read)
    refine ⟨promotedHourly.mp hourly,fun outside => ?_⟩
    obtain ⟨_,after,same,again,asked⟩ := uniform.sent
    obtain rfl := Option.some.inj (same.symm.trans sent)
    obtain rfl := Option.some.inj (again.symm.trans parsed)
    rw [← promotedOneHour,asked,markersNone,promotedUnwalked]
    exact ⟨.inr outside,hourly⟩
  · intro outside
    have hourly := promotedHourly.mpr outside.hourly
    refine ⟨⟨_,read,hourly,?_,promotedOthers,promotedUnwalked⟩,?_,injectedTwice carries.read,buffer,_,sent,parsed,?_⟩
    · exact List.pairwise_of_forall_mem_list (fun first there _ _ _ => hourly first there)
    · intro all
      have calm : needsUpgrade body = false := by
        rw [← Bool.not_eq_true,needsUpgradeIff]
        rintro ⟨b,inside,lacks⟩
        exact absurd ((markersHourly.mp all).1 b inside) (by simp [lacks])
      rw [injected carries.read,readAgain carries.read,promoted,calm]
      simp
    · rw [promotedOneHour,markersNone,promotedEphemeral,promotedUnwalked]
      exact ⟨fun some_ => ⟨.inl some_,hourly⟩,fun both => both.1.elim id outside.beside⟩

def plainHost : Host Json := ⟨some,id⟩

def ephemeral : Json := .obj [("type",.str "ephemeral")]

def toolRequest : Json := .obj [("tools",.arr [.obj [("name",.str "Read"),("cache_control",ephemeral)]]),
  ("system",.arr [.obj [("type",.str "text"),("cache_control",ephemeral)]]),("messages",.arr [])]

def systemRequest : Json := .obj [("system",.arr [.obj [("type",.str "text"),("cache_control",ephemeral)]]),("messages",.arr [])]

theorem systemUniform : Uniform plainHost (.ofBuffer (some systemRequest)) systemRequest :=
  (promotionUniform (ofBufferCarries rfl rfl rfl)).mpr ⟨by simp [unwalked,systemRequest,field,itemsOf],by simp [unwalked,systemRequest,field,itemsOf]⟩

theorem toolKept : ¬ ∀ (h : Host Json) (c : RequestBodyContext Json) (body : Json), Carries h c body → Uniform h c body := by
  intro all
  obtain ⟨after,got,hourly,_⟩ := (all plainHost (.ofBuffer (some toolRequest)) toolRequest (ofBufferCarries rfl rfl rfl)).held
  obtain rfl := Option.some.inj got
  exact absurd (hourly ephemeral (by decide +kernel)) (show ¬ ephemeral.field "ttl" = some (.str "1h") by decide +kernel)

end Clankermux.CacheTtl
