import Clankermux.SessionEligible
import Clankermux.SessionHistoryDigest
import Clankermux.SessionTranscript

/-! A stored session that is extended: the entries go on from the last one of its transcript, and
the next extension goes on from them. -/
namespace Clankermux.SessionTranscript
open Json SessionHistory ParentLinks
open ResumePoint (lines decoded uuidOf parentUuid)

variable {h : Host} {parseJson : List Char → Option Json} {bytes copy tail : List UInt8} {fromId toId : String}

theorem linesSplit (bytes : List UInt8) : lines bytes = (bytes.splitOn 0x0A).filter (fun line => !line.isEmpty) := by
  rw [Splitting.splitOnCut]
  rfl

theorem linesAppend : lines (copy ++ 0x0A::tail) = lines copy ++ lines tail := by
  rw [linesSplit,List.splitOn_append_cons_self,List.filter_append,← linesSplit,← linesSplit]

theorem linesOne (some_ : bytes ≠ []) (free : 0x0A ∉ bytes) : lines bytes = [bytes] := by
  rw [linesSplit,List.splitOn_eq_singleton free]
  simp [some_]

theorem linesJoined : lines (copy ++ separator copy ++ tail) = lines copy ++ lines tail := by
  rcases List.eq_nil_or_concat' copy with rfl | ⟨front,last,rfl⟩
  · rfl
  · by_cases ended : last = 0x0A
    · subst ended
      have none_ : separator (front ++ [0x0A]) = [] := by simp [separator]
      have whole : lines (front ++ [0x0A]) = lines front := by
        rw [linesAppend]
        exact List.append_nil _
      rw [none_,List.append_nil,List.append_assoc,whole]
      exact linesAppend
    · have one : separator (front ++ [last]) = [0x0A] := by simp [separator,ended]
      rw [one,List.append_assoc _ [0x0A]]
      exact linesAppend

theorem encodedFree {ch : Char} (inside : 0x0A ∈ String.utf8EncodeChar ch) : ch = '\n' := by
  have byte : ∀ {n : Nat}, n < 256 → (0x0A : UInt8) = UInt8.ofNat n → n = 10 := by
    intro n small same
    have nat := congrArg UInt8.toNat same
    rw [Utf8.byteOf small] at nat
    exact nat.symm
  have high : ∀ {n : Nat}, 0x80 ≤ n → n < 256 → (0x0A : UInt8) ≠ UInt8.ofNat n := by
    intro n large small same
    have low := byte small same
    omega
  unfold String.utf8EncodeChar at inside
  dsimp only at inside
  split at inside
  · rename_i short
    exact Char.ext (UInt32.toNat_inj.mp (byte (by omega) (List.mem_singleton.mp inside)))
  split at inside
  · simp only [List.mem_cons,List.not_mem_nil,or_false] at inside
    rcases inside with first | second
    · exact absurd first (high (by omega) (by omega))
    · exact absurd second (high (by omega) (by omega))
  split at inside
  · simp only [List.mem_cons,List.not_mem_nil,or_false] at inside
    rcases inside with first | second | third
    · exact absurd first (high (by omega) (by omega))
    · exact absurd second (high (by omega) (by omega))
    · exact absurd third (high (by omega) (by omega))
  · simp only [List.mem_cons,List.not_mem_nil,or_false] at inside
    rcases inside with first | second | third | fourth
    · exact absurd first (high (by omega) (by omega))
    · exact absurd second (high (by omega) (by omega))
    · exact absurd third (high (by omega) (by omega))
    · exact absurd fourth (high (by omega) (by omega))

theorem lineFree {text : List Char} (free : '\n' ∉ text) : 0x0A ∉ Utf8.encode text := by
  intro inside
  obtain ⟨ch,there,byte⟩ := List.mem_flatMap.mp inside
  exact free (encodedFree byte ▸ there)

theorem uuidChars {id : String} (uuid : isUuid id = true) : id.toList.length = 36 ∧ ∀ ch ∈ id.toList, ch.toNat ≤ 0x7F ∧ ch ≠ '\n' := by
  obtain ⟨size,each⟩ := Bool.and_eq_true_iff.mp uuid
  refine ⟨by simpa using size,fun ch inside => ?_⟩
  rw [← List.zipIdx_map_fst 0 id.toList] at inside
  obtain ⟨⟨_,i⟩,place,rfl⟩ := List.mem_map.mp inside
  have fits := List.all_eq_true.mp each _ place
  dsimp only at fits ⊢
  split at fits
  · have dash := of_decide_eq_true fits
    subst dash
    decide
  · have hex : ∀ ch, isHex ch = true → ch.toNat ≤ 0x7F ∧ ch ≠ '\n' := by
      intro ch its
      have range : 0x30 ≤ ch.toNat ∧ ch.toNat ≤ 0x66 := by
        simp only [isHex,Char.isDigit,Bool.or_eq_true,Bool.and_eq_true,decide_eq_true_eq] at its
        rcases its with (⟨low,high⟩ | ⟨low,high⟩) | ⟨low,high⟩
        · exact ⟨low,Nat.le_trans high (by decide)⟩
        · exact ⟨Nat.le_trans (by decide) low,high⟩
        · exact ⟨Nat.le_trans (by decide) low,Nat.le_trans high (by decide)⟩
      exact ⟨Nat.le_trans range.2 (by decide),fun same => absurd range.1 (by rw [same]; decide)⟩
    exact hex _ fits

theorem needleFacts {id : String} (uuid : isUuid id = true) : (needleOf id).length = 50 ∧ 0x0A ∉ needleOf id := by
  obtain ⟨size,each⟩ := uuidChars uuid
  have ascii : ∀ ch ∈ "\"sessionId\":\"".toList ++ id.toList ++ ['"'], ch.toNat ≤ 0x7F ∧ ch ≠ '\n' := by
    intro ch inside
    simp only [List.mem_append,List.mem_singleton] at inside
    rcases inside with (front | there) | rfl
    · exact of_decide_eq_true (List.all_eq_true.mp (show "\"sessionId\":\"".toList.all (fun ch => decide (ch.toNat ≤ 0x7F ∧ ch ≠ '\n')) = true from rfl) ch front)
    · exact each ch there
    · decide
  refine ⟨?_,lineFree (fun inside => (ascii _ inside).2 rfl)⟩
  have one : ∀ text, (∀ ch ∈ text, ch.toNat ≤ 0x7F) → (Utf8.encode text).length = text.length := by
    intro text
    induction text with
    | nil => exact fun _ => rfl
    | cons ch rest ih =>
      intro all
      have single : (String.utf8EncodeChar ch).length = 1 := by
        have small : ch.val.toNat ≤ 0x7F := all ch (.head _)
        unfold String.utf8EncodeChar
        rw [if_pos small]
        rfl
      have later := ih (fun c inside => all c (.tail _ inside))
      unfold Utf8.encode at later ⊢
      rw [List.flatMap_cons,List.length_append,single,later,List.length_cons,Nat.add_comm]
  rw [needleOf,one _ (fun ch inside => (ascii ch inside).1),List.length_append,List.length_append,size]
  rfl

theorem linesRenamed (old : isUuid fromId = true) (new : isUuid toId = true) (bytes : List UInt8) :
    lines (renamed fromId toId bytes) = (lines bytes).map (renamed fromId toId) := by
  by_cases same : fromId = toId
  · have id_ : renamed fromId toId = id := funext fun bytes => by simp [renamed,same]
    rw [id_,List.map_id]
    rfl
  · have its : renamed fromId toId = Replacing.replaced (needleOf fromId) (needleOf toId) [] := funext fun bytes => by simp [renamed,same]
    obtain ⟨size,free⟩ := needleFacts old
    obtain ⟨size',free'⟩ := needleFacts new
    have some_ : needleOf fromId ≠ [] := fun none_ => by simp [none_] at size
    rw [its,linesSplit,linesSplit,Replacing.replacedPieces some_ free free' (size'.trans size.symm),List.filter_map]
    refine congrArg _ (List.filter_congr (fun line _ => ?_))
    have empty := @Replacing.replacedEmpty _ _ (needleOf fromId) (needleOf toId) [] line
    cases line with
    | nil => rfl
    | cons byte rest =>
      have full : Replacing.replaced (needleOf fromId) (needleOf toId) [] (byte::rest) ≠ [] := fun none_ => absurd (empty.mp none_) (by simp)
      simpa [List.isEmpty_iff] using full

def namesSession (name : String) : Bool := "sessionId".toList.isSuffixOf name.toList

mutual

def blank : Json → Json
  | .arr items => .arr (blankItems items)
  | .obj fields => .obj (blankFields fields)
  | value => value

def blankItems : List Json → List Json
  | [] => []
  | item::rest => blank item::blankItems rest

def blankFields : List (String × Json) → List (String × Json)
  | [] => []
  | (name,value)::rest => (name,if namesSession name then .null else blank value)::blankFields rest

end

theorem blankFieldsMap (fields : List (String × Json)) :
    blankFields fields = fields.map (fun entry => (entry.1,if namesSession entry.1 then .null else blank entry.2)) := by
  induction fields with
  | nil => rfl
  | cons entry rest ih => rw [blankFields,ih,List.map_cons]

theorem blankField {name : String} (other : namesSession name = false) (value : Json) : (blank value).field name = (value.field name).map blank := by
  cases value with
  | obj fields =>
    rw [blank,blankFieldsMap,field,field,← List.map_reverse,List.find?_map,Option.map_map,Option.map_map]
    refine Option.map_congr (fun entry found => ?_)
    have met := List.find?_some found
    have its : entry.1 = name := by simpa using met
    simp [its,other]
  | null | bool b | num n | str t | arr items => rfl
variable {lines_ : List (List UInt8)} {a b : Json}

section
variable (alike : blank a = blank b)
include alike

theorem fieldAlike {name : String} (other : namesSession name = false) :
    (a.field name = none ∧ b.field name = none) ∨ ∃ v w, a.field name = some v ∧ b.field name = some w ∧ blank v = blank w := by
  have same : (a.field name).map blank = (b.field name).map blank := by rw [← blankField other,alike,blankField other]
  cases first : a.field name with
  | none =>
    rw [first] at same
    exact .inl ⟨rfl,Option.map_eq_none_iff.mp same.symm⟩
  | some v =>
    rw [first] at same
    obtain ⟨w,second,equal⟩ := Option.map_eq_some_iff.mp same.symm
    exact .inr ⟨v,w,rfl,second,equal.symm⟩

theorem uuidAlike : uuidOf a = uuidOf b := by
  unfold uuidOf
  rcases fieldAlike alike (show namesSession "uuid" = false from rfl) with ⟨first,second⟩ | ⟨v,w,first,second,same⟩
  · rw [first,second]
  · rw [first,second]
    cases v <;> cases w <;> simp_all [blank]

theorem parentAlike : parentUuid a = parentUuid b := by
  unfold parentUuid
  rcases fieldAlike alike (show namesSession "parentUuid" = false from rfl) with ⟨first,second⟩ | ⟨v,w,first,second,same⟩
  · rw [first,second]
  · rw [first,second]
    cases v <;> cases w <;> simp_all [blank]

theorem sidechainAlike : isTrue (a.field "isSidechain") = isTrue (b.field "isSidechain") := by
  rcases fieldAlike alike (show namesSession "isSidechain" = false from rfl) with ⟨first,second⟩ | ⟨v,w,first,second,same⟩
  · rw [first,second]
  · rw [first,second]
    cases v <;> cases w <;> simp_all [blank,SessionHistory.isTrue]

end

variable {r s t : Reading} {a b entry : Json}

structure Reading.Alike (r s : Reading) : Prop where
  parents : r.parents = s.parents
  hasChild : r.hasChild = s.hasChild

theorem takeAlike (same : r.Alike s) (alike : blank a = blank b) (took : r.take a = some t) : ∃ u, s.take b = some u ∧ t.Alike u := by
  unfold Reading.take at took ⊢
  rw [← uuidAlike alike]
  cases its : uuidOf a with
  | none =>
    rw [its] at took
    cases took
    exact ⟨s,rfl,same⟩
  | some uuid =>
    rw [its] at took
    dsimp only at took ⊢
    rw [← same.parents,← parentAlike alike,← sidechainAlike alike]
    split at took
    · cases took
    rename_i fresh
    rw [if_neg fresh]
    split at took
    · rename_i side
      cases took
      rw [if_pos side]
      exact ⟨_,rfl,⟨rfl,same.hasChild⟩⟩
    · rename_i main
      cases took
      rw [if_neg main]
      exact ⟨_,rfl,⟨rfl,by rw [same.hasChild]⟩⟩

def SameLine (parseJson : List Char → Option Json) (line other : List UInt8) : Prop :=
  (parseJson (decoded other)).map blank = (parseJson (decoded line)).map blank

theorem readAlike {lines_ others : List (List UInt8)} (lines_alike : List.Forall₂ (SameLine parseJson) lines_ others) : ∀ {r s t}, r.Alike s →
    lines_.foldlM (readLine parseJson) r = some t → ∃ u, others.foldlM (readLine parseJson) s = some u ∧ t.Alike u := by
  induction lines_alike with
  | nil =>
    intro r s t same done
    cases done
    exact ⟨s,rfl,same⟩
  | @cons line other _ _ here _ ih =>
    intro r s t same done
    obtain ⟨mid,took,done⟩ := Option.bind_eq_some_iff.mp done
    obtain ⟨a,parsed,took⟩ := Option.bind_eq_some_iff.mp took
    have copied := here
    rw [SameLine,parsed] at copied
    obtain ⟨b,there,alike⟩ := Option.map_eq_some_iff.mp copied
    obtain ⟨next,went,same'⟩ := takeAlike same alike.symm took
    obtain ⟨u,ran,last⟩ := ih same' done
    refine ⟨u,?_,last⟩
    have step : readLine parseJson s other = some next := by rw [readLine,there,Option.bind_some,went]
    rw [List.foldlM_cons,step]
    exact ran

def Names (parseJson : List Char → Option Json) (lines_ : List (List UInt8)) (id : String) : Prop :=
  ∃ line ∈ lines_, ∃ entry, parseJson (decoded line) = some entry ∧ (uuidOf entry = some id ∨ parentUuid entry = some id)

structure Reading.Known (parseJson : List Char → Option Json) (lines_ : List (List UInt8)) (r : Reading) : Prop where
  parents : ∀ link ∈ r.parents, Names parseJson lines_ link.1
  hasChild : ∀ id ∈ r.hasChild, Names parseJson lines_ id

theorem readKnown (read : lines_.foldlM (readLine parseJson) ⟨[],[],none⟩ = some r) : r.Known parseJson lines_ := by
  induction lines_ using List.reverseRecOn generalizing r with
  | nil =>
    cases read
    exact ⟨by simp,by simp⟩
  | append_singleton front line ih =>
    rw [List.foldlM_append] at read
    obtain ⟨mid,before,read⟩ := Option.bind_eq_some_iff.mp read
    obtain ⟨next,took,same⟩ := Option.bind_eq_some_iff.mp read
    cases same
    obtain ⟨entry,parsed,took⟩ := Option.bind_eq_some_iff.mp took
    have earlier : ∀ {id}, Names parseJson front id → Names parseJson (front ++ [line]) id := by
      rintro id ⟨other,inside,rest⟩
      exact ⟨other,List.mem_append_left _ inside,rest⟩
    have here : ∀ {id}, uuidOf entry = some id ∨ parentUuid entry = some id → Names parseJson (front ++ [line]) id := fun its =>
      ⟨line,by simp,entry,parsed,its⟩
    have known := ih before
    unfold Reading.take at took
    split at took
    · cases took
      exact ⟨fun link inside => earlier (known.parents link inside),fun id inside => earlier (known.hasChild id inside)⟩
    · rename_i uuid its
      have parents : ∀ link ∈ mid.parents ++ [(uuid,parentUuid entry)], Names parseJson (front ++ [line]) link.1 := by
        intro link inside
        rcases List.mem_append.mp inside with old | new
        · exact earlier (known.parents link old)
        · cases List.mem_singleton.mp new
          exact here (.inl its)
      split at took
      · cases took
      split at took
      · cases took
        exact ⟨parents,fun id inside => earlier (known.hasChild id inside)⟩
      · cases took
        refine ⟨parents,fun id inside => ?_⟩
        rcases List.mem_append.mp inside with old | new
        · exact earlier (known.hasChild id old)
        · have named := (Option.mem_toList.mp new)
          exact here (.inr (Option.filter_eq_some_iff.mp named).1)

variable {ctx : TranscriptContext} {i : Nat} {parent : Option String} {message : ApiMessage} {history : List ApiMessage}
  {entries : List Json}

structure Wrote (ctx : TranscriptContext) (i : Nat) (parent : Option String) (message : ApiMessage) (entry : Json) : Prop where
  uuid : uuidOf entry = some (ctx.randomId i)
  parent : parentUuid entry = parent
  main : isTrue (entry.field "isSidechain") = false
  type : isStr (entry.field "type") "assistant" = decide (message.role = .assistant)
  calls : makesCalls entry = message.content.any (ofType "tool_use")

theorem upstreamType {block written : Json} (wrote : upstreamBlock h ctx block = some written) (type : String) : ofType type written = ofType type block := by
  unfold upstreamBlock at wrote
  split at wrote
  · obtain ⟨name,-,rfl⟩ := Option.map_eq_some_iff.mp wrote
    rw [ofType,fieldSetOther block _ (by decide)]
    rfl
  · cases wrote
    rfl

theorem upstreamCalls {content written : List Json} (wrote : content.mapM (upstreamBlock h ctx) = some written) :
    written.any (ofType "tool_use") = content.any (ofType "tool_use") := by
  induction content generalizing written with
  | nil =>
    cases wrote
    rfl
  | cons block rest ih =>
    rw [List.mapM_cons] at wrote
    obtain ⟨first,its,wrote⟩ := Option.bind_eq_some_iff.mp wrote
    obtain ⟨more,later,wrote⟩ := Option.bind_eq_some_iff.mp wrote
    cases wrote
    rw [List.any_cons,List.any_cons,upstreamType its,ih later]

theorem entryWrote (built : entryOf h ctx i parent message = some entry) : Wrote ctx i parent message entry := by
  have named : ∀ type message, let entry := Json.obj (common ctx parent (ctx.randomId i) ++ [("type",type),("message",message)])
      uuidOf entry = some (ctx.randomId i) ∧ parentUuid entry = parent ∧ isTrue (entry.field "isSidechain") = false := by
    intro type message
    refine ⟨by simp [uuidOf,Json.field,common],?_,by simp [SessionHistory.isTrue,Json.field,common]⟩
    cases parent with
    | none => simp [parentUuid,Json.field,common]
    | some id => simp [parentUuid,Json.field,common]
  unfold entryOf at built
  cases role : message.role with
  | user =>
    rw [role] at built
    cases built
    obtain ⟨uuid,up,main⟩ := named (.str "user") (.obj [("role",.str "user"),("content",.arr message.content)])
    exact ⟨uuid,up,main,by simp [Json.field,isStr,role],by simp [makesCalls,ResumePoint.blocksOf,Json.field]⟩
  | assistant =>
    rw [role] at built
    obtain ⟨content,wrote,rfl⟩ := Option.map_eq_some_iff.mp built
    obtain ⟨uuid,up,main⟩ := named (.str "assistant") (assistantMessage ctx i content)
    refine ⟨uuid,up,main,by simp [Json.field,isStr,role],?_⟩
    rw [← upstreamCalls wrote]
    simp [makesCalls,ResumePoint.blocksOf,Json.field,assistantMessage]

variable {n : Nat} {leaf : String} {last : ApiMessage}

structure Grown (ctx : TranscriptContext) (i n : Nat) (parent : String) (last : ApiMessage) (r s : Reading) : Prop where
  keeps : ∀ key up, links r.parents key = some up → links s.parents key = some up
  way : Way (links s.parents) (some (ctx.randomId (i+n))) ((List.range' i (n+1)).map ctx.randomId).reverse (some parent)
  named : ∀ id ∈ s.hasChild, id ∈ r.hasChild ∨ id = parent ∨ ∃ j, i ≤ j ∧ j < i+n ∧ id = ctx.randomId j
  leaf : ∃ leaf, s.leaf = some leaf ∧ leaf.uuid = ctx.randomId (i+n) ∧ isStr leaf.type "assistant" = decide (last.role = .assistant) ∧
    leaf.calls = last.content.any (ofType "tool_use")

theorem linksAdded (parents : List (String × Option String)) (id key : String) (up : Option String) :
    links (parents ++ [(id,up)]) key = (links parents key).or (if key = id then some up else none) := by
  unfold links
  rw [List.lookup_append]
  refine congrArg _ ?_
  by_cases same : key = id
  · simp [same]
  · simp [same]

theorem takeWrote {parent : String} (wrote : Wrote ctx i (some parent) message entry) (fresh : links r.parents (ctx.randomId i) = none) :
    ∃ s, r.take entry = some s ∧ s.parents = r.parents ++ [(ctx.randomId i,some parent)] ∧ Grown ctx i 0 parent message r s := by
  have new : ¬ (links r.parents (ctx.randomId i)).isSome = true := by simp [fresh]
  have main : ¬ isTrue (entry.field "isSidechain") = true := by simp [wrote.main]
  refine ⟨⟨r.parents ++ [(ctx.randomId i,some parent)],r.hasChild ++ ((some parent).filter (· ≠ "")).toList,
    some ⟨ctx.randomId i,entry.field "type",makesCalls entry⟩⟩,?_,rfl,fun key up found => ?_,?_,fun id inside => ?_,?_⟩
  · unfold Reading.take
    rw [wrote.uuid]
    dsimp only
    rw [if_neg new,if_neg main,wrote.parent]
  · rw [linksAdded,found]
    rfl
  · refine .up ?_ (.here _)
    show links (r.parents ++ [(ctx.randomId i,some parent)]) (ctx.randomId i) = some (some parent)
    rw [linksAdded,fresh,if_pos rfl]
    rfl
  · rcases List.mem_append.mp inside with old | new
    · exact .inl old
    · have its := (Option.filter_eq_some_iff.mp (Option.mem_toList.mp new)).1
      exact .inr (.inl (Option.some.inj its).symm)
  · exact ⟨_,rfl,rfl,wrote.type,wrote.calls⟩

theorem takeEntries : ∀ {history entries i n parent r}, entriesFrom h ctx i (some parent) history = some entries → history.length = n+1 →
    history.getLast? = some last → (∀ j, i ≤ j → j ≤ i+n → links r.parents (ctx.randomId j) = none) →
    (∀ j k, i ≤ j → j < k → k ≤ i+n → ctx.randomId j ≠ ctx.randomId k) →
    ∃ s, entries.foldlM Reading.take r = some s ∧ Grown ctx i n parent last r s := by
  intro history
  induction history with
  | nil => exact fun _ size => absurd size (by simp)
  | cons message rest ih =>
    intro entries i n parent r built size ends fresh distinct
    obtain ⟨entry,first,built⟩ := Option.bind_eq_some_iff.mp built
    obtain ⟨more,later,built⟩ := Option.bind_eq_some_iff.mp built
    cases built
    obtain ⟨mid,took,parents,grown⟩ := takeWrote (entryWrote first) (fresh i le_rfl (Nat.le_add_right _ _))
    rw [List.foldlM_cons,took]
    cases rest with
    | nil =>
      cases later
      cases ends
      cases Nat.succ.inj size
      exact ⟨mid,rfl,grown⟩
    | cons next rest =>
      obtain ⟨n,rfl⟩ : ∃ m, n = m+1 := ⟨rest.length,by simpa using size.symm⟩
      have shift : i+1+n = i+(n+1) := by omega
      obtain ⟨s,ran,after⟩ := @ih more (i+1) n (ctx.randomId i) mid later (by simpa using size) (by simpa using ends)
        (fun j above below => by
          rw [parents,linksAdded,fresh j (by omega) (by omega),if_neg (distinct i j le_rfl (by omega) (by omega)).symm]
          rfl)
        (fun j k above less below => distinct j k (by omega) less (by omega))
      refine ⟨s,ran,fun key up found => after.keeps key up (grown.keeps key up found),?_,fun id inside => ?_,?_⟩
      · have here : Way (links s.parents) (some (ctx.randomId i)) [ctx.randomId i] (some parent) := grown.way.extends after.keeps
        have whole := after.way.append here
        rw [shift] at whole
        rw [List.range'_succ,List.map_cons,List.reverse_cons]
        exact whole
      · rcases after.named id inside with old | own | ⟨j,above,below,its⟩
        · rcases grown.named id old with older | up | ⟨j,above,below,its⟩
          · exact .inl older
          · exact .inr (.inl up)
          · omega
        · exact .inr (.inr ⟨i,le_rfl,by omega,own⟩)
        · exact .inr (.inr ⟨j,by omega,by omega,its⟩)
      · have final := after.leaf
        rw [shift] at final
        exact final

theorem reachesWay (reaches : reachesRoot r.parents leaf = true) : ∃ way, Rooted (links r.parents) leaf way := by
  unfold reachesRoot at reaches
  split at reaches
  · rename_i way done
    obtain ⟨last,up,why,-,-⟩ := climbed done
    cases why
    exact ⟨way,up⟩
  · cases reaches

theorem wayReaches {way : List String} (rooted : Rooted (links r.parents) leaf way) : reachesRoot r.parents leaf = true := by
  have there : ∀ key, (links r.parents key).isSome → key ∈ r.parents.map Prod.fst := by
    intro key found
    obtain ⟨link,inside,same⟩ := List.lookup_isSome_iff.mp found
    exact List.mem_map.mpr ⟨link,inside,(beq_iff_eq.mp same).symm⟩
  have done : climb (links r.parents) (r.parents.length+1) [] (some leaf) = some (way,.root) :=
    climbRoot (r.parents.map Prod.fst) there (by simp) rooted
  rw [reachesRoot,done]

theorem leafFacts (found : leafOf r = some leaf) : ∃ way, Rooted (links r.parents) leaf way := by
  unfold leafOf at found
  split at found
  · cases found
  split at found
  · cases found
  split at found
  · cases found
  split at found
  · rename_i reaches
    cases found
    exact reachesWay reaches
  · cases found

structure Fresh (parseJson : List Char → Option Json) (bytes : List UInt8) (ctx : TranscriptContext) (count : Nat) : Prop where
  distinct : ∀ j k, j < k → k < count → ctx.randomId j ≠ ctx.randomId k
  apart : ∀ j, j < count → ¬Names parseJson (lines bytes) (ctx.randomId j)

structure Texts (h : Host) (parseJson : List Char → Option Json) (bytes : List UInt8) (fromId toId : String) (entries : List Json) : Prop where
  back : ∀ entry ∈ entries, parseJson (h.stringify entry).toList = some entry
  oneLine : ∀ entry ∈ entries, '\n' ∉ (h.stringify entry).toList ∧ h.stringify entry ≠ ""
  copied : ∀ line ∈ lines bytes, SameLine parseJson line (renamed fromId toId line)

structure Extended (h : Host) (parseJson : List Char → Option Json) (bytes extended : List UInt8) (fromId toId : String) (ids : List String)
    (leaf last : String) (entries : List Json) (r : Reading) (old : List String) : Prop where
  was : transcriptLeaf parseJson bytes = some leaf
  written : lines extended = (lines bytes).map (renamed fromId toId) ++ entries.map (lineOf h)
  read : readTranscript parseJson extended = some r
  before : Rooted (links r.parents) leaf old
  chain : Rooted (links r.parents) last (ids.reverse ++ old)
  final : ids.getLast? = some last
  again : transcriptLeaf parseJson extended = some last

theorem linesTail (lines_ : ∀ entry ∈ entries, '\n' ∉ (h.stringify entry).toList ∧ h.stringify entry ≠ "") :
    lines (tailBytes h entries) = entries.map (lineOf h) := by
  induction entries with
  | nil => rfl
  | cons entry rest ih =>
    obtain ⟨free,some_⟩ := lines_ entry (.head _)
    have full : lineOf h entry ≠ [] := by
      intro none_
      have text := ResumePoint.decodedEncode (h.stringify entry).toList
      rw [show Utf8.encode (h.stringify entry).toList = [] from none_] at text
      exact some_ (String.toList_inj.mp text.symm)
    have split : tailBytes h (entry::rest) = lineOf h entry ++ 0x0A::tailBytes h rest := by simp [tailBytes]
    rw [split,linesAppend,linesOne full (lineFree free),ih (fun e inside => lines_ e (.tail _ inside))]
    rfl

theorem readEntries (back : ∀ entry ∈ entries, parseJson (h.stringify entry).toList = some entry) : ∀ {r},
    (entries.map (lineOf h)).foldlM (readLine parseJson) r = entries.foldlM Reading.take r := by
  induction entries with
  | nil => exact rfl
  | cons entry rest ih =>
    intro r
    have step : readLine parseJson r (lineOf h entry) = r.take entry := by
      rw [readLine,lineOf,ResumePoint.decodedEncode,back entry (.head _)]
      rfl
    rw [List.map_cons,List.foldlM_cons,List.foldlM_cons,step]
    exact congrArg (fun f => (r.take entry).bind f) (funext fun s => ih (fun e inside => back e (.tail _ inside)))

theorem knownLink {id} {up} (known : r.Known parseJson lines_) (found : links r.parents id = some up) :
    Names parseJson lines_ id := by
  obtain ⟨front,behind,same,-⟩ := List.lookup_eq_some_iff.mp found
  exact known.parents (id,up) (by rw [same]; simp)

theorem grownLeaf {way : List String} (known : r.Known parseJson lines_) (grown : Grown ctx 0 n leaf last r s)
    (assistant : last.role = .assistant) (calm : uses last = []) (named : Names parseJson lines_ leaf)
    (distinct : ∀ j k, j < k → k < n+1 → ctx.randomId j ≠ ctx.randomId k) (apart : ∀ j, j < n+1 → ¬Names parseJson lines_ (ctx.randomId j))
    (rooted : Rooted (links s.parents) (ctx.randomId n) way) : leafOf s = some (ctx.randomId n) := by
  obtain ⟨final,its,uuid,type,calls⟩ := grown.leaf
  rw [Nat.zero_add] at uuid
  have quiet : final.calls = false := by
    rw [calls]
    exact List.any_eq_false.mpr (fun block inside => by simpa using List.filter_eq_nil_iff.mp calm block inside)
  have childless : ctx.randomId n ∉ s.hasChild := by
    intro inside
    rcases grown.named _ inside with old | up | ⟨j,-,below,same⟩
    · exact apart n (Nat.lt_succ_self _) (known.hasChild _ old)
    · exact apart n (Nat.lt_succ_self _) (up ▸ named)
    · exact distinct j n (by omega) (Nat.lt_succ_self _) same.symm
  unfold leafOf
  rw [its]
  dsimp only
  rw [type,assistant,quiet,uuid,if_neg (by simp),if_neg childless,if_pos (wayReaches rooted)]

theorem copyAlike (texts : ∀ line ∈ lines bytes, SameLine parseJson line (renamed fromId toId line)) (read : readTranscript parseJson bytes = some r) :
    ∃ u, ((lines bytes).map (renamed fromId toId)).foldlM (readLine parseJson) ⟨[],[],none⟩ = some u ∧ r.Alike u ∧ u.Known parseJson (lines bytes) := by
  have alike : List.Forall₂ (SameLine parseJson) (lines bytes) ((lines bytes).map (renamed fromId toId)) :=
    List.forall₂_map_right_iff.mpr (List.forall₂_same.mpr texts)
  obtain ⟨u,again,same⟩ := readAlike alike ⟨rfl,rfl⟩ read
  have known := readKnown read
  exact ⟨u,again,same,same.parents ▸ known.parents,same.hasChild ▸ known.hasChild⟩

theorem forkExtends {toolNames} {added} {extended} (paired : Paired h toolNames added)
    (forked : forkExtendedTranscriptFile h parseJson (some bytes) fromId toId (fun leaf => buildSyntheticTranscript h added (ctx.behind leaf)) =
      some (some extended)) (fresh : Fresh parseJson bytes ctx added.length)
    (texts : ∀ leaf entries, transcriptLeaf parseJson bytes = some leaf → buildSyntheticTranscript h added (ctx.behind leaf) = some entries →
      Texts h parseJson bytes fromId toId entries) :
    ∃ leaf last entries r old, buildSyntheticTranscript h added (ctx.behind leaf) = some entries ∧
      Extended h parseJson bytes extended fromId toId ((List.range added.length).map ctx.randomId) leaf last entries r old := by
  unfold forkExtendedTranscriptFile at forked
  dsimp only at forked
  split at forked
  · cases forked
  rename_i leaf found
  obtain ⟨entries,built,forked⟩ := Option.bind_eq_some_iff.mp forked
  obtain ⟨copy,rewritten,forked⟩ := Option.bind_eq_some_iff.mp forked
  cases forked
  have was := (Option.filter_eq_some_iff.mp found).1
  obtain ⟨back,oneLine,copied⟩ := texts leaf entries was built
  unfold rewriteSessionId at rewritten
  split at rewritten
  · rename_i uuids
    cases rewritten
    have both := Bool.and_eq_true_iff.mp uuids
    have written : lines (renamed fromId toId bytes ++ separator (renamed fromId toId bytes) ++ tailBytes h entries) =
        (lines bytes).map (renamed fromId toId) ++ entries.map (lineOf h) := by
      rw [linesJoined,linesRenamed both.1 both.2,linesTail oneLine]
    obtain ⟨r,read,leafs⟩ := Option.bind_eq_some_iff.mp was
    obtain ⟨u,again,same,known⟩ := copyAlike copied read
    obtain ⟨first,rest,whole,-⟩ := paired.begins
    obtain ⟨earlier,final,ends,assistant,calm⟩ := paired.ends
    have size : added.length = rest.length+1 := by rw [whole,List.length_cons]
    have last : added.getLast? = some final := by rw [ends,List.getLast?_concat]
    have unknown : ∀ j, 0 ≤ j → j ≤ 0+rest.length → links u.parents (ctx.randomId j) = none := by
      intro j _ below
      cases there : links u.parents (ctx.randomId j) with
      | none => rfl
      | some up => exact absurd (knownLink known there) (fresh.apart j (by omega))
    have distinct : ∀ j k, j < k → k < rest.length+1 → ctx.randomId j ≠ ctx.randomId k := by simpa only [size] using fresh.distinct
    have apart : ∀ j, j < rest.length+1 → ¬Names parseJson (lines bytes) (ctx.randomId j) := by simpa only [size] using fresh.apart
    obtain ⟨s,ran,grown⟩ : ∃ s, entries.foldlM Reading.take u = some s ∧ Grown (ctx.behind leaf) 0 rest.length leaf final u s :=
      takeEntries built size last unknown (fun j k _ less below => distinct j k less (by omega))
    obtain ⟨old,rooted⟩ := leafFacts leafs
    rw [same.parents] at rooted
    have before : Rooted (links s.parents) leaf old := rooted.extends grown.keeps
    have chain : Rooted (links s.parents) (ctx.randomId rest.length) (((List.range added.length).map ctx.randomId).reverse ++ old) := by
      have climbs := grown.way.append before
      rw [Nat.zero_add,← List.range_eq_range',← size] at climbs
      exact climbs
    have named : Names parseJson (lines bytes) leaf := by
      cases rooted with
      | up there _ => exact knownLink known there
    have readAgain : readTranscript parseJson (renamed fromId toId bytes ++ separator (renamed fromId toId bytes) ++ tailBytes h entries) = some s := by
      rw [readTranscript,written,List.foldlM_append,again]
      exact (readEntries back).trans ran
    have again_ := grownLeaf known grown assistant calm named distinct apart chain
    refine ⟨leaf,ctx.randomId rest.length,entries,s,old,built,was,written,readAgain,before,chain,?_,?_⟩
    · rw [size,List.range_succ,List.map_append]
      exact List.getLast?_concat
    · rw [transcriptLeaf,readAgain]
      exact again_
  · cases rewritten

end Clankermux.SessionTranscript
