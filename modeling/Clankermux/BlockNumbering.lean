import Clankermux.JsonText
import Clankermux.Splitting
import Clankermux.Text
import Clankermux.Utf8
import Mathlib.Data.List.Infix

/-! The numbering of the content blocks of a stream whose blocks come one after another: each block event of a line is
given the number of its block, and every other line is passed on. -/
namespace Clankermux.BlockNumbering
open Splitting

abbrev Line := List Char

structure Host where
  parse : List Char → Option Json
  stringify : Json → List Char

def BLOCK_EVENTS : List String := ["content_block_start","content_block_delta","content_block_stop"]

structure Counter where
  nextBlock : Nat
  openBlock : Option Nat

def Counter.start : Counter := ⟨0,none⟩

def blockLike (line : Line) : Bool := "data:".toList.isPrefixOf line && decide ("\"content_block_".toList <:+: line)

def carriageReturn (line : Line) : Line := if line.getLast? = some '\r' then ['\r'] else []

def payload (line : Line) : List Char := ((withoutReturn line).drop 5).dropWhile isWhitespace

def hasIndex (event : Json) (ordinal : Nat) : Bool :=
  match event.field "index" with
  | some (.num value) => value = ordinal
  | _ => false

def restOf : Json → List (String × Json)
  | .obj fields => fields.filter (fun entry => entry.1 ≠ "type" ∧ entry.1 ≠ "index")
  | _ => []

/-- `{ type, index, ...rest }` -/
def renumbered (event : Json) (type : String) (ordinal : Nat) : Json :=
  .obj (("type",.str type)::("index",.num ordinal)::restOf event)

def Counter.seen (c : Counter) (type : String) : Counter :=
  if type = "content_block_start" then ⟨c.nextBlock+1,some c.nextBlock⟩ else c

variable (h : Host)

def rewrite (c : Counter) (line : Line) : Option (Counter × Line) :=
  if blockLike line = false then some (c,line)
  else
    match h.parse (payload line) with
    | none => some (c,line)
    | some .null => none
    | some event =>
      match event.field "type" with
      | some (.str type) =>
        if type ∈ BLOCK_EVENTS then
          match (c.seen type).openBlock with
          | none => some (c.seen type,line)
          | some ordinal =>
            if hasIndex event ordinal then some (c.seen type,line)
            else some (c.seen type,"data: ".toList ++ h.stringify (renumbered event type ordinal) ++ carriageReturn line)
        else some (c,line)
      | _ => some (c,line)

def rewriteAll (c : Counter) : List Line → Option (Counter × List Line)
  | [] => some (c,[])
  | line::rest => (rewrite h c line).bind (fun one => (rewriteAll one.1 rest).map (fun all => (all.1,one.2::all.2)))

structure State where
  decoder : Utf8.Decoder
  buffered : List Char
  counter : Counter

def State.start : State := ⟨.start,[],.start⟩

def joined (lines : List Line) : List Char := lines.flatMap (· ++ ['\n'])

def transform (s : State) (chunk : List UInt8) : Option (State × List UInt8) :=
  let decoded := Utf8.decode s.decoder chunk
  let lines := cut '\n' (s.buffered ++ decoded.2)
  (rewriteAll h s.counter lines.1).map (fun all => (⟨decoded.1,lines.2,all.1⟩,Utf8.encode (joined all.2)))

def flush (s : State) : Option (List UInt8) :=
  let buffered := s.buffered ++ s.decoder.finish
  if buffered = [] then some [] else (rewrite h s.counter buffered).map (fun one => Utf8.encode one.2)

def runFrom (s : State) : List (List UInt8) → Option (List UInt8)
  | [] => flush h s
  | chunk::rest => (transform h s chunk).bind (fun one => (runFrom one.1 rest).map (one.2 ++ ·))

def numberContentBlocks (packets : List (List UInt8)) : Option (List UInt8) := runFrom h .start packets

def linesOf (text : List Char) : List Line := text.splitOn '\n'

def textOf (lines : List Line) : List Char := ['\n'].intercalate lines

def conclude (c : Counter) (text : List Char) : Option (List UInt8) :=
  (rewriteAll h c (linesOf text)).map (fun all => Utf8.encode (textOf all.2))

theorem rewriteAllAppend (first second : List Line) : ∀ c, rewriteAll h c (first ++ second) =
    (rewriteAll h c first).bind (fun one => (rewriteAll h one.1 second).map (fun all => (all.1,one.2 ++ all.2))) := by
  induction first with
  | nil =>
    intro c
    cases rewritten : rewriteAll h c second <;> simp [rewriteAll]
  | cons line rest ih =>
    intro c
    rw [List.cons_append,rewriteAll,rewriteAll]
    cases rewrite h c line with
    | none => rfl
    | some one =>
      simp only [Option.bind_some,ih]
      cases rewriteAll h one.1 rest with
      | none => rfl
      | some all => cases more : rewriteAll h all.1 second <;> simp [more]

theorem textSnoc (lines : List Line) (last : Line) : textOf (lines ++ [last]) = joined lines ++ last := by
  induction lines with
  | nil => simp [textOf,joined]
  | cons line rest ih =>
    cases rest with
    | nil => simp [textOf,joined]
    | cons next others =>
      have split : textOf (line::((next::others) ++ [last])) = line ++ '\n'::textOf ((next::others) ++ [last]) := by
        simp [textOf]
      rw [List.cons_append,split,ih]
      simp [joined]

theorem concludeCut (c : Counter) (text : List Char) : conclude h c text = (rewriteAll h c (cut '\n' text).1).bind (fun all =>
    (rewrite h all.1 (cut '\n' text).2).map (fun one => Utf8.encode (joined all.2) ++ Utf8.encode one.2)) := by
  rw [conclude,linesOf,splitOnCut,rewriteAllAppend]
  cases rewriteAll h c (cut '\n' text).1 with
  | none => rfl
  | some all =>
    simp only [Option.bind_some,rewriteAll]
    cases rewrite h all.1 (cut '\n' text).2 with
    | none => rfl
    | some one => simp [textSnoc,Utf8.encodeAppend]

theorem concludeBehind (c : Counter) (here more : List Char) : conclude h c (here ++ more) = (rewriteAll h c (cut '\n' here).1).bind (fun all =>
    (conclude h all.1 ((cut '\n' here).2 ++ more)).map (Utf8.encode (joined all.2) ++ ·)) := by
  rw [concludeCut,cutAppend,rewriteAllAppend]
  cases rewriteAll h c (cut '\n' here).1 with
  | none => rfl
  | some all =>
    simp only [Option.bind_some]
    rw [concludeCut]
    cases rewriteAll h all.1 (cut '\n' ((cut '\n' here).2 ++ more)).1 with
    | none => rfl
    | some others => simp [joined,Utf8.encodeAppend,Function.comp_def]

theorem runConcludes (packets : List (List UInt8)) : ∀ s, '\n' ∉ s.buffered → (Utf8.decode s.decoder packets.flatten).1.bytesNeeded = 0 →
    runFrom h s packets = conclude h s.counter (s.buffered ++ (Utf8.decode s.decoder packets.flatten).2) := by
  induction packets with
  | nil =>
    intro s open_ complete
    have nothing : s.decoder.finish = [] := if_pos complete
    have text : s.buffered ++ (Utf8.decode s.decoder [].flatten).2 = s.buffered := List.append_nil _
    rw [text,concludeCut,cutFree _ open_,runFrom,flush,nothing,List.append_nil]
    by_cases none_ : s.buffered = []
    · rw [if_pos none_,none_]
      rfl
    · rw [if_neg none_]
      simp [rewriteAll,joined,Utf8.encode]
  | cons chunk rest ih =>
    intro s open_ complete
    rw [List.flatten_cons,Utf8.decodeAppend] at complete ⊢
    rw [runFrom,transform,← List.append_assoc,concludeBehind]
    cases rewriteAll h s.counter (cut '\n' (s.buffered ++ (Utf8.decode s.decoder chunk).2)).1 with
    | none => rfl
    | some all =>
      simp only [Option.map_some,Option.bind_some]
      rw [ih _ (cutOpen _) complete]

theorem numberConcludes {packets text} (unmarked : Utf8.withoutMark text = text)
    (cuts : packets.flatten = Utf8.encode text) : numberContentBlocks h packets = conclude h .start text := by
  obtain ⟨decoded,complete⟩ := Utf8.decodeEncode text
  rw [numberContentBlocks,runConcludes h packets .start (List.not_mem_nil) (cuts ▸ complete)]
  show conclude h .start ([] ++ (Utf8.decode .start packets.flatten).2) = _
  rw [cuts,decoded,unmarked,List.nil_append]

def eventOf (line : Line) : Option Json := if "data:".toList.isPrefixOf line then h.parse (payload line) else none

def kindOf (line : Line) : Option String :=
  match (eventOf h line).bind (Json.field "type") with
  | some (.str type) => if type ∈ BLOCK_EVENTS then some type else none
  | _ => none

def Sequential : Bool → List (Option String) → Prop
  | _,[] => True
  | open_,none::rest => Sequential open_ rest
  | open_,some type::rest =>
    if type = "content_block_start" then open_ = false ∧ Sequential true rest
    else open_ = true ∧ Sequential (type = "content_block_delta") rest

structure Numbers (line other : Line) (ordinal : Nat) : Prop where
  events : ∃ event numbered, eventOf h line = some event ∧ eventOf h other = some numbered ∧
    numbered.field "index" = some (.num ordinal) ∧ ∀ name, name ≠ "index" → numbered.field name = event.field name
  ended : carriageReturn other = carriageReturn line

inductive Numbered (h : Host) : Nat → List Line → List Line → Prop where
  | done {n} : Numbered h n [] []
  | other {n line lines out} (kind : kindOf h line = none) (later : Numbered h n lines out) :
    Numbered h n (line::lines) (line::out)
  | start {n line numbered lines out} (kind : kindOf h line = some "content_block_start")
    (numbers : Numbers h line numbered n) (later : Numbered h (n+1) lines out) : Numbered h n (line::lines) (numbered::out)
  | within {n type line numbered lines out} (kind : kindOf h line = some type)
    (apart : type ≠ "content_block_start") (numbers : Numbers h line numbered n) (later : Numbered h (n+1) lines out) :
    Numbered h (n+1) (line::lines) (numbered::out)

structure Host.Lawful : Prop where
  nullText : ∀ text, h.parse text = some .null → '"' ∉ text
  braced : ∀ json : Json, json.isObject = true → ∃ rest, h.stringify json = '\x7b'::rest
  unbroken : ∀ json, '\n' ∉ h.stringify json ∧ '\r' ∉ h.stringify json
  quotes : ∀ text event type ordinal, h.parse text = some event → event.field "type" = some (.str type) → type ∈ BLOCK_EVENTS →
    '"'::type.toList <:+: h.stringify (renumbered event type ordinal)
  readsBack : ∀ text event type ordinal, h.parse text = some event → event.field "type" = some (.str type) →
    ∃ back, h.parse (h.stringify (renumbered event type ordinal)) = some back ∧
      ∀ name, back.field name = (renumbered event type ordinal).field name

variable {h} {c : Counter} {line other : Line} {type : String} {ordinal : Nat} {event : Json}

theorem restFind (fields : List (String × Json)) {name} (notType : name ≠ "type") (notIndex : name ≠ "index") :
    (fields.filter (fun entry => entry.1 ≠ "type" ∧ entry.1 ≠ "index")).find? (·.1 = name) = fields.find? (·.1 = name) := by
  rw [List.find?_filter]
  refine congrArg (List.find? · fields) (funext fun entry => ?_)
  by_cases same : entry.1 = name
  · simp [same,notType,notIndex]
  · simp [same]

theorem restNone (fields : List (String × Json)) {name} (own : name = "type" ∨ name = "index") :
    (fields.filter (fun entry => entry.1 ≠ "type" ∧ entry.1 ≠ "index")).find? (·.1 = name) = none := by
  rw [List.find?_eq_none]
  intro entry inside same
  have apart := of_decide_eq_true (List.mem_filter.mp inside).2
  rcases own with rfl | rfl
  · exact apart.1 (of_decide_eq_true same)
  · exact apart.2 (of_decide_eq_true same)

theorem fieldRenumbered (typed : event.field "type" = some (.str type)) (name : String) :
    (renumbered event type ordinal).field name = if name = "index" then some (.num ordinal) else event.field name := by
  cases event with
  | obj fields =>
    have its : (fields.reverse.find? (·.1 = "type")).map Prod.snd = some (.str type) := typed
    simp only [renumbered,Json.field,restOf,List.reverse_cons,List.find?_append,← List.filter_reverse]
    by_cases index : name = "index"
    · rw [restNone _ (.inr index)]
      simp [index]
    · rw [if_neg index]
      by_cases kind : name = "type"
      · rw [restNone _ (.inl kind),kind,its]
        simp
      · rw [restFind _ kind index]
        cases fields.reverse.find? (·.1 = name) with
        | some entry => rfl
        | none => simp [Ne.symm index,Ne.symm kind]
  | _ => simp [Json.field] at typed

theorem kindEvent (kind : kindOf h line = some type) : ∃ event, eventOf h line = some event ∧ event.field "type" = some (.str type) ∧
    type ∈ BLOCK_EVENTS := by
  unfold kindOf at kind
  split at kind
  · rename_i its found
    obtain ⟨event,here,typed⟩ := Option.bind_eq_some_iff.mp found
    split at kind
    · rename_i inside
      cases kind
      exact ⟨event,here,typed,inside⟩
    · cases kind
  · cases kind

theorem eventPayload (said : eventOf h line = some event) : "data:".toList.isPrefixOf line = true ∧ h.parse (payload line) = some event := by
  unfold eventOf at said
  split at said
  · rename_i prefixed
    exact ⟨prefixed,said⟩
  · cases said

theorem Numbers.kind (numbers : Numbers h line other ordinal) : kindOf h other = kindOf h line := by
  obtain ⟨event,numbered,here,there,-,fields⟩ := numbers.events
  have type := fields "type" (by decide)
  simp only [kindOf,here,there,Option.bind_some,type]

theorem Numbers.again (numbers : Numbers h line other ordinal) : Numbers h other other ordinal := by
  obtain ⟨event,numbered,here,there,index,fields⟩ := numbers.events
  exact ⟨⟨numbered,numbered,there,there,index,fun _ _ => rfl⟩,rfl⟩

theorem blockLikeParts (like : blockLike line = true) : "data:".toList.isPrefixOf line = true ∧ "\"content_block_".toList <:+: line := by
  obtain ⟨prefixed,inside⟩ := (Bool.and_eq_true ..).mp like
  exact ⟨prefixed,of_decide_eq_true inside⟩

theorem quotePayload (like : blockLike line = true) : '"' ∈ payload line := by
  obtain ⟨prefixed,inside⟩ := blockLikeParts like
  have quote : '"' ∈ line := inside.subset (by decide)
  have shorter : withoutReturn line <+: line := by
    unfold withoutReturn
    split
    · exact List.dropLast_prefix line
    · exact List.prefix_refl line
  have kept : '"' ∈ withoutReturn line := by
    unfold withoutReturn
    split
    · rename_i last
      obtain ⟨front,rfl⟩ := List.getLast?_eq_some_iff.mp last
      rw [List.dropLast_concat]
      rcases List.mem_append.mp quote with there | there
      · exact there
      · cases List.mem_singleton.mp there
    · exact quote
  have behind : '"' ∈ (withoutReturn line).drop 5 := by
    rw [← List.take_append_drop 5 (withoutReturn line)] at kept
    rcases List.mem_append.mp kept with early | late
    · have ahead : (withoutReturn line).take 5 <+: "data:".toList :=
        List.prefix_of_prefix_length_le ((List.take_prefix 5 _).trans shorter) (List.isPrefixOf_iff_prefix.mp prefixed) (List.length_take_le 5 _)
      exact absurd (ahead.subset early) (by decide)
    · exact late
  rw [← List.takeWhile_append_dropWhile (p := isWhitespace) (l := (withoutReturn line).drop 5)] at behind
  rcases List.mem_append.mp behind with blank | rest
  · have white : isWhitespace '"' = true := List.all_eq_true.mp List.all_takeWhile _ blank
    cases white
  · exact rest

theorem rewriteOther (lawful : h.Lawful) (kind : kindOf h line = none) : rewrite h c line = some (c,line) := by
  unfold rewrite
  cases like : blockLike line with
  | false => rfl
  | true =>
    rw [kindOf,eventOf,if_pos (blockLikeParts like).1] at kind
    cases parsed : h.parse (payload line) with
    | none => rfl
    | some event =>
      rw [parsed,Option.bind_some] at kind
      cases event with
      | null => exact absurd (quotePayload like) (lawful.nullText _ parsed)
      | obj fields =>
        cases typed : (Json.obj fields).field "type" with
        | none => simp [typed]
        | some value =>
          cases value with
          | str type =>
            by_cases inside : type ∈ BLOCK_EVENTS
            · simp [typed,inside] at kind
            · simp [typed,inside]
          | _ => simp [typed]
      | _ => rfl

theorem returned {body tail : Line} (free : '\r' ∉ body) (ends : tail = [] ∨ tail = ['\r']) :
    withoutReturn (body ++ tail) = body ∧ carriageReturn (body ++ tail) = tail := by
  rcases ends with rfl | rfl
  · have last : body.getLast? ≠ some '\r' := fun last => free (List.mem_of_getLast? last)
    rw [List.append_nil,withoutReturn,carriageReturn,if_neg last,if_neg last]
    exact ⟨rfl,rfl⟩
  · have last : (body ++ ['\r']).getLast? = some '\r' := List.getLast?_concat
    rw [withoutReturn,carriageReturn,if_pos last,if_pos last,List.dropLast_concat]
    exact ⟨rfl,rfl⟩

theorem carriageEnds (line : Line) : carriageReturn line = [] ∨ carriageReturn line = ['\r'] := by
  unfold carriageReturn
  split
  · exact .inr rfl
  · exact .inl rfl

theorem hasIndexIff : hasIndex event ordinal = true ↔ event.field "index" = some (.num ordinal) := by
  unfold hasIndex
  split
  · rename_i value held
    simp [held]
  · rename_i others
    refine ⟨fun never => (Bool.false_ne_true never).elim,fun held => absurd held (others _)⟩

structure Rewritten (h : Host) (line other : Line) (ordinal : Nat) : Prop where
  numbers : Numbers h line other ordinal
  same : Numbers h line line ordinal → other = line
  head : other.head? = line.head?
  unbroken : '\n' ∉ line → '\n' ∉ other
  like : blockLike other = true

theorem lineHead (prefixed : "data:".toList.isPrefixOf line = true) : line.head? = some 'd' := by
  obtain ⟨rest,rfl⟩ := List.isPrefixOf_iff_prefix.mp prefixed
  rfl

theorem eventOnce (said : eventOf h line = some event) (numbers : Numbers h line line ordinal) : event.field "index" = some (.num ordinal) := by
  obtain ⟨its,numbered,here,there,index,-⟩ := numbers.events
  cases there.symm.trans said
  exact index

theorem writes (lawful : h.Lawful) (said : eventOf h line = some event) (typed : event.field "type" = some (.str type))
    (inside : type ∈ BLOCK_EVENTS) (indexed : event.field "index" ≠ some (.num ordinal)) :
    Rewritten h line ("data: ".toList ++ h.stringify (renumbered event type ordinal) ++ carriageReturn line) ordinal := by
  obtain ⟨prefixed,parsed⟩ := eventPayload said
  obtain ⟨back,reads,fields⟩ := lawful.readsBack _ _ _ ordinal parsed typed
  obtain ⟨rest,braced⟩ := lawful.braced (renumbered event type ordinal) rfl
  obtain ⟨noLine,noReturn⟩ := lawful.unbroken (renumbered event type ordinal)
  have quotes := lawful.quotes _ _ _ ordinal parsed typed inside
  generalize written : h.stringify (renumbered event type ordinal) = json at reads braced noLine noReturn quotes
  have free : '\r' ∉ "data: ".toList ++ json := by simp [noReturn]
  obtain ⟨body,ended⟩ := returned free (carriageEnds line)
  have starts : "data:".toList.isPrefixOf ("data: ".toList ++ json ++ carriageReturn line) = true := rfl
  have text : payload ("data: ".toList ++ json ++ carriageReturn line) = json := by
    rw [payload,body,braced]
    rfl
  have told : eventOf h ("data: ".toList ++ json ++ carriageReturn line) = some back := by rw [eventOf,if_pos starts,text,reads]
  refine ⟨⟨⟨event,back,said,told,?_,fun name other => ?_⟩,ended⟩,fun numbers => absurd (eventOnce said numbers) indexed,?_,fun _ => ?_,?_⟩
  · rw [fields,fieldRenumbered typed,if_pos rfl]
  · rw [fields,fieldRenumbered typed,if_neg other]
  · rw [lineHead starts,lineHead prefixed]
  · rcases carriageEnds line with none_ | some_
    · simp [none_,noLine]
    · simp [some_,noLine]
  · have opened : "\"content_block_".toList <:+: '"'::type.toList := by
      simp only [BLOCK_EVENTS,List.mem_cons,List.not_mem_nil,or_false] at inside
      rcases inside with rfl | rfl | rfl
      · exact ⟨[],"start".toList,rfl⟩
      · exact ⟨[],"delta".toList,rfl⟩
      · exact ⟨[],"stop".toList,rfl⟩
    have there := (opened.trans quotes).trans ((List.infix_append "data: ".toList json (carriageReturn line)))
    rw [blockLike,starts,decide_eq_true there]
    rfl

theorem rewriteEvent (lawful : h.Lawful) (kind : kindOf h line = some type) (like : blockLike line = true)
    (opened : (c.seen type).openBlock = some ordinal) :
    ∃ other, rewrite h c line = some (c.seen type,other) ∧ Rewritten h line other ordinal := by
  obtain ⟨event,said,typed,inside⟩ := kindEvent kind
  obtain ⟨prefixed,parsed⟩ := eventPayload said
  unfold rewrite
  rw [if_neg (by simp [like]),parsed]
  cases event with
  | obj fields =>
    simp only [typed,if_pos inside,opened]
    cases indexed : hasIndex (.obj fields) ordinal with
    | true =>
      have index := hasIndexIff.mp indexed
      exact ⟨line,rfl,⟨⟨_,_,said,said,index,fun _ _ => rfl⟩,rfl⟩,fun _ => rfl,rfl,id,like⟩
    | false =>
      exact ⟨_,rfl,writes lawful said typed inside (fun index => Bool.false_ne_true (indexed.symm.trans (hasIndexIff.mpr index)))⟩
  | _ => simp [Json.field] at typed

end Clankermux.BlockNumbering
