import Clankermux.BlockNumbering

/-! A stream whose blocks are numbered: however it is cut, each block event has the number of its block and the rest is as
it was, and once the blocks are numbered nothing changes any more. -/
namespace Clankermux.BlockNumbering

def Counter.behind : Nat → Counter
  | 0 => .start
  | n+1 => ⟨n+1,some n⟩

section
variable {h : Host} {line : Line} {lines out : List Line} {n : Nat}

theorem seenStart (n : Nat) : (Counter.behind n).seen "content_block_start" = .behind (n+1) := by
  cases n with
  | zero => rfl
  | succ n => rfl

theorem seenWithin {type} (apart : type ≠ "content_block_start") (c : Counter) : c.seen type = c := if_neg apart

structure Kept (h : Host) (n : Nat) (lines out : List Line) : Prop where
  numbered : Numbered h n lines out
  same : Numbered h n lines lines → out = lines
  heads : out.map List.head? = lines.map List.head?
  unbroken : (∀ line ∈ lines, '\n' ∉ line) → ∀ line ∈ out, '\n' ∉ line
  like : ∀ line ∈ out, kindOf h line ≠ none → blockLike line = true

theorem Kept.other (kept : Kept h n lines out) (kind : kindOf h line = none) : Kept h n (line::lines) (line::out) where
  numbered := .other kind kept.numbered
  same again := by
    cases again with
    | other _ later => rw [kept.same later]
    | start its => cases kind.symm.trans its
    | within its => cases kind.symm.trans its
  heads := by rw [List.map_cons,List.map_cons,kept.heads]
  unbroken free := List.forall_mem_cons.mpr ⟨free line (.head _),kept.unbroken (fun other inside => free other (.tail _ inside))⟩
  like := List.forall_mem_cons.mpr ⟨fun some_ => absurd kind some_,kept.like⟩

theorem Kept.start {other} (kept : Kept h (n+1) lines out) (kind : kindOf h line = some "content_block_start")
    (rewritten : Rewritten h line other n) : Kept h n (line::lines) (other::out) where
  numbered := .start kind rewritten.numbers kept.numbered
  same again := by
    cases again with
    | other never => cases kind.symm.trans never
    | start _ numbers later => rw [rewritten.same numbers,kept.same later]
    | within its apart => exact absurd (Option.some.inj (its.symm.trans kind)) apart
  heads := by rw [List.map_cons,List.map_cons,rewritten.head,kept.heads]
  unbroken free := List.forall_mem_cons.mpr ⟨rewritten.unbroken (free line (.head _)),
    kept.unbroken (fun other inside => free other (.tail _ inside))⟩
  like := List.forall_mem_cons.mpr ⟨fun _ => rewritten.like,kept.like⟩

theorem Kept.within {type other} (kept : Kept h (n+1) lines out) (kind : kindOf h line = some type)
    (apart : type ≠ "content_block_start") (rewritten : Rewritten h line other n) : Kept h (n+1) (line::lines) (other::out) where
  numbered := .within kind apart rewritten.numbers kept.numbered
  same again := by
    cases again with
    | other never => cases kind.symm.trans never
    | start its => exact absurd (Option.some.inj (kind.symm.trans its)) apart
    | within _ _ numbers later => rw [rewritten.same numbers,kept.same later]
  heads := by rw [List.map_cons,List.map_cons,rewritten.head,kept.heads]
  unbroken free := List.forall_mem_cons.mpr ⟨rewritten.unbroken (free line (.head _)),
    kept.unbroken (fun other inside => free other (.tail _ inside))⟩
  like := List.forall_mem_cons.mpr ⟨fun _ => rewritten.like,kept.like⟩

theorem rewriteAllKept (lawful : h.Lawful) (lines : List Line) : ∀ n open_, (open_ = true → n ≠ 0) → Sequential open_ (lines.map (kindOf h)) →
    (∀ line ∈ lines, kindOf h line ≠ none → blockLike line = true) →
    ∃ c out, rewriteAll h (.behind n) lines = some (c,out) ∧ Kept h n lines out := by
  induction lines with
  | nil => exact fun n _ _ _ _ => ⟨.behind n,[],rfl,⟨.done,fun _ => rfl,rfl,fun _ => List.forall_mem_nil _,List.forall_mem_nil _⟩⟩
  | cons line rest ih =>
    intro n open_ counted sequential plain
    rw [List.map_cons] at sequential
    have plainRest : ∀ other ∈ rest, kindOf h other ≠ none → blockLike other = true :=
      fun other inside => plain other (.tail _ inside)
    cases kind : kindOf h line with
    | none =>
      rw [kind,Sequential] at sequential
      obtain ⟨c,out,rewritten,kept⟩ := ih n open_ counted sequential plainRest
      exact ⟨c,line::out,by rw [rewriteAll,rewriteOther lawful kind,Option.bind_some,rewritten]; rfl,kept.other kind⟩
    | some type =>
      rw [kind,Sequential] at sequential
      have like := plain line (.head _) (by rw [kind]; exact Option.some_ne_none _)
      by_cases starts : type = "content_block_start"
      · rw [if_pos starts] at sequential
        subst starts
        obtain ⟨other,one,becomes⟩ := rewriteEvent (c := .behind n) lawful kind like (by rw [seenStart]; rfl)
        obtain ⟨c,out,rewritten,kept⟩ := ih (n+1) true (fun _ => Nat.succ_ne_zero n) sequential.2 plainRest
        exact ⟨c,other::out,by rw [rewriteAll,one,Option.bind_some,seenStart,rewritten]; rfl,kept.start kind becomes⟩
      · rw [if_neg starts] at sequential
        obtain ⟨before,rfl⟩ := Nat.exists_eq_succ_of_ne_zero (counted sequential.1)
        obtain ⟨other,one,becomes⟩ := rewriteEvent (c := .behind (before+1)) lawful kind like (by rw [seenWithin starts]; rfl)
        obtain ⟨c,out,rewritten,kept⟩ := ih (before+1) _ (fun _ => Nat.succ_ne_zero before) sequential.2 plainRest
        exact ⟨c,other::out,by rw [rewriteAll,one,Option.bind_some,seenWithin starts,rewritten]; rfl,kept.within kind starts becomes⟩

theorem Numbered.kinds (numbered : Numbered h n lines out) : out.map (kindOf h) = lines.map (kindOf h) := by
  induction numbered with
  | done => rfl
  | other kind _ ih => rw [List.map_cons,List.map_cons,ih]
  | start kind numbers _ ih => rw [List.map_cons,List.map_cons,numbers.kind,ih]
  | within kind apart numbers _ ih => rw [List.map_cons,List.map_cons,numbers.kind,ih]

theorem Numbered.again (numbered : Numbered h n lines out) : Numbered h n out out := by
  induction numbered with
  | done => exact .done
  | other kind _ ih => exact .other kind ih
  | start kind numbers _ ih => exact .start (numbers.kind.trans kind) numbers.again ih
  | within kind apart numbers _ ih => exact .within (numbers.kind.trans kind) apart numbers.again ih

theorem linesBack (text : List Char) : textOf (linesOf text) = text := List.intercalate_splitOn '\n'

theorem textLines (some_ : lines ≠ []) (free : ∀ line ∈ lines, '\n' ∉ line) : linesOf (textOf lines) = lines :=
  List.splitOn_intercalate '\n' free some_

theorem linesUnbroken (text : List Char) : ∀ line ∈ linesOf text, '\n' ∉ line := by
  induction text with
  | nil => exact List.forall_mem_singleton.mpr List.not_mem_nil
  | cons ch rest ih =>
    rw [linesOf] at ih ⊢
    rw [List.splitOn_cons_eq_if_modifyHead]
    by_cases same : ch = '\n'
    · rw [if_pos (beq_iff_eq.mpr same)]
      exact List.forall_mem_cons.mpr ⟨List.not_mem_nil,ih⟩
    · rw [if_neg (fun its => same (beq_iff_eq.mp its))]
      cases pieces : rest.splitOn '\n' with
      | nil => exact List.forall_mem_nil _
      | cons piece others =>
        rw [pieces] at ih
        obtain ⟨first,later⟩ := List.forall_mem_cons.mp ih
        refine List.forall_mem_cons.mpr ⟨fun inside => ?_,later⟩
        rcases List.mem_cons.mp inside with its | there
        · exact same its.symm
        · exact first there

theorem textHeadCons (line : Line) (rest : List Line) : (textOf (line::rest)).head? = line.head?.or (if rest = [] then none else some '\n') := by
  cases rest with
  | nil => simp [textOf]
  | cons next others => simp [textOf]

theorem textHead (heads : out.map List.head? = lines.map List.head?) : (textOf out).head? = (textOf lines).head? := by
  cases out with
  | nil =>
    rw [List.map_eq_nil_iff.mp heads.symm]
  | cons line rest =>
    cases lines with
    | nil => cases heads
    | cons other others =>
      obtain ⟨first,later⟩ := List.cons.inj heads
      have ends : rest = [] ↔ others = [] := by
        rw [← List.map_eq_nil_iff (f := List.head?),later,List.map_eq_nil_iff]
      simp only [textHeadCons,first,ends]

theorem unmarkedIff (text : List Char) : Utf8.withoutMark text = text ↔ text.head? ≠ some Utf8.mark := by
  cases text with
  | nil => simp [Utf8.withoutMark]
  | cons ch rest =>
    by_cases marked : ch = Utf8.mark
    · simp [Utf8.withoutMark]
    · simp [Utf8.withoutMark]

theorem numberedOnce (lawful : h.Lawful) {text} (unmarked : Utf8.withoutMark text = text)
    (sequential : Sequential false ((linesOf text).map (kindOf h)))
    (plain : ∀ line ∈ linesOf text, kindOf h line ≠ none → blockLike line = true) : ∃ out, Kept h 0 (linesOf text) out ∧
      ∀ packets : List (List UInt8), packets.flatten = Utf8.encode text → numberContentBlocks h packets = some (Utf8.encode (textOf out)) := by
  obtain ⟨c,out,rewritten,kept⟩ := rewriteAllKept lawful (linesOf text) 0 false (by decide) sequential plain
  refine ⟨out,kept,fun packets cuts => ?_⟩
  rw [numberConcludes h unmarked cuts,conclude]
  show (rewriteAll h (.behind 0) (linesOf text)).map _ = _
  rw [rewritten]
  rfl

end

/-- However a stream of one block after the other is cut, the block events are numbered and all else is as it was; what is
numbered already comes out as it is, and so does what has come out. -/
theorem blocksNumbered (h : Host) (lawful : h.Lawful) (text : List Char) (unmarked : Utf8.withoutMark text = text)
    (sequential : Sequential false ((linesOf text).map (kindOf h)))
    (plain : ∀ line ∈ linesOf text, kindOf h line ≠ none → blockLike line = true) :
    ∃ out, Numbered h 0 (linesOf text) (linesOf out) ∧ (Numbered h 0 (linesOf text) (linesOf text) → out = text) ∧
      (∀ packets : List (List UInt8), packets.flatten = Utf8.encode text → numberContentBlocks h packets = some (Utf8.encode out)) ∧
      ∀ packets : List (List UInt8), packets.flatten = Utf8.encode out → numberContentBlocks h packets = some (Utf8.encode out) := by
  obtain ⟨out,kept,once⟩ := numberedOnce lawful unmarked sequential plain
  have some_ : out ≠ [] := fun none_ => by
    have heads := kept.heads
    rw [none_] at heads
    exact List.splitOn_ne_nil '\n' text (List.map_eq_nil_iff.mp heads.symm)
  have lines : linesOf (textOf out) = out := textLines some_ (kept.unbroken (linesUnbroken text))
  have unmarkedOut : Utf8.withoutMark (textOf out) = textOf out := by
    rw [unmarkedIff,textHead kept.heads,linesBack]
    exact (unmarkedIff text).mp unmarked
  have sequentialOut : Sequential false ((linesOf (textOf out)).map (kindOf h)) := by rwa [lines,kept.numbered.kinds]
  obtain ⟨again,keptAgain,twice⟩ := numberedOnce lawful unmarkedOut sequentialOut (lines.symm ▸ kept.like)
  have fixed : again = out := by
    rw [lines] at keptAgain
    exact keptAgain.same kept.numbered.again
  refine ⟨textOf out,lines.symm ▸ kept.numbered,fun numbered => ?_,once,?_⟩
  · rw [kept.same numbered,linesBack]
  · rw [fixed] at twice
    exact twice

def bare : List Char := "\x7b\"type\":\"content_block_start\"\x7d".toList

def ahead : List Char := "\x7b\"type\":\"content_block_start\",\"index\":".toList

def written (ordinal : Nat) : List Char := ahead ++ (Nat.toDigits 10 ordinal ++ ['\x7d'])

def bareEvent : Json := .obj [("type",.str "content_block_start")]

def startWorld : Host where
  parse text :=
    let ordinal := Nat.ofDigitChars 10 (text.drop ahead.length).dropLast 0
    if text = bare then some bareEvent
    else if text = written ordinal then some (renumbered bareEvent "content_block_start" ordinal) else none
  stringify json :=
    match json.field "index" with
    | some (.num value) => written value.num.toNat
    | _ => bare

def startLine : Line := "data:".toList ++ bare

theorem parseWritten (ordinal : Nat) : startWorld.parse (written ordinal) = some (renumbered bareEvent "content_block_start" ordinal) := by
  have apart : written ordinal ≠ bare := fun same => by
    have longer : ahead.length + ((Nat.toDigits 10 ordinal).length+1) = bare.length := by
      rw [← same,written,List.length_append,List.length_append,List.length_singleton]
    have more : bare.length < ahead.length := by decide
    omega
  have read : Nat.ofDigitChars 10 ((written ordinal).drop ahead.length).dropLast 0 = ordinal := by
    rw [written,List.drop_left,List.dropLast_concat,Nat.ofDigitChars_ten_toDigits]
  simp only [startWorld,if_neg apart,read,if_true]

theorem startParsed {text event type} (parsed : startWorld.parse text = some event)
    (typed : event.field "type" = some (.str type)) : type = "content_block_start" ∧ restOf event = [] := by
  simp only [startWorld] at parsed
  split at parsed
  · cases parsed
    cases typed
    exact ⟨rfl,rfl⟩
  · split at parsed
    · cases parsed
      cases typed
      exact ⟨rfl,rfl⟩
    · cases parsed

theorem digitsPlain (ordinal : Nat) {ch} (inside : ch ∈ written ordinal) : ch ≠ '\n' ∧ ch ≠ '\r' := by
  have all : (ahead ++ ['\x7d']).all (fun ch => ch != '\n' && ch != '\r') = true := by decide +kernel
  have plain : ∀ ch ∈ ahead ++ ['\x7d'], ch ≠ '\n' ∧ ch ≠ '\r' := fun ch inside => by
    simpa using List.all_eq_true.mp all ch inside
  rcases List.mem_append.mp inside with early | late
  · exact plain ch (List.mem_append_left _ early)
  · rcases List.mem_append.mp late with digit | last
    · have its := Nat.isDigit_of_mem_toDigits (by decide) (by decide) digit
      exact ⟨fun same => by subst same; exact absurd its (by decide),fun same => by subst same; exact absurd its (by decide)⟩
    · exact plain ch (List.mem_append_right _ last)

theorem startLawful : startWorld.Lawful where
  nullText text null_ := by
    simp only [startWorld] at null_
    split at null_
    · cases null_
    · split at null_ <;> cases null_
  braced json _ := by
    simp only [startWorld]
    split
    · exact ⟨_,rfl⟩
    · exact ⟨_,rfl⟩
  unbroken json := by
    simp only [startWorld]
    split
    · exact ⟨fun inside => (digitsPlain _ inside).1 rfl,fun inside => (digitsPlain _ inside).2 rfl⟩
    · decide
  quotes text event type ordinal parsed typed _ := by
    obtain ⟨rfl,alone⟩ := startParsed parsed typed
    rw [renumbered,alone]
    exact ⟨"\x7b\"type\":".toList,_,rfl⟩
  readsBack text event type ordinal parsed typed := by
    obtain ⟨rfl,alone⟩ := startParsed parsed typed
    refine ⟨_,?_,fun _ => rfl⟩
    rw [renumbered,alone]
    exact parseWritten ordinal

theorem startNumbered : ∃ out, Numbered startWorld 0 [startLine] (linesOf out) ∧
    ∀ packets : List (List UInt8), packets.flatten = Utf8.encode startLine → numberContentBlocks startWorld packets = some (Utf8.encode out) := by
  have kinds : (linesOf startLine).map (kindOf startWorld) = [some "content_block_start"] := by decide +kernel
  have sequential : Sequential false ((linesOf startLine).map (kindOf startWorld)) := by rw [kinds]; exact ⟨rfl,trivial⟩
  obtain ⟨out,numbered,-,once,-⟩ := blocksNumbered startWorld startLawful startLine rfl sequential (by decide +kernel)
  exact ⟨out,numbered,once⟩

def escapedLine : Line := "data:\x7b\"type\":\"content\\u005fblock_start\"\x7d".toList

def plainWorld : Host := ⟨JsonText.parse,fun _ => []⟩

def stopLine : Line := "data:\x7b\"type\":\"content_block_stop\"\x7d".toList

/-- An escape hides what a line says, and carriage returns alone end none. -/
theorem escapedMissed : ((linesOf escapedLine).map (kindOf plainWorld) = [some "content_block_start"] ∧
      numberContentBlocks plainWorld [Utf8.encode escapedLine] = some (Utf8.encode escapedLine) ∧
      ¬ Numbered plainWorld 0 (linesOf escapedLine) (linesOf escapedLine)) ∧
    ([startLine,stopLine].map (kindOf plainWorld) = [some "content_block_start",some "content_block_stop"] ∧
      numberContentBlocks plainWorld [Utf8.encode (startLine ++ '\r'::stopLine)] = some (Utf8.encode (startLine ++ '\r'::stopLine)) ∧
      ¬ Numbered plainWorld 0 [startLine,stopLine] [startLine,stopLine]) := by
  have lines : linesOf escapedLine = [escapedLine] := by decide +kernel
  have kinds : kindOf plainWorld escapedLine = some "content_block_start" ∧ kindOf plainWorld startLine = some "content_block_start" := by decide +kernel
  have indices : ((eventOf plainWorld escapedLine).bind (Json.field "index")).isNone = true ∧
      ((eventOf plainWorld startLine).bind (Json.field "index")).isNone = true := by decide +kernel
  have unnumbered : ∀ {line : Line} {rest : List Line}, kindOf plainWorld line = some "content_block_start" →
      ((eventOf plainWorld line).bind (Json.field "index")).isNone = true → ¬ Numbered plainWorld 0 (line::rest) (line::rest) := by
    intro line rest kind index numbered
    cases numbered with
    | other never => cases kind.symm.trans never
    | start _ numbers =>
      obtain ⟨event,numbered,here,there,said,-⟩ := numbers.events
      rw [there,Option.bind_some,said] at index
      cases index
  rw [lines]
  exact ⟨⟨by rw [List.map_singleton,kinds.1],by decide +kernel,unnumbered kinds.1 indices.1⟩,
    by decide +kernel,by decide +kernel,unnumbered kinds.2 indices.2⟩

end Clankermux.BlockNumbering
