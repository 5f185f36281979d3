import Clankermux.ParentLinks
import Clankermux.ResumePoint

/-! The check of a resume point against the transcript it is made on: the entries as the links
between them have it, the whole chain, and the calls that nothing answers. -/
namespace Clankermux.ResumePoint
open InsertionMap ParentLinks

variable (h : Host) {entries : List Json} {scan : Scan} {resumeAt : String} {awaited : List String}

def held (entries : List Json) (uuid : String) : Option Json := entries.reverse.find? (fun entry => uuidOf entry = some uuid)

def parentOf (entry : Json) : Option String := truthy (parentUuid entry)

def links (entries : List Json) (uuid : String) : Option (Option String) := (held entries uuid).map parentOf

def callsOf (entry : Json) : List String := (callBlocks entry).filterMap (fun block => fieldText h block "id")

def callsAt (entries : List Json) (uuid : String) : List String := ((held entries uuid).map (callsOf h)).getD []

def Holds (entry : Json) (id : String) : Prop := ∃ block ∈ resultBlocks entry, fieldText h block "tool_use_id" = some id

def Answered (entries : List Json) (id holder : String) : Prop := ∃ entry ∈ entries, ∃ uuid, uuidOf entry = some uuid ∧ Holds h entry id ∧
  (Json.isStr (entry.field "sourceToolAssistantUUID") holder ∨ Descends (links entries) uuid holder)

open Classical in
noncomputable def open_ (entries : List Json) (awaited way : List String) : List String :=
  way.reverse.flatMap (fun uuid => (callsAt h entries uuid).filter (fun id => id ∈ awaited ∨ ¬ Answered h entries id uuid))

def Throws (line : List UInt8) : Prop := ∃ entry, h.parseJson (decoded line) = some entry ∧ (entry = .null ∨ ∃ uuid, uuidOf entry = some uuid ∧
  ((∃ block ∈ resultBlocks entry, fieldText h block "tool_use_id" = none) ∨ ∃ block ∈ callBlocks entry, fieldText h block "id" = none))

structure Scanned (resumeAt : String) (entries : List Json) (scan : Scan) : Prop where
  byUuid : ∀ uuid, get scan.byUuid uuid = (held entries uuid).map (fun entry => ⟨parentUuid entry,callsOf h entry⟩)
  size : (keys scan.byUuid).length ≤ entries.length
  results : ∀ id result, result ∈ (get scan.results id).getD [] ↔ ∃ entry ∈ entries, uuidOf entry = some result.uuid ∧
    entry.field "sourceToolAssistantUUID" = result.source ∧ Holds h entry id
  point : scan.point = held entries resumeAt

theorem heldSnoc (entries : List Json) (entry : Json) (uuid : String) :
    held (entries ++ [entry]) uuid = if uuidOf entry = some uuid then some entry else held entries uuid := by
  split <;> simp_all [held]

theorem resultsAdded (uuid : String) (source : Option Json) (blocks : List Json) : ∀ (results : InsertionMap String (List Result)),
    (∀ block ∈ blocks, fieldText h block "tool_use_id" ≠ none) →
    ∃ after, blocks.foldlM (addResult h uuid source) results = .ok after ∧ ∀ id result, result ∈ (get after id).getD [] ↔
      result ∈ (get results id).getD [] ∨ result = ⟨uuid,source⟩ ∧ ∃ block ∈ blocks, fieldText h block "tool_use_id" = some id := by
  induction blocks with
  | nil => exact fun _ _ => ⟨_,rfl,by simp⟩
  | cons block rest ih =>
    intro results texts
    obtain ⟨text,named⟩ := Option.ne_none_iff_exists'.mp (texts block (.head _))
    obtain ⟨after,added,members⟩ := ih (InsertionMap.set results text ((get results text).getD [] ++ [⟨uuid,source⟩]))
      (fun other inside => texts other (.tail _ inside))
    refine ⟨after,?_,fun id result => ?_⟩
    · rw [List.foldlM_cons,addResult,named]
      exact added
    · rw [members,getSet]
      by_cases same : id = text
      · subst same
        simp only [if_true,Option.getD_some,List.mem_append,List.mem_cons,exists_eq_or_imp]
        tauto
      · simp only [if_neg same,List.mem_cons,exists_eq_or_imp,named,Option.some.injEq,Ne.symm same,false_or]

theorem resultsThrow {uuid source} (blocks : List Json) : ∀ {results},
    (∃ block ∈ blocks, fieldText h block "tool_use_id" = none) → blocks.foldlM (addResult h uuid source) results = .error .threw := by
  induction blocks with
  | nil => exact fun some_ => absurd some_ (by simp)
  | cons block rest ih =>
    intro results some_
    rw [List.foldlM_cons,addResult]
    cases named : fieldText h block "tool_use_id" with
    | none => rfl
    | some id =>
      obtain ⟨other,inside,none_⟩ := some_
      rcases List.mem_cons.mp inside with rfl | inside
      · exact absurd (named.symm.trans none_) (by simp)
      · exact ih ⟨other,inside,none_⟩

theorem callsRead (blocks : List Json) (texts : ∀ block ∈ blocks, fieldText h block "id" ≠ none) :
    blocks.mapM (fun block => match fieldText h block "id" with
      | none => Except.error Halt.threw
      | some id => .ok id) = .ok (blocks.filterMap (fun block => fieldText h block "id")) := by
  induction blocks with
  | nil => rfl
  | cons block rest ih =>
    obtain ⟨text,named⟩ := Option.ne_none_iff_exists'.mp (texts block (.head _))
    rw [List.mapM_cons,ih (fun other inside => texts other (.tail _ inside)),List.filterMap_cons,named]
    rfl

theorem callsThrow (blocks : List Json) (some_ : ∃ block ∈ blocks, fieldText h block "id" = none) :
    blocks.mapM (fun block => match fieldText h block "id" with
      | none => Except.error Halt.threw
      | some id => .ok id) = .error .threw := by
  induction blocks with
  | nil => exact absurd some_ (by simp)
  | cons block rest ih =>
    rw [List.mapM_cons]
    cases named : fieldText h block "id" with
    | none => rfl
    | some id =>
      obtain ⟨other,inside,none_⟩ := some_
      rcases List.mem_cons.mp inside with rfl | inside
      · exact absurd (named.symm.trans none_) (by simp)
      · rw [ih ⟨other,inside,none_⟩]
        rfl

variable {h}

theorem Scanned.entry (scanned : Scanned h resumeAt entries scan) {entry}
    (texts : ∀ uuid, uuidOf entry = some uuid → (∀ block ∈ resultBlocks entry, fieldText h block "tool_use_id" ≠ none) ∧
      ∀ block ∈ callBlocks entry, fieldText h block "id" ≠ none) :
    ∃ after, scanEntry h resumeAt scan entry = .ok after ∧ Scanned h resumeAt (entries ++ [entry]) after := by
  cases named : uuidOf entry with
  | none =>
    refine ⟨scan,by rw [scanEntry,named],fun uuid => ?_,?_,fun id result => ?_,?_⟩
    · rw [heldSnoc,named,if_neg (by simp)]
      exact scanned.byUuid uuid
    · exact scanned.size.trans (by simp)
    · simp [scanned.results,named]
    · rw [heldSnoc,named,if_neg (by simp)]
      exact scanned.point
  | some uuid =>
    obtain ⟨resultTexts,callTexts⟩ := texts uuid named
    obtain ⟨results,added,members⟩ := resultsAdded h uuid (entry.field "sourceToolAssistantUUID") _ scan.results resultTexts
    have calls : callIds h entry = .ok (callsOf h entry) := callsRead h _ callTexts
    refine ⟨_,by rw [scanEntry,named]; simp only [added,calls]; rfl,fun other => ?_,?_,fun id result => ?_,?_⟩
    · rw [heldSnoc,named,getSet,scanned.byUuid]
      by_cases same : uuid = other
      · rw [if_pos same.symm,if_pos (congrArg some same)]
        rfl
      · rw [if_neg (Ne.symm same),if_neg (by simpa using same)]
    · rw [keysSet]
      have size := scanned.size
      split <;> simp <;> omega
    · rw [members,scanned.results]
      simp only [List.mem_append,List.mem_singleton,or_and_right,exists_or,exists_eq_left,named,Option.some.injEq]
      refine or_congr Iff.rfl ?_
      obtain ⟨uuid_,source⟩ := result
      simp only [Result.mk.injEq,and_assoc]
      refine and_congr eq_comm (and_congr eq_comm Iff.rfl)
    · rw [heldSnoc,named,scanned.point]
      simp only [Option.some.injEq]

theorem entryThrows {entry uuid} (named : uuidOf entry = some uuid)
    (untold : (∃ block ∈ resultBlocks entry, fieldText h block "tool_use_id" = none) ∨ ∃ block ∈ callBlocks entry, fieldText h block "id" = none) :
    scanEntry h resumeAt scan entry = .error .threw := by
  rw [scanEntry,named]
  by_cases results : ∃ block ∈ resultBlocks entry, fieldText h block "tool_use_id" = none
  · simp only [resultsThrow h _ results]
    rfl
  · obtain ⟨after,added,-⟩ := resultsAdded h uuid (entry.field "sourceToolAssistantUUID") (resultBlocks entry) scan.results
      (fun block inside none_ => results ⟨block,inside,none_⟩)
    have calls : callIds h entry = .error .threw := callsThrow h _ (untold.resolve_left results)
    simp only [added,calls]
    rfl

def Told (h : Host) (rest : List (List UInt8)) : Prop :=
  ∀ earlier line later, rest = earlier ++ line::later → (∀ other ∈ earlier, (h.parseJson (decoded other)).isSome) → ¬ Throws h line
variable {way : List String} {fuel : Nat} {line : List UInt8}

theorem toldCons {rest} (first : ¬ Throws h line) (told : Told h rest) : Told h (line::rest) := by
  intro earlier other later same parsed
  cases earlier with
  | nil => exact (List.cons.inj same).1 ▸ first
  | cons head earlier =>
    obtain ⟨-,rfl⟩ := List.cons.inj same
    exact told earlier other later rfl (fun one inside => parsed one (.tail _ inside))

theorem lineThrows (throws : Throws h line) : scanLine h resumeAt scan line = .error .threw := by
  obtain ⟨entry,parsed,rfl | ⟨uuid,named,untold⟩⟩ := throws
  · rw [scanLine,parsed]
  · rw [scanLine,parsed]
    cases entry with
    | null => exact absurd named (by simp [uuidOf,Json.field])
    | _ => exact entryThrows named untold

theorem lineRead (scanned : Scanned h resumeAt entries scan) {entry} (parsed : h.parseJson (decoded line) = some entry)
    (told : ¬ Throws h line) : ∃ after, scanLine h resumeAt scan line = .ok after ∧ Scanned h resumeAt (entries ++ [entry]) after := by
  have texts : ∀ uuid, uuidOf entry = some uuid → (∀ block ∈ resultBlocks entry, fieldText h block "tool_use_id" ≠ none) ∧
      ∀ block ∈ callBlocks entry, fieldText h block "id" ≠ none := by
    refine fun uuid named => ⟨fun block inside none_ => told ⟨entry,parsed,.inr ⟨uuid,named,.inl ⟨block,inside,none_⟩⟩⟩,
      fun block inside none_ => told ⟨entry,parsed,.inr ⟨uuid,named,.inr ⟨block,inside,none_⟩⟩⟩⟩
  obtain ⟨after,read,grown⟩ := scanned.entry texts
  refine ⟨after,?_,grown⟩
  rw [scanLine,parsed]
  cases entry with
  | null => exact absurd ⟨_,parsed,.inl rfl⟩ told
  | _ => exact read

inductive Reads (h : Host) (resumeAt : String) (entries : List Json) (rest : List (List UInt8)) : Except Halt Scan → Prop where
  | read {more scan} (parsed : rest.mapM (fun line => h.parseJson (decoded line)) = some more)
    (told : Told h rest) (scanned : Scanned h resumeAt (entries ++ more) scan) : Reads h resumeAt entries rest (.ok scan)
  | unparsed (parsed : rest.mapM (fun line => h.parseJson (decoded line)) = none) (told : Told h rest) : Reads h resumeAt entries rest (.error .null)
  | threw (untold : ¬ Told h rest) : Reads h resumeAt entries rest (.error .threw)

theorem Scanned.reads (rest : List (List UInt8)) : ∀ {entries scan}, Scanned h resumeAt entries scan →
    Reads h resumeAt entries rest (rest.foldlM (scanLine h resumeAt) scan) := by
  induction rest with
  | nil =>
    intro entries scan scanned
    exact @Reads.read h resumeAt entries [] [] scan rfl (fun _ _ _ same => absurd same (by simp)) (by simpa using scanned)
  | cons line rest ih =>
    intro entries scan scanned
    rw [List.foldlM_cons]
    by_cases throws : Throws h line
    · rw [lineThrows throws]
      exact .threw (fun told => told [] line rest rfl (by simp) throws)
    · cases parsed : h.parseJson (decoded line) with
      | none =>
        rw [scanLine,parsed]
        refine .unparsed (by rw [List.mapM_cons,parsed]; rfl) (fun earlier other later same read => ?_)
        cases earlier with
        | nil => exact (List.cons.inj same).1 ▸ throws
        | cons first earlier =>
          have first_ := read first (.head _)
          rw [← (List.cons.inj same).1,parsed] at first_
          exact absurd first_ (by simp)
      | some entry =>
        obtain ⟨after,read,grown⟩ := lineRead scanned parsed throws
        rw [read]
        have later := ih grown
        generalize ends : List.foldlM (scanLine h resumeAt) after rest = outcome at later
        show Reads h resumeAt entries (line::rest) (List.foldlM (scanLine h resumeAt) after rest)
        rw [ends]
        cases later with
        | read parsed_ told scanned_ =>
          refine .read (by rw [List.mapM_cons,parsed,parsed_]; rfl) (toldCons throws told) ?_
          simpa using scanned_
        | unparsed parsed_ told => exact .unparsed (by rw [List.mapM_cons,parsed,parsed_]; rfl) (toldCons throws told)
        | threw untold =>
          refine .threw (fun told => untold (fun earlier other later same read => ?_))
          refine told (line::earlier) other later (by rw [same]; rfl) (fun one inside => ?_)
          rcases List.mem_cons.mp inside with rfl | inside
          · simp [parsed]
          · exact read one inside

def Stop.isDangling : ParentLinks.Stop String → Bool
  | .dangling _ => true
  | _ => false

section
variable (scanned : Scanned h resumeAt entries scan)
include scanned

theorem Scanned.linked (uuid : String) :
    (get scan.byUuid uuid).bind Link.parent = (held entries uuid).bind parentUuid := by
  rw [scanned.byUuid]
  cases held entries uuid <;> rfl

theorem Scanned.chain (fuel : Nat) : ∀ (seen : List String) (at_ : Option String),
    chainFrom scan.byUuid fuel seen at_ = (climb (links entries) fuel seen (truthy at_)).map (fun climbed =>
      if Stop.isDangling climbed.2 then none else some (climbed.1.map (fun uuid => (uuid,callsAt h entries uuid)))) := by
  induction fuel with
  | zero => exact fun _ _ => rfl
  | succ fuel ih =>
    intro seen at_
    rw [chainFrom]
    cases truthy at_ with
    | none => rfl
    | some uuid =>
      by_cases old : uuid ∈ seen
      · simp [climb,old,Stop.isDangling]
      · cases found : held entries uuid with
        | none => simp [climb,old,links,scanned.byUuid,found,Stop.isDangling]
        | some entry =>
          simp only [climb,if_neg old,links,scanned.byUuid,found,Option.map_some,ih,Option.map_map]
          refine congrArg (fun f => Option.map f (climb (links entries) fuel (uuid::seen) (parentOf entry))) (funext (fun climbed => ?_))
          by_cases dangles : Stop.isDangling climbed.2 = true
          · simp [dangles]
          · simp [dangles,callsAt,found]

theorem Scanned.climbs (ancestor : String) (fuel : Nat) :
    ∀ {walked} (up : Option String) {way : List String} {stop : ParentLinks.Stop String}, ancestor ∉ walked →
      climb (links entries) fuel walked (truthy up) = some (way,stop) →
      ∃ met, climbsTo scan.byUuid ancestor (fuel+1) walked up = some met ∧ (met = true ↔ ancestor ∈ way ∨ stop = .dangling ancestor) := by
  induction fuel with
  | zero => exact fun _ _ _ _ done => by simp [climb] at done
  | succ fuel ih =>
    intro walked up way stop new done
    rw [climbsTo]
    cases at_ : truthy up with
    | none =>
      rw [at_] at done
      cases done
      exact ⟨false,rfl,by simp⟩
    | some uuid =>
      simp only [at_,climb] at done ⊢
      by_cases old : uuid ∈ walked
      · rw [if_pos old] at done ⊢
        cases done
        exact ⟨false,rfl,by simp⟩
      · rw [if_neg old] at done ⊢
        rw [scanned.linked]
        cases found : held entries uuid with
        | none =>
          simp only [links,found] at done
          cases done
          by_cases same : uuid = ancestor
          · exact ⟨true,if_pos same,by simp [same]⟩
          · exact ⟨false,by rw [if_neg same,climbsTo]; rfl,by simp [same]⟩
        | some entry =>
          simp only [links,found] at done
          obtain ⟨⟨rest,stop_⟩,went,ends⟩ := Option.map_eq_some_iff.mp done
          obtain ⟨rfl,rfl⟩ := Prod.mk.inj ends
          by_cases same : uuid = ancestor
          · exact ⟨true,if_pos same,by simp [same]⟩
          · obtain ⟨met,walks,meets⟩ := ih _ (by simpa [Ne.symm same] using new) went
            refine ⟨met,by rw [if_neg same]; exact walks,meets.trans ?_⟩
            simp [Ne.symm same]

theorem Scanned.enough (more : entries.length < fuel) (start : Option String) :
    ∃ climbed, climb (links entries) fuel [] start = some climbed := by
  refine climbEnds (keys scan.byUuid) (fun uuid there => ?_) fuel start ?_
  · obtain ⟨parent,found⟩ := Option.isSome_iff_exists.mp there
    obtain ⟨entry,held_,-⟩ := Option.map_eq_some_iff.mp found
    exact memKeysOfGet ((scanned.byUuid uuid).trans (by rw [held_]; rfl))
  · exact Nat.lt_of_le_of_lt ((List.length_filter_le _ _).trans scanned.size) more

theorem Scanned.descends (more : entries.length + 1 < fuel) (uuid holder : String)
    (there : (held entries uuid).isSome) :
    ∃ met, ResumePoint.descends scan.byUuid fuel uuid holder = some met ∧ (met = true ↔ Descends (links entries) uuid holder) := by
  obtain ⟨entry,found⟩ := Option.isSome_iff_exists.mp there
  obtain ⟨fuel,rfl⟩ := Nat.exists_eq_add_one.mpr (Nat.zero_lt_of_lt more)
  obtain ⟨⟨way,stop⟩,done⟩ := scanned.enough (Nat.lt_of_succ_lt_succ more) (parentOf entry)
  obtain ⟨last,up,why,-,-⟩ := climbed done
  obtain ⟨met,walks,meets⟩ := scanned.climbs holder fuel (parentUuid entry) (by simp) done
  refine ⟨met,by rw [ResumePoint.descends,scanned.linked,found]; exact walks,meets.trans ⟨fun there => ?_,?_⟩⟩
  · obtain ⟨other,leads⟩ := passed up why there
    exact ⟨uuid::other,by simp,.up (by rw [links,found]; rfl) leads⟩
  · rintro ⟨other,nonempty,leads⟩
    cases leads with
    | here => exact absurd rfl nonempty
    | up named rest =>
      rw [links,found] at named
      cases Option.some.inj named
      exact reached up why rest

end

theorem anySound (test : Result → Option Bool) (Meets : Result → Prop) (results : List Result) :
    (∀ result ∈ results, ∃ met, test result = some met ∧ (met = true ↔ Meets result)) →
      ∃ met, anyM test results = some met ∧ (met = true ↔ ∃ result ∈ results, Meets result) := by
  induction results with
  | nil => exact fun _ => ⟨false,rfl,by simp⟩
  | cons first rest ih =>
    intro sound
    obtain ⟨met,tested,meets⟩ := sound first (.head _)
    obtain ⟨other,rested,others⟩ := ih (fun result inside => sound result (.tail _ inside))
    rw [anyM,tested]
    cases met with
    | true => exact ⟨true,rfl,by simp [meets.mp rfl]⟩
    | false =>
      have not_ : ¬ Meets first := fun meet => absurd (meets.mpr meet) (by simp)
      exact ⟨other,rested,by simp [others,not_]⟩

theorem heldSome {entry uuid} (inside : entry ∈ entries) (named : uuidOf entry = some uuid) : (held entries uuid).isSome :=
  List.find?_isSome.mpr ⟨entry,List.mem_reverse.mpr inside,decide_eq_true named⟩

theorem Scanned.answered (scanned : Scanned h resumeAt entries scan) (more : entries.length + 1 < fuel) (id holder : String) :
    ∃ met, answeredHere scan fuel id holder = some met ∧ (met = true ↔ Answered h entries id holder) := by
  obtain ⟨met,tested,meets⟩ := anySound
    (fun result => if Json.isStr result.source holder then some true else ResumePoint.descends scan.byUuid fuel result.uuid holder)
    (fun result => Json.isStr result.source holder = true ∨ Descends (links entries) result.uuid holder)
    ((get scan.results id).getD []) (fun result inside => by
      obtain ⟨entry,listed,named,-⟩ := (scanned.results id result).mp inside
      by_cases source : Json.isStr result.source holder = true
      · exact ⟨true,if_pos source,by simp [source]⟩
      · obtain ⟨met,walks,meets⟩ := scanned.descends more result.uuid holder (heldSome listed named)
        exact ⟨met,by rw [if_neg source]; exact walks,by simpa [source] using meets⟩)
  refine ⟨met,tested,meets.trans ⟨?_,?_⟩⟩
  · rintro ⟨result,inside,below⟩
    obtain ⟨entry,listed,named,source,holds⟩ := (scanned.results id result).mp inside
    exact ⟨entry,listed,_,named,holds,source ▸ below⟩
  · rintro ⟨entry,listed,uuid,named,holds,below⟩
    exact ⟨⟨uuid,_⟩,(scanned.results id _).mpr ⟨entry,listed,named,rfl,holds⟩,below⟩

open Classical in
theorem Scanned.openAt (scanned : Scanned h resumeAt entries scan) (more : entries.length + 1 < fuel) (holder : String) (calls : List String) :
    unansweredAt scan fuel awaited holder calls = some (calls.filter (fun id => id ∈ awaited ∨ ¬ Answered h entries id holder)) := by
  induction calls with
  | nil => rfl
  | cons id rest ih =>
    rw [unansweredAt,ih]
    by_cases awaits : id ∈ awaited
    · simp [awaits]
    · obtain ⟨met,tested,meets⟩ := scanned.answered more id holder
      rw [if_neg awaits,tested]
      cases met with
      | true => simp [awaits,meets.mp rfl]
      | false =>
        have not_ : ¬ Answered h entries id holder := fun answered => absurd (meets.mpr answered) (by simp)
        simp [not_]

theorem Scanned.openOn (scanned : Scanned h resumeAt entries scan) (more : entries.length + 1 < fuel) (way : List String) :
    unansweredOn scan fuel awaited ((way.map (fun uuid => (uuid,callsAt h entries uuid))).reverse) = some (open_ h entries awaited way) := by
  rw [← List.map_reverse,open_]
  induction way.reverse with
  | nil => rfl
  | cons uuid rest ih =>
    rw [List.map_cons,unansweredOn,scanned.openAt more,ih]
    rfl

open Classical in
noncomputable def verdict (h : Host) (entries : List Json) (resumeAt : String) (awaited : List String) (way : List String) (stop : ParentLinks.Stop String) :
    Option Point :=
  match held entries resumeAt with
  | none => none
  | some entry =>
    if Stop.isDangling stop then none
    else if ∀ id ∈ awaited, ∃ uuid ∈ way, id ∈ callsAt h entries uuid then some ⟨entry,open_ h entries awaited way⟩
    else none

theorem Scanned.concludes (scanned : Scanned h resumeAt entries scan) {bytes} (read : scanFile h bytes resumeAt = .ok scan)
    (named : resumeAt ≠ "") (more : entries.length + 1 < fuel) {stop}
    (walk : climb (links entries) fuel [] (some resumeAt) = some (way,stop)) :
    resumePoint h fuel bytes resumeAt awaited = some (.returned (verdict h entries resumeAt awaited way stop)) := by
  have start : truthy (some resumeAt) = some resumeAt := by simp [truthy,named]
  rw [resumePoint,read,verdict]
  simp only [scanned.point]
  cases held entries resumeAt with
  | none => rfl
  | some entry =>
    simp only [scanned.chain,start,walk,Option.map_some]
    by_cases dangles : Stop.isDangling stop = true
    · simp [dangles]
    · have carried : (awaited.all (· ∈ ((way.map (fun uuid => (uuid,callsAt h entries uuid))).reverse.flatMap Prod.snd)) = true) =
          ∀ id ∈ awaited, ∃ uuid ∈ way, id ∈ callsAt h entries uuid := by
        simp
      simp only [dangles,Bool.false_eq_true,if_false,Option.bind_eq_bind,Option.bind_some,carried,scanned.openOn more]
      split <;> rfl

def callEntry (parent : Json) : Json := .obj [("uuid",.str "a"),("parentUuid",parent),("type",.str "assistant"),
  ("message",.obj [("content",.arr [.obj [("type",.str "tool_use"),("id",.str "t")]])])]

end Clankermux.ResumePoint
