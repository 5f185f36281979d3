import Clankermux.InsertionMap

/-! Streams of one message in numbered blocks, and a reader that follows one: the blocks
are numbered as they start, filled while they are open and stopped once, and the message
ends when no block is open. -/
namespace Clankermux.BlockStream
open InsertionMap

inductive Event (κ : Type*) where
  | messageStart
  | blockStart (index : Nat) (kind : κ)
  | blockDelta (index : Nat) (kind : κ)
  | blockStop (index : Nat)
  | messageDelta
  | messageStop

inductive Stage where | before | content | closing | after deriving DecidableEq

structure Reader (κ : Type*) where
  stage : Stage
  next : Nat
  openBlocks : InsertionMap Nat κ

variable {κ : Type*} [DecidableEq κ]

def Reader.start : Reader κ := ⟨.before,0,[]⟩

@[grind] def read (r : Reader κ) : Event κ → Option (Reader κ)
  | .messageStart => if r.stage = .before then some { r with stage := .content } else none
  | .blockStart index kind =>
    if r.stage = .content ∧ index = r.next
    then some { r with next := r.next + 1,openBlocks := (index,kind)::r.openBlocks } else none
  | .blockDelta index kind => if r.stage = .content ∧ (index,kind) ∈ r.openBlocks then some r else none
  | .blockStop index =>
    if r.stage = .content ∧ index ∈ keys r.openBlocks
    then some { r with openBlocks := delete r.openBlocks index } else none
  | .messageDelta => if r.stage = .content ∧ r.openBlocks = [] then some { r with stage := .closing } else none
  | .messageStop => if r.stage = .closing then some { r with stage := .after } else none

def reads (r : Reader κ) (events : List (Event κ)) : Option (Reader κ) := events.foldlM read r

variable {r s : Reader κ} {events others : List (Event κ)}

@[simp] theorem readsNil : reads r [] = some r := rfl

@[simp] theorem readsCons {e} : reads r (e::events) = (read r e).bind (reads · events) := rfl

theorem readsAppend : reads r (events ++ others) = (reads r events).bind (reads · others) := by
  simp [reads,List.foldlM_append]

theorem readsAfter (ended : r.stage = .after) : (reads r events).isSome = true ↔ events = [] := by
  constructor
  · intro read_
    cases events with
    | nil => rfl
    | cons e rest => cases e <;> simp [read,ended] at read_
  · rintro rfl
    rfl

theorem readStage {e} (stepped : read r e = some s) (content : s.stage = .content) :
    e ≠ .messageDelta ∧ (r.stage = .content ∨ e = .messageStart) := by
  cases e with
  | messageStart => exact ⟨by simp,.inr rfl⟩
  | messageDelta =>
    simp only [read,Option.ite_none_right_eq_some,Option.some.injEq] at stepped
    obtain ⟨-,rfl⟩ := stepped
    cases content
  | messageStop =>
    simp only [read,Option.ite_none_right_eq_some,Option.some.injEq] at stepped
    obtain ⟨-,rfl⟩ := stepped
    cases content
  | blockStart index kind | blockDelta index kind | blockStop index =>
    simp only [read,Option.ite_none_right_eq_some] at stepped
    exact ⟨by simp,.inl stepped.1.1⟩

theorem readsContent (done : reads r events = some s) (content : s.stage = .content) : .messageDelta ∉ events := by
  have back : ∀ {events} {r : Reader κ}, reads r events = some s →
      .messageDelta ∉ events ∧ (r.stage = .content ∨ r.stage = .before) := by
    intro events
    induction events with
    | nil =>
      rintro r read_
      cases read_
      exact ⟨List.not_mem_nil,.inl content⟩
    | cons e rest ih =>
      intro r read_
      obtain ⟨mid,first,later⟩ := Option.bind_eq_some_iff.mp read_
      obtain ⟨clear,stage⟩ := ih later
      rcases stage with stage | stage
      · obtain ⟨other,before⟩ := readStage first stage
        refine ⟨fun inside => (List.mem_cons.mp inside).elim (fun same => other same.symm) clear,?_⟩
        rcases before with before | rfl
        · exact .inl before
        · simp only [read,Option.ite_none_right_eq_some] at first
          exact .inr first.1
      · cases e <;> simp [read] at first <;> obtain ⟨held,rfl⟩ := first <;> simp_all
  exact (back done).1

theorem readsDeltas (entries : List (Nat × κ)) (content : r.stage = .content) (filled : ∀ entry ∈ entries, entry ∈ r.openBlocks) :
    reads r (entries.map (fun entry => .blockDelta entry.1 entry.2)) = some r := by
  induction entries with
  | nil => rfl
  | cons entry rest ih =>
    have first : read r (.blockDelta entry.1 entry.2) = some r := by simp [read,content,filled entry (.head _)]
    simpa [first] using ih (fun entry inside => filled entry (.tail _ inside))

theorem readsEnd {indices : List Nat} (content : r.stage = .content) (unique : indices.Nodup) :
    (∃ s, reads r (indices.map .blockStop ++ [.messageDelta,.messageStop]) = some s ∧ s.stage = .after) ↔
      ∀ index, index ∈ indices ↔ index ∈ keys r.openBlocks := by
  induction indices generalizing r with
  | nil =>
    cases blocks : r.openBlocks with
    | nil => simp [read,content,blocks,keys]
    | cons entry rest =>
      simp only [List.map_nil,List.nil_append,readsCons,read,blocks]
      constructor
      · simp
      · intro same
        exact absurd ((same entry.1).mpr (by simp [keys])) List.not_mem_nil
  | cons first rest ih =>
    obtain ⟨fresh,unique⟩ := List.nodup_cons.mp unique
    by_cases opened : first ∈ keys r.openBlocks
    · have next := ih (r := { r with openBlocks := delete r.openBlocks first }) content unique
      simp only [List.map_cons,List.cons_append,readsCons,read,content,opened,and_self,if_true,Option.bind_some,
        memKeysDelete] at next ⊢
      rw [next]
      constructor
      · intro same index
        by_cases it : index = first
        · simp [it,opened]
        · simp [it,same]
      · intro same index
        by_cases it : index = first
        · simp [it,fresh]
        · simpa [it] using same index
    · simp only [List.map_cons,List.cons_append,readsCons,read,opened]
      constructor
      · simp
      · intro same
        exact absurd ((same first).mp (.head _)) opened

def WellFormed (events : List (Event κ)) : Prop := ∃ r, reads .start events = some r ∧ r.stage = .after

end Clankermux.BlockStream
