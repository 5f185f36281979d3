import Clankermux.SessionHistoryNormal

/-! The messages that a stored session is extended by: their calls and their results belong together. -/
namespace Clankermux.SessionHistory

variable {h : Host} {toolNames known : List String} {history before after : List ApiMessage} {previous next : Option ApiMessage}
  {message : ApiMessage} {blocks : List Json} {name : String}

structure Paired (h : Host) (toolNames : List String) (history : List ApiMessage) : Prop where
  begins : ∃ first rest, history = first::rest ∧ first.role = .user
  alternates : history.IsChain (fun a b => a.role ≠ b.role)
  answered : ∀ before message after, history = before ++ message::after → message.role = .assistant → ∀ use ∈ uses message,
    (∃ called ∈ toolNames, text h use "name" = some called) ∧ ∃ next rest id, after = next::rest ∧ next.role = .user ∧
      text h use "id" = some id ∧ ∃ result ∈ results next, text h result "tool_use_id" = some id
  called : ∀ before message after, history = before ++ message::after → message.role = .user → ∀ result ∈ results message,
    ∃ earlier previous id, before = earlier ++ [previous] ∧ previous.role = .assistant ∧ text h result "tool_use_id" = some id ∧
      ∃ use ∈ uses previous, text h use "id" = some id
  ends : ∃ earlier last, history = earlier ++ [last] ∧ last.role = .assistant ∧ uses last = []

theorem anyNone {α : Type} {test : α → Option Bool} : ∀ {items}, anyM test items = some false → ∀ item ∈ items, test item = some false := by
  intro items
  induction items with
  | nil => simp
  | cons first rest ih =>
    intro none_ item inside
    obtain ⟨met,tested,none_⟩ := Option.bind_eq_some_iff.mp none_
    cases met with
    | true => simp at none_
    | false =>
      rcases List.mem_cons.mp inside with rfl | later
      · exact tested
      · exact ih (by simpa using none_) item later

theorem notMissing (all : missing h name known blocks = some false) {block : Json} (inside : block ∈ blocks) :
    ∃ id ∈ known, text h block name = some id := by
  have none_ := anyNone all block inside
  obtain ⟨id,its,there⟩ := Option.map_eq_some_iff.mp none_
  exact ⟨id,by simpa using there,its⟩

theorem readMember {f : Json → Option String} {texts id} (read : blocks.mapM f = some texts) (inside : id ∈ texts) :
    ∃ block ∈ blocks, f block = some id := by
  induction blocks generalizing texts with
  | nil =>
    cases read
    cases inside
  | cons block rest ih =>
    rw [List.mapM_cons] at read
    obtain ⟨first,its,read⟩ := Option.bind_eq_some_iff.mp read
    obtain ⟨more,later,read⟩ := Option.bind_eq_some_iff.mp read
    cases read
    rcases List.mem_cons.mp inside with rfl | deep
    · exact ⟨block,.head _,its⟩
    · obtain ⟨found,there,same⟩ := ih later deep
      exact ⟨found,.tail _ there,same⟩

theorem fitsAlternate (fit : fits h toolNames (some message) m next = some true) : message.role ≠ m.role := by
  intro same
  simp [fits,same] at fit

theorem fitsAssistant (fit : fits h toolNames previous message next = some true) (assistant : message.role = .assistant) :
    ∀ use ∈ uses message, (∃ called ∈ toolNames, text h use "name" = some called) ∧ ∃ reply id, next = some reply ∧
      text h use "id" = some id ∧ ∃ result ∈ results reply, text h result "tool_use_id" = some id := by
  intro use inside
  unfold fits at fit
  split at fit
  · cases fit
  rw [assistant] at fit
  obtain ⟨unknown,names,fit⟩ := Option.bind_eq_some_iff.mp fit
  cases unknown with
  | true => simp at fit
  | false =>
    refine ⟨notMissing names inside,?_⟩
    have some_ : (uses message).isEmpty = false := by
      cases none_ : uses message with
      | nil => simp [none_] at inside
      | cons _ _ => rfl
    simp only [some_] at fit
    cases next with
    | none => cases fit
    | some reply =>
      obtain ⟨answered,read,fit⟩ := Option.bind_eq_some_iff.mp fit
      obtain ⟨lacks,missed,same⟩ := Option.map_eq_some_iff.mp fit
      have all : missing h "id" answered (uses message) = some false := by simpa [show lacks = false by simpa using same] using missed
      obtain ⟨id,there,its⟩ := notMissing all inside
      exact ⟨reply,id,rfl,its,readMember read there⟩

theorem fitsUser (fit : fits h toolNames previous message next = some true) (user : message.role = .user) :
    ∀ result ∈ results message, ∃ earlier id, previous = some earlier ∧ text h result "tool_use_id" = some id ∧
      ∃ use ∈ uses earlier, text h use "id" = some id := by
  intro result inside
  unfold fits at fit
  split at fit
  · cases fit
  rw [user] at fit
  have some_ : (results message).isEmpty = false := by
    cases none_ : results message with
    | nil => simp [none_] at inside
    | cons _ _ => rfl
  simp only [some_] at fit
  obtain ⟨issued,read,fit⟩ := Option.bind_eq_some_iff.mp fit
  obtain ⟨lacks,missed,same⟩ := Option.map_eq_some_iff.mp fit
  have all : missing h "tool_use_id" issued (results message) = some false := by simpa [show lacks = false by simpa using same] using missed
  obtain ⟨id,there,its⟩ := notMissing all inside
  cases previous with
  | none =>
    cases read
    cases there
  | some earlier => exact ⟨earlier,id,rfl,its,readMember read there⟩

theorem fitAllEach : ∀ {history previous}, fitAll h toolNames previous history = some true → ∀ before message after, history = before ++ message::after →
    fits h toolNames (before.getLast?.or previous) message after.head? = some true := by
  intro history
  induction history with
  | nil => exact fun _ before _ _ same => absurd same (by simp)
  | cons first rest ih =>
    intro previous all before message after same
    obtain ⟨fit,its,all⟩ := Option.bind_eq_some_iff.mp all
    cases fit with
    | false => cases all
    | true =>
      cases before with
      | nil =>
        cases same
        exact its
      | cons head before =>
        obtain ⟨rfl,rest_⟩ := List.cons.inj same
        have there := ih (by simpa using all) before message after rest_
        rw [List.getLast?_cons]
        cases last : before.getLast? with
        | none =>
          rw [last] at there
          exact there
        | some other =>
          rw [last] at there
          exact there

theorem otherRole {a b : Role} (different : a ≠ b) : (a = .assistant → b = .user) ∧ (a = .user → b = .assistant) := by
  cases a <;> cases b <;> simp at different ⊢

theorem eligiblePaired (eligible : transcriptEligible h history toolNames = some true) : Paired h toolNames history := by
  unfold transcriptEligible at eligible
  split at eligible
  · cases eligible
  rename_i first
  obtain ⟨fitting,all,ends⟩ := Option.map_eq_some_iff.mp eligible
  obtain ⟨rfl,last⟩ := (Bool.and_eq_true_iff).mp ends
  have each := fitAllEach all
  have alternate : history.IsChain (fun a b => a.role ≠ b.role) := by
    refine List.isChain_iff_forall_rel_of_append_cons_cons.mpr (fun a b front rest same => ?_)
    have fit := each (front ++ [a]) b rest (by rw [same,List.append_assoc]; rfl)
    rw [List.getLast?_concat] at fit
    exact fitsAlternate fit
  have next : ∀ {front a b rest}, history = front ++ a::b::rest → a.role ≠ b.role := fun same =>
    List.isChain_iff_forall_rel_of_append_cons_cons.mp alternate same
  refine ⟨?_,alternate,fun before message after same assistant use inside => ?_,fun before message after same user result inside => ?_,?_⟩
  · cases history with
    | nil => simp at first
    | cons m rest => exact ⟨m,rest,rfl,by simpa using first⟩
  · obtain ⟨known,reply,id,behind,its,result⟩ := fitsAssistant (each before message after same) assistant use inside
    refine ⟨known,?_⟩
    obtain ⟨rest,rfl⟩ := List.head?_eq_some_iff.mp behind
    exact ⟨reply,rest,id,rfl,(otherRole (next same)).1 assistant,its,result⟩
  · obtain ⟨earlier,id,ahead,its,use⟩ := fitsUser (each before message after same) user result inside
    rw [Option.or_none] at ahead
    obtain ⟨front,rfl⟩ := List.getLast?_eq_some_iff.mp ahead
    have other := next (show history = front ++ earlier::message::after by rw [same,List.append_assoc]; rfl)
    exact ⟨front,earlier,id,rfl,(otherRole other.symm).2 user,its,use⟩
  · obtain ⟨final,its,assistant⟩ := (Option.any_eq_true _ _).mp last
    obtain ⟨front,rfl⟩ := List.getLast?_eq_some_iff.mp its
    refine ⟨front,final,rfl,by simpa using assistant,List.eq_nil_iff_forall_not_mem.mpr (fun use inside => ?_)⟩
    obtain ⟨-,reply,id,behind,-⟩ := fitsAssistant (each front final [] rfl) (by simpa using assistant) use inside
    cases behind

end Clankermux.SessionHistory
