import Mathlib.Data.List.Induction
import Mathlib.Data.List.Nodup
import Mathlib.Data.List.Perm.Basic

/-! The row of one routing attempt, and the three writers that settle it. -/
namespace Clankermux.RoutingAttempt

def CLIENT_CLOSED_REQUEST : String := "client_closed_request"
def ATTEMPT_TRANSPORT_FAILED : String := "Upstream transport failed"
def ATTEMPT_STREAM_FAILED : String := "Upstream response stream failed"
def ATTEMPT_CONSUMPTION_CANCELED : String := "Response consumption canceled"
def ATTEMPT_TRANSPORT_ENDINGS : List String :=
  [ATTEMPT_TRANSPORT_FAILED,ATTEMPT_STREAM_FAILED,ATTEMPT_CONSUMPTION_CANCELED]

inductive Kind where
  | upstreamSend | localReject | localSuccess
  deriving DecidableEq

structure Row where
  kind : Kind
  finishedAt : Option Int
  status : Option Int
  error : Option String
  reportedModel : Option String
  deriving DecidableEq

/-- The row `recordAttempt` commits before the send. -/
def Row.sent : Row := ⟨.upstreamSend,none,none,none,none⟩

-- `error IS NOT ?` holds of NULL, so only a stamped row is left alone
def Row.finishAttempt (row : Row) (finishedAt status : Int) (error reportedModel : Option String) : Row :=
  if row.error = some CLIENT_CLOSED_REQUEST then row
  else { row with
    finishedAt := some finishedAt
    status := some status
    error := row.error.or error
    reportedModel := reportedModel }

def Row.finishAttemptClientClosed (row : Row) (finishedAt : Int) : Row × Bool :=
  -- `error IN (…)` is not true of NULL
  if row.kind = .upstreamSend ∧ (row.status = none ∨ ∃ ending ∈ ATTEMPT_TRANSPORT_ENDINGS, row.error = some ending) then
    ({ row with
      status := some 499
      error := some CLIENT_CLOSED_REQUEST
      finishedAt := row.finishedAt.or (some finishedAt) },true)
  else (row,false)

def Row.annotateAttempt (row : Row) (error : String) (status : Option Int) (reportedModel : Option String) : Row :=
  if row.error = some CLIENT_CLOSED_REQUEST then row
  else { row with
    error := some error
    status := row.status.or status
    reportedModel := row.reportedModel.or reportedModel }

structure Finish where
  finishedAt : Int
  status : Int
  error : Option String
  reportedModel : Option String
  unclosed : error ≠ some CLIENT_CLOSED_REQUEST

structure Annotated where
  error : String
  status : Option Int
  reportedModel : Option String
  unclosed : error ≠ CLIENT_CLOSED_REQUEST
  semantic : error ∉ ATTEMPT_TRANSPORT_ENDINGS

inductive Writer where
  | finish (f : Finish)
  | annotate (a : Annotated)
  | clientClosed (finishedAt : Int)

inductive Statement where
  | finishAttempt | annotateAttempt | finishAttemptClientClosed
  deriving DecidableEq

def Writer.statement : Writer → Statement
  | .finish _ => .finishAttempt
  | .annotate _ => .annotateAttempt
  | .clientClosed _ => .finishAttemptClientClosed

def Row.write (row : Row) : Writer → Row
  | .finish f => row.finishAttempt f.finishedAt f.status f.error f.reportedModel
  | .annotate a => row.annotateAttempt a.error a.status a.reportedModel
  | .clientClosed finishedAt => (row.finishAttemptClientClosed finishedAt).1

def settled (writers : List Writer) : Row := writers.foldl Row.write .sent

def OnceEach (writers : List Writer) : Prop := (writers.map Writer.statement).Nodup

instance (writers : List Writer) : Decidable (OnceEach writers) :=
  inferInstanceAs (Decidable (writers.map Writer.statement).Nodup)

def Writer.Knows : Writer → Prop
  | .finish f => ∀ ending ∈ ATTEMPT_TRANSPORT_ENDINGS, f.error ≠ some ending
  | .annotate _ => True
  | .clientClosed _ => False

def Writer.finish? : Writer → Option Finish
  | .finish f => some f
  | _ => none

def Writer.annotated? : Writer → Option Annotated
  | .annotate a => some a
  | _ => none

def verdict (finish : Option Finish) (annotated : Option Annotated) : Row where
  kind := .upstreamSend
  finishedAt := finish.map (·.finishedAt)
  status := (finish.map (·.status)).or (annotated.bind (·.status))
  error := (annotated.map (·.error)).or (finish.bind (·.error))
  reportedModel := (finish.bind (·.reportedModel)).or (annotated.bind (·.reportedModel))

def merged (writers : List Writer) : Row :=
  verdict (writers.findSome? Writer.finish?) (writers.findSome? Writer.annotated?)

def Row.Stamped (row : Row) : Prop := row.status = some 499 ∧ row.error = some CLIENT_CLOSED_REQUEST

structure Truthful (writers : List Writer) : Prop where
  unknown : ∀ {earlier finishedAt later}, writers = earlier ++ .clientClosed finishedAt :: later →
    ((settled earlier).finishAttemptClientClosed finishedAt).2 = true → ∀ w ∈ earlier, ¬ w.Knows
  final : ∀ {earlier later}, writers = earlier ++ later → (settled earlier).Stamped → settled writers = settled earlier
  unstamped : ¬ (settled writers).Stamped → settled writers = merged writers

structure Timely (writers : List Writer) : Prop where
  stamp : ∀ {a finishedAt}, [.annotate a,.clientClosed finishedAt].Sublist writers → a.status = none →
    ∃ f, [.finish f,.clientClosed finishedAt].Sublist writers
  named : ∀ {a f}, [.annotate a,.finish f].Sublist writers → a.reportedModel ≠ none → f.reportedModel = none →
    ∃ finishedAt, [.clientClosed finishedAt,.annotate a].Sublist writers

variable {p writers earlier later : List Writer} {w : Writer} {f : Finish} {a : Annotated} {row : Row} {finishedAt : Int}
  {finish : Option Finish} {annotated : Option Annotated}

theorem settledSnoc : settled (p ++ [w]) = (settled p).write w := by simp [settled]

theorem stampedClosed (stamped : row.Stamped) : row.finishAttemptClientClosed finishedAt = (row,false) := by
  rw [Row.finishAttemptClientClosed,if_neg]
  rintro ⟨-,unset | ⟨ending,known,error⟩⟩
  · rw [stamped.1] at unset
    cases unset
  · rw [stamped.2] at error
    cases error
    revert known
    decide

theorem stampedWrite (stamped : row.Stamped) : row.write w = row := by
  cases w with
  | finish f => exact if_pos stamped.2
  | annotate a => exact if_pos stamped.2
  | clientClosed finishedAt => rw [Row.write,stampedClosed stamped]

theorem stampedStays (stamped : row.Stamped) : later.foldl Row.write row = row := by
  induction later with
  | nil => rfl
  | cons w rest ih => rw [List.foldl_cons,stampedWrite stamped,ih]

theorem closedStamps (stamps : (row.finishAttemptClientClosed finishedAt).2 = true) :
    (row.write (.clientClosed finishedAt)).Stamped := by
  rw [Row.finishAttemptClientClosed] at stamps
  split at stamps
  · next can =>
    rw [Row.write,Row.finishAttemptClientClosed,if_pos can]
    exact ⟨rfl,rfl⟩
  · cases stamps

theorem closedLeaves (leaves : (row.finishAttemptClientClosed finishedAt).2 = false) :
    row.write (.clientClosed finishedAt) = row := by
  rw [Row.finishAttemptClientClosed] at leaves
  split at leaves
  · cases leaves
  · next cannot => rw [Row.write,Row.finishAttemptClientClosed,if_neg cannot]

theorem verdictUnclosed : (verdict finish annotated).error ≠ some CLIENT_CLOSED_REQUEST := by
  cases annotated with
  | some a => exact fun same => a.unclosed (Option.some.inj same)
  | none =>
    cases finish with
    | some f => exact f.unclosed
    | none => exact fun same => by cases same

theorem verdictFinish (named : (annotated.bind (·.reportedModel)) ≠ none → f.reportedModel ≠ none) :
    (verdict none annotated).write (.finish f) = verdict (some f) annotated := by
  rw [Row.write,Row.finishAttempt,if_neg verdictUnclosed]
  have model : f.reportedModel = f.reportedModel.or (annotated.bind (·.reportedModel)) := by
    cases reported : f.reportedModel with
    | some model => rfl
    | none =>
      cases other : annotated.bind (·.reportedModel) with
      | none => rfl
      | some model => exact absurd reported (named (by simp [other]))
  simpa [verdict] using model

theorem verdictAnnotate : (verdict finish none).write (.annotate a) = verdict finish (some a) := by
  rw [Row.write,Row.annotateAttempt,if_neg verdictUnclosed]
  simp [verdict]

theorem verdictStamps (stamps : ((verdict finish annotated).finishAttemptClientClosed finishedAt).2 = true) :
    (finish = none ∧ ∀ a ∈ annotated, a.status = none) ∨
      annotated = none ∧ ∃ f ∈ finish, ∃ ending ∈ ATTEMPT_TRANSPORT_ENDINGS, f.error = some ending := by
  rw [Row.finishAttemptClientClosed] at stamps
  split at stamps
  · next can =>
    obtain ⟨-,unset | ⟨ending,known,error⟩⟩ := can
    · left
      cases finish with
      | some f => cases unset
      | none =>
        refine ⟨rfl,fun a here => ?_⟩
        obtain rfl := Option.mem_def.mp here
        exact unset
    · right
      cases annotated with
      | some a =>
        cases error
        exact absurd known a.semantic
      | none =>
        cases finish with
        | none => cases error
        | some f => exact ⟨rfl,f,rfl,ending,known,error⟩
  · cases stamps

theorem onceAppend (once : OnceEach (p ++ later)) : OnceEach p ∧ OnceEach later := by
  rw [OnceEach,List.map_append,List.nodup_append] at once
  exact ⟨once.1,once.2.1⟩
variable {v : Writer}

theorem onceApart (once : OnceEach (p ++ later)) (early : v ∈ p) (late : w ∈ later) : v.statement ≠ w.statement := by
  rw [OnceEach,List.map_append,List.nodup_append] at once
  exact once.2.2 _ (List.mem_map_of_mem early) _ (List.mem_map_of_mem late)

theorem onceSame (once : OnceEach writers) (one : v ∈ writers) (other : w ∈ writers)
    (same : v.statement = w.statement) : v = w := List.inj_on_of_nodup_map once one other same

theorem finishIff (w : Writer) (f : Finish) : w.finish? = some f ↔ w = .finish f := by
  cases w <;> simp [Writer.finish?]

theorem annotatedIff (w : Writer) (a : Annotated) : w.annotated? = some a ↔ w = .annotate a := by
  cases w <;> simp [Writer.annotated?]

section
variable {β : Type} {reads : Writer → Option β} {make : β → Writer} {value : β}

theorem foundIn (exact_ : ∀ w value, reads w = some value ↔ w = make value) (found : writers.findSome? reads = some value) :
    make value ∈ writers := by
  obtain ⟨w,there,its⟩ := List.exists_of_findSome?_eq_some found
  exact (exact_ w value).mp its ▸ there

theorem onlyFound (once : OnceEach writers) (exact_ : ∀ w value, reads w = some value ↔ w = make value)
    (same : ∀ a b, (make a).statement = (make b).statement) (here : make value ∈ writers) : writers.findSome? reads = some value := by
  have reads_ := (exact_ _ value).mpr rfl
  cases found : writers.findSome? reads with
  | none => exact absurd (List.findSome?_eq_none_iff.mp found _ here) (by simp [reads_])
  | some other =>
    have only := onceSame once here (foundIn exact_ found) (same value other)
    exact ((exact_ _ other).mpr only).symm.trans reads_

theorem foundPerm {order} (once : OnceEach order) (exact_ : ∀ w value, reads w = some value ↔ w = make value)
    (same : ∀ a b, (make a).statement = (make b).statement) (perm : order.Perm writers) :
    order.findSome? reads = writers.findSome? reads := by
  cases found : writers.findSome? reads with
  | some value => exact onlyFound once exact_ same (perm.mem_iff.mpr (foundIn exact_ found))
  | none => exact List.findSome?_eq_none_iff.mpr fun w here => List.findSome?_eq_none_iff.mp found w (perm.mem_iff.mp here)

end

theorem findFinish (once : OnceEach writers) (here : .finish f ∈ writers) : writers.findSome? Writer.finish? = some f :=
  onlyFound once finishIff (fun _ _ => rfl) here

theorem findAnnotated (once : OnceEach writers) (here : .annotate a ∈ writers) : writers.findSome? Writer.annotated? = some a :=
  onlyFound once annotatedIff (fun _ _ => rfl) here

theorem foundFinish (found : f ∈ writers.findSome? Writer.finish?) : .finish f ∈ writers := foundIn finishIff found

theorem foundAnnotated (found : a ∈ writers.findSome? Writer.annotated?) : .annotate a ∈ writers := foundIn annotatedIff found

theorem mergedPerm {order} (once : OnceEach writers) (perm : order.Perm writers) : merged order = merged writers := by
  have onceOrder : OnceEach order := (perm.map _).nodup_iff.mpr once
  rw [merged,merged,foundPerm onceOrder finishIff (fun _ _ => rfl) perm,foundPerm onceOrder annotatedIff (fun _ _ => rfl) perm]

theorem mergedSnoc : merged (p ++ [w]) =
    verdict ((p.findSome? Writer.finish?).or w.finish?) ((p.findSome? Writer.annotated?).or w.annotated?) := by
  cases w <;> simp [merged]

theorem pairSplit (pair : [v,w].Sublist writers) : ∃ earlier later, writers = earlier ++ v :: later ∧ w ∈ later := by
  induction writers with
  | nil => cases pair
  | cons head tail ih =>
    cases pair with
    | cons _ rest =>
      obtain ⟨earlier,later,rfl,here⟩ := ih rest
      exact ⟨head :: earlier,later,rfl,here⟩
    | cons_cons _ rest => exact ⟨[],tail,rfl,List.singleton_sublist.mp rest⟩

theorem pairJoin (early : v ∈ earlier) : [v,w].Sublist (earlier ++ w :: later) :=
  (List.singleton_sublist.mpr early).append ((List.Sublist.refl [w]).append (List.nil_sublist later))

theorem pairEarly (once : OnceEach (p ++ later)) (pair : [v,w].Sublist (p ++ later)) (early : w ∈ p) :
    [v,w].Sublist p := by
  obtain ⟨front,back,parts,inside,outside⟩ := List.sublist_append_iff.mp pair
  cases back using List.reverseRecOn with
  | nil => rwa [parts,List.append_nil]
  | append_singleton back last =>
    have late : last ∈ later := outside.subset (by simp)
    have same : w = last := by
      have ends := congrArg List.getLast? parts
      rw [← List.append_assoc,List.getLast?_concat] at ends
      exact Option.some.inj ends
    exact absurd rfl (onceApart once early (same ▸ late))

theorem pairBefore (once : OnceEach (p ++ w :: later)) (pair : [v,w].Sublist (p ++ w :: later)) : v ∈ p := by
  have absent : w ∉ later := by
    have onceLater := (onceAppend once).2
    rw [OnceEach,List.map_cons,List.nodup_cons] at onceLater
    exact fun late => onceLater.1 (List.mem_map_of_mem late)
  obtain ⟨front,back,parts,inside,outside⟩ := List.sublist_append_iff.mp pair
  cases front with
  | nil =>
    rw [List.nil_append] at parts
    rw [← parts] at outside
    cases outside with
    | cons _ late => exact absurd (late.subset (by simp)) absent
    | cons_cons _ late => exact absurd (List.singleton_sublist.mp late) absent
  | cons first rest =>
    rw [(List.cons.inj parts).1]
    exact inside.subset (.head _)

theorem sentStamped : (Row.sent.write (.clientClosed finishedAt)).Stamped := ⟨rfl,rfl⟩

theorem firstStamped (once : OnceEach (p ++ .finish f :: later)) (pair : [.clientClosed finishedAt,.annotate a].Sublist p) :
    (settled p).Stamped := by
  obtain ⟨front,back,rfl,here⟩ := pairSplit pair
  have alone : front = [] := by
    refine List.eq_nil_iff_forall_not_mem.mpr fun w early => ?_
    have notFinish := onceApart once (List.mem_append_left _ early) (.head _)
    have notClosed := onceApart (onceAppend once).1 early (.head _)
    have notAnnotate := onceApart (onceAppend once).1 early (.tail _ here)
    cases w with
    | finish _ => exact notFinish rfl
    | annotate _ => exact notAnnotate rfl
    | clientClosed _ => exact notClosed rfl
  subst alone
  have stays : settled (Writer.clientClosed finishedAt :: back) = Row.sent.write (.clientClosed finishedAt) :=
    stampedStays sentStamped
  rw [List.nil_append,stays]
  exact sentStamped

theorem settledSound (once : OnceEach writers)
    (named : ∀ {a f}, [.annotate a,.finish f].Sublist writers → a.reportedModel ≠ none → f.reportedModel = none →
      ∃ finishedAt, [.clientClosed finishedAt,.annotate a].Sublist writers) :
    writers = p ++ later → settled p = merged p ∨ (settled p).Stamped := by
  induction p using List.reverseRecOn generalizing later with
  | nil => exact fun _ => .inl rfl
  | append_singleton p w ih =>
    intro parts
    rw [List.append_assoc,List.singleton_append] at parts
    rw [settledSnoc,mergedSnoc]
    obtain same | stamped := ih parts
    swap
    · right
      rwa [stampedWrite stamped]
    rw [parts] at once
    have fresh : ∀ {v}, v ∈ p → v.statement ≠ w.statement := fun early => onceApart once early (.head _)
    cases w with
    | finish f =>
      have unfinished : p.findSome? Writer.finish? = none := Option.eq_none_iff_forall_not_mem.mpr fun _ found => fresh (foundFinish found) rfl
      by_cases loses : ∃ a, .annotate a ∈ p ∧ a.reportedModel ≠ none ∧ f.reportedModel = none
      · obtain ⟨a,early,names,unnamed⟩ := loses
        obtain ⟨finishedAt,pair⟩ := named (parts ▸ pairJoin early) names unnamed
        rw [parts] at pair
        have stamped := firstStamped once (pairEarly once pair early)
        right
        rwa [stampedWrite stamped]
      · left
        rw [same,merged,unfinished]
        simp only [Writer.annotated?,Option.or_none]
        refine verdictFinish fun names unnamed => loses ?_
        cases annotated : p.findSome? Writer.annotated? with
        | none => simp [annotated] at names
        | some a => exact ⟨a,foundAnnotated annotated,by simpa [annotated] using names,unnamed⟩
    | annotate a =>
      have unannotated : p.findSome? Writer.annotated? = none :=
        Option.eq_none_iff_forall_not_mem.mpr fun _ found => fresh (foundAnnotated found) rfl
      left
      rw [same,merged,unannotated]
      simp only [Writer.finish?,Option.or_none]
      exact verdictAnnotate
    | clientClosed finishedAt =>
      cases stamps : ((settled p).finishAttemptClientClosed finishedAt).2 with
      | true => exact .inr (closedStamps stamps)
      | false =>
        left
        rw [closedLeaves stamps,same,merged]
        simp [Writer.finish?,Writer.annotated?]

theorem stampedBy (stamped : (settled p).Stamped) : ∃ earlier finishedAt later, p = earlier ++ .clientClosed finishedAt :: later ∧
    ((settled earlier).finishAttemptClientClosed finishedAt).2 = true := by
  induction p using List.reverseRecOn with
  | nil => cases stamped.1
  | append_singleton p w ih =>
    have onward : (settled p).Stamped → ∃ earlier finishedAt later, p ++ [w] = earlier ++ .clientClosed finishedAt :: later ∧
        ((settled earlier).finishAttemptClientClosed finishedAt).2 = true := by
      intro before
      obtain ⟨earlier,finishedAt,later,rfl,stamps⟩ := ih before
      exact ⟨earlier,finishedAt,later ++ [w],by simp,stamps⟩
    by_cases before : (settled p).Stamped
    · exact onward before
    · rw [settledSnoc] at stamped
      cases w with
      | finish f =>
        rw [Row.write,Row.finishAttempt] at stamped
        split at stamped
        · exact absurd stamped before
        · next open_ =>
          have error := stamped.2
          cases earlier : (settled p).error with
          | none =>
            rw [earlier,Option.none_or] at error
            exact absurd error f.unclosed
          | some reason =>
            rw [earlier,Option.some_or] at error
            exact absurd (earlier.trans error) open_
      | annotate a =>
        rw [Row.write,Row.annotateAttempt] at stamped
        split at stamped
        · exact absurd stamped before
        · exact absurd (Option.some.inj stamped.2) a.unclosed
      | clientClosed finishedAt =>
        cases stamps : ((settled p).finishAttemptClientClosed finishedAt).2 with
        | true => exact ⟨p,finishedAt,[],rfl,stamps⟩
        | false =>
          rw [closedLeaves stamps] at stamped
          exact absurd stamped before

theorem Timely.truthful (once : OnceEach writers) (timely : Timely writers) : Truthful writers where
  unknown := by
    intro earlier finishedAt later parts stamps w early knows
    obtain same | stamped := settledSound once timely.named parts
    swap
    · rw [stampedClosed stamped] at stamps
      cases stamps
    rw [same] at stamps
    subst parts
    have fresh : w.statement ≠ .finishAttemptClientClosed := onceApart once early (.head _)
    have onceEarlier := (onceAppend once).1
    obtain ⟨unfinished,unset⟩ | ⟨unannotated,f,finished,ending,known,error⟩ := verdictStamps stamps
    · cases w with
      | finish f => simp [findFinish onceEarlier early] at unfinished
      | annotate a =>
        obtain ⟨f,pair⟩ := timely.stamp (pairJoin early) (unset a (findAnnotated onceEarlier early))
        simp [findFinish onceEarlier (pairBefore once pair)] at unfinished
      | clientClosed _ => exact fresh rfl
    · cases w with
      | finish other =>
        cases (findFinish onceEarlier early).symm.trans finished
        exact knows ending known error
      | annotate a => simp [findAnnotated onceEarlier early] at unannotated
      | clientClosed _ => exact fresh rfl
  final := by
    rintro earlier later rfl stamped
    rw [settled,List.foldl_append]
    exact stampedStays stamped
  unstamped unstamped := (@settledSound writers writers [] once timely.named (by simp)).resolve_right unstamped

theorem pairUpto (pair : [v,w].Sublist writers) : ∃ earlier later, writers = earlier ++ w :: later ∧ v ∈ earlier := by
  obtain ⟨front,back,rfl,here⟩ := pairSplit pair
  obtain ⟨between,later,rfl⟩ := List.append_of_mem here
  exact ⟨front ++ v :: between,later,by simp,by simp⟩

theorem settledAnnotated (once : OnceEach writers) (here : .annotate a ∈ writers) (unfinished : ∀ f, .finish f ∉ writers) :
    settled writers = verdict none (some a) ∨ (settled writers).Stamped := by
  obtain same | stamped := @settledSound writers writers [] once
    (fun pair => absurd (pair.subset (.tail _ (.head _))) (unfinished _)) (by simp)
  · left
    have none_ : writers.findSome? Writer.finish? = none :=
      Option.eq_none_iff_forall_not_mem.mpr fun f found => unfinished f (foundFinish found)
    rw [same,merged,findAnnotated once here,none_]
  · exact .inr stamped

theorem reasonStays (status : row.status ≠ none) (error : row.error = some a.error)
    (closing : ∀ w ∈ later, w.statement = .finishAttemptClientClosed) : later.foldl Row.write row = row := by
  induction later with
  | nil => rfl
  | cons w rest ih =>
    have leaves : row.write w = row := by
      have kind := closing w (.head _)
      cases w with
      | finish _ => cases kind
      | annotate _ => cases kind
      | clientClosed finishedAt =>
        rw [Row.write,Row.finishAttemptClientClosed,if_neg]
        rintro ⟨-,unset | ⟨ending,known,same⟩⟩
        · exact status unset
        · rw [error] at same
          cases same
          exact a.semantic known
    rw [List.foldl_cons,leaves]
    exact ih fun w here => closing w (.tail _ here)

theorem Truthful.timely (once : OnceEach writers) (truthful : Truthful writers) : Timely writers where
  stamp := by
    intro a finishedAt pair unset
    obtain ⟨earlier,later,rfl,early⟩ := pairUpto pair
    by_contra unfinished
    obtain same | stamped := settledAnnotated (onceAppend once).1 early fun f before => unfinished ⟨f,pairJoin before⟩
    · refine truthful.unknown rfl ?_ _ early trivial
      rw [same,Row.finishAttemptClientClosed,if_pos ⟨rfl,.inl unset⟩]
    · obtain ⟨front,_,back,rfl,-⟩ := stampedBy stamped
      exact onceApart once (List.mem_append_right _ (.head _)) (.head _) rfl
  named := by
    intro a f pair names unnamed
    obtain ⟨earlier,later,rfl,early⟩ := pairUpto pair
    by_contra unclosed
    obtain same | stamped := settledAnnotated (onceAppend once).1 early fun f before => onceApart once before (.head _) rfl
    · have closing : ∀ w ∈ later, w.statement = .finishAttemptClientClosed := by
        intro w late
        have notAnnotate := onceApart once early (.tail _ late)
        have onceLater := (onceAppend once).2
        rw [OnceEach,List.map_cons,List.nodup_cons] at onceLater
        have notFinish : w.statement ≠ .finishAttempt := fun kind => onceLater.1 (List.mem_map.mpr ⟨w,late,kind⟩)
        cases w with
        | finish _ => exact absurd rfl notFinish
        | annotate _ => exact absurd rfl notAnnotate
        | clientClosed _ => rfl
      have finished : (verdict none (some a)).write (.finish f) =
          ⟨.upstreamSend,some f.finishedAt,some f.status,some a.error,none⟩ := by
        rw [Row.write,Row.finishAttempt,if_neg verdictUnclosed,unnamed]
        rfl
      have row : settled (earlier ++ .finish f :: later) = ⟨.upstreamSend,some f.finishedAt,some f.status,some a.error,none⟩ := by
        rw [settled,List.foldl_append,List.foldl_cons,← settled,same,finished]
        exact reasonStays (by simp) rfl closing
      have whole := truthful.unstamped fun stamped => a.unclosed (by
        rw [row] at stamped
        exact Option.some.inj stamped.2)
      rw [row,merged,findFinish once (List.mem_append_right _ (.head _)),
        findAnnotated once (List.mem_append_left _ early)] at whole
      have model := congrArg Row.reportedModel whole
      simp only [verdict,Option.bind_some,unnamed] at model
      exact names model.symm
    · obtain ⟨front,finishedAt,back,rfl,stamps⟩ := stampedBy stamped
      obtain before | after := List.mem_append.mp early
      · exact truthful.unknown (List.append_assoc ..) stamps _ before trivial
      · obtain same | after := List.mem_cons.mp after
        · cases same
        · refine unclosed ⟨finishedAt,?_⟩
          have pair : [.clientClosed finishedAt,.annotate a].Sublist (.clientClosed finishedAt :: back) :=
            List.cons_sublist_cons.mpr (List.singleton_sublist.mpr after)
          exact (pair.trans (List.sublist_append_right front _)).trans (List.sublist_append_left ..)

/-- Each writer at most once, in any order: the attempt settles to one truthful verdict exactly when the writers are
timely, and that verdict is the same in every order. -/
theorem attemptTruthful (writers : List Writer) (once : OnceEach writers) :
    (Truthful writers ↔ Timely writers) ∧ ∀ order : List Writer, order.Perm writers → merged order = merged writers :=
  ⟨⟨Truthful.timely once,Timely.truthful once⟩,fun _ => mergedPerm once⟩

def substituted : List Writer :=
  [.annotate ⟨"model_substitution",none,some "served",by decide,by decide⟩,
   .finish ⟨2,200,some ATTEMPT_CONSUMPTION_CANCELED,none,by decide⟩]

theorem attemptTruthfulReversed : OnceEach substituted.reverse ∧ Truthful substituted.reverse := by
  have once : OnceEach substituted.reverse := by decide
  refine ⟨once,((attemptTruthful _ once).1).mpr ⟨?_,?_⟩⟩
  · intro a finishedAt pair
    have closed := pair.subset (List.mem_cons_of_mem _ List.mem_cons_self)
    simp [substituted] at closed
  · intro a f pair
    cases pair with
    | cons _ rest =>
      cases rest with
      | cons _ rest => cases rest
      | cons_cons _ rest => cases rest

def abandoned : List Writer :=
  [.annotate ⟨"model_substitution",none,some "served",by decide,by decide⟩,.clientClosed 3]

/-- The cancelled body erases the model, which the other order keeps; and a stamp takes the place of the reason. -/
theorem verdictLost :
    (OnceEach substituted ∧ ¬ Truthful substituted ∧ (settled substituted).reportedModel = none ∧
      (settled substituted.reverse).reportedModel = some "served") ∧
    OnceEach abandoned ∧ ¬ Truthful abandoned ∧ (settled abandoned).error = some CLIENT_CLOSED_REQUEST := by
  refine ⟨⟨by decide,fun truthful => ?_,by decide,by decide⟩,by decide,fun truthful => ?_,by decide⟩
  · have whole := truthful.unstamped (by rw [Row.Stamped]; decide)
    revert whole
    decide
  · exact truthful.unknown (show abandoned = [_] ++ .clientClosed 3 :: [] from rfl) (by decide) _ List.mem_cons_self trivial

end Clankermux.RoutingAttempt
