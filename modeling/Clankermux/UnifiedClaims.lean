import Mathlib.Algebra.Order.Ring.Rat

/-! The per-claim reading of the provider's unified rate-limit headers: which windows a
refused answer names, which of them prove headroom and which reject. Numbers are those of
the script, exact up to the rounding its runtime does. -/
namespace Clankermux.UnifiedClaims

inductive Number where
  | finite (value : ℚ)
  | infinity
  deriving DecidableEq

namespace Number

def above : Number → Number → Bool
  | .finite a,.finite b => decide (b < a)
  | .infinity,.finite _ => true
  | _,.infinity => false

def soonest (a b : Number) : Number := if a.above b then b else a
def latest (a b : Number) : Number := if b.above a then b else a

def isFinite : Number → Option ℚ
  | .finite value => some value
  | .infinity => none

def isSafeInteger : Number → Bool
  | .finite value => value.den = 1 ∧ value.num.natAbs ≤ 9007199254740991
  | .infinity => false

end Number

/-- What the script's runtime makes of texts and of the results of its arithmetic:
`Number.parseFloat` of a strict decimal, `Number` (none for NaN), `new Date(text).getTime()`
(none for an invalid date) and the double nearest to an exact result. -/
structure Runtime where
  parseFloat : String → Number
  toNumber : String → Option Number
  dateTime : String → Option ℚ
  rounded : ℚ → Number

def Runtime.times (rt : Runtime) (a : Number) (factor : ℚ) : Number :=
  match a with
  | .finite value => rt.rounded (value*factor)
  | .infinity => .infinity

/-- The headers of an answer: lower-case names, each once, in the order `forEach` gives them. -/
structure Headers where
  lines : List (String × String)
  distinct : (lines.map Prod.fst).Nodup

def Headers.get (headers : Headers) (name : String) : Option String := headers.lines.lookup name

theorem lookupMem {lines : List (String × String)} {name value}
    (distinct : (lines.map Prod.fst).Nodup) : (name,value) ∈ lines ↔ lines.lookup name = some value := by
  induction lines with
  | nil => simp
  | cons line rest ih =>
    obtain ⟨key,held⟩ := line
    rw [List.map_cons,List.nodup_cons] at distinct
    rw [List.mem_cons,List.lookup_cons]
    by_cases same : name = key
    · subst same
      have fresh : (name,value) ∉ rest := fun found => distinct.1 (List.mem_map.mpr ⟨_,found,rfl⟩)
      simp only [Prod.mk.injEq,true_and,beq_self_eq_true,Option.some.injEq,fresh,or_false]
      exact eq_comm
    · have other : (name == key) = false := beq_eq_false_iff_ne.mpr same
      simp only [Prod.mk.injEq,same,false_and,false_or,other]
      exact ih distinct.2

theorem Headers.getMem {headers : Headers} {name value} :
    (name,value) ∈ headers.lines ↔ headers.get name = some value := lookupMem headers.distinct

def accountWideHardStatuses : List String := ["rate_limited","blocked","queueing_hard","payment_required"]
def rejectingStatuses : List String := accountWideHardStatuses ++ ["rejected"]
def softWarningStatuses : List String := ["allowed_warning","queueing_soft"]
def headroomStatuses : List String := "allowed"::softWarningStatuses

/-- `STRICT_DECIMAL_RE` -/
def strictDecimal (text : String) : Bool :=
  let whole := text.toList.takeWhile Char.isDigit
  let rest := text.toList.dropWhile Char.isDigit
  !whole.isEmpty && match rest with
    | [] => true
    | '.'::fraction => !fraction.isEmpty && fraction.all Char.isDigit
    | _ => false

def parseStrictDecimal (rt : Runtime) (value : Option String) : Option ℚ :=
  match value with
  | none => none
  | some text => if strictDecimal text then (rt.parseFloat text).isFinite else none

/-- `SCOPED_WINDOW_TOKEN_RE` -/
def scopedWindowToken (token : String) : Bool :=
  (["5h_".toList,"7d_".toList].any (·.isPrefixOf token.toList)) &&
    !(token.toList.drop 3).isEmpty &&
    (token.toList.drop 3).all (fun ch => ch.isLower || ch.isDigit || ch == '_')

def claimHeader (token suffix : String) : String := "anthropic-ratelimit-unified-" ++ (token ++ ("-" ++ suffix))

def between (before after text : List Char) : Option (List Char) :=
  let rest := text.drop before.length
  let middle := rest.take (rest.length - after.length)
  if text = before ++ (middle ++ after) then some middle else none

theorem betweenSome {before after text middle : List Char} :
    between before after text = some middle ↔ text = before ++ (middle ++ after) := by
  unfold between
  dsimp only
  constructor
  · intro found
    split at found
    · rename_i shape
      cases found
      exact shape
    · cases found
  · intro shape
    subst shape
    have cut : ((before ++ (middle ++ after)).drop before.length).take
        (((before ++ (middle ++ after)).drop before.length).length - after.length) = middle := by
      rw [List.drop_left,List.length_append,Nat.add_sub_cancel,List.take_left]
    rw [cut,if_pos rfl]

/-- `UNIFIED_STATUS_HEADER_RE`: the claim a status header is about. -/
def statusToken (name : String) : Option String :=
  match between "anthropic-ratelimit-unified-".toList "-status".toList name.toList with
  | none => none
  | some token => if token = [] then none else some (String.ofList token)

theorem toListAppends {a b c : String} : (a ++ (b ++ c)).toList = a.toList ++ (b.toList ++ c.toList) := by
  rw [String.toList_append,String.toList_append]

theorem claimHeaderShape {token suffix : String} : (claimHeader token suffix).toList =
    "anthropic-ratelimit-unified-".toList ++ (token.toList ++ ("-" ++ suffix).toList) := toListAppends

theorem statusTokenSome {name token : String} :
    statusToken name = some token ↔ token ≠ "" ∧ name = claimHeader token "status" := by
  have same : ("-" ++ "status" : String) = "-status" := by decide
  rw [← String.toList_inj,claimHeaderShape,same,← betweenSome,statusToken]
  constructor
  · intro found
    split at found
    · cases found
    · rename_i middle cut
      split at found
      · cases found
      · rename_i filled
        cases found
        have back : (String.ofList middle).toList = middle := String.toList_ofList
        refine ⟨fun empty => filled ?_,by rw [back]; exact cut⟩
        rw [← back,empty]
        rfl
  · intro ⟨filled,cut⟩
    have filled : token.toList ≠ [] := fun empty => filled (String.toList_inj.mp empty)
    rw [cut]
    dsimp only
    rw [if_neg filled,String.ofList_toList]

inductive FiveHourClaimShape where
  | present
  | absent
  | unknown
  deriving DecidableEq

section
variable (rt : Runtime) (headers : Headers)

def classifyFiveHourClaimShape : FiveHourClaimShape :=
  if headers.lines.any (fun line => "anthropic-ratelimit-unified-5h-".toList.isPrefixOf line.1.toList) then .present
  else
    let usableWeekly := match headers.get "anthropic-ratelimit-unified-7d-status" with
      | none => false
      | some status => (headroomStatuses.contains status || rejectingStatuses.contains status) &&
          (parseStrictDecimal rt (headers.get "anthropic-ratelimit-unified-7d-utilization")).isSome &&
          (parseStrictDecimal rt (headers.get "anthropic-ratelimit-unified-7d-reset")).isSome
    if usableWeekly then .absent else .unknown

inductive Window where
  | fiveHour
  | sevenDay
  deriving DecidableEq

def Window.token : Window → String
  | .fiveHour => "5h"
  | .sevenDay => "7d"

def rejects (win : Window) : Bool :=
  match headers.get (claimHeader win.token "status") with
  | none => false
  | some status => rejectingStatuses.contains status

def hasAccountWideUnifiedRejection : Bool := rejects headers .fiveHour || rejects headers .sevenDay

structure UnifiedClaimReading where
  status : String
  utilization : ℚ
  resetMs : Option Number

def readHeadroomClaim (win : Window) : Option UnifiedClaimReading :=
  match headers.get (claimHeader win.token "status") with
  | none => none
  | some status =>
    if !headroomStatuses.contains status then none
    else match parseStrictDecimal rt (headers.get (claimHeader win.token "utilization")) with
      | none => none
      | some utilization =>
        if 1 ≤ utilization then none
        else
          let resetSec := parseStrictDecimal rt (headers.get (claimHeader win.token "reset"))
          some ⟨status,utilization,resetSec.map (fun sec => rt.rounded (sec*1000))⟩

structure AccountWideClaimHeadroom where
  fiveHour : Option UnifiedClaimReading
  sevenDay : UnifiedClaimReading

def getAccountWideClaimHeadroom : Option AccountWideClaimHeadroom :=
  match readHeadroomClaim rt headers .sevenDay with
  | none => none
  | some sevenDay =>
    if classifyFiveHourClaimShape rt headers = .absent then some ⟨none,sevenDay⟩
    else match readHeadroomClaim rt headers .fiveHour with
      | none => none
      | some fiveHour => some ⟨some fiveHour,sevenDay⟩

def rejectedScopes : List String :=
  headers.lines.filterMap (fun line => match statusToken line.1 with
    | none => none
    | some token => if scopedWindowToken token && line.2 == "rejected" then some token else none)

structure ScopedClaimRejection where
  soonestResetMs : Option ℚ

def futureReset (now : ℚ) (token : String) : Option Number :=
  match parseStrictDecimal rt (headers.get (claimHeader token "reset")) with
  | none => none
  | some sec => if (rt.rounded (sec*1000)).above (.finite now) then some (rt.rounded (sec*1000)) else none

def getScopedClaimRejection (now : ℚ) : Option ScopedClaimRejection :=
  match rejectedScopes headers with
  | [] => none
  | scopes => some ⟨((scopes.filterMap (futureReset rt headers now)).foldl Number.soonest .infinity).isFinite⟩

structure ExtractedClaimReading where
  claim : String
  status : String
  resetMs : Option Number

def claimReset (token : String) : Option Number :=
  match parseStrictDecimal rt (headers.get (claimHeader token "reset")) with
  | none => none
  | some sec => if (rt.rounded (sec*1000)).isSafeInteger then some (rt.rounded (sec*1000)) else none

def extractUnifiedClaimReadings : List ExtractedClaimReading :=
  headers.lines.filterMap (fun line => match statusToken line.1 with
    | none => none
    | some token =>
      if token ≠ "5h" ∧ token ≠ "7d" ∧ !scopedWindowToken token then none
      else some ⟨token,line.2,claimReset rt headers token⟩)

def isScopedOnlyUnifiedRejection : Bool :=
  if headers.get "anthropic-ratelimit-unified-status" ≠ some "rejected" then false
  else if getAccountWideClaimHeadroom rt headers = none then false
  else (getScopedClaimRejection rt headers 0).isSome

/-- `HARD_LIMIT_STATUSES` on the summary line. -/
def isAnthropicHardLimitStatus : Bool :=
  match headers.get "anthropic-ratelimit-unified-status" with
  | none => false
  | some status => accountWideHardStatuses.contains status

def isAnthropicOutOfCredits : Bool :=
  headers.get "anthropic-ratelimit-unified-overage-disabled-reason" == some "out_of_credits"

end

section
variable {rt : Runtime} {headers : Headers}

theorem headroomNotRejecting {status : String} (headroom : headroomStatuses.contains status = true) :
    rejectingStatuses.contains status = false := by
  simp only [headroomStatuses,softWarningStatuses,List.contains_cons,List.contains_nil,Bool.or_eq_true,Bool.or_false,
    beq_iff_eq] at headroom
  obtain rfl | rfl | rfl := headroom <;> decide

theorem headroomClaimNotRejecting {win : Window} {reading}
    (found : readHeadroomClaim rt headers win = some reading) : rejects headers win = false := by
  unfold readHeadroomClaim at found
  unfold rejects
  split at found
  · cases found
  · rename_i status held
    split at found
    · cases found
    · rename_i headroom
      exact headroomNotRejecting (by simpa using headroom)

theorem absentNotRejecting (absent : classifyFiveHourClaimShape rt headers = .absent) :
    rejects headers .fiveHour = false := by
  unfold classifyFiveHourClaimShape at absent
  split at absent
  · cases absent
  · rename_i none5h
    unfold rejects
    split
    · rfl
    · rename_i status held
      have line := Headers.getMem.mpr held
      have named : "anthropic-ratelimit-unified-5h-".toList.isPrefixOf
          (claimHeader Window.fiveHour.token "status").toList = true := by decide
      exact absurd (List.any_eq_true.mpr ⟨_,line,named⟩) none5h

theorem headroomNoAccountRejection (found : (getAccountWideClaimHeadroom rt headers).isSome = true) :
    hasAccountWideUnifiedRejection headers = false := by
  unfold getAccountWideClaimHeadroom at found
  split at found
  · cases found
  · rename_i sevenDay weekly
    have second := headroomClaimNotRejecting weekly
    have first : rejects headers .fiveHour = false := by
      split at found
      · rename_i absent
        exact absentNotRejecting absent
      · split at found
        · cases found
        · rename_i fiveHour session
          exact headroomClaimNotRejecting session
    rw [hasAccountWideUnifiedRejection,first,second]
    rfl

structure ScopedOnly (rt : Runtime) (headers : Headers) : Prop where
  summary : headers.get "anthropic-ratelimit-unified-status" = some "rejected"
  headroom : (getAccountWideClaimHeadroom rt headers).isSome = true
  narrow : rejectedScopes headers ≠ []

theorem scopedRejectionSome {now : ℚ} :
    (getScopedClaimRejection rt headers now).isSome = true ↔ rejectedScopes headers ≠ [] := by
  unfold getScopedClaimRejection
  cases rejectedScopes headers <;> simp

theorem scopedOnly : isScopedOnlyUnifiedRejection rt headers = true ↔ ScopedOnly rt headers := by
  unfold isScopedOnlyUnifiedRejection
  constructor
  · intro found
    split at found
    · cases found
    · rename_i summary
      split at found
      · cases found
      · rename_i headroom
        exact ⟨not_not.mp summary,Option.isSome_iff_ne_none.mpr headroom,scopedRejectionSome.mp found⟩
  · intro ⟨summary,headroom,narrow⟩
    rw [if_neg (not_not.mpr summary),if_neg (Option.isSome_iff_ne_none.mp headroom)]
    exact scopedRejectionSome.mpr narrow

theorem ScopedOnly.notHard (only : ScopedOnly rt headers) : isAnthropicHardLimitStatus headers = false := by
  rw [isAnthropicHardLimitStatus,only.summary]
  decide

theorem ScopedOnly.noAccountRejection (only : ScopedOnly rt headers) :
    hasAccountWideUnifiedRejection headers = false := headroomNoAccountRejection only.headroom

theorem readingMem {reading : ExtractedClaimReading} {win : Window} (claim : reading.claim = win.token) :
    reading ∈ extractUnifiedClaimReadings rt headers ↔
      headers.get (claimHeader win.token "status") = some reading.status ∧
        reading.resetMs = claimReset rt headers win.token := by
  have filled : win.token ≠ "" := by cases win <;> decide
  have wide : ¬(win.token ≠ "5h" ∧ win.token ≠ "7d" ∧ !scopedWindowToken win.token) := by cases win <;> decide
  rw [extractUnifiedClaimReadings,List.mem_filterMap]
  constructor
  · intro ⟨line,inside,made⟩
    split at made
    · cases made
    · rename_i token named
      split at made
      · cases made
      · cases made
        subst claim
        have shape := (statusTokenSome.mp named).2
        refine ⟨Headers.getMem.mp ?_,rfl⟩
        rw [← shape]
        exact inside
  · intro ⟨held,reset⟩
    refine ⟨_,Headers.getMem.mpr held,?_⟩
    rw [statusTokenSome.mpr ⟨filled,rfl⟩]
    dsimp only
    rw [if_neg wide,← reset,← claim]

end

end Clankermux.UnifiedClaims
