import Clankermux.Pattern
import Clankermux.Splitting

/-! What the operator's project rules say of a working directory, and how names are cleaned.
Paths are compared by their segments. -/
namespace Clankermux.ProjectExtraction
open Pattern Splitting

abbrev Text := List Char

structure ProjectPathOverride where
  pathPrefix : Text
  name : Text

structure ProjectRules where
  roots : List Text
  overrides : List ProjectPathOverride

def slashed (path : Text) : Text := path.map fun ch => if ch = '\\' then '/' else ch

def toPathSegments (path : Text) : List Text := ((slashed path).splitOn '/').filter (· ≠ [])

def drivePattern : Pattern := all [.one Char.isAlpha,text [':','/']]

def isUsableWorkingDir (path : Text) : Bool :=
  let normalized := slashed path
  (normalized.head? == some '/' || ((drivePattern.ends ⟨[],normalized⟩).head?).isSome) &&
    !(toPathSegments normalized).any (fun segment => segment == ['.'] || segment == ['.','.'])

def WILDCARD : Text := ['*']

def matchesPrefix : List Text → List Text → Bool
  | [],_ => true
  | _::_,[] => false
  | p::pattern,segment::path => (p == WILDCARD || p == segment) && matchesPrefix pattern path

def literals (segments : List Text) : Nat := (segments.filter (· ≠ WILDCARD)).length

def isMoreSpecific (candidate incumbent : List Text) : Bool :=
  if candidate.length ≠ incumbent.length then candidate.length > incumbent.length
  else literals candidate > literals incumbent

def matchOverrides (path : List Text) (best : Option (ProjectPathOverride × List Text)) :
    List ProjectPathOverride → Option (ProjectPathOverride × List Text)
  | [] => best
  | override::rest =>
    let segments := toPathSegments override.pathPrefix
    if segments = [] then matchOverrides path best rest
    else if !matchesPrefix segments path then matchOverrides path best rest
    else if best.all (isMoreSpecific segments ·.2) then matchOverrides path (some (override,segments)) rest
    else matchOverrides path best rest

def matchProjectOverride (path : List Text) (overrides : List ProjectPathOverride) : Option ProjectPathOverride :=
  (matchOverrides path none overrides).map Prod.fst

def matchRoots (path : List Text) (best : Option (List Text)) : List Text → Option (List Text)
  | [] => best
  | root::rest =>
    let segments := toPathSegments root
    if segments = [] then matchRoots path best rest
    else if !matchesPrefix segments path then matchRoots path best rest
    else if segments.length = path.length then none
    else if segments.length > path.length then matchRoots path best rest
    else if best.all (isMoreSpecific segments) then matchRoots path (some segments) rest
    else matchRoots path best rest

def joined (segments : List Text) : Text := (segments.intersperse ['/']).flatten

def matchProjectRootDetailed (path : List Text) (roots : List Text) : Option (Text × Text) :=
  (matchRoots path none roots).bind fun best =>
    path[best.length]?.map fun segment => (segment,'/'::joined (path.take (best.length + 1)))

def isAncestorOrSame (ancestor path : Text) : Bool :=
  let a := toPathSegments ancestor
  a ≠ [] && a.isPrefixOf (toPathSegments path)

inductive Configured where
  | override (name : Text)
  | root (segment projectDir : Text)
  deriving DecidableEq

def resolveConfiguredProject (workingDir : Text) (rules : ProjectRules) : Option Configured :=
  let segments := toPathSegments workingDir
  if segments = [] then none
  else
    match matchProjectOverride segments rules.overrides with
    | some override => some (.override override.name)
    | none => (matchProjectRootDetailed segments rules.roots).map fun found => .root found.1 found.2

def PROJECT_NAME_MAX_LEN : Nat := 64

def isControl (ch : Char) : Bool := ch.toNat ≤ 0x1F || ch.toNat == 0x7F

def claudeEnvMarkers : List Pattern :=
  ["Is a git repository","Is directory a git repo","Platform","Shell","Today's date","Model"].map
    fun marker => .seq (textAnyCase marker.toList) .boundary

def claudeEnvMarkerPattern : Pattern :=
  all [.run isWhitespace 0 none,optional (all [.one (· == '-'),.run isWhitespace 0 none]),oneOf claudeEnvMarkers,
    .run dot 0 none,.finish]

def isTrailer (ch : Char) : Bool := isWhitespace ch || [':',';',',','-'].contains ch

def cleanProjectName (raw : Option Text) : Option Text :=
  raw.bind fun raw =>
    let withoutControls := trimChars (raw.filter fun ch => !isControl ch)
    let cleaned := trimChars (((claudeEnvMarkerPattern.remove withoutControls).reverse.dropWhile isTrailer).reverse)
    if cleaned = [] then none else some cleaned

def sliceUnits : Nat → Text → Text
  | _,[] => []
  | n,ch::rest => if width ch ≤ n then ch::sliceUnits (n - width ch) rest else []

def sanitizeProjectName (raw : Option Text) : Option Text :=
  (cleanProjectName raw).map fun cleaned =>
    if units cleaned > PROJECT_NAME_MAX_LEN then sliceUnits PROJECT_NAME_MAX_LEN cleaned else cleaned

def exceedsProjectNameLimit (raw : Option Text) : Bool := (cleanProjectName raw).any fun cleaned => units cleaned > PROJECT_NAME_MAX_LEN

def normalizeProjectCandidate (raw : Option Text) : Option Text :=
  if exceedsProjectNameLimit raw then none
  else (sanitizeProjectName raw).filter fun sanitized => sanitized.head? ≠ some '.'

def normalizeConfiguredName (raw : Text) : Option Text :=
  let trimmed := trimChars raw
  if trimmed = [] then none
  else if trimmed.any isControl then none
  else if units trimmed > PROJECT_NAME_MAX_LEN then none
  else some trimmed

def Segment (segment : Text) : Prop := segment ≠ [] ∧ '/' ∉ segment ∧ '\\' ∉ segment

theorem slashedFree {text} (free : '\\' ∉ text) : slashed text = text := by
  refine (List.map_congr_left fun ch inside => ?_).trans (List.map_id text)
  have other : ch ≠ '\\' := fun same => free (same ▸ inside)
  rw [if_neg other]
  rfl

theorem cutPieces (l : Text) : ∀ piece ∈ (cut '/' l).1, piece.Sublist l ∧ '/' ∉ piece := by
  induction l with
  | nil => simp [cut]
  | cons ch rest ih =>
    intro piece inside
    rw [cutCons] at inside
    by_cases same : ch = '/'
    · rw [if_pos same] at inside
      rcases List.mem_cons.mp inside with rfl | inside
      · exact ⟨List.nil_sublist _,by simp⟩
      · exact (ih piece inside).imp_left (·.cons ch)
    · rw [if_neg same] at inside
      cases pieces : (cut '/' rest).1 with
      | nil => simp [pieces] at inside
      | cons first more =>
        rw [pieces] at inside ih
        rcases List.mem_cons.mp inside with rfl | inside
        · obtain ⟨sub,free⟩ := ih first (.head _)
          exact ⟨sub.cons_cons ch,by simp [free,Ne.symm same]⟩
        · exact (ih piece (.tail _ inside)).imp_left (·.cons ch)

theorem toPathSegmentsSegment (path : Text) : ∀ segment ∈ toPathSegments path, Segment segment := by
  intro segment inside
  obtain ⟨inside,some_⟩ := List.mem_filter.mp inside
  rw [splitOnCut,List.mem_append,List.mem_singleton] at inside
  have part : segment.Sublist (slashed path) ∧ '/' ∉ segment := by
    rcases inside with inside | rfl
    · exact cutPieces _ segment inside
    · exact ⟨(cutSuffix _).sublist,cutOpen _⟩
  refine ⟨by simpa using some_,part.2,fun back => ?_⟩
  obtain ⟨ch,-,same⟩ := List.mem_map.mp (part.1.subset back)
  split_ifs at same with its
  · cases same
  · exact its same

theorem joinedCons (first next : Text) (rest : List Text) : joined (first::next::rest) = first ++ '/'::joined (next::rest) := rfl

theorem cutJoined (segments : List Text) (some_ : segments ≠ []) (free : ∀ segment ∈ segments, '/' ∉ segment) :
    (cut '/' (joined segments)).1 ++ [(cut '/' (joined segments)).2] = segments := by
  induction segments with
  | nil => exact absurd rfl some_
  | cons first rest ih =>
    cases rest with
    | nil =>
      have only : joined [first] = first := by simp [joined]
      rw [only,cutFree first (free first (.head _))]
      rfl
    | cons next rest =>
      rw [joinedCons,cutBlock (free first (.head _)),List.cons_append,ih (by simp) (fun segment inside => free segment (.tail _ inside))]

theorem joinedBack (segments : List Text) (free : ∀ segment ∈ segments, '\\' ∉ segment) : '\\' ∉ joined segments := by
  induction segments with
  | nil => simp [joined]
  | cons first rest ih =>
    cases rest with
    | nil => simpa [joined] using free first (.head _)
    | cons next rest =>
      have later := ih (fun segment inside => free segment (.tail _ inside))
      rw [joinedCons]
      simpa using ⟨free first (.head _),later⟩

theorem toPathSegmentsJoined (segments : List Text) (some_ : segments ≠ []) (all_ : ∀ segment ∈ segments, Segment segment) :
    toPathSegments ('/'::joined segments) = segments := by
  have free : '\\' ∉ '/'::joined segments := by
    simpa using joinedBack segments (fun segment inside => (all_ segment inside).2.2)
  rw [toPathSegments,slashedFree free,splitOnCut,cutSep,List.cons_append,
    cutJoined segments some_ (fun segment inside => (all_ segment inside).2.1)]
  simpa using fun segment inside => (all_ segment inside).1

theorem projectDirSegments {path roots segment projectDir}
    (found : matchProjectRootDetailed (toPathSegments path) roots = some (segment,projectDir)) :
    toPathSegments projectDir ≠ [] ∧ toPathSegments projectDir <+: toPathSegments path ∧
      (toPathSegments projectDir).getLast? = some segment := by
  obtain ⟨best,-,its⟩ := Option.bind_eq_some_iff.mp found
  obtain ⟨its_,at_,same⟩ := Option.map_eq_some_iff.mp its
  cases same
  obtain ⟨within,rfl⟩ := List.getElem?_eq_some_iff.mp at_
  have some_ : (toPathSegments path).take (best.length + 1) ≠ [] := by
    intro empty
    rw [List.take_eq_nil_iff] at empty
    rcases empty with zero | nil
    · omega
    · simp [nil] at within
  rw [toPathSegmentsJoined _ some_ (fun segment inside => toPathSegmentsSegment path segment (List.mem_of_mem_take inside))]
  exact ⟨some_,List.take_prefix _ _,by simp [List.getLast?_take]⟩

end Clankermux.ProjectExtraction
