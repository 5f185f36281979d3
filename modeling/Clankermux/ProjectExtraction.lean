import Clankermux.Json
import Clankermux.ProjectAnchor

/-! The project of a request, from its body alone: an operator's override, the repository root
that instruction files name, or the directory that the operator's roots choose. -/
namespace Clankermux.ProjectExtraction
open Pattern

def labelled (labels : List Pattern) : Pattern :=
  all [.lineStart,.run dot 0 none,.boundary,oneOf labels,.run isWhitespace 0 none,.one (· == ':'),.run isWhitespace 0 none,
    .group (.run dot 1 none),.lineEnd]

def primaryWorkingDirPattern : Pattern := labelled [text "Primary working directory".toList]

def workingDirPattern : Pattern := labelled [text "Working directory".toList,text "Current working directory".toList]

def codexCwdPattern : Pattern := all [text "<cwd>".toList,.group (.run (· ≠ '<') 1 none),text "</cwd>".toList]

def CWD_SCAN_MAX_CHARS : Nat := 4096

def isString (value : String) : Option Json → Bool
  | some (.str its) => its == value
  | _ => false

def messagesOf (body : Json) : List Json :=
  match body.field "messages" with
  | some (.arr messages) => messages
  | _ => []

def textOf (item : Json) : Option Text :=
  match item.field "text" with
  | some (.str text) => if isString "text" (item.field "type") then some text.toList else none
  | _ => none

def collectTextContent : Option Json → List Text
  | some (.str text) => [text.toList]
  | some (.arr items) => items.filterMap textOf
  | _ => []

def joinLines (parts : List Text) : Text := (parts.intersperse ['\n']).flatten

def extractSystemPrompt (body : Json) : Option Text :=
  let system := (messagesOf body).filter fun message => isString "system" (message.field "role")
  let parts := (body.field "system"::system.map (·.field "content")).flatMap collectTextContent
  if parts = [] then none else some (joinLines parts)

def collectFirstUserMessageTexts (body : Json) : List Text :=
  match (messagesOf body).find? (fun message => isString "user" (message.field "role")) with
  | some firstUser => collectTextContent (firstUser.field "content")
  | none => []

def stripSurroundingQuotes (value : Text) : Text × Bool :=
  match value with
  | first::last::more =>
    if (first = '"' ∨ first = '\'') ∧ (last::more).getLast? = some first then ((last::more).dropLast,true) else (value,false)
  | _ => (value,false)

def pathFromCapture (raw : Option Text) : Option Text :=
  raw.bind fun raw =>
    let trimmed := trimChars raw
    if trimmed = [] ∨ trimmed.any isControl = true then none
    else
      let (value,quoted) := stripSurroundingQuotes trimmed
      if value = [] then none
      else if !quoted && value.any isWhitespace then none
      else if !isUsableWorkingDir value then none
      else some value

inductive BodyProjectSource where | pathOverride | repoRoot | wdPrimary | wdPlain | codexCwd | none deriving DecidableEq

structure WorkingDirCandidate where
  path : Text
  source : BodyProjectSource
  deriving DecidableEq

def candidate (source : BodyProjectSource) (path : Option Text) : List WorkingDirCandidate :=
  path.toList.map fun path => ⟨path,source⟩

def collectWorkingDirCandidates (body : Json) : List WorkingDirCandidate :=
  let systemPrompt := (extractSystemPrompt body).filter (· ≠ [])
  candidate .wdPrimary (pathFromCapture (systemPrompt.bind primaryWorkingDirPattern.capture)) ++
    candidate .wdPlain (pathFromCapture (systemPrompt.bind workingDirPattern.capture)) ++
    candidate .codexCwd ((collectFirstUserMessageTexts body).findSome? fun text =>
      pathFromCapture (codexCwdPattern.capture (sliceUnits CWD_SCAN_MAX_CHARS text)))

-- The unit that a slice loses where it would cut a character still counts against the budget.
def anchorSlices (budget : Nat) : List Text → List Text
  | [] => []
  | text::rest =>
    if budget = 0 then []
    else
      let most := min budget ANCHOR_SCAN_MAX_CHARS
      sliceUnits most text::anchorSlices (budget - min most (units text)) rest

def collectAnchorText (body : Json) : Text :=
  joinLines (((extractSystemPrompt body).filter (· ≠ [])).toList ++
    anchorSlices ANCHOR_SCAN_MAX_CHARS (collectFirstUserMessageTexts body))

structure Extracted where
  project : Option Text
  source : BodyProjectSource
  unmatchedPath : Option Text
  deriving DecidableEq

def NO_BODY_PROJECT : Extracted := ⟨none,.none,none⟩

abbrev Resolved := WorkingDirCandidate × Option Configured

def resolve (rules : ProjectRules) (candidates : List WorkingDirCandidate) : List Resolved :=
  candidates.map fun candidate => (candidate,resolveConfiguredProject candidate.path rules)

def overrideTier (found : Resolved) : Option Extracted :=
  match found.2 with
  | some (.override name) => (normalizeConfiguredName name).map fun name => ⟨some name,.pathOverride,none⟩
  | _ => none

def anchorTier (anchorText : Text) (found : Resolved) : Option Extracted :=
  match found.2 with
  | some (.root _ projectDir) =>
    (extractRepoRoot anchorText found.1.path projectDir).bind fun root =>
      (normalizeProjectCandidate (repoRootToCandidate root)).map fun project => ⟨some project,.repoRoot,none⟩
  | _ => none

def rootTier (found : Resolved) : Option Extracted :=
  match found.2 with
  | some (.root segment _) => (normalizeProjectCandidate (some segment)).map fun project => ⟨some project,found.1.source,none⟩
  | _ => none

def extractProjectFromBody (body : Option Json) (rules : ProjectRules) : Extracted :=
  match body with
  | none => NO_BODY_PROJECT
  | some body =>
    match collectWorkingDirCandidates body with
    | [] => NO_BODY_PROJECT
    | first::rest =>
      let resolved := resolve rules (first::rest)
      let anchorText := collectAnchorText body
      match resolved.findSome? overrideTier with
      | some found => found
      | none =>
        match resolved.findSome? (anchorTier anchorText) with
        | some found => found
        | none =>
          match resolved.findSome? rootTier with
          | some found => found
          | none => { NO_BODY_PROJECT with unmatchedPath := some first.path }

def Overridden (rules : ProjectRules) (candidates : List WorkingDirCandidate) : Prop :=
  ∃ candidate ∈ candidates, ∃ name, resolveConfiguredProject candidate.path rules = some (.override name) ∧
    (normalizeConfiguredName name).isSome = true

def Rooted (rules : ProjectRules) (candidate : WorkingDirCandidate) (segment projectDir : Text) : Prop :=
  resolveConfiguredProject candidate.path rules = some (.root segment projectDir)

def AnchorNamed (rules : ProjectRules) (text : Text) (candidate : WorkingDirCandidate) (project : Text) : Prop :=
  ∃ segment projectDir directory, Rooted rules candidate segment projectDir ∧ Anchors text candidate.path projectDir directory ∧
    normalizeProjectCandidate directory.getLast? = some project

def SegmentNamed (rules : ProjectRules) (candidate : WorkingDirCandidate) (project : Text) : Prop :=
  ∃ segment projectDir, Rooted rules candidate segment projectDir ∧ normalizeProjectCandidate (some segment) = some project

def First (property : WorkingDirCandidate → Text → Prop) (candidates : List WorkingDirCandidate) (candidate : WorkingDirCandidate)
    (project : Text) : Prop :=
  ∃ before after, candidates = before ++ candidate::after ∧ property candidate project ∧
    ∀ earlier ∈ before, ∀ other, ¬ property earlier other

inductive Answered (rules : ProjectRules) (text : Text) (candidates : List WorkingDirCandidate) : Extracted → Prop where
  | anchor (candidate project) (first : First (AnchorNamed rules text) candidates candidate project) :
    Answered rules text candidates ⟨some project,.repoRoot,none⟩
  | root (candidate project) (unnamed : ∀ candidate ∈ candidates, ∀ other, ¬ AnchorNamed rules text candidate other)
    (first : First (SegmentNamed rules) candidates candidate project) :
    Answered rules text candidates ⟨some project,candidate.source,none⟩
  | nothing (unnamed : ∀ candidate ∈ candidates, ∀ other, ¬ AnchorNamed rules text candidate other)
    (nameless : ∀ candidate ∈ candidates, ∀ other, ¬ SegmentNamed rules candidate other) :
    Answered rules text candidates ⟨none,.none,candidates.head?.map (·.path)⟩

section Tiers
variable {rules : ProjectRules} {text : Text} {candidate : WorkingDirCandidate} {candidates : List WorkingDirCandidate} {r : Extracted}

theorem Rooted.chosen {segment projectDir : Text} (rooted : Rooted rules candidate segment projectDir) :
    candidate.path ≠ [] ∧ toPathSegments projectDir ≠ [] := by
  simp only [Rooted,resolveConfiguredProject] at rooted
  split_ifs at rooted with empty
  refine ⟨fun none_ => empty (by rw [none_]; rfl),?_⟩
  split at rooted
  · cases rooted
  · obtain ⟨⟨its,directory⟩,found,same⟩ := Option.map_eq_some_iff.mp rooted
    cases same
    exact (projectDirSegments found).1

theorem overrideTierSome (candidates : List WorkingDirCandidate) :
    ((resolve rules candidates).findSome? overrideTier).isSome = true ↔ Overridden rules candidates := by
  rw [List.findSome?_isSome_iff]
  simp only [resolve,List.mem_map,exists_exists_and_eq_and]
  refine exists_congr fun candidate => and_congr_right fun _ => ?_
  unfold overrideTier
  constructor
  · intro some_
    split at some_
    · rename_i name its
      exact ⟨name,its,by simpa using some_⟩
    · cases some_
  · rintro ⟨name,its,usable⟩
    simpa [its] using usable

theorem anchorTierIff : anchorTier text (candidate,resolveConfiguredProject candidate.path rules) = some r ↔
    ∃ project, AnchorNamed rules text candidate project ∧ r = ⟨some project,.repoRoot,none⟩ := by
  unfold anchorTier
  constructor
  · intro found
    split at found
    · rename_i segment projectDir rooted
      obtain ⟨present,chosen⟩ := Rooted.chosen rooted
      obtain ⟨root,its,named⟩ := Option.bind_eq_some_iff.mp found
      obtain ⟨project,good,rfl⟩ := Option.map_eq_some_iff.mp named
      exact ⟨project,⟨segment,projectDir,_,rooted,(extractRepoRootSpec present chosen).1 root its,good⟩,rfl⟩
    · cases found
  · rintro ⟨project,⟨segment,projectDir,directory,rooted,anchors,good⟩,rfl⟩
    obtain ⟨present,chosen⟩ := rooted.chosen
    obtain ⟨isRoot,isNone⟩ := @extractRepoRootSpec text _ _ present chosen
    unfold Rooted at rooted
    simp only [rooted]
    cases its : extractRepoRoot text candidate.path projectDir with
    | none => exact absurd anchors (isNone its directory)
    | some root =>
      have last : repoRootToCandidate root = directory.getLast? := by rw [repoRootToCandidate,(isRoot root its).same anchors]
      simp [last,good]

theorem rootTierIff : rootTier (candidate,resolveConfiguredProject candidate.path rules) = some r ↔
    ∃ project, SegmentNamed rules candidate project ∧ r = ⟨some project,candidate.source,none⟩ := by
  unfold rootTier
  constructor
  · intro found
    split at found
    · rename_i segment projectDir rooted
      obtain ⟨project,good,rfl⟩ := Option.map_eq_some_iff.mp found
      exact ⟨project,⟨segment,projectDir,rooted,good⟩,rfl⟩
    · cases found
  · rintro ⟨project,⟨segment,projectDir,rooted,good⟩,rfl⟩
    unfold Rooted at rooted
    simp [rooted,good]

variable {tier : Resolved → Option Extracted} {property : WorkingDirCandidate → Text → Prop}
    {answer : WorkingDirCandidate → Text → Extracted}
    (exact_ : ∀ candidate r, tier (candidate,resolveConfiguredProject candidate.path rules) = some r ↔
      ∃ project, property candidate project ∧ r = answer candidate project)
include exact_

theorem tierSome (found : (resolve rules candidates).findSome? tier = some r) :
    ∃ candidate project, First property candidates candidate project ∧ r = answer candidate project := by
  obtain ⟨before,its,after,whole,here,earlier⟩ := List.findSome?_eq_some_iff.mp found
  obtain ⟨front,back,rfl,fronts,backs⟩ := List.map_eq_append_iff.mp whole
  obtain ⟨candidate,more,rfl,rfl,-⟩ := List.map_eq_cons_iff.mp backs
  obtain ⟨project,has,rfl⟩ := (exact_ candidate r).mp here
  refine ⟨candidate,project,⟨front,more,rfl,has,fun before_ inside other its => ?_⟩,rfl⟩
  have none_ := earlier _ (fronts ▸ List.mem_map_of_mem inside)
  cases none_.symm.trans ((exact_ before_ _).mpr ⟨other,its,rfl⟩)

theorem tierNone (found : (resolve rules candidates).findSome? tier = none) : ∀ candidate ∈ candidates, ∀ other, ¬ property candidate other := by
  intro candidate inside other its
  have none_ := List.findSome?_eq_none_iff.mp found _ (List.mem_map_of_mem inside)
  cases none_.symm.trans ((exact_ candidate _).mpr ⟨other,its,rfl⟩)

end Tiers

theorem extractAnswered (rules : ProjectRules) (body : Json) (plain : ¬ Overridden rules (collectWorkingDirCandidates body)) :
    Answered rules (collectAnchorText body) (collectWorkingDirCandidates body) (extractProjectFromBody (some body) rules) := by
  cases candidates : collectWorkingDirCandidates body with
  | nil =>
    rw [extractProjectFromBody,candidates]
    exact .nothing (by simp) (by simp)
  | cons first rest =>
    rw [candidates] at plain
    have none_ : (resolve rules (first::rest)).findSome? overrideTier = none := by
      rw [← Option.not_isSome_iff_eq_none,overrideTierSome]
      exact plain
    simp only [extractProjectFromBody,candidates,none_]
    cases anchor : (resolve rules (first::rest)).findSome? (anchorTier (collectAnchorText body)) with
    | some found =>
      obtain ⟨candidate,project,its,rfl⟩ := tierSome (fun _ _ => anchorTierIff) anchor
      exact .anchor candidate project its
    | none =>
      have unnamed := tierNone (fun _ _ => anchorTierIff) anchor
      cases root : (resolve rules (first::rest)).findSome? rootTier with
      | some found =>
        obtain ⟨candidate,project,its,rfl⟩ := tierSome (fun _ _ => rootTierIff) root
        exact .root candidate project unnamed its
      | none => exact .nothing unnamed (tierNone (fun _ _ => rootTierIff) root)

def Decided (rules : ProjectRules) (candidates : List WorkingDirCandidate) : Prop :=
  Overridden rules candidates ∨ ∀ candidate ∈ candidates, ∀ segment projectDir, ¬ Rooted rules candidate segment projectDir

theorem extractOverridden {rules : ProjectRules} {body : Json} (named : Overridden rules (collectWorkingDirCandidates body)) :
    some (extractProjectFromBody (some body) rules) = (resolve rules (collectWorkingDirCandidates body)).findSome? overrideTier := by
  obtain ⟨found,its⟩ := Option.isSome_iff_exists.mp ((overrideTierSome _).mpr named)
  cases candidates : collectWorkingDirCandidates body with
  | nil => simp [candidates,resolve] at its
  | cons first rest =>
    rw [candidates] at its
    simp [extractProjectFromBody,candidates,its]

theorem Answered.unrooted {rules text} {candidates : List WorkingDirCandidate} {r : Extracted}
    (answered : Answered rules text candidates r)
    (none_ : ∀ candidate ∈ candidates, ∀ segment projectDir, ¬ Rooted rules candidate segment projectDir) :
    r = ⟨none,.none,candidates.head?.map (·.path)⟩ := by
  cases answered with
  | anchor candidate project first =>
    obtain ⟨before,after,rfl,⟨segment,projectDir,_,rooted,-⟩,-⟩ := first
    exact absurd rooted (none_ candidate (by simp) segment projectDir)
  | root candidate project unnamed first =>
    obtain ⟨before,after,rfl,⟨segment,projectDir,rooted,-⟩,-⟩ := first
    exact absurd rooted (none_ candidate (by simp) segment projectDir)
  | nothing unnamed nameless => rfl

/-- Two bodies that claim the same working directories: their texts say nothing where an override
answers or no root matches, and else choose no more than a directory below the one the roots chose. -/
theorem promptSteersBelow (rules : ProjectRules) (body other : Json)
    (same : collectWorkingDirCandidates body = collectWorkingDirCandidates other) :
    (Decided rules (collectWorkingDirCandidates body) →
      extractProjectFromBody (some body) rules = extractProjectFromBody (some other) rules) ∧
    (¬ Decided rules (collectWorkingDirCandidates body) →
      Answered rules (collectAnchorText body) (collectWorkingDirCandidates body) (extractProjectFromBody (some body) rules) ∧
      Answered rules (collectAnchorText other) (collectWorkingDirCandidates body) (extractProjectFromBody (some other) rules)) := by
  have answered := extractAnswered rules body
  have answered' := extractAnswered rules other
  rw [← same] at answered'
  constructor
  · intro decided
    by_cases named : Overridden rules (collectWorkingDirCandidates body)
    · refine Option.some.inj ((extractOverridden named).trans ?_)
      rw [extractOverridden (same ▸ named),same]
    · have unrooted := decided.resolve_left named
      rw [(answered named).unrooted unrooted,(answered' named).unrooted unrooted]
  · intro free
    exact ⟨answered (fun named => free (.inl named)),answered' (fun named => free (.inl named))⟩

def sampleRules : ProjectRules := ⟨["/h/*".toList],[]⟩

def sampleBody (claimed : String) : Json :=
  .obj [("system",.str ("Working directory: /h/u/p/q\nContents of " ++ claimed ++ " (project instructions"))]

/-- A directory below the project gives it another name; one above it is not heard. -/
theorem promptSteersBelowSample :
    extractProjectFromBody (some (sampleBody "/h/u/p/q/C")) sampleRules = ⟨some ['q'],.repoRoot,none⟩ ∧
    extractProjectFromBody (some (sampleBody "/h/u/C")) sampleRules = ⟨some ['p'],.wdPlain,none⟩ ∧
    Answered sampleRules (collectAnchorText (sampleBody "/h/u/p/q/C")) (collectWorkingDirCandidates (sampleBody "/h/u/p/q/C"))
      (extractProjectFromBody (some (sampleBody "/h/u/p/q/C")) sampleRules) ∧
    Answered sampleRules (collectAnchorText (sampleBody "/h/u/C")) (collectWorkingDirCandidates (sampleBody "/h/u/p/q/C"))
      (extractProjectFromBody (some (sampleBody "/h/u/C")) sampleRules) := by
  have claims : collectWorkingDirCandidates (sampleBody "/h/u/p/q/C") = [⟨"/h/u/p/q".toList,.wdPlain⟩] := by decide +kernel
  have rooted : Rooted sampleRules ⟨"/h/u/p/q".toList,.wdPlain⟩ ['p'] "/h/u/p".toList := by
    unfold Rooted
    decide +kernel
  have same : collectWorkingDirCandidates (sampleBody "/h/u/p/q/C") = collectWorkingDirCandidates (sampleBody "/h/u/C") := by
    decide +kernel
  have steers := (promptSteersBelow sampleRules (sampleBody "/h/u/p/q/C") (sampleBody "/h/u/C") same).2
  refine ⟨by decide +kernel,by decide +kernel,steers ?_⟩
  rw [claims]
  rintro (⟨candidate,inside,name,override,-⟩ | none_)
  · cases List.mem_singleton.mp inside
    cases rooted.symm.trans override
  · exact none_ _ (.head _) _ _ rooted

end Clankermux.ProjectExtraction
