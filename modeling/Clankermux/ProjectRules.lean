import Clankermux.ProjectPaths
import Clankermux.RunningBest
import Mathlib.Data.List.Forall2
import Mathlib.Data.Prod.Lex

/-! The configured rules read as a set: what a rule covers, which one answers, and that neither the
order nor the spelling of the rules has a say in it. -/
namespace Clankermux.ProjectExtraction
open RunningBest Splitting

/-- A rule without a segment is not configured and covers nothing. -/
def covers (path segments : List Text) : Bool := segments ≠ [] && matchesPrefix segments path

def specificity (segments : List Text) : ℕ ×ₗ ℕ := toLex (segments.length,literals segments)

/-- The roots the path is covered by, as their segments. -/
def covering (path roots : List Text) : List (List Text) := (roots.map toPathSegments).filter (covers path)

variable {path pattern segments : List Text} {roots : List Text} {overrides : List ProjectPathOverride}

theorem moreSpecificLess (candidate incumbent : List Text) :
    isMoreSpecific candidate incumbent = decide (specificity incumbent < specificity candidate) := by
  rw [isMoreSpecific,specificity,specificity,Bool.eq_iff_iff,decide_eq_true_eq,Prod.Lex.toLex_lt_toLex]
  by_cases same : candidate.length = incumbent.length
  · simp [same]
  · simp [same,Ne.symm same]

theorem matchesIff : matchesPrefix pattern path = true ↔
    List.Forall₂ (fun p segment => p = WILDCARD ∨ p = segment) pattern (path.take pattern.length) := by
  induction pattern generalizing path with
  | nil => simp [matchesPrefix]
  | cons p rest ih =>
    cases path with
    | nil => simp [matchesPrefix]
    | cons segment more => simp [matchesPrefix,ih]

theorem matchesShorter (matches_ : matchesPrefix pattern path = true) : pattern.length ≤ path.length := by
  have same := (matchesIff.mp matches_).length_eq
  rw [List.length_take] at same
  omega

theorem overridesBest (held : Option (ProjectPathOverride × List Text)) : matchOverrides path held overrides =
    keepBest (fun rule => specificity rule.2) held
      ((overrides.map fun override => (override,toPathSegments override.pathPrefix)).filter fun rule => covers path rule.2) := by
  induction overrides generalizing held with
  | nil => rfl
  | cons override rest ih =>
    rw [matchOverrides,List.map_cons,List.filter_cons]
    by_cases blank : toPathSegments override.pathPrefix = []
    · simp [covers,blank,ih]
    · cases within : matchesPrefix (toPathSegments override.pathPrefix) path with
      | false => simp [covers,blank,within,ih]
      | true => simp [covers,blank,within,ih,keepBest,moreSpecificLess]

theorem rootsBest (held : Option (List Text)) : matchRoots path held roots =
    if (covering path roots).any (fun segments => segments.length = path.length) then none
    else keepBest specificity held (covering path roots) := by
  induction roots generalizing held with
  | nil => rfl
  | cons root rest ih =>
    have first : covering path (root::rest) =
        if covers path (toPathSegments root) then toPathSegments root::covering path rest else covering path rest := List.filter_cons
    rw [matchRoots,first]
    by_cases blank : toPathSegments root = []
    · simp [covers,blank,ih]
    · cases within : matchesPrefix (toPathSegments root) path with
      | false => simp [covers,blank,within,ih]
      | true =>
        by_cases container : (toPathSegments root).length = path.length
        · simp [covers,blank,within,container]
        · have short : ¬ (toPathSegments root).length > path.length := Nat.not_lt.mpr (matchesShorter within)
          have here : covers path (toPathSegments root) = true := by simp [covers,blank,within]
          have less : held.all (isMoreSpecific (toPathSegments root)) =
              held.all (fun other => decide (specificity other < specificity (toPathSegments root))) := by
            cases held <;> simp [moreSpecificLess]
          simp only [if_neg blank,Bool.not_true,Bool.false_eq_true,if_false,if_neg container,if_neg short,ih,here,if_true,
            List.any_cons,decide_eq_false container,Bool.false_or,keepBest,less]
          split_ifs <;> rfl

theorem memCovering : segments ∈ covering path roots ↔ ∃ root ∈ roots, toPathSegments root = segments ∧ covers path segments = true := by
  simp only [covering,List.mem_filter,List.mem_map]
  exact ⟨fun ⟨⟨root,inside,same⟩,its⟩ => ⟨root,inside,same,its⟩,fun ⟨root,inside,same,its⟩ => ⟨⟨root,inside,same⟩,its⟩⟩

theorem coversShorter (its : covers path segments = true) : segments.length ≤ path.length :=
  matchesShorter (Bool.and_eq_true_iff.mp its).2

/-- The directory of the path that is one segment below the root. -/
def projectOf (path root : List Text) : Option (Text × Text) :=
  path[root.length]?.map fun segment => (segment,'/'::joined (path.take (root.length + 1)))

theorem detailedBest : matchProjectRootDetailed path roots =
    if (covering path roots).any (fun segments => segments.length = path.length) then none
    else (keepBest specificity none (covering path roots)).bind (projectOf path) := by
  rw [matchProjectRootDetailed,rootsBest]
  split_ifs <;> rfl

theorem detailedNone : matchProjectRootDetailed path roots = none ↔
    (∀ root ∈ roots, covers path (toPathSegments root) = false) ∨
      ∃ root ∈ roots, covers path (toPathSegments root) = true ∧ (toPathSegments root).length = path.length := by
  have container : (covering path roots).any (fun segments => segments.length = path.length) = true ↔
      ∃ root ∈ roots, covers path (toPathSegments root) = true ∧ (toPathSegments root).length = path.length := by
    simp only [List.any_eq_true,memCovering,decide_eq_true_eq]
    exact ⟨fun ⟨_,⟨root,inside,rfl,its⟩,whole⟩ => ⟨root,inside,its,whole⟩,fun ⟨root,inside,its,whole⟩ => ⟨_,⟨root,inside,rfl,its⟩,whole⟩⟩
  have nothing : covering path roots = [] ↔ ∀ root ∈ roots, covers path (toPathSegments root) = false := by
    simp [covering,List.filter_eq_nil_iff]
  rw [detailedBest,← container,← nothing]
  split_ifs with its
  · simp [its]
  · simp only [its,Bool.false_eq_true,or_false]
    cases best : keepBest specificity none (covering path roots) with
    | none => simp [(bestNone.mp best).2]
    | some segments =>
      have inside : segments ∈ covering path roots := by simpa using (bestAmong best).1
      have shorter : segments.length < path.length := by
        obtain ⟨root,there,rfl,covered⟩ := memCovering.mp inside
        refine lt_of_le_of_ne (coversShorter covered) fun whole => its (container.mpr ⟨root,there,covered,whole⟩)
      have filled : covering path roots ≠ [] := List.ne_nil_of_mem inside
      simp [projectOf,shorter,filled]

theorem detailedLongest {segment projectDir : Text} (found : matchProjectRootDetailed path roots = some (segment,projectDir)) :
    ∃ root ∈ roots, covers path (toPathSegments root) = true ∧
      (∀ other ∈ roots, covers path (toPathSegments other) = true → (toPathSegments other).length ≤ (toPathSegments root).length) ∧
      path[(toPathSegments root).length]? = some segment ∧
      projectDir = '/'::joined (path.take ((toPathSegments root).length + 1)) := by
  rw [detailedBest] at found
  split_ifs at found
  obtain ⟨best,kept,its⟩ := Option.bind_eq_some_iff.mp found
  obtain ⟨from_,-,above⟩ := bestAmong kept
  obtain ⟨root,inside,rfl,covered⟩ := memCovering.mp (by simpa using from_)
  obtain ⟨after,at_,same⟩ := Option.map_eq_some_iff.mp its
  cases same
  refine ⟨root,inside,covered,fun other there covers_ => ?_,at_,rfl⟩
  have below := above _ (memCovering.mpr ⟨other,there,rfl,covers_⟩)
  exact (Prod.Lex.toLex_le_toLex.mp below).elim le_of_lt fun tied => tied.1.le

/-- The rules are a set of segment lists to the roots' matcher. -/
theorem detailedSet {others : List Text} (same : ∀ segments, segments ∈ roots.map toPathSegments ↔ segments ∈ others.map toPathSegments) :
    matchProjectRootDetailed path roots = matchProjectRootDetailed path others := by
  have alike : ∀ segments, segments ∈ covering path roots ↔ segments ∈ covering path others := fun segments => by
    rw [covering,covering,List.mem_filter,List.mem_filter,same]
  have container : (covering path roots).any (fun segments => segments.length = path.length) =
      (covering path others).any (fun segments => segments.length = path.length) := by
    rw [Bool.eq_iff_iff,List.any_eq_true,List.any_eq_true]
    simp only [alike]
  rw [detailedBest,detailedBest,container]
  split_ifs
  · rfl
  · cases here : keepBest specificity none (covering path roots) with
    | none =>
      have nothing : covering path others = [] :=
        List.eq_nil_iff_forall_not_mem.mpr fun segments inside => by simpa [(bestNone.mp here).2] using (alike segments).mpr inside
      rw [nothing]
      rfl
    | some first =>
      cases there : keepBest specificity none (covering path others) with
      | none =>
        have inside := (alike first).mp (by simpa using (bestAmong here).1)
        simp [(bestNone.mp there).2] at inside
      | some second =>
        -- The depths alone decide, and the best ones are equally deep.
        have tied : specificity first = specificity second := bestScore alike here there
        have depth : first.length = second.length := congrArg (fun tie => (ofLex tie).1) tied
        simp [projectOf,depth]

def overrideRules (overrides : List ProjectPathOverride) : List (ProjectPathOverride × List Text) :=
  overrides.map fun override => (override,toPathSegments override.pathPrefix)

theorem overrideBest : matchProjectOverride path overrides =
    (keepBest (fun rule => specificity rule.2) none ((overrideRules overrides).filter fun rule => covers path rule.2)).map Prod.fst := by
  rw [matchProjectOverride,overridesBest,overrideRules]

theorem memRules {rule : ProjectPathOverride × List Text} :
    rule ∈ (overrideRules overrides).filter (fun rule => covers path rule.2) ↔
      rule.1 ∈ overrides ∧ rule.2 = toPathSegments rule.1.pathPrefix ∧ covers path (toPathSegments rule.1.pathPrefix) = true := by
  rw [overrideRules,List.mem_filter,List.mem_map]
  constructor
  · rintro ⟨⟨override,inside,rfl⟩,its⟩
    exact ⟨inside,rfl,its⟩
  · rintro ⟨inside,same,its⟩
    exact ⟨⟨rule.1,inside,Prod.ext rfl same.symm⟩,same ▸ its⟩

theorem overrideFound {override : ProjectPathOverride} (found : matchProjectOverride path overrides = some override) :
    override ∈ overrides ∧ covers path (toPathSegments override.pathPrefix) = true ∧
      ∀ other ∈ overrides, covers path (toPathSegments other.pathPrefix) = true →
        specificity (toPathSegments other.pathPrefix) ≤ specificity (toPathSegments override.pathPrefix) := by
  rw [overrideBest] at found
  obtain ⟨⟨override,segments⟩,kept,rfl⟩ := Option.map_eq_some_iff.mp found
  obtain ⟨from_,-,above⟩ := bestAmong kept
  obtain ⟨inside,same,its⟩ := memRules.mp (by simpa using from_)
  exact ⟨inside,its,fun other there covered => same ▸ above (other,_) (memRules.mpr ⟨there,rfl,covered⟩)⟩

theorem overrideNone : matchProjectOverride path overrides = none ↔
    ∀ override ∈ overrides, covers path (toPathSegments override.pathPrefix) = false := by
  rw [overrideBest,Option.map_eq_none_iff,bestNone,List.eq_nil_iff_forall_not_mem]
  simp only [memRules,true_and,not_and,Bool.not_eq_true,Prod.forall]
  exact ⟨fun nothing override inside => nothing override _ inside rfl,fun nothing override _ inside _ => nothing override inside⟩

/-- Two overrides that cover the path and are equally deep and equally literal. -/
def Tied (path : List Text) (overrides : List ProjectPathOverride) : Prop :=
  ∃ a ∈ overrides, ∃ b ∈ overrides, a ≠ b ∧ covers path (toPathSegments a.pathPrefix) = true ∧
    covers path (toPathSegments b.pathPrefix) = true ∧
    (toPathSegments a.pathPrefix).length = (toPathSegments b.pathPrefix).length ∧
    literals (toPathSegments a.pathPrefix) = literals (toPathSegments b.pathPrefix)

theorem overrideSet {others : List ProjectPathOverride} (same : ∀ override, override ∈ overrides ↔ override ∈ others)
    (apart : ¬ Tied path overrides) : matchProjectOverride path overrides = matchProjectOverride path others := by
  cases here : matchProjectOverride path overrides with
  | none => exact (overrideNone.mpr fun override inside => overrideNone.mp here override ((same override).mpr inside)).symm
  | some a =>
    cases there : matchProjectOverride path others with
    | none =>
      obtain ⟨inside,covered,-⟩ := overrideFound here
      exact absurd covered (by simp [overrideNone.mp there a ((same a).mp inside)])
    | some b =>
      obtain ⟨hereA,coversA,aboveA⟩ := overrideFound here
      obtain ⟨thereB,coversB,aboveB⟩ := overrideFound there
      have hereB := (same b).mpr thereB
      have tied : specificity (toPathSegments a.pathPrefix) = specificity (toPathSegments b.pathPrefix) :=
        le_antisymm (aboveB a ((same a).mp hereA) coversA) (aboveA b hereB coversB)
      have depth := congrArg (fun tie => (ofLex tie).1) tied
      have literal := congrArg (fun tie => (ofLex tie).2) tied
      by_contra other
      exact apart ⟨a,hereA,b,hereB,fun equal => other (congrArg some equal),coversA,coversB,depth,literal⟩

theorem segmentsJoin (front back : Text) : toPathSegments (front ++ '/'::back) = toPathSegments front ++ toPathSegments back := by
  have split : slashed (front ++ '/'::back) = slashed front ++ '/'::slashed back := by simp [slashed]
  rw [toPathSegments,toPathSegments,toPathSegments,split,splitOnCut,splitOnCut,splitOnCut,cutAppend,cutBlock (cutOpen _)]
  simp only [List.filter_append,List.append_assoc,List.cons_append,List.filter_cons,List.filter_nil]
  split_ifs <;> rfl

theorem segmentsBack (front back : Text) : toPathSegments (front ++ '\\'::back) = toPathSegments (front ++ '/'::back) := by
  simp [toPathSegments,slashed]

theorem segmentsOne {name : Text} (its : Segment name) : toPathSegments name = [name] := by
  rw [toPathSegments,slashedFree its.2.2,splitOnCut,cutFree name its.2.1]
  simp [its.1]

theorem matchesAppend {front rest : List Text} (above more : List Text) (same : front.length = above.length) :
    matchesPrefix (front ++ rest) (above ++ more) = (matchesPrefix front above && matchesPrefix rest more) := by
  induction front generalizing above with
  | nil => cases List.length_eq_zero_iff.mp same.symm; rfl
  | cons p front ih =>
    cases above with
    | nil => cases same
    | cons segment above => simp [matchesPrefix,ih above (Nat.succ.inj same),Bool.and_assoc]

/-- A directory is not one of its neighbours whose name only begins like its own. -/
theorem neighbourApart {name extra : Text} (parent below : Text) (its : Segment name) (longer : Segment (name ++ extra))
    (more : extra ≠ []) (literal : name ≠ WILDCARD) :
    covers (toPathSegments (parent ++ '/'::(name ++ extra) ++ '/'::below)) (toPathSegments (parent ++ '/'::name)) = false := by
  have other : name ≠ name ++ extra := fun same => more (List.append_right_eq_self.mp same.symm)
  rw [segmentsJoin,segmentsJoin,segmentsJoin,segmentsOne its,segmentsOne longer,List.append_assoc,covers,
    matchesAppend _ _ rfl,List.singleton_append,matchesPrefix]
  simp [literal,other]

theorem literalPairs {texts : List Text} (literal : WILDCARD ∉ pattern) :
    List.Forall₂ (fun p segment => p = WILDCARD ∨ p = segment) pattern texts ↔ pattern = texts := by
  induction pattern generalizing texts with
  | nil => simp [eq_comm]
  | cons p rest ih =>
    rw [List.mem_cons,not_or] at literal
    cases texts with
    | nil => simp
    | cons segment more => simp [Ne.symm literal.1,ih literal.2]

/-- The rules are read as a set, and the deepest one answers. -/
theorem rulesRead (workingDir : Text) (roots : List Text) (overrides : List ProjectPathOverride) :
    ((∀ others again, (∀ segments, segments ∈ roots.map toPathSegments ↔ segments ∈ others.map toPathSegments) →
        toPathSegments again = toPathSegments workingDir →
        matchProjectRootDetailed (toPathSegments again) others = matchProjectRootDetailed (toPathSegments workingDir) roots) ∧
      (∀ front back, toPathSegments (front ++ '\\'::back) = toPathSegments (front ++ '/'::back) ∧
        toPathSegments (front ++ '/'::back) = toPathSegments front ++ toPathSegments back) ∧
      (matchProjectRootDetailed (toPathSegments workingDir) roots = none ↔
        (∀ root ∈ roots, covers (toPathSegments workingDir) (toPathSegments root) = false) ∨
          ∃ root ∈ roots, covers (toPathSegments workingDir) (toPathSegments root) = true ∧
            (toPathSegments root).length = (toPathSegments workingDir).length) ∧
      (∀ segment projectDir, matchProjectRootDetailed (toPathSegments workingDir) roots = some (segment,projectDir) →
        ∃ root ∈ roots, covers (toPathSegments workingDir) (toPathSegments root) = true ∧
          (∀ other ∈ roots, covers (toPathSegments workingDir) (toPathSegments other) = true →
            (toPathSegments other).length ≤ (toPathSegments root).length) ∧
          (toPathSegments workingDir)[(toPathSegments root).length]? = some segment ∧
          projectDir = '/'::joined ((toPathSegments workingDir).take ((toPathSegments root).length + 1)) ∧
          toPathSegments projectDir = (toPathSegments workingDir).take ((toPathSegments root).length + 1))) ∧
    ((matchProjectOverride (toPathSegments workingDir) overrides = none ↔
        ∀ override ∈ overrides, covers (toPathSegments workingDir) (toPathSegments override.pathPrefix) = false) ∧
      (∀ override, matchProjectOverride (toPathSegments workingDir) overrides = some override →
        override ∈ overrides ∧ covers (toPathSegments workingDir) (toPathSegments override.pathPrefix) = true ∧
        ∀ other ∈ overrides, covers (toPathSegments workingDir) (toPathSegments other.pathPrefix) = true →
          isMoreSpecific (toPathSegments other.pathPrefix) (toPathSegments override.pathPrefix) = false) ∧
      (∀ others, (∀ override, override ∈ overrides ↔ override ∈ others) → ¬ Tied (toPathSegments workingDir) overrides →
        matchProjectOverride (toPathSegments workingDir) overrides = matchProjectOverride (toPathSegments workingDir) others)) ∧
    (∀ rule, covers (toPathSegments workingDir) (toPathSegments rule) = true ↔ toPathSegments rule ≠ [] ∧
      List.Forall₂ (fun p segment => p = WILDCARD ∨ p = segment) (toPathSegments rule)
        ((toPathSegments workingDir).take (toPathSegments rule).length)) ∧
    (∀ rule, WILDCARD ∉ toPathSegments rule →
      (covers (toPathSegments workingDir) (toPathSegments rule) = true ↔
        toPathSegments rule ≠ [] ∧ toPathSegments rule <+: toPathSegments workingDir)) ∧
    (∀ parent name extra below, Segment name → Segment (name ++ extra) → extra ≠ [] → name ≠ WILDCARD →
      workingDir = parent ++ '/'::(name ++ extra) ++ '/'::below →
      covers (toPathSegments workingDir) (toPathSegments (parent ++ '/'::name)) = false) := by
  have coversIff : ∀ rule, covers (toPathSegments workingDir) (toPathSegments rule) = true ↔ toPathSegments rule ≠ [] ∧
      List.Forall₂ (fun p segment => p = WILDCARD ∨ p = segment) (toPathSegments rule)
        ((toPathSegments workingDir).take (toPathSegments rule).length) := fun rule => by
    rw [covers,Bool.and_eq_true_iff,decide_eq_true_eq,matchesIff]
  refine ⟨⟨fun others again same spelled => ?_,fun front back => ⟨segmentsBack front back,segmentsJoin front back⟩,detailedNone,
    fun segment projectDir found => ?_⟩,⟨overrideNone,fun override found => ?_,fun others same apart => overrideSet same apart⟩,
    coversIff,fun rule literal => ?_,?_⟩
  · rw [spelled]
    exact (detailedSet same).symm
  · obtain ⟨root,inside,covered,longest,at_,rfl⟩ := detailedLongest found
    refine ⟨root,inside,covered,longest,at_,rfl,toPathSegmentsJoined _ (fun empty => ?_) fun segment there =>
      toPathSegmentsSegment workingDir segment (List.mem_of_mem_take there)⟩
    rw [List.take_eq_nil_iff] at empty
    rcases empty with zero | nil
    · omega
    · simp [nil] at at_
  · obtain ⟨inside,covered,most⟩ := overrideFound found
    exact ⟨inside,covered,fun other there covers_ => by simpa [moreSpecificLess] using most other there covers_⟩
  · rw [coversIff,List.prefix_iff_eq_take,literalPairs literal]
  · rintro parent name extra below its longer more literal rfl
    exact neighbourApart parent below its longer more literal

end Clankermux.ProjectExtraction
