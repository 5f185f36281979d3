import Clankermux.ProjectPaths
import Mathlib.Tactic.IntervalCases

/-! The repository root that a client's instruction files name: the shallowest one between the
directory that the roots choose and the working directory. -/
namespace Clankermux.ProjectExtraction
open Pattern Splitting

def pathChar (ch : Char) : Bool := !(isWhitespace ch || ch == '(' || ch == ')')

def contentsOf : Text := "Contents of ".toList

def projectInstructions : Text := " (project instructions".toList

def projectInstructionsPattern : Pattern :=
  all [text contentsOf,group (all [text ['/'],.run pathChar 1 (some 512)]),text projectInstructions]

def ANCHOR_SCAN_MAX_CHARS : Nat := 262144

def ANCHOR_MARKER : Text := "(project instructions".toList

def agentMarkers : Pattern :=
  all [text ['/'],oneOf [text ".claude/".toList,text ".codex/worktrees/".toList,text ".pi/worktrees/".toList]]

def directoryOf (path : Text) : Option Text :=
  match path.reverse.dropWhile (· ≠ '/') with
  | [] => none
  | _::front => if front = [] then none else some front.reverse

def instructionPathToRoot (path : Text) : Option Text :=
  match agentMarkers.search [] path with
  | some (start,_) => if start.before = [] then directoryOf path else some start.before.reverse
  | none => directoryOf path

def boundedRoot (workingDir projectDir path : Text) : Option Text :=
  (instructionPathToRoot path).filter fun root => isAncestorOrSame root workingDir && isAncestorOrSame projectDir root

def depth (root : Text) : Nat := (toPathSegments root).length

def shallowest (workingDir projectDir : Text) (best : Option Text) : List Text → Option Text
  | [] => best
  | path::rest =>
    match boundedRoot workingDir projectDir path with
    | some root => shallowest workingDir projectDir (if best.all (depth root < depth ·) then some root else best) rest
    | none => shallowest workingDir projectDir best rest

def extractRepoRoot (text workingDir projectDir : Text) : Option Text :=
  if workingDir = [] ∨ projectDir = [] then none
  else if !(Pattern.text ANCHOR_MARKER).occurs text then none
  else shallowest workingDir projectDir none (projectInstructionsPattern.captures [] 0 text)

def repoRootToCandidate (root : Text) : Option Text := (toPathSegments root).getLast?

def InstructionPath (path : Text) : Prop :=
  ∃ name, path = '/'::name ∧ (∀ ch ∈ name, pathChar ch = true) ∧ 1 ≤ units name ∧ units name ≤ 512

def Names (text path : Text) : Prop :=
  InstructionPath path ∧ ∃ front back, text = front ++ (contentsOf ++ path ++ projectInstructions) ++ back

theorem memInstructions {p q} {found : Option Text} : (q,found) ∈ projectInstructionsPattern.ends p ↔
    ∃ path, found = some path ∧ InstructionPath path ∧ Behind p (contentsOf ++ path ++ projectInstructions) q := by
  simp only [projectInstructionsPattern,all,memSeq,memGroup,memText,memRun,memEmpty]
  constructor
  · rintro ⟨mid,_,_,⟨rfl,first⟩,⟨last,_,_,⟨⟨_,slash,_,_,⟨rfl,second⟩,⟨third,_,_,⟨rfl,name,run,all_,enough,short⟩,⟨rfl,rfl⟩,rfl⟩,rfl⟩,rfl⟩,
      ⟨_,_,_,⟨rfl,fourth⟩,⟨rfl,rfl⟩,rfl⟩,rfl⟩,rfl⟩
    have path := second.trans run
    refine ⟨'/'::name,by rw [path.taken]; rfl,⟨name,rfl,all_,enough,?_⟩,(first.trans path).trans fourth⟩
    rcases short with rfl | short
    · simp [units]
    · exact short 512 rfl
  · rintro ⟨path,rfl,⟨name,rfl,all_,enough,short⟩,behind⟩
    obtain ⟨last,before,fourth⟩ := behind.split
    obtain ⟨mid,first,path⟩ := before.split
    obtain ⟨slash,second,run⟩ := (show Behind mid (['/'] ++ name) last from path).split
    refine ⟨mid,none,some ('/'::name),⟨rfl,first⟩,⟨last,some ('/'::name),none,⟨⟨none,slash,none,none,⟨rfl,second⟩,
      ⟨last,none,none,⟨rfl,name,run,all_,enough,.inr ?_⟩,⟨rfl,rfl⟩,rfl⟩,rfl⟩,by rw [path.taken]⟩,
      ⟨q,none,none,⟨rfl,fourth⟩,⟨rfl,rfl⟩,rfl⟩,rfl⟩,rfl⟩
    intro m its
    cases its
    exact short

theorem InstructionPath.spaceless {path : Text} (its : InstructionPath path) : ' ' ∉ path := by
  obtain ⟨name,rfl,all_,-,-⟩ := its
  intro inside
  rcases List.mem_cons.mp inside with same | inside
  · cases same
  · cases all_ ' ' inside

theorem instructionsApart : projectInstructionsPattern.Apart := by
  rintro p ⟨last,found⟩ front back here whole some_ again
  obtain ⟨path,-,its,behind⟩ := memInstructions.mp here
  obtain ⟨⟨next,other⟩,there⟩ := Option.ne_none_iff_exists'.mp again
  obtain ⟨path',-,-,behind'⟩ := memInstructions.mp (List.mem_of_head? there)
  have long : 0 < front.length := List.length_pos_iff.mpr some_
  have size : contentsOf.length = 12 := rfl
  have size' : projectInstructions.length = 22 := rfl
  by_contra inside
  have inside : front.length < 12 + path.length + 22 := by
    rw [behind.1] at inside
    simp only [List.length_append] at inside
    omega
  -- The first match gives the text around the second one, which has its own first word there.
  have word : ∀ m < 12, p.rest[front.length + m]? = contentsOf[m]? := by
    intro m small
    rw [whole,List.getElem?_append_right (by omega),Nat.add_sub_cancel_left,show back = _ from behind'.1]
    simp only [List.append_assoc]
    exact List.getElem?_append_left (by omega)
  have start : ∀ i < 12, p.rest[i]? = contentsOf[i]? := by
    intro i small
    rw [behind.1]
    simp only [List.append_assoc]
    exact List.getElem?_append_left (by omega)
  have middle : ∀ i < path.length, p.rest[12 + i]? = path[i]? := by
    intro i small
    rw [behind.1]
    simp only [List.append_assoc]
    rw [List.getElem?_append_right (by omega),size,Nat.add_sub_cancel_left]
    exact List.getElem?_append_left small
  have ending : ∀ i < 22, p.rest[12 + path.length + i]? = projectInstructions[i]? := by
    intro i small
    rw [behind.1,List.append_assoc,List.getElem?_append_right (by simp [size]),List.length_append,size,Nat.add_sub_cancel_left]
    exact List.getElem?_append_left (by omega)
  have first := word 0 (by omega)
  rw [Nat.add_zero] at first
  rcases Nat.lt_or_ge front.length 12 with early | late
  · rw [start _ early] at first
    generalize front.length = k at *
    interval_cases k
    all_goals cases first
  rcases Nat.lt_or_ge front.length (12 + path.length) with mid | far
  · obtain ⟨m,same,some_⟩ : ∃ m, front.length + m = 12 + path.length ∧ 0 < m := ⟨12 + path.length - front.length,by omega,by omega⟩
    rcases Nat.lt_trichotomy m 8 with short | exact_ | longer
    · have blank := word m (by omega)
      rw [same,← Nat.add_zero (12 + path.length),ending 0 (by omega)] at blank
      interval_cases m
      all_goals cases blank
    · have of_ := word 9 (by omega)
      rw [show front.length + 9 = 12 + path.length + 1 by omega,ending 1 (by omega)] at of_
      cases of_
    · have blank := word 8 (by omega)
      rw [show front.length + 8 = 12 + (front.length + 8 - 12) by omega,middle _ (by omega)] at blank
      exact its.spaceless (List.mem_of_getElem? (blank.trans (by decide)))
  · obtain ⟨i,same⟩ := Nat.exists_eq_add_of_le far
    rw [same,ending i (by omega)] at first
    have small : i < 22 := by omega
    interval_cases i
    all_goals cases first

theorem pathsSame {path path' more more' : Text} (free : ' ' ∉ path) (free' : ' ' ∉ path')
    (same : path ++ (projectInstructions ++ more) = path' ++ (projectInstructions ++ more')) : path = path' := by
  have cuts := congrArg (fun text => (cut ' ' text).1.head?) same
  rw [show projectInstructions = ' '::projectInstructions.tail from rfl] at cuts
  simp only [List.cons_append] at cuts
  rw [cutBlock free,cutBlock free'] at cuts
  exact Option.some.inj cuts

theorem memCapturesNames {text path : Text} : path ∈ projectInstructionsPattern.captures [] 0 text ↔ Names text path := by
  rw [memCaptures instructionsApart]
  constructor
  · rintro ⟨front,back,last,rfl,-,-,here⟩
    obtain ⟨path',same,its,behind⟩ := memInstructions.mp (List.mem_of_head? here)
    cases same
    exact ⟨its,front,last.rest,by rw [List.append_assoc,← behind.1]⟩
  · rintro ⟨its,front,back,rfl⟩
    obtain ⟨place,at_⟩ : ∃ place : Place, place = ⟨front.reverse ++ [],(contentsOf ++ path ++ projectInstructions) ++ back⟩ := ⟨_,rfl⟩
    have here : (⟨_,back⟩,some path) ∈ projectInstructionsPattern.ends place :=
      memInstructions.mpr ⟨path,rfl,its,by rw [at_],rfl⟩
    obtain ⟨⟨last,found⟩,first⟩ := Option.ne_none_iff_exists'.mp fun none_ =>
      List.ne_nil_of_mem here (List.head?_eq_none_iff.mp none_)
    obtain ⟨path',rfl,its',behind⟩ := memInstructions.mp (List.mem_of_head? first)
    have same : path = path' := by
      have texts := behind.1
      rw [at_] at texts
      simp only [List.append_assoc,List.append_cancel_left_eq] at texts
      exact pathsSame its.spaceless its'.spaceless texts
    have some_ : contentsOf ≠ [] := by decide
    refine ⟨front,(contentsOf ++ path ++ projectInstructions) ++ back,last,by rw [List.append_assoc],Nat.zero_le _,by simp [some_],?_⟩
    rw [← at_,first,same]

def NamesDirectory (text : Text) (directory : List Text) : Prop :=
  ∃ path root, Names text path ∧ instructionPathToRoot path = some root ∧ toPathSegments root = directory

structure Between (workingDir projectDir : Text) (directory : List Text) : Prop where
  below : toPathSegments projectDir <+: directory
  above : directory <+: toPathSegments workingDir

structure Anchors (text workingDir projectDir : Text) (directory : List Text) : Prop where
  named : NamesDirectory text directory
  between : Between workingDir projectDir directory
  shallowest : ∀ other, NamesDirectory text other → Between workingDir projectDir other → directory.length ≤ other.length

theorem isAncestorIff {ancestor path : Text} : isAncestorOrSame ancestor path = true ↔
    toPathSegments ancestor ≠ [] ∧ toPathSegments ancestor <+: toPathSegments path := by
  simp [isAncestorOrSame]

section Shallowest
variable {text workingDir projectDir : Text}

theorem boundedRootIff (some_ : toPathSegments projectDir ≠ []) {path root : Text} :
    boundedRoot workingDir projectDir path = some root ↔
      instructionPathToRoot path = some root ∧ Between workingDir projectDir (toPathSegments root) := by
  rw [boundedRoot,Option.filter_eq_some_iff,Bool.and_eq_true,isAncestorIff,isAncestorIff]
  constructor
  · rintro ⟨its,⟨-,above⟩,-,below⟩
    exact ⟨its,below,above⟩
  · rintro ⟨its,below,above⟩
    refine ⟨its,⟨fun empty => ?_,above⟩,some_,below⟩
    rw [empty,List.prefix_nil] at below
    exact some_ below

theorem shallowestNone (paths : List Text) : ∀ best, shallowest workingDir projectDir best paths = none ↔
    best = none ∧ ∀ path ∈ paths, boundedRoot workingDir projectDir path = none := by
  induction paths with
  | nil => simp [shallowest]
  | cons path rest ih =>
    intro best
    rw [shallowest,List.forall_mem_cons]
    cases bounded : boundedRoot workingDir projectDir path with
    | none => simp [ih]
    | some root =>
      simp only [ih]
      split_ifs with deeper
      · simp
      · cases best with
        | none => simp at deeper
        | some other => simp

theorem shallowestSome (paths : List Text) : ∀ best root, shallowest workingDir projectDir best paths = some root →
    (best = some root ∨ ∃ path ∈ paths, boundedRoot workingDir projectDir path = some root) ∧
    (∀ other ∈ best, depth root ≤ depth other) ∧
    ∀ path ∈ paths, ∀ other, boundedRoot workingDir projectDir path = some other → depth root ≤ depth other := by
  induction paths with
  | nil =>
    intro best root found
    subst found
    simp
  | cons path rest ih =>
    intro best root found
    rw [shallowest] at found
    cases bounded : boundedRoot workingDir projectDir path with
    | none =>
      simp only [bounded] at found
      obtain ⟨source,least,all_⟩ := ih best root found
      refine ⟨source.imp id (fun ⟨other,inside,its⟩ => ⟨other,.tail _ inside,its⟩),least,?_⟩
      rw [List.forall_mem_cons]
      exact ⟨fun other its => (nomatch bounded.symm.trans its),all_⟩
    | some mine =>
      simp only [bounded] at found
      obtain ⟨source,least,all_⟩ := ih _ root found
      rw [List.forall_mem_cons]
      -- The best one before is kept where it is no deeper than this path's.
      split_ifs at source least with deeper
      · refine ⟨?_,?_,?_,all_⟩
        · rcases source with same | ⟨other,inside,its⟩
          · exact .inr ⟨path,.head _,bounded.trans same⟩
          · exact .inr ⟨other,.tail _ inside,its⟩
        · intro other its
          cases its
          exact (least mine rfl).trans (Nat.le_of_lt (by simpa using deeper))
        · intro other its
          cases bounded.symm.trans its
          exact least mine rfl
      · refine ⟨source.imp id (fun ⟨other,inside,its⟩ => ⟨other,.tail _ inside,its⟩),least,?_,all_⟩
        intro other its
        cases bounded.symm.trans its
        cases best with
        | none => simp at deeper
        | some first => exact (least first rfl).trans (by simpa using deeper)

theorem markerOccurs {path : Text} (names : Names text path) : (Pattern.text ANCHOR_MARKER).occurs text = true := by
  obtain ⟨-,front,back,rfl⟩ := names
  have whole : front ++ (contentsOf ++ path ++ projectInstructions) ++ back =
      (front ++ (contentsOf ++ path ++ [' '])) ++ (ANCHOR_MARKER ++ back) := by
    rw [show projectInstructions = [' '] ++ ANCHOR_MARKER from rfl]
    simp only [List.append_assoc]
  rw [occurs,whole]
  refine searchSome _ [] (List.ne_nil_of_mem ((memText (q := ⟨_,back⟩) ANCHOR_MARKER).mpr ⟨rfl,rfl,rfl⟩))

theorem extractRepoRootSpec (present : workingDir ≠ []) (chosen : toPathSegments projectDir ≠ []) :
    (∀ root, extractRepoRoot text workingDir projectDir = some root → Anchors text workingDir projectDir (toPathSegments root)) ∧
    (extractRepoRoot text workingDir projectDir = none → ∀ directory, ¬ Anchors text workingDir projectDir directory) := by
  have some_ : projectDir ≠ [] := by
    rintro rfl
    exact chosen rfl
  rw [extractRepoRoot,if_neg (not_or_intro present some_)]
  constructor
  · intro root found
    split_ifs at found
    obtain ⟨source,-,least⟩ := shallowestSome _ none root found
    obtain ⟨path,inside,bounded⟩ := source.resolve_left (by simp)
    obtain ⟨its,between⟩ := (boundedRootIff chosen).mp bounded
    refine ⟨⟨path,root,memCapturesNames.mp inside,its,rfl⟩,between,?_⟩
    rintro _ ⟨path',root',names,its',rfl⟩ between'
    exact least path' (memCapturesNames.mpr names) root' ((boundedRootIff chosen).mpr ⟨its',between'⟩)
  · rintro none_ directory ⟨⟨path,root,names,its,rfl⟩,between,-⟩
    rw [if_neg (by simp [markerOccurs names])] at none_
    have gone := ((shallowestNone _ _).mp none_).2 path (memCapturesNames.mpr names)
    cases gone.symm.trans ((boundedRootIff chosen).mpr ⟨its,between⟩)

theorem Anchors.same {directory other : List Text} (first : Anchors text workingDir projectDir directory)
    (second : Anchors text workingDir projectDir other) : directory = other := by
  have length := Nat.le_antisymm (first.shallowest other second.named second.between)
    (second.shallowest directory first.named first.between)
  exact (List.prefix_of_prefix_length_le first.between.above second.between.above (Nat.le_of_eq length)).eq_of_length length

end Shallowest

end Clankermux.ProjectExtraction
