import Mathlib.Data.List.Chain

/-! Lists whose items of one key that stand side by side become one group. -/
namespace Clankermux.AdjacentGroups
variable {κ α : Type*} [DecidableEq κ]

def add (gs : List (κ × List α)) (item : κ × List α) : List (κ × List α) :=
  match gs.getLast? with
  | some last => if last.1 = item.1 then gs.dropLast ++ [(last.1,last.2 ++ item.2)] else gs ++ [item]
  | none => gs ++ [item]

def groups (items : List (κ × List α)) : List (κ × List α) := items.foldl add []

def Alternate (gs : List (κ × List α)) : Prop := gs.IsChain (fun a b => a.1 ≠ b.1)

variable {gs front behind items first second : List (κ × List α)} {item last : κ × List α}

theorem addFirst : add [] item = [item] := rfl

theorem addSame (same : last.1 = item.1) : add (gs ++ [last]) item = gs ++ [(last.1,last.2 ++ item.2)] := by simp [add,same]

theorem addOther (other : last.1 ≠ item.1) : add (gs ++ [last]) item = gs ++ [last,item] := by simp [add,other]

theorem addCases (gs : List (κ × List α)) (item : κ × List α) :
    (gs = [] ∧ add gs item = [item]) ∨ ∃ before last, gs = before ++ [last] ∧
      ((last.1 ≠ item.1 ∧ add gs item = gs ++ [item]) ∨ (last.1 = item.1 ∧ add gs item = before ++ [(last.1,last.2 ++ item.2)])) := by
  rcases List.eq_nil_or_concat' gs with rfl | ⟨before,last,rfl⟩
  · exact .inl ⟨rfl,rfl⟩
  · refine .inr ⟨before,last,rfl,?_⟩
    by_cases same : last.1 = item.1
    · exact .inr ⟨same,addSame same⟩
    · exact .inl ⟨same,by rw [addOther same]; simp⟩

theorem addBehind (some_ : behind ≠ []) : add (front ++ behind) item = front ++ add behind item := by
  obtain ⟨before,last,rfl⟩ := (List.eq_nil_or_concat' behind).resolve_left some_
  rw [← List.append_assoc]
  by_cases same : last.1 = item.1
  · rw [addSame same,addSame same,List.append_assoc]
  · rw [addOther same,addOther same,List.append_assoc]

theorem groupsNil : groups ([] : List (κ × List α)) = [] := rfl

theorem groupsSnoc : groups (items ++ [item]) = add (groups items) item := by simp [groups]

theorem groupsSplit : ∀ {i}, i ≤ (groups items).length → ∃ first second, items = first ++ second ∧
    groups first = (groups items).take i ∧ groups second = (groups items).drop i := by
  induction items using List.reverseRecOn with
  | nil => exact fun _ => ⟨[],[],rfl,by simp [groupsNil],by simp [groupsNil]⟩
  | append_singleton items item ih =>
    intro i inside
    rw [groupsSnoc] at inside ⊢
    by_cases all : i = (add (groups items) item).length
    · refine ⟨items ++ [item],[],by simp,?_,?_⟩
      · rw [all,List.take_length,groupsSnoc]
      · rw [all,List.drop_length,groupsNil]
    · have within : i ≤ (groups items).length ∧ (add (groups items) item).take i = (groups items).take i ∧
          (add (groups items) item).drop i = add ((groups items).drop i) item := by
        rcases addCases (groups items) item with ⟨empty,added⟩ | ⟨before,last,same,⟨other,added⟩ | ⟨joins,added⟩⟩
        · rw [added,List.length_singleton] at all inside
          have zero : i = 0 := by omega
          subst zero
          simp
        · rw [added,List.length_append,List.length_singleton] at all inside
          have le : i ≤ (groups items).length := by omega
          refine ⟨le,by rw [added,List.take_append_of_le_length le],?_⟩
          by_cases end_ : i = (groups items).length
          · rw [added,end_,List.drop_length,List.drop_left,addFirst]
          · have rest : (groups items).drop i ≠ [] := by simp; omega
            have whole := @addBehind κ α _ ((groups items).take i) _ item rest
            rw [List.take_append_drop,added] at whole
            rw [added,List.drop_append_of_le_length le]
            have taken := congrArg (List.drop i) whole
            rw [List.drop_append_of_le_length le] at taken
            rw [taken,List.drop_left' (by simp [le])]
        · have size : (groups items).length = before.length + 1 := by rw [same]; simp
          rw [added,List.length_append,List.length_singleton] at all inside
          have le : i ≤ before.length := by omega
          refine ⟨by omega,?_,?_⟩
          · rw [added,same,List.take_append_of_le_length le,List.take_append_of_le_length le]
          · rw [added,same,List.drop_append_of_le_length le,List.drop_append_of_le_length le,addSame joins]
      obtain ⟨le,taken,dropped⟩ := within
      obtain ⟨first,second,rfl,one,two⟩ := ih le
      refine ⟨first,second ++ [item],by simp,one.trans taken.symm,?_⟩
      rw [groupsSnoc,two,dropped]

theorem addAlternate (alternate : Alternate gs) : Alternate (add gs item) := by
  rcases addCases gs item with ⟨-,added⟩ | ⟨before,last,rfl,⟨other,added⟩ | ⟨-,added⟩⟩
  · rw [added]
    exact List.isChain_singleton _
  · rw [added]
    refine List.IsChain.append alternate (List.isChain_singleton _) ?_
    simpa using other
  · rw [added]
    unfold Alternate at alternate ⊢
    rw [List.isChain_append] at alternate ⊢
    refine ⟨alternate.1,List.isChain_singleton _,?_⟩
    simpa using alternate.2.2

theorem groupsAlternate : Alternate (groups items) := by
  induction items using List.reverseRecOn with
  | nil => exact List.isChain_nil
  | append_singleton items item ih =>
    rw [groupsSnoc]
    exact addAlternate ih

theorem groupsFixed (alternate : Alternate gs) : groups gs = gs := by
  induction gs using List.reverseRecOn with
  | nil => rfl
  | append_singleton gs item ih =>
    have parts := List.isChain_append.mp alternate
    rw [groupsSnoc,ih parts.1]
    rcases List.eq_nil_or_concat' gs with rfl | ⟨before,last,rfl⟩
    · rfl
    · rw [addOther (by simpa using parts.2.2)]
      simp

theorem groupsRead {β : Type*} (f : κ → α → List β) :
    (groups items).flatMap (fun g => g.2.flatMap (f g.1)) = items.flatMap (fun g => g.2.flatMap (f g.1)) := by
  induction items using List.reverseRecOn with
  | nil => rfl
  | append_singleton items item ih =>
    rw [groupsSnoc,List.flatMap_append,← ih]
    rcases addCases (groups items) item with ⟨empty,added⟩ | ⟨before,last,same,⟨-,added⟩ | ⟨joins,added⟩⟩
    · simp [empty,addFirst]
    · rw [added,List.flatMap_append]
    · rw [added,same]
      simp [joins]

theorem groupsAll {P : κ → List α → Prop} (each : ∀ g ∈ items, P g.1 g.2) (joined : ∀ key a b, P key a → P key b → P key (a ++ b)) :
    ∀ g ∈ groups items, P g.1 g.2 := by
  induction items using List.reverseRecOn with
  | nil => simp [groupsNil]
  | append_singleton items item ih =>
    have before := ih (fun g inside => each g (List.mem_append_left _ inside))
    have new := each item (by simp)
    intro g inside
    rw [groupsSnoc] at inside
    rcases addCases (groups items) item with ⟨-,added⟩ | ⟨front,last,same,⟨-,added⟩ | ⟨joins,added⟩⟩
    · rw [added] at inside
      cases List.mem_singleton.mp inside
      exact new
    · rw [added] at inside
      rcases List.mem_append.mp inside with old | added
      · exact before g old
      · cases List.mem_singleton.mp added
        exact new
    · rw [added] at inside
      rcases List.mem_append.mp inside with old | added
      · exact before g (by rw [same]; exact List.mem_append_left _ old)
      · cases List.mem_singleton.mp added
        exact joined last.1 last.2 item.2 (before last (by rw [same]; simp)) (joins ▸ new)

theorem snocForall {β γ : Type*} {R : β → γ → Prop} {last} : ∀ {front behind}, List.Forall₂ R (front ++ [last]) behind →
    ∃ before other, behind = before ++ [other] ∧ List.Forall₂ R front before ∧ R last other := by
  intro front
  induction front with
  | nil =>
    intro behind all
    cases all with
    | cons here rest =>
      cases rest
      exact ⟨[],_,rfl,.nil,here⟩
  | cons x front ih =>
    intro behind all
    cases all with
    | cons here rest =>
      obtain ⟨before,other,rfl,earlier,there⟩ := ih rest
      exact ⟨_::before,other,rfl,.cons here earlier,there⟩

abbrev Matched (R : List α → List α → Prop) : List (κ × List α) → List (κ × List α) → Prop :=
  List.Forall₂ (fun x y => x.1 = y.1 ∧ R x.2 y.2)

theorem addMatched {R : List α → List α → Prop} (joined : ∀ {a a' b b'}, R a a' → R b b' → R (a ++ b) (a' ++ b'))
    (before : Matched R front behind) {other} (here : item.1 = other.1 ∧ R item.2 other.2) : Matched R (add front item) (add behind other) := by
  rcases List.eq_nil_or_concat' front with rfl | ⟨earlier,last,rfl⟩
  · cases before
    exact .cons here .nil
  · obtain ⟨earlier',last',rfl,rest,key,same⟩ := snocForall before
    by_cases joins : last.1 = item.1
    · rw [addSame joins,addSame (key.symm.trans (joins.trans here.1))]
      exact List.rel_append rest (.cons ⟨key,joined same here.2⟩ .nil)
    · rw [addOther joins,addOther (fun equal => joins (key.trans (equal.trans here.1.symm)))]
      exact List.rel_append rest (.cons ⟨key,same⟩ (.cons here .nil))

theorem groupsMatched {R} (joined : ∀ {a a' b b'}, R a a' → R b b' → R (a ++ b) (a' ++ b'))
    (each : Matched R first second) : Matched R (groups first) (groups second) := by
  have fold : ∀ {first second : List (κ × List α)}, Matched R first second → ∀ {front behind}, Matched R front behind →
      Matched R (first.foldl add front) (second.foldl add behind) := by
    intro first second each
    induction each with
    | nil => exact fun before => before
    | cons here _ ih => exact fun before => ih (addMatched joined before here)
  exact fold each .nil

end Clankermux.AdjacentGroups
