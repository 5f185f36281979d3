import Mathlib.Data.List.Nodup

/-! Keys that name their parents: the way up from a key, and the walk that takes it and stops
at a root, at a key that is not there, or at one it has seen. -/
namespace Clankermux.ParentLinks

variable {κ : Type*} {links : κ → Option (Option κ)} {start last : Option κ} {key parent : κ} {way : List κ}

inductive Way (links : κ → Option (Option κ)) : Option κ → List κ → Option κ → Prop where
  | here (start : Option κ) : Way links start [] start
  | up {key : κ} {parent last way} (found : links key = some parent) (rest : Way links parent way last) :
    Way links (some key) (key::way) last

def Rooted (links : κ → Option (Option κ)) (key : κ) (way : List κ) : Prop := Way links (some key) way none

def Descends (links : κ → Option (Option κ)) (key ancestor : κ) : Prop := ∃ way, way ≠ [] ∧ Way links (some key) way (some ancestor)

theorem Way.follow {other shorter} (first : Way links start shorter other) :
    ∀ {way}, Way links start way none → ∃ rest, way = shorter ++ rest ∧ Way links other rest none := by
  induction first with
  | here => exact fun whole => ⟨_,rfl,whole⟩
  | up found _ ih =>
    intro way whole
    cases whole with
    | up again rest =>
      cases found.symm.trans again
      obtain ⟨more,rfl,last⟩ := ih rest
      exact ⟨more,rfl,last⟩

theorem Way.rootedUnique {other : List κ} (first : Way links start way none) (second : Way links start other none) : way = other := by
  obtain ⟨rest,rfl,none_⟩ := first.follow second
  cases none_
  exact (List.append_nil way).symm

theorem Way.append {other more} (first : Way links start way other) (second : Way links other more last) :
    Way links start (way ++ more) last := by
  induction first with
  | here => exact second
  | up found _ ih => exact .up found (ih second)

theorem Way.extends {wider : κ → Option (Option κ)} (whole : Way links start way last)
    (keeps : ∀ key parent, links key = some parent → wider key = some parent) : Way wider start way last := by
  induction whole with
  | here => exact .here _
  | up found _ ih => exact .up (keeps _ _ found) ih

theorem Way.split (whole : Way links start way last) : ∀ {earlier later key}, way = earlier ++ key::later →
    Way links start earlier (some key) ∧ Way links (some key) (key::later) last := by
  induction whole with
  | here => exact fun same => absurd same (by simp)
  | up found rest ih =>
    intro earlier later key same
    cases earlier with
    | nil =>
      obtain ⟨rfl,rfl⟩ := List.cons.inj same
      exact ⟨.here _,.up found rest⟩
    | cons first earlier =>
      obtain ⟨rfl,rest_⟩ := List.cons.inj same
      obtain ⟨before,after⟩ := ih rest_
      exact ⟨.up found before,after⟩

theorem Way.unrooted {dangling : κ} (whole : Way links start way (some dangling)) (absent : links dangling = none) :
    ¬ Way links start other none := by
  intro rooted
  obtain ⟨rest,-,more⟩ := whole.follow rooted
  cases more with
  | up found _ => cases absent.symm.trans found

theorem Way.endless {again} (whole : Way links start way (some again)) (inside : again ∈ way) {other} :
    ¬ Way links start other none := by
  intro rooted
  obtain ⟨earlier,later,same⟩ := List.append_of_mem inside
  obtain ⟨-,loop⟩ := whole.split same
  obtain ⟨rest,-,out⟩ := whole.follow rooted
  obtain ⟨more,longer,next⟩ := loop.follow out
  have equal := congrArg List.length (out.rootedUnique next)
  rw [longer,List.length_append,List.length_cons] at equal
  omega

inductive Stop (κ : Type*) where
  | root
  | dangling (key : κ)
  | round (key : κ)

@[grind] def Stop.At (links : κ → Option (Option κ)) (visited : List κ) (last : Option κ) : Stop κ → Prop
  | .root => last = none
  | .dangling key => last = some key ∧ links key = none
  | .round key => last = some key ∧ key ∈ visited

theorem upward {stop : Stop κ} (up : Way links start way last) (why : stop.At links way last) (inside : key ∈ way)
    (found : links key = some (some parent)) : parent ∈ way ∨ stop = .dangling parent := by
  obtain ⟨earlier,later,rfl⟩ := List.append_of_mem inside
  obtain ⟨-,on⟩ := up.split rfl
  cases on with
  | up again rest =>
    cases found.symm.trans again
    cases rest with
    | up _ _ => exact .inl (by simp)
    | here =>
      cases stop with
      | root => cases why
      | dangling key => exact .inr (congrArg Stop.dangling (Option.some.inj why.1).symm)
      | round again =>
        cases why.1
        exact .inl why.2

theorem reached {stop : Stop κ} {ancestor other} (up : Way links start way last) (why : stop.At links way last)
    (leads : Way links start other (some ancestor)) : ancestor ∈ way ∨ stop = .dangling ancestor := by
  have on : ∀ {at_ to_} {other}, Way links at_ other to_ → to_ = some ancestor →
      (∀ key, at_ = some key → key ∈ way ∨ stop = .dangling key) → ancestor ∈ way ∨ stop = .dangling ancestor := by
    intro at_ to_ other leads
    induction leads with
    | here => exact fun same met => met ancestor same
    | up found rest ih =>
      intro same met
      refine ih same (fun parent next => ?_)
      subst next
      rcases met _ rfl with inside | dangles
      · exact upward up why inside found
      · subst dangles
        cases why.2.symm.trans found
  refine on leads rfl (fun key same => ?_)
  subst same
  cases up with
  | up _ _ => exact .inl (.head _)
  | here =>
    cases stop with
    | root => cases why
    | dangling other => exact .inr (congrArg Stop.dangling (Option.some.inj why.1).symm)
    | round again => cases why.2

theorem passed {stop : Stop κ} {ancestor} (up : Way links start way last) (why : stop.At links way last)
    (met : ancestor ∈ way ∨ stop = .dangling ancestor) : ∃ other, Way links start other (some ancestor) := by
  rcases met with inside | rfl
  · obtain ⟨earlier,later,same⟩ := List.append_of_mem inside
    exact ⟨earlier,(up.split same).1⟩
  · exact ⟨way,why.1 ▸ up⟩

variable [DecidableEq κ]

@[grind] def climb (links : κ → Option (Option κ)) : Nat → List κ → Option κ → Option (List κ × Stop κ)
  | 0,_,_ => none
  | _+1,_,none => some ([],.root)
  | fuel+1,seen,some key =>
    if key ∈ seen then some ([],.round key)
    else
      match links key with
      | none => some ([],.dangling key)
      | some parent => (climb links fuel (key::seen) parent).map (fun climbed => (key::climbed.1,climbed.2))

theorem climbEnds (keys : List κ) (there : ∀ key, (links key).isSome → key ∈ keys) (fuel : Nat) : ∀ {seen} (start : Option κ),
    (keys.filter (· ∉ seen)).length < fuel → ∃ climbed, climb links fuel seen start = some climbed := by
  induction fuel with
  | zero => exact fun _ enough => absurd enough (Nat.not_lt_zero _)
  | succ fuel ih =>
    intro seen start enough
    cases start with
    | none => exact ⟨_,rfl⟩
    | some key =>
      rw [climb]
      split
      · exact ⟨_,rfl⟩
      · rename_i fresh
        cases found : links key with
        | none => exact ⟨_,rfl⟩
        | some parent =>
          have listed : key ∈ keys.filter (· ∉ seen) := List.mem_filter.mpr ⟨there key (by simp [found]),by simpa using fresh⟩
          have fewer : (keys.filter (· ∉ key::seen)).length < (keys.filter (· ∉ seen)).length := by
            have same : keys.filter (· ∉ key::seen) = (keys.filter (· ∉ seen)).filter (· ≠ key) := by
              rw [List.filter_filter]
              exact List.filter_congr (fun other _ => by simp)
            rw [same]
            exact List.length_filter_lt_length_iff_exists.mpr ⟨key,listed,by simp⟩
          obtain ⟨climbed,same⟩ := ih parent (Nat.lt_of_lt_of_le fewer (Nat.le_of_lt_succ enough))
          exact ⟨(key::climbed.1,climbed.2),by simp only [same]; rfl⟩

theorem climbed {fuel : Nat} : ∀ {seen} {start : Option κ} {way : List κ} {stop : Stop κ},
    climb links fuel seen start = some (way,stop) →
      ∃ last, Way links start way last ∧ stop.At links (seen ++ way) last ∧ way.Nodup ∧ ∀ key ∈ way, key ∉ seen := by
  induction fuel with
  | zero => exact fun done => by simp [climb] at done
  | succ fuel ih =>
    intro seen start way stop done
    cases start with
    | none =>
      cases done
      exact ⟨_,.here _,rfl,List.nodup_nil,by simp⟩
    | some key =>
      rw [climb] at done
      split at done
      · rename_i old
        cases done
        exact ⟨_,.here _,⟨rfl,by simpa using old⟩,List.nodup_nil,by simp⟩
      · rename_i fresh
        cases found : links key with
        | none =>
          simp only [found] at done
          cases done
          exact ⟨_,.here _,⟨rfl,found⟩,List.nodup_nil,by simp⟩
        | some parent =>
          simp only [found] at done
          obtain ⟨⟨rest,stop_⟩,went,same⟩ := Option.map_eq_some_iff.mp done
          cases same
          obtain ⟨last,up,why,distinct,new⟩ := ih went
          refine ⟨last,.up found up,?_,List.nodup_cons.mpr ⟨fun inside => new key inside (.head _),distinct⟩,?_⟩
          · cases stop_ with
            | root => exact why
            | dangling key => exact why
            | round again =>
              refine ⟨why.1,?_⟩
              have met := why.2
              simp only [List.mem_cons,List.mem_append] at met ⊢
              tauto
          · intro other inside
            rcases List.mem_cons.mp inside with rfl | inside
            · exact fresh
            · exact fun old => new other inside (.tail _ old)

theorem climbRoot (keys : List κ) (there : ∀ key, (links key).isSome → key ∈ keys) {fuel : Nat} (enough : keys.length < fuel)
    (whole : Way links start way none) : climb links fuel [] start = some (way,.root) := by
  have ends : ∃ climbed, climb links fuel [] start = some climbed :=
    climbEnds keys there fuel start (Nat.lt_of_le_of_lt (List.length_filter_le _ _) enough)
  obtain ⟨⟨walked,stop⟩,done⟩ := ends
  obtain ⟨last,up,why,-,-⟩ := climbed done
  cases stop with
  | root =>
    cases why
    rw [done,up.rootedUnique whole]
  | dangling key =>
    obtain ⟨rfl,absent⟩ := why
    exact absurd whole (up.unrooted absent)
  | round again =>
    obtain ⟨rfl,inside⟩ := why
    exact absurd whole (up.endless (by simpa using inside))

theorem Way.climbs {again : κ} (up : Way links start way last) : ∀ {fuel} {seen : List κ} {climbed : List κ × Stop κ}, last = some again →
    way.Nodup → (∀ key ∈ way, key ∉ seen) → (again ∈ seen ∨ again ∈ way) → climb links fuel seen start = some climbed → climbed = (way,.round again) := by
  induction up with
  | here =>
    intro fuel seen climbed ends _ _ met done
    subst ends
    have old : again ∈ seen := by simpa using met
    cases fuel with
    | zero => simp [climb] at done
    | succ fuel =>
      rw [climb,if_pos old] at done
      exact (Option.some.inj done).symm
  | @up key parent _ way found rest ih =>
    intro fuel seen climbed ends distinct new met done
    cases fuel with
    | zero => simp [climb] at done
    | succ fuel =>
      rw [climb,if_neg (new _ (.head _))] at done
      simp only [found] at done
      obtain ⟨more,went,same⟩ := Option.map_eq_some_iff.mp done
      obtain ⟨fresh,distinct⟩ := List.nodup_cons.mp distinct
      have later : ∀ other ∈ way, other ∉ key::seen := by
        intro other inside old
        rcases List.mem_cons.mp old with rfl | old
        · exact fresh inside
        · exact new other (.tail _ inside) old
      have still : again ∈ key::seen ∨ again ∈ way := by
        simp only [List.mem_cons] at met ⊢
        tauto
      rw [← same,ih ends distinct later still went]

end Clankermux.ParentLinks
