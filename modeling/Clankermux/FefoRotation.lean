import Clankermux.SelectServes

/-! The rotation among accounts that tie: the comparator picks the one that was picked longest
ago, and a pick is numbered above every pick before it. -/
namespace Clankermux.LoadBalancer
open InsertionMap

section Run
variable (cfg : Config)

def pickOf (s : SessionStrategy) : Event → Option String
  | .select accounts request now _ => (comparatorPick cfg s (autoUnpause cfg accounts now) request now).map (·.id)
  | _ => none

def picks : SessionStrategy → List Event → List String
  | _,[] => []
  | s,ev::rest => (pickOf cfg s ev).toList ++ picks (apply cfg s ev) rest

structure Leads (group : List String) (accounts : List Account) (now : Int) : Prop where
  present : ∀ id ∈ group, ∃ account ∈ accounts, account.id = id ∧ isAccountAvailable account now = true
  ties : ∀ a ∈ accounts, ∀ b ∈ accounts, isAccountAvailable a now = true → isAccountAvailable b now = true →
    a.id ∈ group → b.id ∈ group → rankOf cfg now a = rankOf cfg now b
  outranks : ∀ a ∈ accounts, ∀ b ∈ accounts, isAccountAvailable a now = true → isAccountAvailable b now = true →
    a.id ∈ group → b.id ∉ group → rankOf cfg now a < rankOf cfg now b

def LeadsAt (group : List String) : Event → Prop
  | .select accounts _ now _ => Leads cfg group (autoUnpause cfg accounts now) now
  | _ => True

def Led (group : List String) : SessionStrategy → List Event → Prop
  | _,[] => True
  | s,ev::rest => ((pickOf cfg s ev).isSome → LeadsAt cfg group ev) ∧ Led group (apply cfg s ev) rest

end Run

section Rotate
variable {cfg : Config} {s : SessionStrategy} {ev : Event} {group taken : List String} {id : String} {since : Nat}

def seqOf (s : SessionStrategy) (id : String) : Nat := (get s.lastPickedSeq id).getD 0

theorem applyPicks (cfg : Config) (s : SessionStrategy) (ev : Event) :
    (apply cfg s ev).pickSeq = s.pickSeq + (pickOf cfg s ev).toList.length ∧
      ∀ id, seqOf (apply cfg s ev) id = if pickOf cfg s ev = some id then s.pickSeq + 1 else seqOf s id := by
  have kept : ∀ t, SamePicks t s → t.pickSeq = s.pickSeq + (none : Option String).toList.length ∧
      ∀ id, seqOf t id = if (none : Option String) = some id then s.pickSeq + 1 else seqOf s id := by
    intro t same
    exact ⟨same.seq,fun id => by rw [seqOf,same.last,if_neg nofun,seqOf]⟩
  cases ev with
  | select accounts request now clock =>
    have serves := selectServes cfg s accounts request now clock
    rw [pickOf]
    simp only [apply,seqOf]
    rw [serves.seq,serves.last]
    cases comparatorPick cfg s (autoUnpause cfg accounts now) request now with
    | none => exact ⟨rfl,fun id => by simp [recorded]⟩
    | some account =>
      refine ⟨rfl,fun id => ?_⟩
      simp only [recorded,getSet,Option.map_some,Option.some.injEq,eq_comm (a := id)]
      split <;> rfl
  | reassignAffinity request account now clock =>
    refine kept _ ?_
    simp only [apply,reassignAffinity]
    split
    · exact samePicksRefl
    split
    · exact samePicksRefl
    · exact rememberPicks
  | followAffinity request fromAccountId account now =>
    refine kept _ ?_
    simp only [apply,followAffinity]
    split
    · exact samePicksRefl
    split
    · exact samePicksRefl
    split
    · exact rememberPicks
    · exact samePicksRefl
  | importAffinity pins now =>
    refine kept _ ?_
    simp only [apply,importAffinity]
    split
    · exact ⟨rfl,rfl⟩
    · exact samePicksRefl
  | clearAffinityForAccount accountId => exact kept _ ⟨rfl,rfl⟩

def Numbered (s : SessionStrategy) : Prop := ∀ id, seqOf s id ≤ s.pickSeq

theorem numberedStep (numbered : Numbered s) : Numbered (apply cfg s ev) := by
  intro id
  obtain ⟨seq,last⟩ := applyPicks cfg s ev
  rw [seq,last]
  have before := numbered id
  cases pickOf cfg s ev with
  | none => simpa using before
  | some picked =>
    simp only [Option.toList_some,List.length_singleton]
    split <;> omega

theorem numberedReachable (reach : (machine cfg).Reachable s) : Numbered s := by
  refine reach.invariant ?_ ?_
  · rintro s rfl id
    exact Nat.le_refl 0
  · intro s e t numbered step
    cases step
    exact numberedStep numbered

structure Rotating (group taken : List String) (since : Nat) (s : SessionStrategy) : Prop where
  unique : taken.Nodup
  inside : ∀ id ∈ taken, id ∈ group
  ahead : ∀ id ∈ taken, since < seqOf s id
  waiting : ∀ id ∈ group, id ∉ taken → seqOf s id ≤ since
  mark : since ≤ s.pickSeq

theorem Rotating.pick (rotating : Rotating group taken since s) (left : ∃ id ∈ group, id ∉ taken)
    (leads : LeadsAt cfg group ev) (picked : pickOf cfg s ev = some id) : id ∈ group ∧ id ∉ taken := by
  cases ev with
  | select accounts request now clock =>
    obtain ⟨waiting,listed,untaken⟩ := left
    obtain ⟨first,chosen,rfl⟩ := Option.map_eq_some_iff.mp picked
    replace leads : Leads cfg group (autoUnpause cfg accounts now) now := leads
    obtain ⟨other,present,rfl,available⟩ := leads.present waiting listed
    have head : (sortAvailableAccounts cfg s (autoUnpause cfg accounts now) now).head? = some first := by
      unfold comparatorPick at chosen
      split at chosen
      · cases chosen
      · exact chosen
    obtain ⟨rest,sorted⟩ := List.head?_eq_some_iff.mp head
    obtain ⟨offered,usable⟩ := memSorted.mp (sorted ▸ List.mem_cons_self : first ∈ sortAvailableAccounts cfg s _ now)
    have least : sortKey cfg s now first ≤ sortKey cfg s now other := by
      have keys := sortedKeys cfg s (autoUnpause cfg accounts now) now
      have inside : other ∈ sortAvailableAccounts cfg s (autoUnpause cfg accounts now) now := memSorted.mpr ⟨present,available⟩
      rw [sorted] at keys inside
      rcases List.mem_cons.mp inside with rfl | behind
      · exact le_refl _
      · exact (List.pairwise_cons.mp keys).1 other behind
    rw [sortKey,sortKey,Prod.Lex.toLex_le_toLex] at least
    have member : first.id ∈ group := by
      by_contra outside
      have above := leads.outranks other present first offered available usable listed outside
      rcases least with less | ⟨same,_⟩
      · exact absurd less above.not_gt
      · exact absurd same.symm above.ne
    have tie := leads.ties first offered other present usable available member listed
    have earlier : seqOf s first.id ≤ seqOf s other.id := by
      rcases least with less | ⟨_,le⟩
      · exact absurd tie less.ne
      · exact le
    refine ⟨member,fun already => ?_⟩
    have ahead := rotating.ahead first.id already
    have behind := rotating.waiting other.id listed untaken
    omega
  | reassignAffinity request account now clock => cases picked
  | followAffinity request fromAccountId account now => cases picked
  | importAffinity pins now => cases picked
  | clearAffinityForAccount accountId => cases picked

theorem Rotating.idle (rotating : Rotating group taken since s) (none_ : pickOf cfg s ev = none) :
    Rotating group taken since (apply cfg s ev) := by
  obtain ⟨seq,last⟩ := applyPicks cfg s ev
  simp only [none_,reduceCtorEq,if_false] at last
  refine ⟨rotating.unique,rotating.inside,?_,?_,?_⟩
  · simpa only [last] using rotating.ahead
  · simpa only [last] using rotating.waiting
  · rw [seq]
    exact rotating.mark.trans (Nat.le_add_right _ _)

theorem Rotating.next (rotating : Rotating group taken since s) (picked : pickOf cfg s ev = some id) (member : id ∈ group)
    (fresh : id ∉ taken) : Rotating group (taken ++ [id]) since (apply cfg s ev) := by
  obtain ⟨seq,last⟩ := applyPicks cfg s ev
  have mark := rotating.mark
  refine ⟨?_,?_,?_,?_,?_⟩
  · refine List.nodup_append.mpr ⟨rotating.unique,List.nodup_singleton _,fun other before last_ its => ?_⟩
    rintro rfl
    rw [List.mem_singleton.mp its] at before
    exact fresh before
  · intro other inside
    rcases List.mem_append.mp inside with before | its
    · exact rotating.inside other before
    · rwa [List.mem_singleton.mp its]
  · intro other inside
    rw [last,picked]
    split
    · omega
    · rename_i ne
      rcases List.mem_append.mp inside with before | its
      · exact rotating.ahead other before
      · exact absurd (congrArg some (List.mem_singleton.mp its).symm) ne
  · intro other listed untaken
    have ne : ¬ some id = some other := by
      intro same
      cases same
      exact untaken (List.mem_append_right _ (.head _))
    rw [last,picked,if_neg ne]
    exact rotating.waiting other listed (fun before => untaken (List.mem_append_left _ before))
  · rw [seq]
    exact mark.trans (Nat.le_add_right _ _)

theorem Rotating.run {events} (distinct : group.Nodup) (rotating : Rotating group taken since s) (led : Led cfg group s events)
    (room : taken.length + (picks cfg s events).length ≤ group.length) :
    (taken ++ picks cfg s events).Nodup ∧ ∀ id ∈ taken ++ picks cfg s events, id ∈ group := by
  induction events generalizing s taken with
  | nil =>
    rw [picks,List.append_nil]
    exact ⟨rotating.unique,rotating.inside⟩
  | cons ev rest ih =>
    rw [picks] at room ⊢
    cases picked : pickOf cfg s ev with
    | none =>
      rw [picked] at room
      exact ih (rotating.idle picked) led.2 room
    | some id =>
      rw [picked,Option.toList_some,List.length_append,List.length_singleton] at room
      have left : ∃ id ∈ group, id ∉ taken := by
        by_contra full
        have covered : group ⊆ taken := fun id listed => by_contra fun untaken => full ⟨id,listed,untaken⟩
        have short := (List.subperm_of_subset distinct covered).length_le
        omega
      obtain ⟨member,fresh⟩ := rotating.pick left (led.1 (by rw [picked]; rfl)) picked
      have further := ih (rotating.next picked member fresh) led.2 (by rw [List.length_append,List.length_singleton]; omega)
      simpa only [Option.toList_some,List.append_assoc,List.singleton_append] using further

theorem picksRotate {events} (numbered : Numbered s) (distinct : group.Nodup) (led : Led cfg group s events)
    (count : (picks cfg s events).length = group.length) : List.Perm (picks cfg s events) group := by
  have start : Rotating group [] s.pickSeq s := ⟨.nil,nofun,nofun,fun id _ _ => numbered id,le_rfl⟩
  obtain ⟨unique,inside⟩ := start.run distinct led (Nat.le_of_eq (by simpa using count))
  exact (List.subperm_of_subset unique inside).perm_of_length_le (Nat.le_of_eq count.symm)

end Rotate

structure FefoRanking (cfg : Config) : Prop where
  antisymmetric : ∀ s now a b, ∃ sign back, comparator cfg s now a b = some sign ∧ comparator cfg s now b a = some back ∧
    (sign < 0 ↔ 0 < back) ∧ (0 < sign ↔ back < 0)
  transitive : ∀ s now a b c, NotAfter (comparator cfg s now a b) → NotAfter (comparator cfg s now b c) →
    NotAfter (comparator cfg s now a c)
  sortedBy : ∀ s now a b, sortsBefore cfg s now a b = true ↔ NotAfter (comparator cfg s now a b)
  sorted : ∀ s accounts now, (sortAvailableAccounts cfg s accounts now).Pairwise
    (fun a b => sortKey cfg s now a ≤ sortKey cfg s now b)
  nearLimitLast : ∀ s accounts now, (sortAvailableAccounts cfg s accounts now).Pairwise (fun a b =>
    a.priority = b.priority → (capacityMetricFor cfg a now).bucket = .nearLimit → (capacityMetricFor cfg b now).bucket = .nearLimit)
  rotates : ∀ s, (machine cfg).Reachable s → ∀ group events, group.Nodup → Led cfg group s events →
    (picks cfg s events).length = group.length → List.Perm (picks cfg s events) group

theorem fefoRanking (cfg : Config) : FefoRanking cfg := by
  refine ⟨?_,?_,fun _ _ _ _ => sortsBeforeNotAfter,fun s accounts now => sortedKeys cfg s accounts now,?_,?_⟩
  · intro s now a b
    obtain ⟨sign,its,less,more⟩ := (comparatorSigns : Signs (comparator cfg s now a b) _ _).tells
    obtain ⟨back,there,less',more'⟩ := (comparatorSigns : Signs (comparator cfg s now b a) _ _).tells
    exact ⟨sign,back,its,there,less.trans more'.symm,more.trans less'.symm⟩
  · intro s now a b c
    rw [comparatorSigns.notAfter,comparatorSigns.notAfter,comparatorSigns.notAfter]
    exact le_trans
  · intro s accounts now
    refine (sortedKeys cfg s accounts now).imp (fun {a b} keys priority near => ?_)
    have ranks : (capacityMetricFor cfg a now).bucket.rank ≤ (capacityMetricFor cfg b now).bucket.rank := by
      rw [sortKey,sortKey,Prod.Lex.toLex_le_toLex,rankOf,rankOf,priority] at keys
      simp only [Prod.Lex.toLex_lt_toLex,EmbeddingLike.apply_eq_iff_eq,Prod.mk.injEq] at keys
      rcases keys with (less | ⟨same,_⟩) | ⟨⟨same,_⟩,_⟩ <;> omega
    rw [near] at ranks
    generalize (capacityMetricFor cfg b now).bucket = bucket at ranks
    cases bucket with
    | harvest => exact absurd ranks (by decide)
    | unknown => exact absurd ranks (by decide)
    | nearLimit => rfl
  · exact fun s reach group events => picksRotate (numberedReachable reach)

def tied : List Account := [accountOf "a" 0 none,accountOf "b" 0 none]

example : picks fiveHours .start [.select tied (requestOn "alpha" none) 1000 1000,.select tied (requestOn "alpha" none) 1500 1500,
    .select tied (requestOn "beta" none) 2000 2000] = ["a","b"] := by decide +kernel

end Clankermux.LoadBalancer
