import Clankermux.ConversationHeld

/-! The conversation store over whole runs: the order of the current sessions, the holders
of a conversation, and where every registered session ends. -/
namespace Clankermux.ConversationStore
open InsertionMap Function History

variable {s t u : Store} {e : Event}

theorem Sound.effects (sound : Sound s) (effects : Effects s t) : Sound t := by
  induction effects with
  | refl => exact sound
  | tail _ effect ih => exact ih.effect effect

theorem Balanced.effects (balanced : Balanced s) (sound : Sound s) (effects : Effects s t) : Balanced t := by
  suffices Sound t ∧ Balanced t from this.2
  induction effects with
  | refl => exact ⟨sound,balanced⟩
  | tail _ effect ih => exact ⟨ih.1.effect effect,ih.2.effect ih.1 effect⟩

theorem stepEffects (sound : Sound s) (exclusive : Exclusive s) (step : s.step e = some t) :
    Effects s t ∨ ∃ index ok registration, e = .settle index ok ∧ s.registrations[index]? = some registration ∧
      registration.settled = false ∧ t = s.settle index registration ok := by
  cases e with
  | claim key waitMs scopeKey now started date =>
    cases step
    exact .inl (effectsClaim sound.nodup ..)
  | resumeBusy c now date =>
    obtain ⟨claim,_,step⟩ := Option.bind_eq_some_iff.mp step
    cases stage : claim.stage <;> simp only [stage,reduceCtorEq,Option.some.injEq] at step
    exact .inl (step ▸ effectsHold ..)
  | resumePending c now later date =>
    obtain ⟨claim,_,step⟩ := Option.bind_eq_some_iff.mp step
    cases stage : claim.stage <;> simp only [stage,reduceCtorEq,Option.some.injEq] at step
    exact .inl (step ▸ effectsPending ..)
  | register c session =>
    obtain ⟨claim,its,step⟩ := Option.bind_eq_some_iff.mp step
    cases stage : claim.stage <;> simp only [stage,reduceCtorEq,Option.ite_none_right_eq_some,Option.some.injEq] at step
    obtain ⟨fresh,rfl⟩ := step
    exact .inl (effectsRegister c claim (exclusive.owned c claim _ its (by rw [stage]; rfl)) fresh)
  | release c =>
    obtain ⟨claim,_,step⟩ := Option.bind_eq_some_iff.mp step
    cases stage : claim.stage <;> simp only [stage,reduceCtorEq,Option.some.injEq] at step
    exact .inl (step ▸ effectsQuiet (quietFinish ..))
  | settle index ok =>
    obtain ⟨registration,there,step⟩ := Option.bind_eq_some_iff.mp step
    cases open_ : registration.settled with
    | true => simp [open_] at step
    | false =>
      simp only [open_,Bool.false_eq_true,if_false,Option.some.injEq] at step
      exact .inr ⟨index,ok,registration,rfl,there,open_,step.symm⟩
  | evict key =>
    cases step
    exact .inl (effectsEvict ..)

theorem Sound.step (sound : Sound s) (exclusive : Exclusive s) (step : s.step e = some t) : Sound t := by
  rcases stepEffects sound exclusive step with effects | ⟨index,ok,registration,_,there,_,rfl⟩
  · exact sound.effects effects
  · exact sound.settled there (settleEffect s index registration ok)

theorem Exclusive.ungranted (exclusive : Exclusive s) {c claim} (its : s.claims c = some claim)
    (waiting : claim.stage.Waiting) : c < s.claimed ∧ .granted c ∉ s.log ∧ ∀ other, s.claims c = some other → other.key = claim.key := by
  refine ⟨exclusive.below c claim its,exclusive.waiting c claim its waiting,fun other there => ?_⟩
  rw [Option.some.inj (there.symm.trans its)]

theorem Exclusive.hold (exclusive : Exclusive s) (sound : Sound s) {c claim} (new : c < s.claimed)
    (ungranted : .granted c ∉ s.log) (known : ∀ other, s.claims c = some other → other.key = claim.key) (now date : Int) :
    Exclusive (s.hold c claim now date) := by
  have made := steadyRecord sound claim.key now
  obtain ⟨_,_,_,moves⟩ := holdMoves s c claim now date
  exact (exclusive.steady made).moves (sound.effects (effectsRecord s claim.key now)) (Nat.lt_of_lt_of_le new made.claimed)
    (made.log ▸ ungranted) (made.claims ▸ known) moves

theorem Exclusive.step (exclusive : Exclusive s) (sound : Sound s) (step : s.step e = some t) : Exclusive t := by
  cases e with
  | claim key waitMs scopeKey now started date =>
    cases step
    have pruned := exclusive.steady (steadyPrune sound.nodup now)
    have kept := sound.effects (Relation.ReflTransGen.mono (fun _ _ => Dropped.effect) _ _ (pruneDrops sound.nodup now))
    unfold Store.claim
    generalize s.prune now = s at pruned kept
    have absent : s.claims s.claimed = none := by
      cases its : s.claims s.claimed with
      | none => rfl
      | some claim => exact absurd (pruned.below _ claim its) (Nat.lt_irrefl _)
    have counted : Quiet s { s with claimed := s.claimed + 1 } := ⟨rfl,rfl,rfl,rfl,fun _ => rfl⟩
    have steady : Steady s { s with claimed := s.claimed + 1 } :=
      ⟨rfl,Nat.le_succ _,rfl,le_rfl,fun _ _ _ found its => ⟨found,its⟩⟩
    refine (pruned.steady steady).hold (kept.effect (.quiet counted)) (Nat.lt_succ_self _) ?_ (by simp [absent]) now date
    intro granted
    obtain ⟨claim,its⟩ := pruned.made s.claimed (.inl granted)
    simp [absent] at its
  | resumeBusy c now date =>
    obtain ⟨claim,its,step⟩ := Option.bind_eq_some_iff.mp step
    cases stage : claim.stage <;> simp only [stage,reduceCtorEq,Option.some.injEq] at step
    obtain ⟨new,ungranted,known⟩ := exclusive.ungranted its (.inl stage)
    exact step ▸ exclusive.hold sound new ungranted known now date
  | resumePending c now later date =>
    obtain ⟨claim,its,step⟩ := Option.bind_eq_some_iff.mp step
    cases stage : claim.stage <;> simp only [stage,reduceCtorEq,Option.some.injEq] at step
    rename_i id
    obtain ⟨new,ungranted,known⟩ := exclusive.ungranted its (.inr ⟨id,stage⟩)
    subst step
    unfold Store.resumePending
    split
    · rename_i mine
      have moves : Moves s (s.grant c claim id now) c claim (.granted id (s.heap id).current) true false := by
        refine ⟨rfl,rfl,rfl,rfl,rfl,by simp [Stage.Waiting],?_,?_⟩
        · intro other there
          cases there
          refine ⟨mine.1,?_,.inr (fun d held => Option.some.inj (held.symm.trans mine.2))⟩
          simpa [Store.grant,Store.write,Store.setStage] using mine.2
        · intro other there
          have ne : other ≠ id := fun same => there (by rw [same]; rfl)
          simp [Store.grant,Store.write,Store.setStage,ne]
      exact exclusive.moves sound new ungranted known moves
    · split
      · have made := steadyRecord sound claim.key now
        have found := recordFound s claim.key now
        have kept := sound.effects (effectsRecord s claim.key now)
        generalize s.record claim.key now = fresh at made found kept
        obtain ⟨u,id⟩ := fresh
        obtain ⟨⟨current,moves⟩,_⟩ := takeMoves found true (.inl rfl) now
        exact (exclusive.steady made).moves kept (Nat.lt_of_lt_of_le new made.claimed) (made.log ▸ ungranted)
          (made.claims ▸ known) moves
      · exact exclusive.hold sound new ungranted known now date
  | register c session =>
    obtain ⟨claim,its,step⟩ := Option.bind_eq_some_iff.mp step
    cases stage : claim.stage <;> simp only [stage,reduceCtorEq,Option.ite_none_right_eq_some,Option.some.injEq] at step
    obtain ⟨fresh,rfl⟩ := step
    rename_i id _
    have steady : Steady s (s.enlist id session) := by
      refine ⟨rfl,le_rfl,rfl,le_rfl,fun key other d found held => ⟨found,?_⟩⟩
      by_cases here : other = id
      · subst here
        simpa [Store.enlist,Store.write] using held
      · simpa [Store.enlist,Store.write,here] using held
    exact (exclusive.steady steady).finish its id
  | release c =>
    obtain ⟨claim,its,step⟩ := Option.bind_eq_some_iff.mp step
    cases stage : claim.stage <;> simp only [stage,reduceCtorEq,Option.some.injEq] at step
    exact step ▸ exclusive.finish its _
  | settle index ok =>
    obtain ⟨registration,there,step⟩ := Option.bind_eq_some_iff.mp step
    cases open_ : registration.settled with
    | true => simp [open_] at step
    | false =>
      simp only [open_,Bool.false_eq_true,if_false,Option.some.injEq] at step
      exact step ▸ exclusive.steady (steadySettle ..)
  | evict key =>
    cases step
    exact exclusive.steady (steadyEvict ..)

def Registration.view (r : Registration) : StoredSession × Nat × Nat := (r.session,r.record,r.seq)

structure Later (s t : Store) : Prop where
  registrations : s.registrations.map Registration.view <+: t.registrations.map Registration.view
  allocated : s.allocated ≤ t.allocated
  records : ∀ key id, get t.records key = some id → get s.records key = some id ∨ s.allocated ≤ id
  seqs : ∀ id, id < s.allocated → (s.heap id).currentSeq ≤ (t.heap id).currentSeq

theorem Later.refl (s : Store) : Later s s :=
  ⟨List.prefix_refl _,le_rfl,fun _ _ found => .inl found,fun _ _ => le_rfl⟩

theorem Later.trans (first : Later s t) (second : Later t u) : Later s u where
  registrations := first.registrations.trans second.registrations
  allocated := first.allocated.trans second.allocated
  records key id found := by
    rcases second.records key id found with old | new
    · exact first.records key id old
    · exact .inr (first.allocated.trans new)
  seqs id below := (first.seqs id below).trans (second.seqs id (Nat.lt_of_lt_of_le below first.allocated))

theorem Effect.later (effect : Effect s t) : Later s t := by
  cases effect with
  | quiet quiet =>
    refine ⟨quiet.registrations ▸ List.prefix_refl _,Nat.le_of_eq quiet.allocated.symm,?_,?_⟩
    · rw [quiet.records]
      exact fun _ _ found => .inl found
    · exact fun id _ => Nat.le_of_eq (frameParts (quiet.frames id)).2.2.1.symm
  | created key now absent made =>
    subst made
    simp only [Store.record,absent]
    refine ⟨List.prefix_refl _,Nat.le_succ _,?_,?_⟩
    · intro other id found
      rw [getSet] at found
      split at found
      · exact .inr (Nat.le_of_eq (Option.some.inj found))
      · exact .inl found
    · intro id below
      dsimp only
      rw [update_of_ne (Nat.ne_of_lt below)]
  | dropped key id found free gone =>
    subst gone
    refine ⟨List.prefix_refl _,le_rfl,?_,fun _ _ => le_rfl⟩
    intro other id there
    rw [Store.drop,Store.onDiscard,getDelete] at there
    split at there
    · cases there
    · exact .inl there
  | registered session id nextSeq fresh below records allocated discarded registrations kept others =>
    refine ⟨?_,Nat.le_of_eq allocated.symm,?_,fun other _ => Nat.le_of_eq (kept other).2.2.symm⟩
    · rw [registrations,List.map_append]
      exact List.prefix_append _ _
    · rw [records]
      exact fun _ _ found => .inl found

theorem Settled.later {index registration} (settled : Settled s t index registration)
    (there : s.registrations[index]? = some registration) : Later s t where
  registrations := by
    have same : t.registrations.map Registration.view = s.registrations.map Registration.view := by
      rw [settled.registrations]
      exact mapSetSame Registration.view there _ rfl
    exact same ▸ List.prefix_refl _
  allocated := Nat.le_of_eq settled.allocated.symm
  records := by
    rw [settled.records]
    exact fun _ _ found => .inl found
  seqs id _ := by
    by_cases here : id = registration.record
    · subst here
      rcases settled.outcome with ⟨_,same,_⟩ | ⟨newer,_,now,_⟩
      · exact Nat.le_of_eq same.symm
      · rw [now]
        exact newer
    · exact Nat.le_of_eq (settled.others id here).2.symm

theorem stepLater (sound : Sound s) (exclusive : Exclusive s) (step : s.step e = some t) : Later s t := by
  rcases stepEffects sound exclusive step with effects | ⟨index,ok,registration,_,there,_,rfl⟩
  · clear step
    induction effects with
    | refl => exact .refl s
    | tail _ effect ih => exact ih.trans effect.later
  · exact (settleEffect s index registration ok).later there

theorem currentOrder (before : Sound s) (after : Sound t) (later : Later s t) {key id place old new} (was : get s.records key = some id) (held : (s.heap id).current = some old)
    (is_ : get t.records key = some place) (holds : (t.heap place).current = some new) :
    ∃ i j : Nat, i ≤ j ∧ (t.registrations.map (·.session))[i]? = some old ∧ (t.registrations.map (·.session))[j]? = some new := by
  obtain ⟨first,inside,_,rfl,rfl,seq⟩ := before.currents id old (before.home was).1 held
  obtain ⟨second,there,_,rfl,rfl,seq'⟩ := after.currents place new (after.home is_).1 holds
  obtain ⟨i,below,rfl⟩ := List.mem_iff_getElem.mp inside
  obtain ⟨j,below',rfl⟩ := List.mem_iff_getElem.mp there
  obtain ⟨rest,grown⟩ := later.registrations
  have view (k : Nat) (inside : k < s.registrations.length) :
      ∃ under, t.registrations[k].view = s.registrations[k].view := by
    have length := congrArg List.length grown
    simp only [List.length_append,List.length_map] at length
    refine ⟨by omega,?_⟩
    have same := congrArg (·[k]?) grown
    simp only [List.getElem?_append_left (show k < (s.registrations.map Registration.view).length by simpa using inside),
      List.getElem?_map,List.getElem?_eq_getElem inside,List.getElem?_eq_getElem (show k < t.registrations.length by omega),
      Option.map_some,Option.some.injEq] at same
    exact same.symm
  obtain ⟨under,same⟩ := view i below
  simp only [Registration.view,Prod.mk.injEq] at same
  refine ⟨i,j,?_,?_,?_⟩
  · by_contra behind
    have early : j < i := Nat.lt_of_not_le behind
    rcases later.records key _ is_ with old | new
    · -- The same record: the sequence numbers would go back.
      have one := Option.some.inj (was.symm.trans old)
      have ordered := List.pairwise_iff_getElem.mp after.ordered j i below' under early (by rw [same.2.1,one])
      have forward := later.seqs _ (before.home was).1
      rw [← seq,one,← seq',← same.2.2] at forward
      omega
    · -- A record that did not exist yet: nothing was registered on it before.
      obtain ⟨_,same'⟩ := view j (Nat.lt_trans early below)
      simp only [Registration.view,Prod.mk.injEq] at same'
      have placed := (before.placed _ (List.getElem_mem (Nat.lt_trans early below))).1
      omega
  · rw [List.getElem?_map,List.getElem?_eq_getElem under,Option.map_some,same.1]
  · rw [List.getElem?_map,List.getElem?_eq_getElem below',Option.map_some]

def Settles (s : Store) : Event → Prop
  | .settle index true => ∀ registration ∈ s.registrations[index]?,
    get s.records (s.heap registration.record).key = some registration.record ∨
      registration.seq < (s.heap registration.record).currentSeq
  | _ => True

instance (s : Store) : (e : Event) → Decidable (Settles s e)
  | .settle _ true => inferInstanceAs (Decidable (∀ registration ∈ _, _))
  | .settle _ false => isTrue trivial
  | .claim .. => isTrue trivial
  | .resumeBusy .. => isTrue trivial
  | .resumePending .. => isTrue trivial
  | .register .. => isTrue trivial
  | .release _ => isTrue trivial
  | .evict _ => isTrue trivial

def IsCurrent (s : Store) (session : StoredSession) : Prop :=
  ∃ key id, get s.records key = some id ∧ (s.heap id).current = some session

structure SessionsKept (opts : Options) (s : Store) : Prop where
  ordered : ∀ t key id place old new, (storeMachine opts).Steps (fun _ _ => True) s t →
    get s.records key = some id → (s.heap id).current = some old →
    get t.records key = some place → (t.heap place).current = some new →
    ∃ i j : Nat, i ≤ j ∧ (t.registrations.map (·.session))[i]? = some old ∧ (t.registrations.map (·.session))[j]? = some new
  alone : ∀ a b claim other id place current resumed newer, a ≠ b →
    s.claims a = some claim → claim.stage = .granted id current →
    s.claims b = some other → other.stage = .granted place resumed → claim.key = other.key →
    Since s.log (.granted a) newer → .granted b ∈ newer →
    ∃ d late, .timedOut d ∈ newer ∧ d ≠ a ∧ s.claims d = some late ∧ late.key = claim.key
  kept : (∀ r ∈ s.registrations, r.settled = true) → ∀ r ∈ s.registrations,
    (IsCurrent s r.session ∧ r.session.sessionId ∉ s.discarded) ∨
      (¬ IsCurrent s r.session ∧ s.discarded.count r.session.sessionId = 1)
  once : s.discarded.Nodup
  spared : ∀ session, IsCurrent s session → session.sessionId ∉ s.discarded

variable {opts : Options}

theorem startSound : Sound (.empty opts) :=
  ⟨List.nodup_nil,by simp [Store.empty],by simp [Store.empty],List.Pairwise.nil,List.nodup_nil,by simp [Store.empty]⟩

theorem startExclusive : Exclusive (.empty opts) :=
  ⟨by simp [Store.empty],by simp [Store.empty],by simp [Store.empty],fun _ _ here => absurd here notSinceNil,
    by simp [Store.empty],by simp [Store.empty]⟩

theorem startBalanced : Balanced (.empty opts) := List.Perm.refl _

theorem Balanced.step (balanced : Balanced s) (sound : Sound s) (exclusive : Exclusive s) (settles : Settles s e)
    (step : s.step e = some t) : Balanced t := by
  rcases stepEffects sound exclusive step with effects | ⟨index,ok,registration,rfl,there,open_,rfl⟩
  · exact balanced.effects sound effects
  · have settled := settleEffect s index registration ok
    refine balanced.settled sound there open_ settled ?_
    rcases settled.outcome with ⟨same,_⟩ | ⟨newer,now,seq,_⟩
    · exact .inl same
    · cases ok with
      | true => exact .inr ((settles registration there).resolve_right (Nat.not_lt.mpr newer))
      | false =>
        left
        unfold Store.settle
        simp only [Store.onDiscard]
        split <;> simp [Store.write]

structure Kept (s : Store) : Prop where
  sound : Sound s
  exclusive : Exclusive s
  balanced : Balanced s

theorem reachableKept (reach : (storeMachine opts).ReachableUnder Settles s) : Kept s := by
  refine reach.invariant (fun _ start => ?_) (fun _ _ _ kept settles step => ?_)
  · cases start
    exact ⟨startSound,startExclusive,startBalanced⟩
  · exact ⟨kept.sound.step kept.exclusive step,kept.exclusive.step kept.sound step,
      kept.balanced.step kept.sound kept.exclusive settles step⟩

theorem memAttached {session} (current : IsCurrent s session) :
    session.sessionId ∈ attached s := by
  obtain ⟨key,id,found,its⟩ := current
  exact List.mem_flatMap.mpr ⟨_,memOfGet found,by simp [its]⟩

theorem attachedCurrent (sound : Sound s) {r} (inside : r ∈ s.registrations)
    (held : r.session.sessionId ∈ attached s) : IsCurrent s r.session := by
  obtain ⟨entry,there,named⟩ := List.mem_flatMap.mp held
  simp only [Option.mem_toList,Option.map_eq_some_iff] at named
  obtain ⟨session,its,named⟩ := named
  have found := getOfMem sound.nodup there
  obtain ⟨other,inside',_,rfl,_,_⟩ := sound.currents entry.2 session (sound.home found).1 its
  rw [← sound.same inside' inside named]
  exact ⟨entry.1,entry.2,found,its⟩

theorem conversationSessionsKept (reach : (storeMachine opts).ReachableUnder Settles s) : SessionsKept opts s := by
  have kept := reachableKept reach
  have unique : (s.discarded ++ (attached s ++ unsettled s)).Nodup := kept.balanced.nodup_iff.mpr kept.sound.unique
  obtain ⟨once,_,apart⟩ := List.nodup_append.mp unique
  refine ⟨?_,?_,?_,once,?_⟩
  · intro t key id place old new run was held is_ holds
    obtain ⟨after,_,later⟩ := run.keeps (P := fun t => Sound t ∧ Exclusive t ∧ Later s t)
      ⟨kept.sound,kept.exclusive,.refl s⟩ (fun _ _ _ before _ step => ⟨before.1.step before.2.1 step,
        before.2.1.step before.1 step,before.2.2.trans (stepLater before.1 before.2.1 step)⟩)
    exact currentOrder kept.sound after later was held is_ holds
  · intro a b claim other id place current resumed newer ne its granted its' granted' same here inside
    have logged := kept.exclusive.final a newer here
    rcases kept.exclusive.holds a claim id current its granted with disturbed | ⟨found,busy⟩
    · obtain ⟨d,late,timedOut,ne,claims,key⟩ := disturbed newer here
      exact ⟨d,late,timedOut,ne,claims,key⟩
    · obtain ⟨early,late,rfl⟩ := List.append_of_mem inside
      obtain ⟨older,log⟩ := here
      have there : Since s.log (.granted b) early := ⟨late ++ .granted a::older,by rw [log]; simp⟩
      rcases kept.exclusive.holds b other place resumed its' granted' with disturbed | ⟨found',busy'⟩
      · obtain ⟨d,late',timedOut,_,claims,key⟩ := disturbed early there
        refine ⟨d,late',List.mem_append_left _ timedOut,?_,claims,key.trans same.symm⟩
        rintro rfl
        exact logged (List.mem_append_left _ timedOut)
      · rw [same,found'] at found
        cases found
        exact absurd (Option.some.inj (busy.symm.trans busy')) ne
  · intro all r inside
    have none_ : unsettled s = [] := by
      simp only [unsettled,List.map_eq_nil_iff,List.filter_eq_nil_iff]
      intro r inside
      simp [all r inside]
    have one : s.discarded.count r.session.sessionId + (attached s).count r.session.sessionId = 1 := by
      have total := kept.balanced.count_eq r.session.sessionId
      rw [none_,List.append_nil,List.count_append] at total
      rw [total]
      exact List.count_eq_one_of_mem kept.sound.unique (List.mem_map_of_mem inside)
    by_cases held : r.session.sessionId ∈ attached s
    · left
      refine ⟨attachedCurrent kept.sound inside held,fun gone => ?_⟩
      have := List.count_pos_iff.mpr held
      have := List.count_pos_iff.mpr gone
      omega
    · right
      refine ⟨fun current => held (memAttached current),?_⟩
      rw [List.count_eq_zero.mpr held] at one
      exact one
  · intro session current gone
    exact apart _ gone _ (List.mem_append_left _ (memAttached current)) rfl

def sessionOf (sessionId : String) : StoredSession := ⟨sessionId,[],none⟩

def turns : List Event :=
  [.claim "k" 100 none 0 0 0,.claim "k" 100 none 0 0 0,.register 0 (sessionOf "s1"),.resumeBusy 1 5 5,.settle 0 true,
    .resumePending 1 6 6 6,.register 1 (sessionOf "s2"),.claim "k" 100 none 7 7 7,.settle 1 false,
    .resumePending 2 8 8 8,.register 2 (sessionOf "s3"),.settle 2 true]

def taken : Store := ((storeMachine .default).runUnder (fun s e => decide (Settles s e)) (.empty .default) turns).get rfl

theorem conversationSessionsKeptTurns : taken.discarded = ["s2","s1"] ∧ SessionsKept .default taken := by
  have run : (storeMachine .default).ReachableUnder (fun s e => decide (Settles s e) = true) taken :=
    Machine.runReachableUnder (m := storeMachine .default) (s := .empty .default) turns rfl (Option.some_get _).symm
  exact ⟨by decide +kernel,conversationSessionsKept (run.weaken (fun _ _ settles => of_decide_eq_true settles))⟩

def leaking : List Event :=
  [.claim "k" 100 none 0 0 0,.register 0 (sessionOf "s1"),.claim "k" 100 none 0 0 0,.resumePending 1 100 100 100,
    .register 1 (sessionOf "s2"),.settle 1 false,.evict "k",.settle 0 true]

def leaked : Store := ((storeMachine .default).run (.empty .default) leaking).get rfl

theorem sessionLeaked : ¬ ∀ (opts : Options) (s : Store), (storeMachine opts).Reachable s → SessionsKept opts s := by
  intro all
  have reach : (storeMachine .default).Reachable leaked :=
    Machine.runReachable (m := storeMachine .default) (s := .empty .default) leaking rfl (Option.some_get _).symm
  have kept := (all .default leaked reach).kept (by decide +kernel) ⟨sessionOf "s1",0,1,true⟩ (by decide +kernel)
  rcases kept with ⟨⟨key,id,found,_⟩,_⟩ | ⟨_,discarded⟩
  · have empty : leaked.records = [] := rfl
    simp [empty] at found
  · exact absurd discarded (by decide +kernel)

end Clankermux.ConversationStore
