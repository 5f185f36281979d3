import Clankermux.OverloadProbe

/-! The single-flight results over whole runs: admissions on one bucket are spaced,
a lost lease is handed over to its canceller, and of two attempts on one bucket
that no operator clear separates at most one is left running. -/
namespace Clankermux.OverloadBreaker
open History
variable {w after : World} {token : OverloadProbeToken} {key : String}

theorem Admits.holds {b after now d cancelled} (h : Admits b now d token cancelled after)
    (leased : LeasesOn token key) : Holds after token key := by
  obtain ⟨lease,given,rfl⟩ := leased
  obtain ⟨_,_,bucket,found,_⟩ := h.leases lease given
  rcases h.present _ bucket found with ⟨_,outside⟩ | ⟨leaseId,_,_,fresh,_⟩
  · exact absurd rfl (outside lease given)
  · exact ⟨_,_,fresh,rfl,rfl⟩

theorem Admits.takesOver {w after now d e token holder cancelled} (r : Recorded w)
    (h : Admits w.breaker now d token cancelled after) (leased : LeasesOn token key)
    (member : .admitted holder e ∈ w.history) (holds : Holds w.breaker holder key) :
    holder.acquiredAt + PROBE_ADMISSION_TTL_MS ≤ now ∧ ∀ canceller, e = some canceller → canceller ∈ cancelled := by
  obtain ⟨lease,given,rfl⟩ := leased
  obtain ⟨bucket,probe,found,held,mine⟩ := holds
  obtain ⟨callback,acquired,ttl,_⟩ := holderIs r member found held mine
  rcases h.present _ bucket found with ⟨_,outside⟩ | ⟨_,_,_,_,_,free,cancels⟩
  · exact absurd rfl (outside lease given)
  · refine ⟨?_,fun canceller its => cancels probe canceller held (callback.trans its)⟩
    simp only [isLeaseBlockingAdmission,held,Option.any_some,decide_eq_false_iff_not] at free
    omega

def KeptUntilResolved (w : World) : Prop :=
  ∀ token d key newer, Since w.history (.admitted token d) newer → LeasesOn token key →
    Resolved key token.probeId newer ∨ Holds w.breaker token key ∨
      token.acquiredAt + PROBE_ADMISSION_TTL_MS ≤ w.clock

def KeptWhileOutstanding (w : World) : Prop :=
  ∀ token canceller key newer, Since w.history (.admitted token (some canceller)) newer → LeasesOn token key →
    Outstanding token canceller newer → ¬ ClearedSince key newer → Holds w.breaker token key

def Spaced (history : List Happened) : Prop :=
  ∀ first d second e key newer between,
    Since history (.admitted first d) (newer ++ .admitted second e::between) →
    LeasesOn first key → LeasesOn second key →
    Resolved key first.probeId between ∨ first.acquiredAt + PROBE_ADMISSION_TTL_MS ≤ second.acquiredAt

def Alone (history : List Happened) : Prop :=
  ∀ first canceller second e key newer between,
    Since history (.admitted first (some canceller)) (newer ++ .admitted second e::between) →
    LeasesOn first key → LeasesOn second key → ¬ ClearedSince key between →
    ¬ Outstanding first canceller (newer ++ .admitted second e::between)

theorem Advance.pair {added newer between first second d e} (h : Advance w after added)
    (here : Since after.history (.admitted first d) (newer ++ .admitted second e::between)) :
    (∃ rest, newer = added ++ rest ∧ Since w.history (.admitted first d) (rest ++ .admitted second e::between)) ∨
    ∃ cancelled, newer = cancelled.map .cancelled ∧ Since w.history (.admitted first d) between ∧
      Admits w.breaker after.clock e second cancelled after.breaker := by
  rcases h.since here with ⟨rest,same,older⟩ | ⟨cancelled,same,_⟩
  · cases h with
    | quiet nobody history =>
      obtain ⟨deep,its,more⟩ := splitAdded (nobody second e) same.symm
      exact .inl ⟨deep,its,more ▸ older⟩
    | granted cancelled fresh f entries history admits =>
      rw [entries,List.append_assoc,List.singleton_append] at same
      obtain ⟨deep,its,more⟩ := splitAdded notAdmittedCancelled same.symm
      rcases splitCons.mp more with ⟨empty,it,rfl⟩ | ⟨tail,its',rfl⟩
      · cases it
        exact .inr ⟨cancelled,by rw [its,empty,List.append_nil],older,admits⟩
      · exact .inl ⟨tail,by rw [its,its',entries,List.append_assoc,List.singleton_append],older⟩
  · have inside : .admitted second e ∈ cancelled.map Happened.cancelled := by rw [← same]; simp
    exact absurd inside notAdmittedCancelled

theorem ClearedSince.grow {since} (added : List Happened)
    (h : ClearedSince key since) : ClearedSince key (added ++ since) := by
  obtain ⟨provider,member,swept⟩ := h
  exact ⟨provider,List.mem_append_right _ member,swept⟩

theorem ClearedSince.early {added} (since : List Happened)
    (h : ClearedSince key added) : ClearedSince key (added ++ since) := by
  obtain ⟨provider,member,swept⟩ := h
  exact ⟨provider,List.mem_append_left _ member,swept⟩

theorem GivesWay.resolved {added since clock d} (h : GivesWay added clock token d key) :
    Resolved key token.probeId (added ++ since) ∨ token.acquiredAt + PROBE_ADMISSION_TTL_MS ≤ clock := by
  rcases h with done | ⟨provider,member,swept⟩ | ⟨n,r,reporter,member,_⟩ | ⟨past,_⟩
  · exact .inl (.inr (.inr (List.mem_append_left _ done)))
  · exact .inl (.inr (.inl ⟨provider,List.mem_append_left _ member,swept⟩))
  · exact .inl (.inl ⟨n,r,reporter,List.mem_append_left _ member⟩)
  · exact .inr past

theorem GivesWay.heard {added since clock canceller} (h : GivesWay added clock token (some canceller) key)
    (unclear : ¬ ClearedSince key (added ++ since)) : ¬ Outstanding token canceller (added ++ since) := by
  intro running
  have uncancelled : .cancelled canceller ∉ added := fun member =>
    running.uncancelled (List.mem_append_left _ member)
  rcases h with done | swept | ⟨n,r,reporter,member,own | told⟩ | ⟨_,told⟩
  · exact running.uncompleted (List.mem_append_left _ done)
  · exact unclear (swept.early since)
  · exact running.notReporting key n r (List.mem_append_left _ (own ▸ member))
  · exact uncancelled (told canceller rfl)
  · exact uncancelled (told canceller rfl)

structure Safe (w : World) : Prop where
  recorded : Recorded w
  resolved : KeptUntilResolved w
  outstanding : KeptWhileOutstanding w
  spaced : Spaced w.history
  alone : Alone w.history

theorem safeStart {w} (start : machine.init w) : Safe w := by
  obtain ⟨empty,fresh⟩ := start
  refine ⟨recordedStart empty fresh,?_,?_,?_,?_⟩
  · intro token d key newer here
    exact absurd (fresh ▸ here) notSinceNil
  · intro token canceller key newer here
    exact absurd (fresh ▸ here) notSinceNil
  · intro first d second e key newer between here
    exact absurd (fresh ▸ here) notSinceNil
  · intro first canceller second e key newer between here
    exact absurd (fresh ▸ here) notSinceNil

theorem keptUntilResolvedStep (h : KeptUntilResolved w) (spec : StepSpec w after) :
    KeptUntilResolved after := by
  obtain ⟨added,advance,holds⟩ := spec.advance
  intro token d key newer here leased
  rcases advance.since here with ⟨rest,rfl,before⟩ | ⟨cancelled,_,admits⟩
  · rcases h token d key rest before leased with done | holding | past
    · exact .inl (done.grow added)
    · rcases holds token d key before.mem holding with kept | gives
      · exact .inr (.inl kept)
      · exact gives.resolved.imp id .inr
    · exact .inr (.inr (Int.le_trans past spec.clock))
  · exact .inr (.inl (admits.holds leased))

theorem keptWhileOutstandingStep (h : KeptWhileOutstanding w) (spec : StepSpec w after) :
    KeptWhileOutstanding after := by
  obtain ⟨added,advance,holds⟩ := spec.advance
  intro token canceller key newer here leased running unclear
  rcases advance.since here with ⟨rest,rfl,before⟩ | ⟨cancelled,_,admits⟩
  · have holding := h token canceller key rest before leased running.shrink (fun swept => unclear (swept.grow added))
    exact (holds token (some canceller) key before.mem holding).resolve_right (fun gives => gives.heard unclear running)
  · exact admits.holds leased

theorem spacedStep (h : Safe w) (spec : StepSpec w after) : Spaced after.history := by
  obtain ⟨added,advance,_⟩ := spec.advance
  intro first d second e key newer between here onFirst onSecond
  rcases advance.pair here with ⟨rest,_,before⟩ | ⟨cancelled,_,before,admits⟩
  · exact h.spaced first d second e key rest between before onFirst onSecond
  · rw [admits.acquiredAt]
    rcases h.resolved first d key between before onFirst with done | holding | past
    · exact .inl done
    · exact .inr (admits.takesOver h.recorded onSecond before.mem holding).1
    · exact .inr (Int.le_trans past spec.clock)

theorem aloneStep (h : Safe w) (spec : StepSpec w after) : Alone after.history := by
  obtain ⟨added,advance,_⟩ := spec.advance
  intro first canceller second e key newer between here onFirst onSecond unclear running
  rcases advance.pair here with ⟨rest,rfl,before⟩ | ⟨cancelled,rfl,before,admits⟩
  · rw [List.append_assoc] at running
    exact h.alone first canceller second e key rest between before onFirst onSecond unclear running.shrink
  · have earlier : Outstanding first canceller between := by
      rw [← List.singleton_append,← List.append_assoc] at running
      exact running.shrink
    have holding := h.outstanding first canceller key between before onFirst earlier unclear
    have told := (admits.takesOver h.recorded onSecond before.mem holding).2 canceller rfl
    exact running.uncancelled (List.mem_append_left _ (List.mem_map_of_mem told))

theorem safeStep {e} (h : Safe w) (done : step w e = some after) : Safe after :=
  have spec := stepSpec h.recorded done
  ⟨spec.recorded,keptUntilResolvedStep h.resolved spec,keptWhileOutstandingStep h.outstanding spec,
    spacedStep h spec,aloneStep h spec⟩

theorem safeReachable {w} (reach : machine.Reachable w) : Safe w :=
  reach.invariant (fun _ => safeStart) (fun _ _ _ => safeStep)

def HandedOver (w : World) : Prop :=
  ∀ e after token d key, step w e = some after → .admitted token d ∈ w.history →
    .completed token.probeId ∉ after.history → Holds w.breaker token key → ¬ Holds after.breaker token key →
    ∃ added, after.history = added ++ w.history ∧
      (ClearedSince key added ∨ (∃ now resetTime, .tripped key now resetTime (some token.probeId) ∈ added) ∨
        ∀ canceller, d = some canceller → .cancelled canceller ∈ added)

theorem handedOver {w} (h : Recorded w) : HandedOver w := by
  intro e after token d key done member uncompleted holding lost
  obtain ⟨added,advance,holds⟩ := (stepSpec h done).advance
  have history : after.history = added ++ w.history := by cases advance <;> assumption
  refine ⟨added,history,?_⟩
  rcases (holds token d key member holding).resolve_left lost with
    did | swept | ⟨n,r,reporter,inside,own | told⟩ | ⟨_,told⟩
  · exact absurd (history ▸ List.mem_append_left _ did) uncompleted
  · exact .inl swept
  · exact .inr (.inl ⟨n,r,own ▸ inside⟩)
  · exact .inr (.inr told)
  · exact .inr (.inr told)

theorem probeSingleFlight {w : World} (reach : machine.Reachable w) :
    Spaced w.history ∧ HandedOver w ∧ Alone w.history :=
  have safe := safeReachable reach
  ⟨safe.spaced,handedOver safe.recorded,safe.alone⟩

def idle : World := ⟨.empty,0,[]⟩

def takeover : List Event :=
  [⟨0,.apply "codex" none none none⟩,⟨60000,.acquire "codex" none (some 1)⟩,⟨60000,.acquire "codex" none (some 2)⟩]

theorem probeSingleFlightTakeover : ∃ w, machine.run idle takeover = some w ∧ .cancelled 1 ∈ w.history ∧
    Spaced w.history ∧ HandedOver w ∧ Alone w.history := by
  refine ⟨_,rfl,by decide,probeSingleFlight (Machine.runReachable (s := idle) takeover ⟨rfl,rfl⟩ rfl)⟩

def clearedBetween : List Event :=
  [⟨0,.apply "codex" none none none⟩,⟨60000,.acquire "codex" none (some 1)⟩,⟨0,.clear none⟩,
    ⟨0,.apply "codex" none none none⟩,⟨60000,.acquire "codex" none (some 2)⟩]

theorem clearLeavesTwoProbes : ∃ w first second newer between, machine.Reachable w ∧
    Since w.history (.admitted first (some 1)) (newer ++ .admitted second (some 2)::between) ∧
    LeasesOn first "codex" ∧ LeasesOn second "codex" ∧ first.probeId ≠ second.probeId ∧
    Outstanding first 1 (newer ++ .admitted second (some 2)::between) ∧ Outstanding second 2 newer := by
  refine ⟨_,⟨1,60000,[⟨"codex",1,1⟩]⟩,⟨2,120000,[⟨"codex",2,2⟩]⟩,[],
    [.tripped "codex" 60000 none none,.cleared none],
    Machine.runReachable (s := idle) clearedBetween ⟨rfl,rfl⟩ rfl,
    ⟨[.tripped "codex" 0 none none],by decide⟩,⟨_,List.mem_cons_self,rfl⟩,⟨_,List.mem_cons_self,rfl⟩,
    by decide,⟨by decide,by decide,?_⟩,⟨by simp,by simp,by simp⟩⟩
  intro key now resetTime member
  simp at member

end Clankermux.OverloadBreaker
