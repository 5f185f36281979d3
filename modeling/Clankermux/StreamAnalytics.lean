import Clankermux.Machine

/-! A response body on its way to the client through a stream with a queue of one chunk, whose
pull reads the upstream and whose reading is observed. What happens is kept in a log, oldest first:
what comes from outside (reads, endings, timers, the client) beside what the stream does. -/
namespace Clankermux.StreamAnalytics
variable {α : Type*}

inductive Happened (α : Type*) where
  | read (chunk : α)
  | ended
  | failed
  | timedOut
  | cancelled
  | enqueued (chunk : α)
  | onChunk (chunk : α)
  | onEnd
  | onError
  deriving DecidableEq

inductive StreamState where
  | readable
  | closed
  | errored
  deriving DecidableEq

inductive Pulling where
  | idle
  | awaiting
  -- the pull has returned, and what follows its promise has not run
  | returned
  deriving DecidableEq

structure Passthrough (α : Type*) where
  finalized : Bool
  totalTimer : Bool
  readTimer : Bool
  rearmInterval : Bool
  state : StreamState
  queue : List α
  requests : Nat
  closeRequested : Bool
  pulling : Pulling
  pullAgain : Bool
  upstreamCancelled : Bool
  upstreamEnded : Bool
  received : List α
  happened : List (Happened α)

def note (p : Passthrough α) (h : Happened α) : Passthrough α := {p with happened := p.happened ++ [h]}

/-! The functions of the passthrough. What a callback throws is caught, and nothing depends on it. -/

def finalize (p : Passthrough α) (err : Bool) : Bool × Passthrough α :=
  if p.finalized then (false,p)
  else (true,note {p with finalized := true, totalTimer := false, readTimer := false, rearmInterval := false}
    (if err then .onError else .onEnd))

def cancelUpstream (p : Passthrough α) : Passthrough α := {p with upstreamCancelled := true}

def pull (p : Passthrough α) : Passthrough α :=
  if p.finalized then {p with pulling := .returned} else {p with readTimer := true, pulling := .awaiting}

/-! The controller of the client's stream, whose high water mark is one chunk. -/

def shouldCallPull (p : Passthrough α) : Bool :=
  p.state = .readable && !p.closeRequested && (decide (p.requests > 0) || p.queue.isEmpty)

def callPullIfNeeded (p : Passthrough α) : Passthrough α :=
  if shouldCallPull p then
    if p.pulling = .idle then pull p else {p with pullAgain := true}
  else p

def enqueue (p : Passthrough α) (chunk : α) : Passthrough α :=
  callPullIfNeeded (if p.requests > 0 then {p with requests := p.requests - 1, received := p.received ++ [chunk]}
    else {p with queue := p.queue ++ [chunk]})

def close (p : Passthrough α) : Passthrough α :=
  if p.queue.isEmpty then {p with closeRequested := true, state := .closed, requests := 0} else {p with closeRequested := true}

def error (p : Passthrough α) : Passthrough α :=
  if p.state = .readable then {p with state := .errored, queue := [], requests := 0} else p

def fail (p : Passthrough α) : Passthrough α :=
  match finalize p true with
  | (false,p) => p
  | (true,p) => cancelUpstream (error p)

inductive Event (α : Type*) where
  | readValue (value : α)
  | readDone
  | readError
  | settled
  | totalFires
  | readFires
  | clientRead
  | clientCancel

def step (p : Passthrough α) : Event α → Option (Passthrough α)
  | .readValue value =>
    if p.pulling = .awaiting then
      let q := note {p with readTimer := false} (.read value)
      some {(if p.finalized then q else note (enqueue (note q (.enqueued value)) value) (.onChunk value)) with pulling := .returned}
    else none
  | .readDone =>
    if p.pulling = .awaiting then
      let q := note {p with readTimer := false, upstreamEnded := true} .ended
      some {(if p.finalized then q else close (finalize q false).2) with pulling := .returned}
    else none
  | .readError =>
    if p.pulling = .awaiting then some {fail (note {p with upstreamEnded := true} .failed) with pulling := .returned} else none
  | .settled =>
    if p.pulling = .returned then
      some (if p.pullAgain then callPullIfNeeded {p with pulling := .idle, pullAgain := false} else {p with pulling := .idle})
    else none
  | .totalFires => if p.totalTimer then some (fail (note {p with totalTimer := false} .timedOut)) else none
  | .readFires => if p.readTimer then some (fail (note {p with readTimer := false} .timedOut)) else none
  | .clientRead =>
    if p.state = .readable then
      match p.queue with
      | chunk::rest =>
        let p := {p with queue := rest, received := p.received ++ [chunk]}
        some (if p.closeRequested && rest.isEmpty then {p with state := .closed} else callPullIfNeeded p)
      | [] => some (callPullIfNeeded {p with requests := p.requests + 1})
    else some p
  | .clientCancel =>
    if p.state = .readable then
      let p := note {p with state := .closed, queue := [], requests := 0} .cancelled
      match finalize p true with
      | (false,p) => some p
      | (true,p) => some (cancelUpstream p)
    else some p

/-- The stream as it is made, the reaction to its start still to come. -/
def started (bumps : Bool) : Passthrough α :=
  ⟨false,true,false,bumps,.readable,[],0,false,.returned,true,false,false,[],[]⟩

def machine : Machine (Passthrough α) (Event α) where
  init p := ∃ bumps, p = started bumps
  step := step

inductive Ending where
  | ended
  | failed
  | timedOut
  | cancelled

def Ending.told : Ending → List (Happened α)
  | .ended => [.ended,.onEnd]
  | .failed => [.failed,.onError]
  | .timedOut => [.timedOut,.onError]
  | .cancelled => [.cancelled,.onError]

def handled (chunk : α) : List (Happened α) := [.read chunk,.enqueued chunk,.onChunk chunk]

def Happened.outside : Happened α → Bool
  | .read _ | .ended | .failed | .timedOut | .cancelled => true
  | _ => false

def Happened.breaks : Happened α → Bool
  | .failed | .timedOut | .cancelled => true
  | _ => false

/-- The chunks read before the one verdict went to the client in their order, but for at most `lost`
that were still in the queue when something broke the stream; each was enqueued and then observed; and
after the verdict there is only what comes from outside, and nothing is left armed or open. -/
def Passes (lost : Nat) (p : Passthrough α) : Prop := ∃ (chunks : List α) (ending : Option Ending) (later : List (Happened α))
  (dropped : List α), p.happened = chunks.flatMap handled ++ (ending.elim [] Ending.told ++ later) ∧
  (∀ h ∈ later, h.outside = true) ∧ (ending = none → later = []) ∧
  chunks = p.received ++ (p.queue ++ dropped) ∧ (p.state ≠ .readable → p.queue = []) ∧
  dropped.length ≤ lost ∧ (dropped ≠ [] → ∃ h ∈ p.happened, h.breaks = true) ∧
  (ending ≠ none → (p.totalTimer || p.readTimer || p.rearmInterval) = false ∧ (p.upstreamCancelled || p.upstreamEnded) = true)

structure Kept (p : Passthrough α) (chunks : List α) (ending : Option Ending) (later : List (Happened α)) (dropped : List α) : Prop where
  told : p.happened = chunks.flatMap handled ++ (ending.elim [] Ending.told ++ later)
  outside : ∀ h ∈ later, h.outside = true
  passed : chunks = p.received ++ (p.queue ++ dropped)
  room : p.queue.length + dropped.length ≤ 1
  broken : dropped ≠ [] → ∃ h ∈ p.happened, h.breaks = true
  running : p.finalized = false → ending = none ∧ later = [] ∧ p.state = .readable ∧ p.closeRequested = false
  shut : p.finalized = true → ending ≠ none ∧ (p.totalTimer || p.readTimer || p.rearmInterval) = false ∧
    (p.upstreamCancelled || p.upstreamEnded) = true
  waiting : p.requests > 0 → p.queue = []
  awaiting : p.pulling = .awaiting → p.finalized = false → p.queue = []
  whole : p.state = .readable → dropped = []
  gone : p.state ≠ .readable → p.queue = []

variable {p q : Passthrough α} {chunks dropped : List α} {ending : Option Ending} {later : List (Happened α)} {h : Happened α} {e : Ending}
  {value : α} {lost : Nat}

theorem Kept.callPull (kept : Kept p chunks ending later dropped) : Kept (callPullIfNeeded p) chunks ending later dropped := by
  unfold callPullIfNeeded
  split
  · rename_i should
    have empty : p.queue = [] := by
      simp only [shouldCallPull,Bool.and_eq_true,Bool.or_eq_true,decide_eq_true_eq,List.isEmpty_iff] at should
      exact should.2.elim kept.waiting id
    split
    · unfold pull
      split
      · exact { kept with awaiting := by rintro ⟨⟩ }
      · rename_i going
        exact { kept with shut := fun final => absurd final going, awaiting := fun _ _ => empty }
    · exact { kept with }
  · exact kept

theorem Kept.noted (kept : Kept p chunks ending later dropped) (final : p.finalized = true) (out : h.outside = true) :
    Kept (note p h) chunks ending (later ++ [h]) dropped := by
  refine { kept with told := ?_, outside := ?_, broken := fun some_ => ?_, running := fun going => ?_ }
  · simp only [note,kept.told,List.append_assoc]
  · exact List.forall_mem_append.mpr ⟨kept.outside,by simpa using out⟩
  · obtain ⟨other,inside,breaks⟩ := kept.broken some_
    exact ⟨other,List.mem_append_left _ inside,breaks⟩
  · cases final.symm.trans going

theorem Kept.failed (kept : Kept p chunks ending later dropped) (tells : (e.told : List (Happened α)) = [h,.onError]) (out : h.outside = true)
    (breaks : h.breaks = true) : ∃ ending later dropped, Kept (fail (note p h)) chunks ending later dropped := by
  unfold fail finalize
  cases final : p.finalized with
  | true =>
    have noted := kept.noted final out
    have same : (note p h).finalized = true := final
    rw [if_pos same]
    exact ⟨_,_,_,noted⟩
  | false =>
    have same : ¬ (note p h).finalized = true := by simp [note,final]
    rw [if_neg same]
    obtain ⟨told,outside,passed,room,broken,running,shut,waiting,awaiting,whole,gone⟩ := kept
    obtain ⟨rfl,rfl,readable,_⟩ := running final
    have empty := whole readable
    subst empty
    refine ⟨some e,[],p.queue,?_⟩
    simp only [note,error,readable,cancelUpstream]
    refine ⟨?_,by simp,?_,?_,fun _ => ⟨h,by simp,breaks⟩,by simp,by simp,by simp,by simp,by simp,by simp⟩
    · simp [told,tells]
    · simpa using passed
    · simpa using room

theorem noteCallPull : note (callPullIfNeeded p) h = callPullIfNeeded (note p h) := by
  have same : shouldCallPull (note p h) = shouldCallPull p := rfl
  unfold callPullIfNeeded
  rw [same]
  split
  · show note (if p.pulling = .idle then _ else _) h = if p.pulling = .idle then _ else _
    split
    · unfold pull
      show note (if p.finalized then _ else _) h = if p.finalized then _ else _
      split <;> rfl
    · rfl
  · rfl

theorem returnedCallPull (busy : p.pulling ≠ .idle) :
    {callPullIfNeeded p with pulling := .returned} = callPullIfNeeded {p with pulling := .returned} := by
  have same : shouldCallPull {p with pulling := .returned} = shouldCallPull p := rfl
  unfold callPullIfNeeded
  rw [same,if_neg busy]
  split <;> rfl

section
variable (kept : Kept p chunks ending later dropped)
include kept

theorem Kept.turned {pulling} (pullAgain : Bool) (other : pulling ≠ .awaiting) :
    Kept {p with pulling, pullAgain} chunks ending later dropped :=
  { kept with awaiting := fun waits => absurd waits other }

theorem Kept.timers (totalTimer readTimer ended : Bool)
    (off : p.finalized = true → totalTimer = false ∧ readTimer = false) :
    Kept {p with totalTimer, readTimer, upstreamEnded := ended || p.upstreamEnded} chunks ending later dropped := by
  refine { kept with shut := fun final => ?_ }
  obtain ⟨some_,timers,closed⟩ := kept.shut final
  obtain ⟨noTotal,noRead⟩ := off final
  refine ⟨some_,by simp_all,?_⟩
  rcases Bool.or_eq_true_iff.mp closed with its | its <;> simp [its]

theorem Kept.off (final : p.finalized = true) : p.totalTimer = false ∧ p.readTimer = false := by
  have none_ := (kept.shut final).2.1
  simp only [Bool.or_eq_false_iff] at none_
  exact none_.1

theorem Kept.read (waits : p.pulling = .awaiting) (going : p.finalized = false) :
    Kept {note (enqueue (note (note {p with readTimer := false} (.read value)) (.enqueued value)) value) (.onChunk value) with
      pulling := .returned} (chunks ++ [value]) none [] [] := by
  obtain ⟨told,outside,passed,room,broken,running,shut,waiting,awaiting,whole,gone⟩ := kept
  obtain ⟨rfl,rfl,readable,open_⟩ := running going
  cases whole readable
  have empty := awaiting waits going
  have log : p.happened ++ [.read value] ++ [.enqueued value] ++ [.onChunk value] = (chunks ++ [value]).flatMap handled ++ [] := by
    simp [told,handled]
  have unfinished : ∀ {P}, p.finalized = true → P := fun final => absurd (final.symm.trans going) (by decide)
  unfold enqueue
  split
  · rw [noteCallPull,returnedCallPull (by simp [note,waits])]
    exact Kept.callPull ⟨log,by simp,by simp [note,passed,empty],by simp [note,empty],by simp,fun _ => ⟨rfl,rfl,readable,open_⟩,unfinished,
      fun _ => empty,by rintro ⟨⟩,fun _ => rfl,fun _ => empty⟩
  · rename_i none_
    rw [noteCallPull,returnedCallPull (by simp [note,waits])]
    exact Kept.callPull ⟨log,by simp,by simp [note,passed],by simp [note,empty],by simp,fun _ => ⟨rfl,rfl,readable,open_⟩,unfinished,
      fun some_ => absurd some_ none_,by rintro ⟨⟩,fun _ => rfl,fun broken => absurd readable broken⟩

theorem Kept.done (going : p.finalized = false) :
    Kept {close (finalize (note {p with readTimer := false, upstreamEnded := true} .ended) false).2 with pulling := .returned}
      chunks (some .ended) [] [] := by
  obtain ⟨told,outside,passed,room,broken,running,shut,waiting,awaiting,whole,gone⟩ := kept
  obtain ⟨rfl,rfl,readable,open_⟩ := running going
  cases whole readable
  have log : p.happened ++ [.ended] ++ [.onEnd] = chunks.flatMap handled ++ (Ending.told .ended ++ []) := by simp [told,Ending.told]
  simp only [finalize,note,going,Bool.false_eq_true,if_false,close]
  split
  · rename_i empty
    have empty := List.isEmpty_iff.mp empty
    exact ⟨log,by simp,passed,room,by simp,by simp,by simp,by simp,by rintro ⟨⟩,fun _ => rfl,fun _ => empty⟩
  · exact ⟨log,by simp,passed,room,by simp,by simp,by simp,waiting,by rintro ⟨⟩,fun _ => rfl,fun other => absurd readable other⟩

end

theorem keptStep {event} (kept : Kept p chunks ending later dropped) (went : step p event = some q) :
    ∃ chunks ending later dropped, Kept q chunks ending later dropped := by
  cases event with
  | readValue value =>
    obtain ⟨waits,⟨⟩⟩ := Option.ite_none_right_eq_some.mp went
    split
    · rename_i final
      have disarmed := kept.timers p.totalTimer false false (fun final => ⟨(kept.off final).1,rfl⟩)
      exact ⟨_,_,_,_,(disarmed.noted final rfl).turned p.pullAgain (by decide)⟩
    · rename_i going
      exact ⟨_,_,_,_,kept.read waits (Bool.of_not_eq_true going)⟩
  | readDone =>
    obtain ⟨waits,⟨⟩⟩ := Option.ite_none_right_eq_some.mp went
    split
    · rename_i final
      have disarmed := kept.timers p.totalTimer false true (fun final => ⟨(kept.off final).1,rfl⟩)
      exact ⟨_,_,_,_,(disarmed.noted final rfl).turned p.pullAgain (by decide)⟩
    · rename_i going
      exact ⟨_,_,_,_,kept.done (Bool.of_not_eq_true going)⟩
  | readError =>
    obtain ⟨_,⟨⟩⟩ := Option.ite_none_right_eq_some.mp went
    obtain ⟨_,_,_,failed⟩ := (kept.timers p.totalTimer p.readTimer true kept.off).failed (e := .failed) rfl rfl rfl
    exact ⟨_,_,_,_,failed.turned _ (by decide)⟩
  | settled =>
    obtain ⟨_,⟨⟩⟩ := Option.ite_none_right_eq_some.mp went
    split
    · exact ⟨_,_,_,_,(kept.turned false (by decide)).callPull⟩
    · exact ⟨_,_,_,_,kept.turned p.pullAgain (by decide)⟩
  | totalFires =>
    obtain ⟨_,⟨⟩⟩ := Option.ite_none_right_eq_some.mp went
    exact ⟨_,(kept.timers false p.readTimer false (fun final => ⟨rfl,(kept.off final).2⟩)).failed (e := .timedOut) rfl rfl rfl⟩
  | readFires =>
    obtain ⟨_,⟨⟩⟩ := Option.ite_none_right_eq_some.mp went
    exact ⟨_,(kept.timers p.totalTimer false false (fun final => ⟨(kept.off final).1,rfl⟩)).failed (e := .timedOut) rfl rfl rfl⟩
  | clientRead =>
    simp only [step] at went
    split at went
    · rename_i readable
      cases kept.whole readable
      split at went
      · rename_i chunk rest queued
        have passed := kept.passed
        have room := kept.room
        rw [queued] at passed room
        have rest_ : rest = [] := by simpa using room
        subst rest_
        cases went
        have taken : Kept {p with queue := [], received := p.received ++ [chunk]} chunks ending later [] :=
          { kept with
            passed := by simpa using passed
            room := by simp
            waiting := fun _ => rfl
            awaiting := fun _ _ => rfl
            gone := fun _ => rfl }
        split
        · rename_i last
          refine ⟨_,_,_,_,{ taken with running := fun going => ?_, whole := (by rintro ⟨⟩), gone := fun _ => rfl }⟩
          have open_ := (kept.running going).2.2.2
          simp [open_] at last
        · exact ⟨_,_,_,_,taken.callPull⟩
      · rename_i queued
        cases went
        exact ⟨_,_,_,_,Kept.callPull { kept with waiting := fun _ => queued }⟩
    · cases went
      exact ⟨_,_,_,_,kept⟩
  | clientCancel =>
    simp only [step] at went
    split at went
    · rename_i readable
      cases kept.whole readable
      by_cases final : p.finalized = true
      · have same : (note {p with state := .closed, queue := [], requests := 0} .cancelled).finalized = true := final
        simp only [finalize,if_pos same,Option.some.injEq] at went
        subst went
        exact ⟨_,_,_,p.queue,{ kept.noted (h := .cancelled) final rfl with
          passed := by simpa [note] using kept.passed
          room := by simpa [note] using kept.room
          broken := fun _ => ⟨.cancelled,by simp [note],rfl⟩
          running := fun going => absurd (final.symm.trans going) (by decide)
          waiting := by simp [note]
          awaiting := fun _ _ => rfl
          whole := by simp [note]
          gone := fun _ => rfl }⟩
      · have same : ¬ (note {p with state := .closed, queue := [], requests := 0} .cancelled).finalized = true := final
        simp only [finalize,if_neg same,Option.some.injEq] at went
        subst went
        obtain ⟨rfl,rfl,_,_⟩ := kept.running (Bool.of_not_eq_true final)
        exact ⟨chunks,some .cancelled,[],p.queue,by simp [cancelUpstream,note,kept.told,Ending.told],by simp,
          by simpa [cancelUpstream,note] using kept.passed,by simpa [cancelUpstream,note] using kept.room,
          fun _ => ⟨.cancelled,by simp [cancelUpstream,note],rfl⟩,by simp [cancelUpstream,note],by simp [cancelUpstream,note],
          by simp [cancelUpstream,note],fun _ _ => rfl,by simp [cancelUpstream,note],fun _ => rfl⟩
    · cases went
      exact ⟨_,_,_,_,kept⟩

theorem Kept.passes (kept : Kept p chunks ending later dropped) : Passes 1 p := by
  obtain ⟨told,outside,passed,room,broken,running,shut,_,_,_,gone⟩ := kept
  refine ⟨chunks,ending,later,dropped,told,outside,fun going => ?_,passed,gone,by omega,broken,fun some_ => ?_⟩
  · exact (running (Bool.of_not_eq_true (fun final => (shut final).1 going))).2.1
  · cases final : p.finalized with
    | true => exact (shut final).2
    | false => exact absurd (running final).1 some_

theorem analyticsPasses (reach : (machine (α := α)).Reachable p) : Passes 1 p := by
  have kept : ∃ chunks ending later dropped, Kept p chunks ending later dropped := by
    refine reach.invariant (P := fun p => ∃ chunks ending later dropped, Kept p chunks ending later dropped) ?_ ?_
    · rintro p ⟨bumps,rfl⟩
      exact ⟨[],none,[],[],rfl,by simp,rfl,by simp [started],by simp,fun _ => ⟨rfl,rfl,rfl,rfl⟩,by rintro ⟨⟩,fun _ => rfl,fun _ _ => rfl,
        fun _ => rfl,fun _ => rfl⟩
    · rintro p event q ⟨_,_,_,_,kept⟩ went
      exact keptStep kept went
  obtain ⟨_,_,_,_,kept⟩ := kept
  exact kept.passes

theorem analyticsPassesEnded : ∃ p, machine.run (started true) [.settled,.readValue 0,.clientRead,.settled,.readDone] = some p ∧ Passes 1 p :=
  ⟨_,rfl,analyticsPasses (Machine.runReachable [.settled,.readValue 0,.clientRead,.settled,.readDone] ⟨true,rfl⟩ rfl)⟩

/-- The stream times out while the chunk that has been read waits for the client. -/
theorem analyticsDrops : ¬ ∀ p, (machine (α := Nat)).Reachable p → Passes 0 p := by
  intro all
  obtain ⟨chunks,ending,later,dropped,told,_,quiet,passed,_,none_,_⟩ :=
    all _ (Machine.runReachable [.settled,.readValue 0,.totalFires] ⟨true,rfl⟩ rfl)
  cases List.length_eq_zero_iff.mp (Nat.le_zero.mp none_)
  have empty : chunks = [] := passed
  subst empty
  cases ending with
  | none =>
    cases quiet rfl
    cases told
  | some e => cases e <;> cases told

end Clankermux.StreamAnalytics
