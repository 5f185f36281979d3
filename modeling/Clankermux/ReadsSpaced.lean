import Clankermux.History
import Clankermux.SpacedReadGate
import Mathlib.Data.List.Perm.Basic
import Mathlib.Data.List.Range

/-! One turn at a time, the sends of different accounts apart, the queue in order and every acquire settled once. -/
namespace Clankermux.SpacedReadGate
variable {Account : Type} [DecidableEq Account] {spacingMs : ℚ} {jitter : Nat → ℚ} {s t : Gate Account} {a : Account}

def popped (s : Gate Account) (waiter : Waiter Account) (rest : List (Waiter Account)) : Gate Account :=
  { s with waiters := rest, busy := true, taken := ⟨waiter,rest⟩::s.taken }

inductive Served (spacingMs : ℚ) (jitter : Nat → ℚ) (s : Gate Account) : Gate Account → Prop where
  | empty (none_ : s.waiters = []) : Served spacingMs jitter s s
  | asleep {waiter rest} (head : s.waiters = waiter::rest) (open_ : s.stopped = false) (wait : 0 < s.wait spacingMs jitter waiter) :
      Served spacingMs jitter s { popped s waiter rest with asleep := some ⟨waiter,s.time + s.wait spacingMs jitter waiter⟩ }
  | granted {waiter rest} (head : s.waiters = waiter::rest) (open_ : s.stopped = false) (wait : s.wait spacingMs jitter waiter ≤ 0) :
      Served spacingMs jitter s ((popped s waiter rest).grant waiter)

theorem serveServed (closed : s.stopped = true → s.waiters = []) : Served spacingMs jitter s (Gate.serve spacingMs jitter s.waiters s) := by
  cases head : s.waiters with
  | nil =>
    have same : Gate.serve spacingMs jitter [] s = s := by
      rw [Gate.serve,← head]
    rw [same]
    exact .empty head
  | cons waiter rest =>
    have open_ : s.stopped = false := by
      by_contra stopped
      rw [closed (by simpa using stopped)] at head
      cases head
    have wait : (popped s waiter rest).wait spacingMs jitter waiter = s.wait spacingMs jitter waiter := rfl
    rw [Gate.serve]
    split
    · rename_i sleeps
      exact .asleep head open_ sleeps
    · rename_i ready
      rw [if_neg (by simp [open_])]
      exact .granted head open_ (not_lt.mp ready)

structure Free (s : Gate Account) : Prop where
  awake : s.asleep = none
  over_ : ∀ (i : Nat) turn, s.turns[i]? = some turn → turn.released = true

structure Held (s : Gate Account) : Prop where
  free : s.busy = false → Free s
  alone : s.asleep ≠ none → ∀ (i : Nat) turn, s.turns[i]? = some turn → turn.released = true
  one : ∀ (i j : Nat) turn other, s.turns[i]? = some turn → s.turns[j]? = some other → turn.released = false → other.released = false → i = j

omit [DecidableEq Account] in
theorem grantHeld (over_ : ∀ (i : Nat) turn, s.turns[i]? = some turn → turn.released = true) (awake : s.asleep = none) (busy : s.busy = true)
    (waiter : Waiter Account) : Held (s.grant waiter) where
  free calm := by
    have : s.busy = false := calm
    rw [busy] at this
    cases this
  alone sleeps := absurd awake sleeps
  one i j turn other here there out also := by
    rcases History.snocGet here with first | ⟨first,rfl⟩
    · rw [over_ i turn first] at out
      cases out
    · rcases History.snocGet there with second | ⟨second,rfl⟩
      · rw [over_ j other second] at also
        cases also
      · omega

theorem serveHeld (free : Free s) (held : Held s) (served : Served spacingMs jitter s t) : Held t := by
  cases served with
  | empty _ => exact held
  | asleep _ _ _ => exact ⟨fun calm => absurd calm Bool.noConfusion,fun _ => free.over_,held.one⟩
  | granted _ _ _ => exact grantHeld (s := popped s _ _) free.over_ free.awake rfl _

omit [DecidableEq Account] in
theorem Held.aside (held : Held s) (busy : t.busy = s.busy) (asleep : t.asleep = s.asleep) (turns : t.turns = s.turns) : Held t := by
  refine ⟨fun calm => ?_,?_,?_⟩
  · have free := held.free (busy ▸ calm)
    exact ⟨asleep ▸ free.awake,turns ▸ free.over_⟩
  · rw [asleep,turns]
    exact held.alone
  · rw [turns]
    exact held.one

omit [DecidableEq Account] in
theorem freeHeld (free : Free s) : Held s where
  free _ := free
  alone sleeps := absurd free.awake sleeps
  one i _ turn _ here _ out _ := by
    rw [free.over_ i turn here] at out
    cases out

def Clear (spacingMs : ℚ) (sends : List (Sent Account)) (accountId : Account) (time : ℚ) : Prop :=
  ∀ sent ∈ sends, sent.accountId ≠ accountId → sent.time + spacingMs ≤ time

def Apart (spacingMs : ℚ) (later earlier : Sent Account) : Prop :=
  earlier.time ≤ later.time ∧ (later.accountId ≠ earlier.accountId → earlier.time + spacingMs ≤ later.time)

structure Spaced (spacingMs : ℚ) (s : Gate Account) : Prop where
  past : ∀ sent ∈ s.sends, sent.time ≤ s.time
  apart : s.sends.Pairwise (Apart spacingMs)
  last : ∀ sent older, s.sends = sent::older → ∃ last, s.last = some last ∧ last.accountId = sent.accountId ∧
    s.clock - last.at_ ≤ s.time - sent.time
  turn : ∀ (i : Nat) turn, s.turns[i]? = some turn → turn.released = false → Clear spacingMs s.sends turn.accountId s.time
  sleeper : ∀ sleeper, s.asleep = some sleeper → Clear spacingMs s.sends sleeper.waiter.accountId sleeper.until_

theorem waitClear (fit : Spaced spacingMs s) (jittered : ∀ id, 0 ≤ jitter id) (waiter : Waiter Account) :
    Clear spacingMs s.sends waiter.accountId (s.time + max (s.wait spacingMs jitter waiter) 0) := by
  intro sent inside other
  have past := fit.past sent inside
  have most := le_max_right (s.wait spacingMs jitter waiter) 0
  cases sends : s.sends with
  | nil =>
    rw [sends] at inside
    cases inside
  | cons newest older =>
    obtain ⟨last,stamped,same,young⟩ := fit.last newest older sends
    have newestPast := fit.past newest (by rw [sends]; exact .head _)
    have apart := fit.apart
    rw [sends] at inside apart
    have before : sent.time ≤ newest.time ∧ (newest.accountId ≠ sent.accountId → sent.time + spacingMs ≤ newest.time) := by
      rcases List.mem_cons.mp inside with rfl | old
      · exact ⟨le_refl _,fun different => absurd rfl different⟩
      · exact List.rel_of_pairwise_cons apart old
    by_cases own : last.accountId = waiter.accountId
    · have := before.2 (fun equal => other (equal ▸ same ▸ own))
      linarith
    · by_cases forth : 0 ≤ spacingMs
      · have gap : spacingMs ≤ spacingMs * (1 + jitter waiter.id) := le_mul_of_one_le_right forth (by linarith [jittered waiter.id])
        have waited : min (last.at_ + spacingMs * (1 + jitter waiter.id) - s.clock) (spacingMs * (1 + jitter waiter.id)) ≤
            max (s.wait spacingMs jitter waiter) 0 := by
          rw [Gate.wait,stamped]
          dsimp only
          rw [if_pos own]
          exact le_max_left _ _
        rcases min_choice (last.at_ + spacingMs * (1 + jitter waiter.id) - s.clock) (spacingMs * (1 + jitter waiter.id)) with least | least
        · rw [least] at waited
          linarith
        · rw [least] at waited
          linarith
      · linarith

theorem serveSpaced (fit : Spaced spacingMs s) (jittered : ∀ id, 0 ≤ jitter id) (served : Served spacingMs jitter s t) :
    Spaced spacingMs t := by
  cases served with
  | empty _ => exact fit
  | @asleep waiter rest _ _ wait =>
    refine ⟨fit.past,fit.apart,fit.last,fit.turn,?_⟩
    rintro sleeper ⟨⟩
    have clear := waitClear fit jittered waiter
    rw [max_eq_left wait.le] at clear
    exact clear
  | @granted waiter rest _ _ wait =>
    refine { fit with turn := fun i turn here out => ?_ }
    rcases History.snocGet here with old | ⟨_,rfl⟩
    · exact fit.turn i turn old out
    · have clear := waitClear fit jittered waiter
      rw [max_eq_right wait,add_zero] at clear
      exact clear

def Before (first later : Waiter Account) : Prop :=
  (later.urgent = true → first.urgent = true) ∧ (first.urgent = later.urgent → first.id < later.id)

structure Queued (s : Gate Account) : Prop where
  sorted : s.waiters.Pairwise Before
  fresh : ∀ waiter ∈ s.waiters, waiter.id < s.acquired
  taken : ∀ taken ∈ s.taken, ∀ waiter ∈ taken.left, Before taken.waiter waiter

theorem serveQueued (fit : Queued s) (served : Served spacingMs jitter s t) : Queued t := by
  cases served with
  | empty _ => exact fit
  | asleep head _ _ | granted head _ _ =>
    have sorted := fit.sorted
    rw [head,List.pairwise_cons] at sorted
    refine ⟨sorted.2,fun waiter inside => fit.fresh waiter (head ▸ .tail _ inside),fun taken inside => ?_⟩
    rcases List.mem_cons.mp inside with rfl | old
    · exact sorted.1
    · exact fit.taken taken old

omit [DecidableEq Account] in
theorem enqueueMem {new waiter : Waiter Account} {waiters} :
    waiter ∈ Gate.enqueue new waiters ↔ waiter = new ∨ waiter ∈ waiters := by
  unfold Gate.enqueue
  split
  · conv_rhs => rw [← List.takeWhile_append_dropWhile (p := (·.urgent)) (l := waiters)]
    simp only [List.mem_append,List.mem_cons]
    tauto
  · simp only [List.mem_append,List.mem_singleton]
    tauto

omit [DecidableEq Account] in
theorem enqueueSorted {new : Waiter Account} {waiters} (sorted : waiters.Pairwise Before)
    (fresh : ∀ waiter ∈ waiters, waiter.id < new.id) : (Gate.enqueue new waiters).Pairwise Before := by
  unfold Gate.enqueue
  split
  · rename_i urgent
    rw [← List.takeWhile_append_dropWhile (p := (·.urgent)) (l := waiters),List.pairwise_append] at sorted
    have after : ∀ waiter ∈ waiters.dropWhile (·.urgent), waiter.urgent = false := by
      intro waiter inside
      cases rest : waiters.dropWhile (·.urgent) with
      | nil =>
        rw [rest] at inside
        cases inside
      | cons head tail =>
        have plain : head.urgent = false := by
          have := List.head_dropWhile_not (·.urgent) (l := waiters) (by rw [rest]; simp)
          simpa [rest] using this
        rw [rest] at inside sorted
        rcases List.mem_cons.mp inside with rfl | later
        · exact plain
        · by_contra its
          exact absurd ((List.rel_of_pairwise_cons sorted.2.1 later).1 (by simpa using its)) (by simp [plain])
    have before : ∀ waiter ∈ waiters.takeWhile (·.urgent), waiter.urgent = true ∧ waiter.id < new.id := fun waiter inside =>
      ⟨List.all_eq_true.mp List.all_takeWhile waiter inside,fresh waiter (List.takeWhile_subset _ inside)⟩
    rw [List.pairwise_append,List.pairwise_cons]
    refine ⟨sorted.1,⟨fun waiter inside => ?_,sorted.2.1⟩,fun first there waiter inside => ?_⟩
    · exact ⟨fun _ => urgent,fun same => absurd (same ▸ urgent) (by simp [after waiter inside])⟩
    · rcases List.mem_cons.mp inside with rfl | later
      · exact ⟨fun _ => (before first there).1,fun _ => (before first there).2⟩
      · exact sorted.2.2 first there waiter later
  · rename_i plain
    rw [List.pairwise_append]
    refine ⟨sorted,List.pairwise_singleton _ _,fun waiter inside last here => ?_⟩
    rw [List.mem_singleton.mp here]
    exact ⟨fun urgent => absurd urgent plain,fun _ => fresh waiter inside⟩

def places (s : Gate Account) : List Nat := s.waiters.map (·.id) ++ s.asleep.toList.map (·.waiter.id) ++ s.settled.map (·.id)

structure Accounted (s : Gate Account) : Prop where
  once : (places s).Perm (List.range s.acquired)
  closed : s.stopped = true → s.waiters = []

theorem serveAccounted (free : Free s) (fit : Accounted s) (served : Served spacingMs jitter s t) : Accounted t := by
  cases served with
  | empty _ => exact fit
  | @asleep waiter rest head open_ _ =>
    refine ⟨?_,fun stopped => absurd (open_.symm.trans stopped) (by decide)⟩
    have once := fit.once
    simp only [places,head,free.awake] at once
    refine List.Perm.trans ?_ once
    simp only [places,List.append_assoc]
    exact List.perm_middle
  | @granted waiter rest head open_ _ =>
    refine ⟨?_,fun stopped => absurd (open_.symm.trans stopped) (by decide)⟩
    have once := fit.once
    simp only [places,head] at once
    refine List.Perm.trans ?_ once
    simp only [places,popped,Gate.grant,Gate.settle,free.awake,Option.toList_none,List.map_nil,List.append_nil]
    exact List.perm_middle

structure Sound (spacingMs : ℚ) (s : Gate Account) : Prop where
  held : Held s
  spaced : Spaced spacingMs s
  queued : Queued s
  accounted : Accounted s

omit [DecidableEq Account] in
theorem startSound (time clock : ℚ) : Sound spacingMs (.start time clock : Gate Account) where
  held := by
    refine freeHeld ⟨rfl,fun i turn here => ?_⟩
    cases i <;> cases here
  spaced := by
    refine ⟨fun _ here => absurd here List.not_mem_nil,.nil,?_,fun i turn here => ?_,?_⟩
    · rintro _ _ ⟨⟩
    · cases i <;> cases here
    · rintro _ ⟨⟩
  queued := ⟨.nil,fun _ here => absurd here List.not_mem_nil,fun _ here => absurd here List.not_mem_nil⟩
  accounted := ⟨.refl _,fun _ => rfl⟩

theorem nextSound (sound : Sound spacingMs s) (jittered : ∀ id, 0 ≤ jitter id) : Sound spacingMs (s.next spacingMs jitter) := by
  unfold Gate.next
  split
  · exact sound
  · rename_i calm
    have free := sound.held.free (by simpa using calm)
    have served : Served spacingMs jitter s _ := serveServed sound.accounted.closed
    exact ⟨serveHeld free sound.held served,serveSpaced sound.spaced jittered served,serveQueued sound.queued served,
      serveAccounted free sound.accounted served⟩

theorem acquireSound (sound : Sound spacingMs s) (jittered : ∀ id, 0 ≤ jitter id) (a : Account) (urgent : Bool) :
    Sound spacingMs (s.acquire spacingMs jitter a urgent) := by
  have spaced := sound.spaced
  unfold Gate.acquire
  dsimp only
  split
  · refine ⟨sound.held.aside rfl rfl rfl,{ spaced with },
      ⟨sound.queued.sorted,fun waiter inside => Nat.lt_succ_of_lt (sound.queued.fresh waiter inside),sound.queued.taken⟩,?_,sound.accounted.closed⟩
    have counted : (places s ++ [s.acquired]).Perm (List.range (s.acquired + 1)) := by
      rw [List.range_succ]
      exact sound.accounted.once.append_right _
    refine List.Perm.trans ?_ counted
    exact List.perm_middle.trans (List.perm_append_singleton _ _).symm
  · rename_i open_
    refine nextSound ⟨sound.held.aside rfl rfl rfl,{ spaced with },
      ⟨enqueueSorted sound.queued.sorted sound.queued.fresh,fun waiter inside => ?_,sound.queued.taken⟩,?_,fun stopped => absurd stopped open_⟩ jittered
    · rcases enqueueMem.mp inside with rfl | old
      · exact Nat.lt_succ_self _
      · exact Nat.lt_succ_of_lt (sound.queued.fresh waiter old)
    · have joined : (Gate.enqueue ⟨s.acquired,a,urgent⟩ s.waiters).Perm (⟨s.acquired,a,urgent⟩::s.waiters) := by
        unfold Gate.enqueue
        split
        · refine List.perm_middle.trans (.cons _ ?_)
          rw [List.takeWhile_append_dropWhile]
        · exact List.perm_append_singleton _ _
      have counted : (s.acquired::places s).Perm (List.range (s.acquired + 1)) := by
        rw [List.range_succ]
        exact (List.perm_append_singleton _ _).symm.trans (sound.accounted.once.append_right _)
      refine List.Perm.trans ?_ counted
      exact ((joined.map _).append_right _).append_right _

omit [DecidableEq Account] in
theorem stopSound (sound : Sound spacingMs s) : Sound spacingMs s.stop := by
  have spaced := sound.spaced
  refine ⟨sound.held.aside rfl rfl rfl,{ spaced with },
    ⟨.nil,fun _ here => absurd here List.not_mem_nil,sound.queued.taken⟩,?_,fun _ => rfl⟩
  refine List.Perm.trans ?_ sound.accounted.once
  simp only [places,Gate.stop,List.map_append,List.map_map]
  have same : (fun settled : Settled => settled.id) ∘ (fun waiter : Waiter Account => ⟨waiter.id,false⟩) = (·.id) := rfl
  rw [same,List.map_reverse,← List.append_assoc]
  refine List.Perm.append_right _ (List.perm_append_comm.trans ?_)
  exact (List.reverse_perm _).append_right _

theorem releaseSound (sound : Sound spacingMs s) (jittered : ∀ id, 0 ≤ jitter id) (i : Nat) :
    Sound spacingMs (s.release spacingMs jitter i) := by
  unfold Gate.release
  cases found : s.turns[i]? with
  | none => exact sound
  | some turn =>
    dsimp only
    split
    · exact sound
    · rename_i out
      have kept : ∀ (j : Nat) other, (s.turns.set i { turn with released := true })[j]? = some other → other.released = true := by
        intro j other here
        rw [List.getElem?_set] at here
        split at here
        · split at here
          · cases here
            rfl
          · cases here
        · rename_i different
          by_contra also
          exact different (sound.held.one i j turn other found here (by simpa using out) (by simpa using also))
      have awake : s.asleep = none := by
        by_contra sleeps
        exact out (sound.held.alone sleeps i turn found)
      refine nextSound ⟨freeHeld ⟨awake,kept⟩,⟨sound.spaced.past,sound.spaced.apart,sound.spaced.last,?_,sound.spaced.sleeper⟩,
        ⟨sound.queued.sorted,sound.queued.fresh,sound.queued.taken⟩,⟨sound.accounted.once,sound.accounted.closed⟩⟩ jittered
      intro j other here also
      rw [kept j other here] at also
      cases also

omit [DecidableEq Account] in
theorem sentSound (sound : Sound spacingMs s) (i : Nat) : Sound spacingMs (s.sent i) := by
  unfold Gate.sent
  cases found : s.turns[i]? with
  | none => exact sound
  | some turn =>
    dsimp only
    split
    · exact sound
    · rename_i out
      refine ⟨sound.held.aside rfl rfl rfl,⟨?_,?_,?_,?_,?_⟩,⟨sound.queued.sorted,sound.queued.fresh,sound.queued.taken⟩,
        ⟨sound.accounted.once,sound.accounted.closed⟩⟩
      · intro sent inside
        rcases List.mem_cons.mp inside with rfl | old
        · exact le_refl _
        · exact sound.spaced.past sent old
      · exact List.pairwise_cons.mpr ⟨fun sent inside => ⟨sound.spaced.past sent inside,fun different =>
          sound.spaced.turn i turn found (by simpa using out) sent inside (Ne.symm different)⟩,sound.spaced.apart⟩
      · rintro sent older ⟨⟩
        exact ⟨_,rfl,rfl,by simp⟩
      · intro j other here also sent inside different
        have own := sound.held.one i j turn other found here (by simpa using out) also
        subst own
        rw [show s.turns[i]? = some other from here] at found
        cases found
        rcases List.mem_cons.mp inside with rfl | old
        · exact absurd rfl different
        · exact sound.spaced.turn i turn here also sent old different
      · intro sleeper sleeps
        have asleep : s.asleep ≠ none := by
          rw [show s.asleep = some sleeper from sleeps]
          simp
        exact absurd (sound.held.alone asleep i turn found) out

theorem wakeSound (sound : Sound spacingMs s) (jittered : ∀ id, 0 ≤ jitter id) (failed : Bool) {sleeper}
    (sleeps : s.asleep = some sleeper) (rested : sleeper.until_ ≤ s.time) : Sound spacingMs (s.wake spacingMs jitter failed sleeper) := by
  have over_ := sound.held.alone (by rw [sleeps]; simp)
  have spaced := sound.spaced
  have once := sound.accounted.once
  simp only [places,sleeps,Option.toList_some,List.map_cons,List.map_nil,List.append_assoc,List.singleton_append] at once
  unfold Gate.wake
  dsimp only
  split
  · refine nextSound ⟨freeHeld ⟨rfl,over_⟩,{ spaced with sleeper := ?_ },
      ⟨sound.queued.sorted,sound.queued.fresh,sound.queued.taken⟩,?_,sound.accounted.closed⟩ jittered
    · rintro _ ⟨⟩
    · simpa only [places,Gate.settle,Option.toList_none,List.map_nil,List.append_nil,List.map_cons] using once
  · have busy : s.busy = true := by
      by_contra calm
      rw [(sound.held.free (by simpa using calm)).awake] at sleeps
      cases sleeps
    refine ⟨grantHeld (s := { s with asleep := none }) over_ rfl busy _,⟨spaced.past,spaced.apart,spaced.last,?_,?_⟩,
      ⟨sound.queued.sorted,sound.queued.fresh,sound.queued.taken⟩,?_,sound.accounted.closed⟩
    · intro i turn here out
      rcases History.snocGet here with old | ⟨_,rfl⟩
      · exact spaced.turn i turn old out
      · exact fun sent inside different => (spaced.sleeper sleeper sleeps sent inside different).trans rested
    · rintro _ ⟨⟩
    · simpa only [places,Gate.grant,Gate.settle,Option.toList_none,List.map_nil,List.append_nil,List.map_cons] using once

omit [DecidableEq Account] in
theorem passSound (sound : Sound spacingMs s) {elapsed clock} (forth : 0 ≤ elapsed) (slow : clock ≤ s.clock + elapsed) :
    Sound spacingMs { s with time := s.time + elapsed, clock := clock } := by
  refine ⟨sound.held.aside rfl rfl rfl,⟨fun sent inside => ?_,sound.spaced.apart,fun sent older newest => ?_,
    fun i turn here out sent inside different => ?_,sound.spaced.sleeper⟩,⟨sound.queued.sorted,sound.queued.fresh,sound.queued.taken⟩,
    ⟨sound.accounted.once,sound.accounted.closed⟩⟩
  · have := sound.spaced.past sent inside
    linarith
  · obtain ⟨last,stamped,same,young⟩ := sound.spaced.last sent older newest
    exact ⟨last,stamped,same,by dsimp only; linarith⟩
  · have := sound.spaced.turn i turn here out sent inside different
    linarith

theorem stepSound {e} (sound : Sound spacingMs s) (jittered : Jittered e) (went : step spacingMs s e = some t) :
    Sound spacingMs t := by
  cases e with
  | pass elapsed clock =>
    obtain ⟨⟨forth,slow⟩,⟨⟩⟩ := Option.ite_none_right_eq_some.mp went
    exact passSound sound forth slow
  | acquire accountId urgent jitter => cases went; exact acquireSound sound jittered accountId urgent
  | sent turn => cases went; exact sentSound sound turn
  | release turn jitter => cases went; exact releaseSound sound jittered turn
  | wake failed jitter =>
    unfold step at went
    cases sleeps : s.asleep with
    | none => simp [sleeps] at went
    | some sleeper =>
      simp only [sleeps,Option.ite_none_right_eq_some,Option.some.injEq] at went
      obtain ⟨rested,rfl⟩ := went
      exact wakeSound sound jittered failed sleeps rested
  | stop => cases went; exact stopSound sound

theorem reachSound (reach : (machine Account spacingMs).ReachableUnder (fun _ e => Jittered e) s) : Sound spacingMs s := by
  refine reach.invariant ?_ (fun s e t sound jittered went => stepSound sound jittered went)
  rintro s ⟨time,clock,rfl⟩
  exact startSound time clock

def granted (s : Gate Account) : List Nat := (s.settled.filter (·.granted)).map (·.id)

omit [DecidableEq Account] in
theorem pendingSleeps (fit : Accounted s) (stopped : s.stopped = true) {id} (asked : id < s.acquired)
    (pending : id ∉ s.settled.map (·.id)) : ∃ sleeper, s.asleep = some sleeper ∧ sleeper.waiter.id = id := by
  have place := fit.once.mem_iff.mpr (List.mem_range.mpr asked)
  rw [places,fit.closed stopped,List.map_nil,List.nil_append] at place
  rcases List.mem_append.mp place with sleeps | answered
  · simpa using sleeps
  · exact absurd answered pending

theorem nextNone (none_ : s.waiters = []) : s.next spacingMs jitter = s := by
  unfold Gate.next
  split
  · rfl
  · rw [none_,Gate.serve,← none_]

theorem stoppedStep {e} (closed : s.waiters = []) (stopped : s.stopped = true) (went : step spacingMs s e = some t) :
    t.stopped = true ∧ granted t = granted s ∧ ∀ failed jitter, e = .wake failed jitter → t.asleep = none := by
  cases e with
  | pass elapsed clock =>
    obtain ⟨_,⟨⟩⟩ := Option.ite_none_right_eq_some.mp went
    exact ⟨stopped,rfl,by rintro _ _ ⟨⟩⟩
  | acquire accountId urgent jitter =>
    cases went
    simp only [Gate.acquire,stopped]
    exact ⟨rfl,rfl,by rintro _ _ ⟨⟩⟩
  | sent turn =>
    cases went
    refine ⟨?_,?_,by rintro _ _ ⟨⟩⟩
    · unfold Gate.sent
      split
      · exact stopped
      · split <;> exact stopped
    · unfold Gate.sent
      split
      · rfl
      · split <;> rfl
  | release turn jitter =>
    cases went
    unfold Gate.release
    split
    · exact ⟨stopped,rfl,by rintro _ _ ⟨⟩⟩
    · split
      · exact ⟨stopped,rfl,by rintro _ _ ⟨⟩⟩
      · rw [nextNone]
        · exact ⟨stopped,rfl,by rintro _ _ ⟨⟩⟩
        · exact closed
  | wake failed jitter =>
    unfold step at went
    cases sleeps : s.asleep with
    | none => simp [sleeps] at went
    | some sleeper =>
      simp only [sleeps,Option.ite_none_right_eq_some,Option.some.injEq] at went
      obtain ⟨_,rfl⟩ := went
      simp only [Gate.wake,stopped,Bool.or_true]
      rw [nextNone]
      · exact ⟨rfl,rfl,fun _ _ _ => rfl⟩
      · exact closed
  | stop =>
    cases went
    refine ⟨rfl,?_,by rintro _ _ ⟨⟩⟩
    simp [granted,Gate.stop]

/-- One turn at a time; sends of different accounts a spacing apart; the queue served by urgency and then by arrival; every
acquire answered once, and once the gate has stopped none is granted and the one asleep is rejected as it wakes. -/
theorem readsApart (reach : (machine Account spacingMs).ReachableUnder (fun _ e => Jittered e) s) :
    (∀ (i j : Nat) turn other, s.turns[i]? = some turn → s.turns[j]? = some other → turn.released = false → other.released = false → i = j) ∧
    s.sends.Pairwise (Apart spacingMs) ∧
    (∀ taken ∈ s.taken, ∀ waiter ∈ taken.left, Before taken.waiter waiter) ∧
    (s.settled.map (·.id)).Nodup ∧
    (s.stopped = true →
      (∀ id < s.acquired, id ∉ s.settled.map (·.id) → ∃ sleeper, s.asleep = some sleeper ∧ sleeper.waiter.id = id) ∧
      ∀ e t, Jittered e → step spacingMs s e = some t → t.stopped = true ∧ granted t = granted s ∧
        ∀ failed jitter, e = .wake failed jitter → ∀ id < t.acquired, id ∈ t.settled.map (·.id)) := by
  have sound := reachSound reach
  refine ⟨sound.held.one,sound.spaced.apart,sound.queued.taken,?_,fun stopped => ⟨fun id asked => pendingSleeps sound.accounted stopped asked,
    fun e t jittered went => ?_⟩⟩
  · have once := sound.accounted.once.nodup_iff.mpr List.nodup_range
    exact (List.nodup_append.mp once).2.1
  · obtain ⟨still,same,awake⟩ := stoppedStep (sound.accounted.closed stopped) stopped went
    refine ⟨still,same,fun failed jitter woken id asked => ?_⟩
    by_contra pending
    obtain ⟨sleeper,sleeps,_⟩ := pendingSleeps (stepSound sound jittered went).accounted still asked pending
    rw [awake failed jitter woken] at sleeps
    cases sleeps

def plain : Nat → ℚ := fun _ => 0

def spacedRun : List (Event Nat) :=
  [.acquire 1 false plain,.sent 0,.acquire 2 false plain,.release 0 plain,.pass 10 10,.wake false plain,.sent 1,.acquire 3 true plain,.stop]

theorem spacedSent : ∃ s, (machine Nat 10).run (.start 0 0) spacedRun = some s ∧ s.turns.length = 2 ∧ s.sends.Pairwise (Apart 10) := by
  obtain ⟨s,ran⟩ := Option.isSome_iff_exists.mp (show ((machine Nat 10).run (.start 0 0) spacedRun).isSome = true by decide +kernel)
  have turns : ((machine Nat 10).run (.start 0 0) spacedRun).map (·.turns.length) = some 2 := by decide +kernel
  rw [ran] at turns
  have steps : (machine Nat 10).Steps (fun _ e => Jittered e) (.start 0 0) s := by
    refine Machine.runMeets (fun e inside => ?_) ran
    simp only [spacedRun,List.mem_cons,List.not_mem_nil,or_false] at inside
    rcases inside with rfl | rfl | rfl | rfl | rfl | rfl | rfl | rfl | rfl
    all_goals first | trivial | exact fun _ => le_refl 0
  exact ⟨s,ran,by simpa using turns,(readsApart ⟨_,⟨0,0,rfl⟩,steps⟩).2.1⟩

end Clankermux.SpacedReadGate
