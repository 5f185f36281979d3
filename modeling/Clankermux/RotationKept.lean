import Clankermux.RotationLands

/-! No rotated refresh token is lost, as long as no refresh finds the registry with an
entry that is not the one it has started from, and none records an anchor the row has
left behind. -/
namespace Clankermux.TokenManager
open InsertionMap

structure Bounded (held : Token) (recorded : Nat) (e : PendingRotation) : Prop where
  ascends : e.attemptedRefreshToken ≤ e.generation
  known : e.generation ≤ held
  old : e.recorded < recorded

theorem Bounded.grow {held held' recorded recorded' e}
    (bounded : Bounded held recorded e) (up : held ≤ held') (later : recorded ≤ recorded') :
    Bounded held' recorded' e :=
  ⟨bounded.ascends,Nat.le_trans bounded.known up,Nat.lt_of_lt_of_le bounded.old later⟩

structure Moving (c : Tokens) (held : Token) (own : Option Write) (missed : Option PendingRotation → Prop) : Prop where
  below : held ≤ c.newest
  pending : ∀ e, c.pending = some e → Bounded held c.recorded e
  submitted : ∀ w ∈ c.submitted, ∀ e, w.writer = .flush e → w = e.write ∧ Bounded held c.recorded e
  completed : ∀ x ∈ c.completed, ∀ e, x.write.writer = .flush e → Bounded held c.recorded e
  own : (c.submitted ++ c.completed.map (·.write)).filter (·.ofRefresh) = own.toList
  lands : Lands missed c.newest c.row held c.pending c.completed

namespace Moving
variable {c : Tokens} {held row : Token} {own : Option Write} {missed weaker : Option PendingRotation → Prop}
  {w : Write} {index : Nat} {outcome : WriteOutcome} {rest : List Completion} {entry : PendingRotation}

theorem flushesOnly (moving : Moving c held none missed) : ∀ x ∈ c.completed, x.write.ofRefresh = false := by
  intro x inside
  have all := List.filter_eq_nil_iff.mp moving.own x.write
    (List.mem_append_right _ (List.mem_map.mpr ⟨x,inside,rfl⟩))
  simpa using all

theorem anyMissed (moving : Moving c held none missed) : Moving c held none weaker :=
  { moving with lands := moving.lands.otherNewest moving.flushesOnly }

section
variable (moving : Moving c held own missed)
include moving

theorem ownOfMem (inside : w ∈ c.submitted ++ c.completed.map (·.write))
    (ofRefresh : w.ofRefresh = true) : own = some w := by
  have found : w ∈ own.toList := moving.own ▸ List.mem_filter.mpr ⟨inside,ofRefresh⟩
  exact Option.mem_toList.mp found

theorem flushesBefore (inside : w ∈ c.submitted) (ofRefresh : w.ofRefresh = true) :
    ∀ x ∈ c.completed, x.write.ofRefresh = false := by
  have only := moving.own
  rw [moving.ownOfMem (List.mem_append_left _ inside) ofRefresh,Option.toList_some,List.filter_append,
    List.append_eq_singleton_iff] at only
  rcases only with ⟨none_,-⟩ | ⟨-,none_⟩
  · exact absurd ofRefresh (by simpa using List.filter_eq_nil_iff.mp none_ w inside)
  · intro x member
    simpa using List.filter_eq_nil_iff.mp none_ x.write (List.mem_map.mpr ⟨x,member,rfl⟩)

theorem flush : Moving (flushPendingRotation c) held own missed := by
  unfold flushPendingRotation
  split
  · exact moving
  · rename_i entry found
    refine { moving with submitted := ?_,own := ?_ }
    · intro w inside e writer
      rcases List.mem_append.mp inside with before | last
      · exact moving.submitted w before e writer
      · cases List.mem_singleton.mp last
        cases writer
        exact ⟨rfl,moving.pending _ found⟩
    · simpa [List.filter_append,Write.ofRefresh,PendingRotation.write] using moving.own

theorem executed (found : c.submitted[index]? = some w)
    (lands : Lands missed c.newest row held c.pending (c.completed ++ [⟨w,outcome⟩])) :
    Moving { c with submitted := c.submitted.eraseIdx index,row,completed := c.completed ++ [⟨w,outcome⟩] } held own missed := by
  obtain ⟨inside,rfl⟩ := List.getElem?_eq_some_iff.mp found
  refine ⟨moving.below,moving.pending,?_,?_,?_,lands⟩
  · exact fun w member => moving.submitted w (List.mem_of_mem_eraseIdx member)
  · intro x member e writer
    rcases List.mem_append.mp member with before | last
    · exact moving.completed x before e writer
    · cases List.mem_singleton.mp last
      exact (moving.submitted _ (List.getElem_mem inside) e writer).2
  · have same : List.Perm (c.submitted.eraseIdx index ++ (c.completed ++ [(⟨c.submitted[index],outcome⟩ : Completion)]).map Completion.write)
        (c.submitted ++ c.completed.map Completion.write) := by
      have moved := (List.getElem_cons_eraseIdx_perm inside).append_right (c.completed.map (·.write))
      refine List.Perm.trans ?_ moved
      rw [List.map_append,← List.append_assoc]
      exact List.perm_append_singleton _ _
    have kept := same.filter (·.ofRefresh)
    rw [moving.own] at kept
    cases own with
    | none => exact List.perm_nil.mp kept
    | some w => exact List.perm_singleton.mp kept

theorem executedFlush (found : c.submitted[index]? = some w) (throws : Bool)
    (flush : w.writer = .flush entry) :
    Moving (updateAccountTokens { c with submitted := c.submitted.eraseIdx index } w throws) held own missed := by
  obtain ⟨rfl,bounded⟩ := moving.submitted w (List.mem_of_getElem? found) entry flush
  unfold updateAccountTokens
  split
  · exact moving.executed found moving.lands.executedFailed
  split
  · rename_i hits
    have lands := moving.lands.executedFlushPersisted flush hits bounded.ascends bounded.known moving.below
    rw [show entry.generation = entry.write.refreshToken.getD c.row by rw [hits]; rfl] at lands
    exact moving.executed found lands
  · rename_i misses
    exact moving.executed found (moving.lands.executedFlushSuperseded flush misses)

theorem executedOwn (found : c.submitted[index]? = some w) (throws : Bool)
    (ofRefresh : w.ofRefresh = true) (hits : c.row = w.expectedRefreshToken → w.refreshToken.getD c.row = c.newest)
    (misses : c.row ≠ w.expectedRefreshToken → ∀ v, Holds held c.row v → missed v) :
    Moving (updateAccountTokens { c with submitted := c.submitted.eraseIdx index } w throws) held own missed := by
  have flushes := moving.flushesBefore (List.mem_of_getElem? found) ofRefresh
  unfold updateAccountTokens
  split
  · exact moving.executed found moving.lands.executedFailed
  split
  · rename_i hit
    have lands := moving.lands.executedOwnPersisted ofRefresh
    rw [← hits hit] at lands
    exact moving.executed found (by rw [hits hit] at lands ⊢; exact lands)
  · rename_i miss
    exact moving.executed found (moving.lands.executedOwnSuperseded ofRefresh flushes (misses miss))

end

variable {pending : Option PendingRotation}

theorem delivered (moving : Moving c held own missed) (head : c.completed = ⟨w,outcome⟩::rest)
    (bounded : ∀ e, pending = some e → Bounded held c.recorded e)
    (flush : w.writer = .flush entry) (lands : Lands missed c.newest c.row held pending rest) :
    Moving { c with completed := rest,pending } held own missed := by
  refine ⟨moving.below,bounded,moving.submitted,?_,?_,lands⟩
  · exact fun x inside => moving.completed x (head ▸ .tail _ inside)
  · have only := moving.own
    rw [head] at only
    simpa [List.filter_append,Write.ofRefresh,flush] using only

theorem flushedBounded (bounded : ∀ e, pending = some e → Bounded held c.recorded e)
    (describes : Describes held pending) (entryBounded : Bounded held c.recorded entry) :
    ∀ e, flushed pending entry .persisted = some e → Bounded held c.recorded e := by
  intro e found
  cases pending with
  | none => simp [flushed,resolvePendingAfterPersist] at found
  | some before =>
    simp only [flushed,resolvePendingAfterPersist] at found
    split at found
    · simp at found
    · cases found
      have own := bounded before rfl
      have top := describes before rfl
      have known := entryBounded.known
      simp only [PendingRotation.generation] at top known
      constructor
      · cases named : before.refreshToken with
        | none => simp [rebase,PendingRotation.generation,named]
        | some token =>
          have token_ : token = held := by simpa [named] using top
          simpa [rebase,PendingRotation.generation,named,token_] using known
      · cases named : before.refreshToken with
        | none => simpa [rebase,PendingRotation.generation,named] using known
        | some token =>
          have token_ : token = held := by simpa [named] using top
          simp [rebase,PendingRotation.generation,named,token_]
      · exact own.old

theorem deliveredFlush (moving : Moving c held own missed) (head : c.completed = ⟨w,outcome⟩::rest)
    (flush : w.writer = .flush entry) :
    Moving { c with completed := rest,pending := flushed c.pending entry outcome } held own missed := by
  have lands := moving.lands
  rw [head] at lands
  have bounded := moving.completed ⟨w,outcome⟩ (head ▸ .head _) entry flush
  cases lands with
  | failed describes next => exact moving.delivered head moving.pending flush next
  | flushPersisted flush' describes alone next =>
    cases flush.symm.trans flush'
    exact moving.delivered head (flushedBounded moving.pending describes bounded) flush next
  | flushSuperseded flush' describes other next =>
    cases flush.symm.trans flush'
    have kept : flushed c.pending entry .superseded = c.pending := by
      simp [flushed,clearPendingRotationIfCurrent,other]
    rw [kept]
    exact moving.delivered head moving.pending flush next
  | ownPersisted own' describes next => simp [Write.ofRefresh,flush] at own'
  | ownSuperseded own' describes misses next => simp [Write.ofRefresh,flush] at own'

theorem deliveredOwn (moving : Moving c held (some w) missed) (head : c.completed = ⟨w,outcome⟩::rest)
    (ofRefresh : w.ofRefresh = true) {held' recorded missed'} (up : held ≤ held') (below : held' ≤ c.newest)
    (later : c.recorded ≤ recorded) (bounded : ∀ e, pending = some e → Bounded held' recorded e)
    (lands : Lands missed' c.newest c.row held' pending rest) :
    Moving { c with completed := rest,pending,recorded } held' none weaker := by
  have only := moving.own
  simp only [head,List.map_cons,List.filter_append,List.filter_cons,ofRefresh] at only
  have none_ : (c.submitted ++ rest.map (·.write)).filter (·.ofRefresh) = [] := by
    rcases List.append_eq_singleton_iff.mp only with ⟨first,second⟩ | ⟨first,second⟩
    · simpa [first] using second
    · simp at second
  have quiet : Moving { c with completed := rest,pending,recorded } held' none missed' := by
    refine ⟨below,bounded,?_,?_,none_,lands⟩
    · intro w inside e writer
      obtain ⟨same,old⟩ := moving.submitted w inside e writer
      exact ⟨same,old.grow up later⟩
    · exact fun x inside e writer => (moving.completed x (head ▸ .tail _ inside) e writer).grow up later
  exact quiet.anyMissed

theorem otherRefreshes (moving : Moving c held own missed) (refreshes : InsertionMap Nat Refresh)
    (refreshInFlight : Option Nat) (nextRefresh : Nat) :
    Moving { c with refreshes,refreshInFlight,nextRefresh } held own missed :=
  { moving with }

end Moving

structure Carries (newest held : Token) (pending : Option PendingRotation) (p : Persist) : Prop where
  effective : p.effectiveRefreshToken = some newest ∨
    p.effectiveRefreshToken = none ∧ newest = held ∧ p.pendingSnapshot.bind (·.refreshToken) = none
  anchored : p.persistAnchor = (p.pendingSnapshot.map (·.attemptedRefreshToken)).getD held
  written : ∀ s, p.pendingSnapshot = some s → s.generation = held
  follows : ∀ e, pending = some e → ∃ s, p.pendingSnapshot = some s ∧ e.refreshToken = s.refreshToken

namespace Carries
variable {newest held row : Token} {pending after : Option PendingRotation} {p : Persist}

section
variable (carries : Carries newest held pending p)
include carries

theorem follow (same : ∀ e, after = some e → ∃ before, pending = some before ∧ e.refreshToken = before.refreshToken) :
    Carries newest held after p := by
  refine { carries with follows := ?_ }
  intro e found
  obtain ⟨before,found',token⟩ := same e found
  obtain ⟨s,snapshot,token'⟩ := carries.follows before found'
  exact ⟨s,snapshot,token.trans token'⟩

theorem ofHeld (unnamed : p.effectiveRefreshToken = none) :
    newest = held ∧ p.pendingSnapshot.bind (·.refreshToken) = none := by
  rcases carries.effective with named | ⟨-,same,none_⟩
  · rw [named] at unnamed
    cases unnamed
  · exact ⟨same,none_⟩

theorem leaves (old : p.effectiveRefreshToken = none → row = held) :
    p.effectiveRefreshToken.getD row = newest := by
  cases named : p.effectiveRefreshToken with
  | none => exact (old named).trans (carries.ofHeld named).1.symm
  | some token =>
    rcases carries.effective with named' | ⟨none_,-,-⟩
    · cases named.symm.trans named'
      rfl
    · cases named.symm.trans none_

theorem anchorHeld (unnamed : p.effectiveRefreshToken = none) :
    p.persistAnchor = held := by
  have none_ := (carries.ofHeld unnamed).2
  rw [carries.anchored]
  cases taken : p.pendingSnapshot with
  | none => rfl
  | some s =>
    rw [taken] at none_
    simpa [PendingRotation.generation,show s.refreshToken = none from none_] using carries.written s taken

theorem misses (moved : row ≠ p.persistAnchor) {v}
    (holds : Holds held row v) : v ≠ p.pendingSnapshot := by
  rintro rfl
  rw [carries.anchored] at moved
  cases taken : p.pendingSnapshot with
  | none =>
    rw [taken] at holds moved
    exact moved (holds.alone rfl)
  | some s =>
    rw [taken] at holds moved
    exact moved (holds.anchored s rfl).symm

theorem past {e}
    (anchored : e.attemptedRefreshToken = (pending.map (·.attemptedRefreshToken)).getD held)
    (names : e.refreshToken = p.effectiveRefreshToken) : Lands.Over newest held pending e := by
  refine ⟨anchored,?_⟩
  rcases carries.effective with named | ⟨unnamed,same,none_⟩
  · exact .inl (names.trans named)
  · refine .inr ⟨names.trans unnamed,same,?_⟩
    intro before found
    obtain ⟨s,snapshot,token⟩ := carries.follows before found
    rw [snapshot] at none_
    exact token.trans none_

end

end Carries

def nowhere (_ : Option PendingRotation) : Prop := False

def Quiet (c : Tokens) : Prop := Moving c c.newest none nowhere

structure Retrying (c : Tokens) (held : Token) (own : Option Write) (p : Persist) : Prop where
  moving : Moving c held own nowhere
  carries : Carries c.newest held c.pending p
  empty : c.pending = none
  taken : p.pendingSnapshot.isSome = true

def Standing (c : Tokens) (refresh : Nat) (r : Refresh) : Prop :=
  match r.phase with
  | .exchanging => Quiet c
  | .persisting p => Carries c.newest r.exchangedRefreshToken c.pending p ∧
    Moving c r.exchangedRefreshToken
      (some ⟨.persist refresh,p.effectiveRefreshToken,p.persistAnchor,r.exchangedRefreshToken⟩) (· ≠ p.pendingSnapshot)
  | .rereading p answer => Retrying c r.exchangedRefreshToken none p ∧
    ∀ row, answer = some (some row) → row = r.exchangedRefreshToken
  | .retrying p => Retrying c r.exchangedRefreshToken
    (some ⟨.retry refresh,p.effectiveRefreshToken,r.exchangedRefreshToken,r.exchangedRefreshToken⟩) p
  | .settling => Quiet c

inductive Flight (c : Tokens) : Prop where
  | none (refreshes : c.refreshes = []) (free : c.refreshInFlight = none) (quiet : Quiet c)
  | one (refresh : Nat) (r : Refresh) (refreshes : c.refreshes = [(refresh,r)])
      (registered : c.refreshInFlight = some refresh) (standing : Standing c refresh r)

structure Sound (c : Tokens) : Prop where
  issued : c.newest < c.issued
  flight : Flight c

variable {c c' : Tokens}

structure Background (c c' : Tokens) : Prop where
  issued : c'.issued = c.issued
  newest : c'.newest = c.newest
  refreshes : c'.refreshes = c.refreshes
  refreshInFlight : c'.refreshInFlight = c.refreshInFlight
  tokens : ∀ e, c'.pending = some e → ∃ before, c.pending = some before ∧ e.refreshToken = before.refreshToken
  moving : ∀ {held own missed}, Moving c held own missed → Moving c' held own missed
variable {rest : List Completion} {refresh : Nat} {r : Refresh} {outcome : WriteOutcome} {w : Write}
  {missed : Option PendingRotation → Prop} {p : Persist} {held : Token}

theorem Background.retrying {own} (background : Background c c')
    (retrying : Retrying c held own p) : Retrying c' held own p := by
  refine ⟨background.moving retrying.moving,?_,?_,retrying.taken⟩
  · exact background.newest ▸ retrying.carries.follow background.tokens
  · cases after : c'.pending with
    | none => rfl
    | some e =>
      obtain ⟨before,found,-⟩ := background.tokens e after
      cases retrying.empty.symm.trans found

theorem Background.standing (background : Background c c')
    (standing : Standing c refresh r) : Standing c' refresh r := by
  unfold Standing Quiet at *
  split at standing
  · exact background.newest ▸ background.moving standing
  · exact ⟨background.newest ▸ standing.1.follow background.tokens,background.moving standing.2⟩
  · exact ⟨background.retrying standing.1,standing.2⟩
  · exact background.retrying standing
  · exact background.newest ▸ background.moving standing

theorem Background.sound (background : Background c c') (sound : Sound c) : Sound c' := by
  refine ⟨by rw [background.newest,background.issued]; exact sound.issued,?_⟩
  cases sound.flight with
  | none refreshes free quiet =>
    exact .none (background.refreshes.trans refreshes) (background.refreshInFlight.trans free)
      (show Moving c' c'.newest none nowhere from background.newest ▸ background.moving quiet)
  | one refresh r refreshes registered standing =>
    exact .one refresh r (background.refreshes.trans refreshes) (background.refreshInFlight.trans registered)
      (background.standing standing)

theorem flushBackground : Background c (flushPendingRotation c) := by
  have same : (flushPendingRotation c).pending = c.pending := by
    unfold flushPendingRotation
    split <;> rfl
  refine ⟨?_,?_,?_,?_,fun e found => ⟨e,same ▸ found,rfl⟩,Moving.flush⟩
  all_goals
    unfold flushPendingRotation
    split <;> rfl

theorem updateAccountTokensKeeps (c : Tokens) (w : Write) (throws : Bool) :
    ∃ row completed, updateAccountTokens c w throws = { c with row,completed } := by
  unfold updateAccountTokens
  split
  · exact ⟨_,_,rfl⟩
  split
  · exact ⟨_,_,rfl⟩
  · exact ⟨_,_,rfl⟩

theorem executeBackground {index throws entry}
    (found : c.submitted[index]? = some w) (flush : w.writer = .flush entry) :
    Background c (updateAccountTokens { c with submitted := c.submitted.eraseIdx index } w throws) := by
  obtain ⟨row,completed,result⟩ := updateAccountTokensKeeps { c with submitted := c.submitted.eraseIdx index } w throws
  have moving := fun {held own missed} (moving : Moving c held own missed) => moving.executedFlush found throws flush
  rw [result] at moving ⊢
  exact ⟨rfl,rfl,rfl,rfl,fun e found => ⟨e,found,rfl⟩,moving⟩

theorem flushedTokens {pending entry e}
    (found : flushed pending entry outcome = some e) :
    ∃ before, pending = some before ∧ e.refreshToken = before.refreshToken := by
  cases outcome with
  | failed => exact ⟨e,found,rfl⟩
  | superseded =>
    simp only [flushed,clearPendingRotationIfCurrent] at found
    split at found
    · cases found
    · exact ⟨e,found,rfl⟩
  | persisted =>
    cases pending with
    | none => simp [flushed,resolvePendingAfterPersist] at found
    | some before =>
      simp only [flushed,resolvePendingAfterPersist] at found
      split at found
      · cases found
      · cases found
        exact ⟨before,rfl,rfl⟩

theorem deliverBackground {entry}
    (head : c.completed = ⟨w,outcome⟩::rest) (flush : w.writer = .flush entry) :
    Background c { c with completed := rest,pending := flushed c.pending entry outcome } :=
  ⟨rfl,rfl,rfl,rfl,fun _ found => flushedTokens found,fun moving => moving.deliveredFlush head flush⟩

theorem Sound.isolated (sound : Sound c) (found : get c.refreshes refresh = some r) :
    c.refreshes = [(refresh,r)] ∧ c.refreshInFlight = some refresh ∧ Standing c refresh r := by
  cases sound.flight with
  | none refreshes free quiet => simp [refreshes] at found
  | one refresh' r' refreshes registered standing =>
    rw [refreshes] at found
    by_cases same : refresh' = refresh
    · subst same
      simp only [InsertionMap.get,if_true,Option.some.injEq] at found
      subst found
      exact ⟨refreshes,registered,standing⟩
    · simp [InsertionMap.get,same] at found

theorem Sound.withPhase {phase} (issued : c.newest < c.issued)
    (refreshes : c.refreshes = [(refresh,r)]) (registered : c.refreshInFlight = some refresh)
    (standing : Standing (setPhase c refresh r phase) refresh { r with phase }) : Sound (setPhase c refresh r phase) :=
  ⟨issued,.one refresh { r with phase } (by simp [setPhase,refreshes,InsertionMap.set]) registered standing⟩

theorem Quiet.others {refreshes refreshInFlight nextRefresh}
    (quiet : Quiet c) : Quiet { c with refreshes,refreshInFlight,nextRefresh } :=
  quiet.otherRefreshes refreshes refreshInFlight nextRefresh

theorem Sound.finished (sound : Sound c) (found : get c.refreshes refresh = some r)
    (quiet : Quiet c) : Sound (finally_ c refresh) := by
  obtain ⟨refreshes,registered,-⟩ := sound.isolated found
  exact ⟨sound.issued,.none (by simp [finally_,refreshes,delete]) (by simp [finally_,registered]) quiet.others⟩

theorem soundBegin {token proactive} (sound : Sound c) (free : c.refreshInFlight.isNone = true) :
    Sound { c with refreshInFlight := some c.nextRefresh
                   refreshes := set c.refreshes c.nextRefresh ⟨token,proactive,.exchanging⟩
                   nextRefresh := c.nextRefresh + 1 } := by
  cases sound.flight with
  | one refresh r refreshes registered standing => simp [registered] at free
  | none refreshes free quiet =>
    exact ⟨sound.issued,.one c.nextRefresh ⟨token,proactive,.exchanging⟩ (by simp [refreshes,InsertionMap.set]) rfl quiet.others⟩

theorem carriesIssued {answer token issued}
    (newest : r.exchangedRefreshToken = c.newest) (quiet : Quiet c)
    (result : issue c r.exchangedRefreshToken answer = (token,issued)) :
    Carries issued.newest c.newest c.pending (r.persist c.pending token) := by
  refine ⟨?_,by rw [Refresh.persist,newest],quiet.lands.describes,fun e found => ⟨e,found,rfl⟩⟩
  cases answer with
  | fresh => cases result; exact .inl rfl
  | echo => cases result; exact .inl (congrArg some newest)
  | none =>
    cases result
    cases taken : c.pending.bind (·.refreshToken) with
    | none =>
      by_cases proactive : r.proactive = true
      · exact .inl (by simp [Refresh.persist,taken,proactive,newest])
      · exact .inr ⟨by simp [Refresh.persist,taken,proactive],rfl,taken⟩
    | some token =>
      obtain ⟨e,found,named⟩ := Option.bind_eq_some_iff.mp taken
      have described := quiet.lands.describes e found
      simp only [PendingRotation.generation,named,Option.getD_some] at described
      exact .inl (by simp [Refresh.persist,taken,described])

theorem soundExchanged {answer} (sound : Sound c)
    (found : get c.refreshes refresh = some r) (phase : r.phase = .exchanging)
    (newest : r.exchangedRefreshToken = c.newest) : Sound (onExchanged c refresh r answer) := by
  obtain ⟨refreshes,registered,standing⟩ := sound.isolated found
  have quiet : Quiet c := by simpa [Standing,phase] using standing
  obtain ⟨token,issued,result⟩ : ∃ token issued, issue c r.exchangedRefreshToken answer = (token,issued) := ⟨_,_,rfl⟩
  have carries := carriesIssued newest quiet result
  have grows : ∃ issued' newest' family, issued = { c with issued := issued',newest := newest',family } ∧
      c.newest ≤ newest' ∧ newest' < issued' := by
    cases answer with
    | fresh => cases result; exact ⟨_,_,_,rfl,Nat.le_of_lt sound.issued,Nat.lt_succ_self _⟩
    | echo => cases result; exact ⟨_,_,_,rfl,le_rfl,sound.issued⟩
    | none => cases result; exact ⟨_,_,_,rfl,le_rfl,sound.issued⟩
  obtain ⟨issued',newest',family,rfl,up,low⟩ := grows
  unfold onExchanged
  rw [result]
  refine ⟨low,.one refresh { r with phase := .persisting (r.persist c.pending token) } (by simp [setPhase,refreshes,InsertionMap.set]) registered ?_⟩
  refine ⟨newest ▸ carries,?_⟩
  rw [newest]
  have lands : Lands (· ≠ c.pending) newest' c.row c.newest c.pending c.completed := quiet.lands.otherNewest quiet.flushesOnly
  refine ⟨up,quiet.pending,?_,quiet.completed,?_,lands⟩
  · intro w inside e writer
    rcases List.mem_append.mp inside with before | last
    · exact quiet.submitted w before e writer
    · cases List.mem_singleton.mp last
      cases writer
  · have none_ := quiet.own
    simp only [Option.toList_none,List.filter_append,List.append_eq_nil_iff] at none_
    simp [setPhase,List.filter_cons,none_]

theorem soundRefused (sound : Sound c) (found : get c.refreshes refresh = some r)
    (phase : r.phase = .exchanging) (stale : r.exchangedRefreshToken ≠ c.newest) : Sound (onRefused c refresh r) := by
  obtain ⟨-,-,standing⟩ := sound.isolated found
  have quiet : Quiet c := by simpa [Standing,phase] using standing
  -- The registry describes the newest generation, so it is not what was rejected.
  have kept : c.pending.filter (fun pendingAtFailure => r.exchangedRefreshToken ≠ pendingAtFailure.generation) = c.pending := by
    cases pending : c.pending with
    | none => rfl
    | some e => simp [quiet.lands.describes e pending,stale]
  unfold onRefused
  rw [kept]
  exact sound.finished found quiet

theorem quietRecorded {held attempted exchanged} (moving : Moving c held none nowhere)
    (carries : Carries c.newest held c.pending p) (empty : c.pending = none → attempted = held) :
    Quiet (recordPendingRotation c p.effectiveRefreshToken attempted exchanged) := by
  obtain ⟨e,made⟩ : ∃ e, (recordPendingRotation c p.effectiveRefreshToken attempted exchanged).pending = some e := ⟨_,rfl⟩
  have past : Lands.Over c.newest held c.pending e := by
    cases made
    refine carries.past ?_ rfl
    cases pending : c.pending with
    | none => exact empty pending
    | some before => rfl
  have generation := past.generation moving.lands.describes
  have new : e.recorded = c.recorded := by cases made; rfl
  have lands : Lands nowhere c.newest c.row c.newest (some e) c.completed := by
    refine moving.lands.recorded moving.flushesOnly ?_ past
    intro x inside entry writer same
    exact absurd (moving.completed x inside entry writer).old (by rw [same,new]; exact Nat.lt_irrefl _)
  refine ⟨le_rfl,?_,?_,?_,moving.own,made ▸ lands⟩
  · intro e' found
    cases made.symm.trans found
    refine ⟨?_,Nat.le_of_eq generation,new ▸ Nat.lt_succ_self _⟩
    rw [generation,past.anchored]
    cases pending : c.pending with
    | none => exact moving.below
    | some before =>
      have bounded := moving.pending before pending
      exact Nat.le_trans bounded.ascends (Nat.le_trans bounded.known moving.below)
  · intro w inside entry writer
    obtain ⟨same,bounded⟩ := moving.submitted w inside entry writer
    exact ⟨same,bounded.grow moving.below (Nat.le_succ _)⟩
  · exact fun x inside entry writer => (moving.completed x inside entry writer).grow moving.below (Nat.le_succ _)

theorem persistSucceededEmpty (refresh : Nat) (r : Refresh) (p : Persist) (gone : c.pending = none ∨ c.pending = p.pendingSnapshot) :
    persistSucceeded c refresh r p = setPhase { c with pending := none } refresh r .settling := by
  unfold persistSucceeded
  cases taken : p.pendingSnapshot with
  | none => simp [show c.pending = none by simpa [taken] using gone]
  | some s =>
    rcases gone with none_ | same
    · simp [none_,resolvePendingAfterPersist]
    · simp [same.trans taken,resolvePendingAfterPersist]

theorem quietSucceeded
    (moving : Moving c held (some w) missed) (head : c.completed = ⟨w,.persisted⟩::rest) (ofRefresh : w.ofRefresh = true) :
    Quiet { c with completed := rest,pending := none } := by
  have lands := moving.lands
  rw [head] at lands
  cases lands with
  | ownPersisted own describes next =>
    exact moving.deliveredOwn head ofRefresh moving.below le_rfl le_rfl (by simp) next
  | flushPersisted flush describes alone next => simp [Write.ofRefresh,flush] at ofRefresh

theorem movingFailed (moving : Moving c held (some w) missed) (head : c.completed = ⟨w,.failed⟩::rest) (ofRefresh : w.ofRefresh = true) :
    Moving { c with completed := rest } held none nowhere := by
  have lands := moving.lands
  rw [head] at lands
  cases lands with
  | failed describes next =>
    exact moving.deliveredOwn head ofRefresh le_rfl moving.below le_rfl moving.pending next

theorem movingSuperseded
    (moving : Moving c held (some w) missed) (head : c.completed = ⟨w,.superseded⟩::rest) (ofRefresh : w.ofRefresh = true) :
    missed c.pending ∧ Moving { c with completed := rest } held none nowhere := by
  have lands := moving.lands
  rw [head] at lands
  cases lands with
  | ownSuperseded own describes misses next =>
    exact ⟨misses,moving.deliveredOwn head ofRefresh le_rfl moving.below le_rfl moving.pending next⟩
  | flushSuperseded flush describes other next => simp [Write.ofRefresh,flush] at ofRefresh

def finds (c : Tokens) (p : Persist) : WriteOutcome → Bool
  | .failed => c.pending.isSome || c.row == p.persistAnchor
  | _ => c.pending.isNone || decide (c.pending = p.pendingSnapshot)

theorem soundPersist (sound : Sound c) (found : get c.refreshes refresh = some r) (phase : r.phase = .persisting p)
    (head : c.completed = ⟨w,outcome⟩::rest) (ofRefresh : w.ofRefresh = true) (finds_ : finds c p outcome = true) :
    Sound (onPersist { c with completed := rest } refresh r p outcome) := by
  obtain ⟨refreshes,registered,standing⟩ := sound.isolated found
  simp only [Standing,phase] at standing
  obtain ⟨carries,moving⟩ := standing
  have own := moving.ownOfMem (List.mem_append_right _ (List.mem_map.mpr ⟨⟨w,outcome⟩,head ▸ .head _,rfl⟩)) ofRefresh
  rw [own] at moving
  cases outcome with
  | persisted =>
    simp only [finds,Bool.or_eq_true,Option.isNone_iff_eq_none,decide_eq_true_eq] at finds_
    have settles := persistSucceededEmpty (c := { c with completed := rest }) refresh r p finds_
    rw [onPersist,settles]
    exact Sound.withPhase sound.issued refreshes registered (quietSucceeded moving head ofRefresh).others
  | failed =>
    have left := movingFailed moving head ofRefresh
    have anchored : c.pending = none → p.persistAnchor = r.exchangedRefreshToken := by
      intro none_
      simp only [finds,none_,Option.isSome_none,Bool.false_or,beq_iff_eq] at finds_
      exact finds_ ▸ left.lands.rowOfNone none_ left.flushesOnly
    exact Sound.withPhase sound.issued refreshes registered (quietRecorded left carries anchored).others
  | superseded =>
    obtain ⟨missed,left⟩ := movingSuperseded moving head ofRefresh
    simp only [finds,Bool.or_eq_true,Option.isNone_iff_eq_none,decide_eq_true_eq] at finds_
    have none_ : c.pending = none := finds_.resolve_right missed
    obtain ⟨s,taken⟩ : ∃ s, p.pendingSnapshot = some s :=
      Option.ne_none_iff_exists'.mp (fun empty => missed (none_.trans empty.symm))
    have cleared : onPersist { c with completed := rest } refresh r p .superseded =
        setPhase { c with completed := rest } refresh r (.rereading p none) := by
      simp [onPersist,taken,none_,clearPendingRotationIfCurrent,Persist.pendingWrittenToken]
    rw [cleared]
    exact Sound.withPhase sound.issued refreshes registered ⟨⟨left.otherRefreshes _ _ _,carries,none_,by simp [taken]⟩,by simp⟩

theorem Retrying.row (retrying : Retrying c held none p) : c.row = held :=
  retrying.moving.lands.rowOfNone retrying.empty retrying.moving.flushesOnly

theorem Retrying.written {own} (retrying : Retrying c held own p) :
    p.pendingWrittenToken = some held := by
  obtain ⟨s,taken⟩ := Option.isSome_iff_exists.mp retrying.taken
  rw [Persist.pendingWrittenToken,taken,Option.map_some,retrying.carries.written s taken]

theorem soundRetry (sound : Sound c) (found : get c.refreshes refresh = some r) (phase : r.phase = .retrying p)
    (head : c.completed = ⟨w,outcome⟩::rest) (ofRefresh : w.ofRefresh = true) :
    Sound (onRetry { c with completed := rest } refresh r p w.expectedRefreshToken outcome) := by
  obtain ⟨refreshes,registered,standing⟩ := sound.isolated found
  simp only [Standing,phase] at standing
  have moving := standing.moving
  have own := moving.ownOfMem (List.mem_append_right _ (List.mem_map.mpr ⟨⟨w,outcome⟩,head ▸ .head _,rfl⟩)) ofRefresh
  rw [own] at moving
  cases outcome with
  | persisted =>
    have settles := persistSucceededEmpty (c := { c with completed := rest }) refresh r p
      (.inl standing.empty)
    rw [onRetry,settles]
    exact Sound.withPhase sound.issued refreshes registered (quietSucceeded moving head ofRefresh).others
  | failed =>
    cases own
    have left := movingFailed moving head ofRefresh
    exact Sound.withPhase sound.issued refreshes registered (quietRecorded left standing.carries (fun _ => rfl)).others
  | superseded => exact (movingSuperseded moving head ofRefresh).1.elim

theorem soundReread {answer written} (sound : Sound c)
    (found : get c.refreshes refresh = some r) (phase : r.phase = .rereading p (some answer))
    (flushedToken : p.pendingWrittenToken = some written) : Sound (onReread c refresh r p written answer) := by
  obtain ⟨refreshes,registered,standing⟩ := sound.isolated found
  simp only [Standing,phase] at standing
  obtain ⟨retrying,ours⟩ := standing
  cases retrying.written.symm.trans flushedToken
  have moving := retrying.moving
  cases answer with
  | none =>
    exact Sound.withPhase sound.issued refreshes registered (quietRecorded moving retrying.carries (fun _ => rfl)).others
  | some row =>
    have own : row = r.exchangedRefreshToken := ours row rfl
    unfold onReread
    simp only [if_pos own]
    refine ⟨sound.issued,.one refresh { r with phase := .retrying p } (by simp [setPhase,refreshes,InsertionMap.set]) registered ?_⟩
    refine { retrying with moving := ⟨moving.below,moving.pending,?_,moving.completed,?_,moving.lands⟩ }
    · intro w inside e writer
      rcases List.mem_append.mp inside with before | last
      · exact moving.submitted w before e writer
      · cases List.mem_singleton.mp last
        cases writer
    · have none_ := moving.own
      simp only [Option.toList_none,List.filter_append,List.append_eq_nil_iff] at none_
      simp [setPhase,List.filter_cons,none_]

theorem soundRead (sound : Sound c) (found : get c.refreshes refresh = some r)
    (phase : r.phase = .rereading p none) (throws : Bool) :
    Sound (setPhase c refresh r (.rereading p (some (if throws then none else some c.row)))) := by
  obtain ⟨refreshes,registered,standing⟩ := sound.isolated found
  simp only [Standing,phase] at standing
  obtain ⟨retrying,-⟩ := standing
  refine Sound.withPhase sound.issued refreshes registered
    ⟨{ retrying with moving := retrying.moving.otherRefreshes _ _ _ },?_⟩
  intro row answered
  cases throws
  · cases answered
    exact retrying.row
  · cases answered

theorem standingExecuted {index throws}
    (standing : Standing c refresh r) (found : c.submitted[index]? = some w) (ofRefresh : w.ofRefresh = true) :
    Standing (updateAccountTokens { c with submitted := c.submitted.eraseIdx index } w throws) refresh r := by
  have inside := List.mem_append_left (c.completed.map (·.write)) (List.mem_of_getElem? found)
  obtain ⟨row,completed,result⟩ := updateAccountTokensKeeps { c with submitted := c.submitted.eraseIdx index } w throws
  unfold Standing Quiet at *
  split at standing
  · cases standing.ownOfMem inside ofRefresh
  · rename_i p phase
    obtain ⟨carries,moving⟩ := standing
    cases moving.ownOfMem inside ofRefresh
    refine ⟨by rw [result]; exact carries,?_⟩
    refine moving.executedOwn found throws ofRefresh (fun hit => ?_) (fun miss v holds => carries.misses miss holds)
    exact carries.leaves (fun unnamed => hit.trans (carries.anchorHeld unnamed))
  · cases standing.1.moving.ownOfMem inside ofRefresh
  · rename_i p phase
    cases standing.moving.ownOfMem inside ofRefresh
    have holding : c.row = r.exchangedRefreshToken :=
      standing.moving.lands.rowOfNone standing.empty (standing.moving.flushesBefore (List.mem_of_getElem? found) ofRefresh)
    refine ⟨?_,by rw [result]; exact standing.carries,by rw [result]; exact standing.empty,standing.taken⟩
    refine standing.moving.executedOwn found throws ofRefresh (fun hit => ?_) (fun miss => absurd holding miss)
    exact standing.carries.leaves (fun _ => hit)
  · cases standing.ownOfMem inside ofRefresh

theorem soundExecute {index throws} (sound : Sound c) (found : c.submitted[index]? = some w) :
    Sound (updateAccountTokens { c with submitted := c.submitted.eraseIdx index } w throws) := by
  by_cases ofRefresh : w.ofRefresh = true
  · obtain ⟨row,completed,result⟩ := updateAccountTokensKeeps { c with submitted := c.submitted.eraseIdx index } w throws
    cases sound.flight with
    | none refreshes free quiet =>
      cases quiet.ownOfMem (List.mem_append_left _ (List.mem_of_getElem? found)) ofRefresh
    | one refresh r refreshes registered standing =>
      refine ⟨by rw [result]; exact sound.issued,.one refresh r (by rw [result]; exact refreshes)
        (by rw [result]; exact registered) (standingExecuted standing found ofRefresh)⟩
  · obtain ⟨entry,flush⟩ := flushOfNot (by simpa using ofRefresh)
    exact (executeBackground found flush).sound sound

def undisturbed (c : Tokens) : Event → Bool
  | .exchanged refresh _ => (get c.refreshes refresh).all (fun r => r.exchangedRefreshToken == c.newest)
  | .refused refresh => (get c.refreshes refresh).all (fun r => r.exchangedRefreshToken != c.newest)
  | .reauthenticate | .clearPendingRotation | .clearAccountRefreshCache => false
  | _ => true

def lossless (c : Tokens) : Event → Bool
  | .complete =>
    match c.completed with
    | ⟨⟨.persist refresh,_,_,_⟩,outcome⟩::_ =>
      match get c.refreshes refresh with
      | some ⟨_,_,.persisting p⟩ => finds c p outcome
      | _ => true
    | _ => true
  | _ => true

theorem Sound.awaited (sound : Sound c)
    (head : c.completed = ⟨w,outcome⟩::rest) (ofRefresh : w.ofRefresh = true) :
    ∃ refresh r p, get c.refreshes refresh = some r ∧
      (r.phase = .persisting p ∧ w.writer = .persist refresh ∨ r.phase = .retrying p ∧ w.writer = .retry refresh) := by
  have inside : w ∈ c.submitted ++ c.completed.map (·.write) :=
    List.mem_append_right _ (List.mem_map.mpr ⟨⟨w,outcome⟩,head ▸ .head _,rfl⟩)
  cases sound.flight with
  | none refreshes free quiet => cases quiet.ownOfMem inside ofRefresh
  | one refresh r refreshes registered standing =>
    have found : get c.refreshes refresh = some r := by simp [refreshes,InsertionMap.get]
    unfold Standing Quiet at standing
    split at standing
    · cases standing.ownOfMem inside ofRefresh
    · rename_i p phase
      cases standing.2.ownOfMem inside ofRefresh
      exact ⟨refresh,r,p,found,.inl ⟨phase,rfl⟩⟩
    · cases standing.1.moving.ownOfMem inside ofRefresh
    · rename_i p phase
      cases standing.moving.ownOfMem inside ofRefresh
      exact ⟨refresh,r,p,found,.inr ⟨phase,rfl⟩⟩
    · cases standing.ownOfMem inside ofRefresh

theorem soundComplete (sound : Sound c)
    (head : c.completed = ⟨w,outcome⟩::rest) (lossless_ : lossless c .complete = true) :
    Sound (onCompletion { c with completed := rest } w outcome) := by
  by_cases ofRefresh : w.ofRefresh = true
  · obtain ⟨refresh,⟨token,proactive,phase_⟩,p,found,⟨phase,writer⟩ | ⟨phase,writer⟩⟩ := sound.awaited head ofRefresh
    · cases phase
      obtain ⟨_,refreshToken,expectedRefreshToken,exchanged⟩ := w
      cases writer
      simp only [lossless,head,found] at lossless_
      simp only [onCompletion,found]
      exact soundPersist sound found rfl head rfl lossless_
    · cases phase
      simp only [onCompletion,writer,found]
      exact soundRetry sound found rfl head ofRefresh
  · obtain ⟨entry,flush⟩ := flushOfNot (by simpa using ofRefresh)
    simp only [onCompletion,flush]
    exact (deliverBackground head flush).sound sound

theorem stepSound {ev} (sound : Sound c) (undisturbed_ : undisturbed c ev = true) (lossless_ : lossless c ev = true)
    (stepped : step c ev = some c') : Sound c' := by
  cases ev with
  | flush => cases stepped; exact flushBackground.sound sound
  | begin_ token proactive =>
    simp only [step] at stepped
    split at stepped
    · rename_i free
      cases stepped
      exact soundBegin sound free.1
    · cases stepped
  | exchanged refresh answer =>
    obtain ⟨r,found,stepped⟩ := Option.bind_eq_some_iff.mp stepped
    split at stepped
    · rename_i phase
      cases stepped
      simp only [undisturbed,found,Option.all_some,beq_iff_eq] at undisturbed_
      exact soundExchanged sound found phase undisturbed_
    · cases stepped
  | refused refresh =>
    obtain ⟨r,found,stepped⟩ := Option.bind_eq_some_iff.mp stepped
    split at stepped
    · rename_i phase
      cases stepped
      simp only [undisturbed,found,Option.all_some,bne_iff_ne] at undisturbed_
      exact soundRefused sound found phase undisturbed_
    · cases stepped
  | failed refresh =>
    obtain ⟨r,found,stepped⟩ := Option.bind_eq_some_iff.mp stepped
    split at stepped
    · rename_i phase
      cases stepped
      have standing := (sound.isolated found).2.2
      exact sound.finished found (by simpa [Standing,phase] using standing)
    · cases stepped
  | execute index throws =>
    obtain ⟨w,found,rfl⟩ := Option.map_eq_some_iff.mp stepped
    exact soundExecute sound found
  | complete =>
    simp only [step] at stepped
    split at stepped
    · cases stepped
    · rename_i w outcome rest head
      cases stepped
      exact soundComplete sound head lossless_
  | read refresh throws =>
    obtain ⟨r,found,stepped⟩ := Option.bind_eq_some_iff.mp stepped
    split at stepped
    · rename_i p phase
      cases stepped
      exact soundRead sound found phase throws
    · cases stepped
  | reread refresh =>
    obtain ⟨r,found,stepped⟩ := Option.bind_eq_some_iff.mp stepped
    split at stepped
    · rename_i p answer phase
      obtain ⟨written,flushedToken,rfl⟩ := Option.map_eq_some_iff.mp stepped
      exact soundReread sound found phase flushedToken
    · cases stepped
  | settle refresh =>
    obtain ⟨r,found,stepped⟩ := Option.bind_eq_some_iff.mp stepped
    split at stepped
    · rename_i phase
      cases stepped
      have standing := (sound.isolated found).2.2
      exact sound.finished found (by simpa [Standing,phase] using standing)
    · cases stepped
  | reauthenticate => cases undisturbed_
  | clearPendingRotation => cases undisturbed_
  | clearAccountRefreshCache => cases undisturbed_

theorem soundStart : Sound .start := by
  refine ⟨Nat.zero_lt_one,.none rfl rfl ⟨le_rfl,by simp [Tokens.start],by simp [Tokens.start],by simp [Tokens.start],rfl,?_⟩⟩
  exact .done ⟨fun _ => rfl,by simp [Describes,Tokens.start],by simp [Tokens.start]⟩

def Settled (c : Tokens) : Prop :=
  ∀ refresh r, get c.refreshes refresh = some r → r.phase = .exchanging ∨ r.phase = .settling

def Kept (c : Tokens) : Prop :=
  c.row = c.newest ∨ (∃ e, c.pending = some e ∧ e.generation = c.newest) ∨ ∃ w ∈ c.submitted, w.generation = c.newest

theorem Sound.quiet (sound : Sound c) (settled : Settled c) : Quiet c := by
  cases sound.flight with
  | none refreshes free quiet => exact quiet
  | one refresh r refreshes registered standing =>
    rcases settled refresh r (by simp [refreshes,InsertionMap.get]) with phase | phase
    · simpa [Standing,phase] using standing
    · simpa [Standing,phase] using standing

theorem Quiet.kept (quiet : Quiet c) : Kept c := by
  cases pending : c.pending with
  | none => exact .inl (quiet.lands.rowOfNone pending quiet.flushesOnly)
  | some e => exact .inr (.inl ⟨e,pending,quiet.lands.describes e pending⟩)

theorem rotationKept (reach : machine.ReachableUnder (fun c ev => undisturbed c ev = true ∧ lossless c ev = true) c)
    (settled : Settled c) : Kept c := by
  have sound : Sound c := by
    refine reach.invariant (P := Sound) ?_ (fun c ev d sound meets stepped => stepSound sound meets.1 meets.2 stepped)
    rintro c rfl
    exact soundStart
  exact (sound.quiet settled).kept

def recordedRun : List Event :=
  [.begin_ 0 false,.exchanged 0 .fresh,.execute 0 true,.complete,.settle 0]

def flushedUnderneath : List Event :=
  recordedRun ++ [.flush,.begin_ 1 false,.exchanged 1 .fresh,.execute 0 false,.execute 0 true,.complete,.complete,.settle 1,
    .flush,.execute 0 false,.complete]

def flushedBefore : List Event :=
  recordedRun ++ [.flush,.execute 0 false,.complete,.begin_ 1 false,.exchanged 1 .fresh,.execute 0 false,.complete,.settle 1]

theorem rotationKeptFlushed : ∃ c, machine.runUnder (fun c ev => undisturbed c ev && lossless c ev) .start flushedBefore = some c ∧
    c.newest = 2 ∧ Kept c := by
  refine ⟨_,rfl,rfl,rotationKept ?_ ?_⟩
  · exact (Machine.runReachableUnder flushedBefore rfl rfl).weaken (fun _ _ meets => Bool.and_eq_true_iff.mp meets)
  · intro refresh r found
    cases found

theorem rotationLost : ∃ c, machine.runUnder undisturbed .start flushedUnderneath = some c ∧ Settled c ∧ ¬ Kept c := by
  refine ⟨_,rfl,?_,?_⟩
  · intro refresh r found
    cases found
  · rintro (row | ⟨e,found,generation⟩ | ⟨w,inside,-⟩)
    · exact absurd row (by decide)
    · cases found
    · cases inside

end Clankermux.TokenManager
