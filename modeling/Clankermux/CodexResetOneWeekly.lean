import Clankermux.CodexResetSlot

/-! One weekly-limit reset in a tick of the Codex applier: what a visit of an account comes
to, what the two passes come to, and the ticks in which a hold is lost. -/
namespace Clankermux.CodexReset
open Fallible
namespace Env
variable {env : Env} {log : List Dispatched}

theorem holdsIff {candidate w} (oldest : (env.ledgerAt candidate w).WeeklyOldest candidate.id) :
    env.Holds candidate w ↔ (env.answers .visit candidate.id).throws .getPendingAttempt = false ∧
      ∃ row, (env.ledgerAt candidate w).findPendingForAccount candidate.id = some row ∧ row.cause = some .weeklyLimit ∧
        env.Allowed candidate.id row := by
  constructor
  · rintro ⟨reads,row,here,pending,cause,allowed⟩
    exact ⟨reads,row,Ledger.findWeekly oldest here pending cause,cause,allowed⟩
  · rintro ⟨reads,row,found,cause,allowed⟩
    obtain ⟨here,pending⟩ := Ledger.findMember found
    exact ⟨reads,row,here,pending,cause,allowed⟩

theorem readTold {α : Type} (site : Site) (id : String) (c : Call) (answer : Answers → α) :
    Ensures (fun w => w.dispatched = log) (env.read site id c answer)
      (fun a w => (a = answer (env.answers site id) ∧ (env.answers site id).throws c = false) ∧ w.dispatched = log)
      (fun e w => e = .thrown ∧ (env.answers site id).throws c = true ∧ w.dispatched = log) := by
  intro w here
  unfold read call
  cases throws : (env.answers site id).throws c with
  | true => simpa [throws] using here
  | false => simpa [throws] using here

theorem pendingTold (candidate : Candidate) (w : World) :
    Ensures (fun v => v = w) (env.deps.getPendingAttempt candidate.id)
      (fun a v => (a = (env.ledgerAt candidate w).findPendingForAccount candidate.id ∧
        (env.answers .visit candidate.id).throws .getPendingAttempt = false) ∧ v.dispatched = w.dispatched)
      (fun e v => e = .thrown ∧ (env.answers .visit candidate.id).throws .getPendingAttempt = true ∧
        v.dispatched = w.dispatched) := by
  rintro v rfl
  unfold deps call
  dsimp only
  cases throws : (env.answers .visit candidate.id).throws .getPendingAttempt with
  | true => simp
  | false => simp [ledgerAt]

theorem processEnsures (candidate : Candidate) (w : World) (calm : env.Undisturbed candidate w)
    (oldest : (env.ledgerAt candidate w).WeeklyOldest candidate.id) :
    Ensures (fun v => v = w) (processAccount env.deps candidate)
      (fun pass v => v.freshWeekly = w.freshWeekly ∧ (pass = some .weeklyHeld ↔ env.Holds candidate w))
      (fun e v => e = .thrown ∧ v.freshWeekly = w.freshWeekly ∧ ¬ env.Holds candidate w) := by
  have quiet : ∀ v : World, v.dispatched = w.dispatched → v.freshWeekly = w.freshWeekly := fun v same => by
    rw [World.freshWeekly,same,World.freshWeekly]
  have holds := holdsIff oldest
  refine Ensures.bind ((pendingTold candidate w).weaken (fun _ here => here) (fun _ _ here => here) fun e v told =>
    ⟨told.1,quiet v told.2.2,fun held => by simp [holds.mp held] at told⟩) fun pending => ensuresGiven fun read => ?_
  obtain ⟨found,reads⟩ := read
  cases pending with
  | none =>
    have unheld : ¬ env.Holds candidate w := fun held => by
      obtain ⟨-,row,same,-⟩ := holds.mp held
      rw [← found] at same
      cases same
    refine (discoverEnsures candidate none none false (by simp) fun _ => calm.turned found.symm).weaken (fun _ here => here)
      (fun pass v here => ⟨here.1,?_⟩) (fun _ _ never => never.elim)
    simp [here.2,unheld]
  | some row =>
    have holdsRow : env.Holds candidate w ↔ row.cause = some .weeklyLimit ∧ env.Allowed candidate.id row := by
      rw [holds,← found]
      simp [reads]
    have told : ∀ site c, (env.Holds candidate w → (env.answers site candidate.id).throws c = false) →
        ∀ (e : Failure) (v : World), e = .thrown ∧ (env.answers site candidate.id).throws c = true ∧ v.dispatched = w.dispatched →
          e = .thrown ∧ v.freshWeekly = w.freshWeekly ∧ ¬ env.Holds candidate w := by
      rintro site c calls e v ⟨thrown,throws,same⟩
      exact ⟨thrown,quiet v same,fun held => by simp [calls held] at throws⟩
    have undisturbed := fun held => calm.held row found.symm (holdsRow.mp held).1 (holdsRow.mp held).2
    refine Ensures.bind ((readTold .before candidate.id .getAccount (·.account)).weaken (fun _ here => here)
      (fun _ _ here => here) (told .before .getAccount fun held => (undisturbed held).1)) fun before => ensuresGiven fun first => ?_
    split
    · next gone =>
      refine ensuresPure fun v here => ⟨quiet v here,?_⟩
      have unheld : ¬ env.Holds candidate w := fun held => by
        obtain ⟨⟨account,known,enabled⟩,-⟩ := (holdsRow.mp held).2
        simp [first.1,known,enabled] at gone
      simp [unheld]
    · next present =>
      refine Ensures.bind ((readTold .visit candidate.id .refreshCredits (·.refreshed)).weaken (fun _ here => here)
        (fun _ _ here => here) (told .visit .refreshCredits fun held => (undisturbed held).2.1))
          fun reconciled => ensuresGiven fun _ => ?_
      refine Ensures.bind ((readTold .visit candidate.id .getAccount (·.account)).weaken (fun _ here => here)
        (fun _ _ here => here) (told .visit .getAccount fun held => (undisturbed held).2.2))
          fun account => ensuresGiven fun owner => ?_
      split
      · next account creditId credited =>
        split
        · next barred =>
          refine ensuresPure fun v here => ⟨quiet v here,?_⟩
          have unheld : ¬ env.Holds candidate w := fun held => by
            obtain ⟨-,⟨other,known,may,-⟩,credit,named,filled⟩ := (holdsRow.mp held).2
            rw [← owner.1] at known
            cases known
            cases credited.symm.trans named
            simp [may,filled] at barred
          simp [unheld]
        · next free =>
          simp only [Bool.or_eq_true,Bool.not_eq_true',beq_iff_eq,not_or,Bool.not_eq_false] at free
          split
          · next may =>
            have holdsCause : env.Holds candidate w ↔ (row.cause == some .weeklyLimit) = true := by
              rw [holdsRow,beq_iff_eq]
              refine ⟨fun held => held.1,fun cause => ⟨cause,?_,⟨account,owner.1.symm,free.1,may⟩,creditId,credited,free.2⟩⟩
              rw [first.1] at present
              cases known : (env.answers .before candidate.id).account with
              | none => simp [known] at present
              | some before => exact ⟨before,rfl,by simpa [known] using present⟩
            have discovers : ∀ log, log.filter (·.freshWeekly) = w.freshWeekly →
                Ensures (fun v => v.dispatched = log)
                  (discover env.deps candidate (some row) (some creditId) (row.cause == some .weeklyLimit))
                  (fun pass v => v.freshWeekly = w.freshWeekly ∧ (pass = some .weeklyHeld ↔ env.Holds candidate w))
                  (fun e v => e = .thrown ∧ v.freshWeekly = w.freshWeekly ∧ ¬ env.Holds candidate w) := fun log same =>
              (discoverEnsures candidate (some row) (some creditId) _ (fun _ => by simp) (by simp)).weaken (fun _ here => here)
                (fun pass v here => ⟨here.1.trans same,here.2.trans holdsCause.symm⟩) (fun _ _ never => never.elim)
            split
            · refine Ensures.bind ((dispatchEnsures .visit candidate.id creditId (row.cause.getD .expiry)
                ⟨row.id,row.idempotencyKey,row.attemptSeq.getD 1,true⟩).weaken (fun _ here => here) (fun _ _ here => here)
                  (fun _ _ never => never.elim)) fun _ => discovers _ ?_
              simp [World.freshWeekly,Dispatched.freshWeekly]
            · exact discovers _ rfl
          · next barred =>
            have unheld : ¬ env.Holds candidate w := fun held => by
              obtain ⟨-,⟨other,known,-,may⟩,-⟩ := (holdsRow.mp held).2
              rw [← owner.1] at known
              cases known
              exact barred may
            refine (discoverEnsures candidate (some row) _ false (by simp) (by simp)).weaken (fun _ here => here)
              (fun pass v here => ⟨here.1,?_⟩) (fun _ _ never => never.elim)
            simp [here.2,unheld]
      · next missing =>
        refine ensuresPure fun v here => ⟨quiet v here,?_⟩
        have unheld : ¬ env.Holds candidate w := fun held => by
          obtain ⟨-,⟨other,known,-⟩,credit,named,-⟩ := (holdsRow.mp held).2
          exact missing other credit (owner.1.trans known) named
        simp [unheld]

def Own {α : Type} (id : String) (effect : Ledger → α × Ledger) : Prop :=
  ∀ ledger, (effect ledger).2 = ledger ∨
    (∃ input attemptSeq, input.accountId = id ∧ (effect ledger).2 = (ledger.insertAttempt input attemptSeq).2) ∨
      ∃ row, (effect ledger).2 = (ledger.withdrawPendingAttempt row).2

theorem keepFor {I id} (records : ∀ d, Keeps (· = .thrown) I (record d))
    (calls : ∀ {α} site c (effect : Ledger → α × Ledger), Own id effect → Keeps (· = .thrown) I (env.call site id c effect)) :
    env.deps.KeepFor (· = .thrown) I id := by
  have reads : ∀ {α} site c (answer : Answers → α), Keeps (· = .thrown) I (env.read site id c answer) :=
    fun site c answer => calls site c _ fun _ => .inl rfl
  constructor
  · exact fun site => reads site .getAccount (·.account)
  · exact fun site => reads site .getCachedCredits (·.credits)
  · exact fun site _ => reads site .refreshCredits (·.refreshed)
  · exact calls .visit .getPendingAttempt (fun ledger => (ledger.findPendingForAccount id,ledger)) fun _ => .inl rfl
  · exact fun site => reads site .getTerminallyResolvedCreditIds (·.terminallyResolvedCreditIds)
  · exact fun site => reads site .getWeeklyWindow (·.weeklyWindow)
  · exact fun site => reads site .hasOtherAvailableCodexAccount (·.otherAvailable)
  · exact fun site => reads site .getAutoApplyCooldownAnchorAt (·.cooldownAnchorAt)
  · rintro site input rfl
    have mint : ∀ attemptSeq, Keeps (· = .thrown) I
        (claimAutoAttempt.mint (fun statement => env.call site input.accountId statement.call) input attemptSeq) := by
      intro attemptSeq
      refine (calls site .insert (fun ledger => ledger.insertAttempt input attemptSeq)
        fun _ => .inr (.inl ⟨input,attemptSeq,rfl,rfl⟩)).bind fun inserted => ?_
      cases inserted with
      | true => exact keepsPure
      | false =>
        refine (calls site .winner _ fun _ => .inl rfl).bind fun winner => ?_
        cases winner with
        | none => exact keepsPure
        | some row =>
          dsimp only
          split <;> exact keepsPure
    refine (calls site .latest _ fun _ => .inl rfl).bind fun latest => ?_
    cases latest with
    | none => exact mint 1
    | some row =>
      dsimp only
      split
      · exact keepsPure
      · split
        · exact keepsPure
        · exact mint _
  · exact fun site request => (records ⟨site,id,request⟩).bind fun _ => reads site .dispatchConsume (·.outcome)
  · exact fun site row => calls site .withdrawPendingAttempt (·.withdrawPendingAttempt row) fun _ => .inr (.inr ⟨row,rfl⟩)
  · exact fun _ _ _ here => here

theorem callThrows {α : Type} (site : Site) (id : String) (c : Call) (effect : Ledger → α × Ledger) (w : World) (e : Failure)
    (failed : (env.call site id c effect w).1 = .error e) : e = .thrown := by
  unfold call at failed
  cases throws : (env.answers site id).throws c with
  | true =>
    simp only [throws] at failed
    exact (Except.error.inj failed).symm
  | false => simp [throws] at failed

theorem oldestKept {id other} (apart : id ≠ other) :
    env.deps.KeepFor (· = .thrown) (fun w => w.ledger.WeeklyOldest other) id := by
  refine keepFor (fun _ _ here => here) fun site c effect own => keepsOf (fun w here => ?_) (callThrows site id c effect)
  have changed := here.changed ((env.answers site id).changes c)
  have done : (effect (w.ledger.changed ((env.answers site id).changes c))).2.WeeklyOldest other := by
    rcases own (w.ledger.changed ((env.answers site id).changes c)) with same | ⟨input,attemptSeq,owner,same⟩ | ⟨row,same⟩
    · rwa [same]
    · rw [same]
      exact changed.insertOther input attemptSeq (owner ▸ apart)
    · rw [same]
      exact changed.withdraw row
  unfold call
  cases throws : (env.answers site id).throws c with
  | true =>
    cases lands : (env.answers site id).lands c with
    | true => simpa [throws,lands] using done
    | false => simpa [throws,lands] using changed
  | false => simpa [throws] using done

theorem callsKept (id : String) (entry : Site × String × Call) : env.deps.KeepFor (· = .thrown) (fun w => entry ∈ w.calls) id := by
  refine keepFor (fun _ _ here => here) fun site c effect _ => keepsOf (fun w here => ?_) (callThrows site id c effect)
  unfold call
  cases throws : (env.answers site id).throws c <;> simp [throws,here]

theorem visitsOldest {candidates w} (distinct : (candidates.map (·.id)).Nodup)
    (oldest : ∀ candidate ∈ candidates, w.ledger.WeeklyOldest candidate.id) :
    ∀ v ∈ env.visits candidates w, (env.ledgerAt v.1 v.2).WeeklyOldest v.1.id := by
  induction candidates generalizing w with
  | nil => exact fun v here => nomatch here
  | cons candidate rest ih =>
    obtain ⟨apart,distinct⟩ := List.nodup_cons.mp distinct
    intro v here
    rcases List.mem_cons.mp here with rfl | later
    · exact (oldest candidate (.head _)).changed _
    · refine ih distinct (fun other its => ?_) v later
      have ne : candidate.id ≠ other.id := fun same => apart (List.mem_map.mpr ⟨other,its,same.symm⟩)
      have kept := ((@oldestKept env _ _ ne).processAccount candidate).recover (keepsPure (a := none))
      exact kept.after (oldest other (.tail _ its))

theorem firstPassTold (candidates : List Candidate) (weekly : List WeeklyProposal) (weeklyHeld : Bool) (w : World)
    (calm : ∀ v ∈ env.visits candidates w, env.Undisturbed v.1 v.2)
    (oldest : ∀ v ∈ env.visits candidates w, (env.ledgerAt v.1 v.2).WeeklyOldest v.1.id) :
    ∃ proposals held v, firstPass env.deps candidates weekly weeklyHeld w = (.ok (proposals,held),v) ∧
      v.freshWeekly = w.freshWeekly ∧ (held = true ↔ weeklyHeld = true ∨ ∃ v ∈ env.visits candidates w, env.Holds v.1 v.2) := by
  induction candidates generalizing weekly weeklyHeld w with
  | nil => exact ⟨weekly,weeklyHeld,w,rfl,rfl,by simp [visits]⟩
  | cons candidate rest ih =>
    have visit : Ensures (fun v => v = w) (recover (processAccount env.deps candidate) (pure none))
        (fun pass v => v.freshWeekly = w.freshWeekly ∧ (pass = some .weeklyHeld ↔ env.Holds candidate w)) (fun _ _ => False) :=
      (processEnsures candidate w (calm _ (.head _)) (oldest _ (.head _))).caught
        (ensuresPure fun v here => ⟨here.1,by simp [here.2]⟩)
    obtain ⟨pass,u,ran,fresh,holds⟩ := visit.answers rfl
    have after : (recover (processAccount env.deps candidate) (pure none) w).2 = u := congrArg Prod.snd ran
    have rest' := fun weekly weeklyHeld => ih weekly weeklyHeld u
      (fun v here => calm v (.tail _ (by rwa [after])))
      (fun v here => oldest v (.tail _ (by rwa [after])))
    have begun : firstPass env.deps (candidate::rest) weekly weeklyHeld w = _ := bindRun ran
    rw [begun]
    have seen : (∃ v ∈ env.visits (candidate::rest) w, env.Holds v.1 v.2) ↔
        pass = some .weeklyHeld ∨ ∃ v ∈ env.visits rest u, env.Holds v.1 v.2 := by
      simp only [visits,List.exists_mem_cons_iff,after,holds]
    rw [seen]
    cases pass with
    | none =>
      obtain ⟨proposals,held,v,run,same,iff⟩ := rest' weekly weeklyHeld
      exact ⟨proposals,held,v,run,same.trans fresh,by simp [iff]⟩
    | some pass =>
      cases pass with
      | weeklyHeld =>
        obtain ⟨proposals,held,v,run,same,iff⟩ := rest' weekly true
        exact ⟨proposals,held,v,run,same.trans fresh,by simp [iff]⟩
      | proposal proposal =>
        obtain ⟨proposals,held,v,run,same,iff⟩ := rest' (weekly ++ [proposal]) weeklyHeld
        exact ⟨proposals,held,v,run,same.trans fresh,by simp [iff]⟩

theorem rankedTold (proposal : WeeklyProposal) :
    Ensures (fun w => w.dispatched = log)
      (recover (confirmAndDispatch env.deps .ranked proposal.candidate proposal.pending none) (pure false))
      (fun dispatched w => if dispatched
        then ∃ request, request.cause = .weeklyLimit ∧ w.dispatched = log ++ [⟨.ranked,proposal.candidate.id,request⟩]
        else w.dispatched = log ∨ ∃ request, request.cause = .expiry ∧
          w.dispatched = log ++ [⟨.ranked,proposal.candidate.id,request⟩]) (fun _ _ => False) := by
  refine ((confirmEnsures .ranked proposal.candidate proposal.pending none).post fun dispatched w told => ?_).caught
    (H := fun w => w.dispatched = log) (ensuresPure fun w here => .inl here)
  cases dispatched with
  | true => exact told.2.2.2
  | false => exact told

theorem rankPassOnce (proposals : List WeeklyProposal) :
    Ensures (fun w => w.freshWeekly = []) (rankPass env.deps proposals) (fun _ w => w.freshWeekly.length ≤ 1)
      (fun _ _ => False) := by
  induction proposals with
  | nil => exact ensuresPure fun w here => by simp [here]
  | cons proposal rest ih =>
    refine Ensures.bind (R := fun dispatched w => if dispatched then w.freshWeekly.length ≤ 1 else w.freshWeekly = []) ?_ ?_
    · refine ensuresEach (f := World.dispatched) (p := fun log => log.filter (·.freshWeekly) = []) fun log none_ => ?_
      refine (rankedTold proposal).post fun dispatched w told => ?_
      cases dispatched with
      | true =>
        obtain ⟨request,-,sent⟩ := told
        rw [if_pos rfl,World.freshWeekly,sent,List.filter_append,none_,List.nil_append]
        exact List.length_filter_le _ _
      | false =>
        rcases told with same | ⟨request,cause,sent⟩
        · simpa [World.freshWeekly,same] using none_
        · simpa [World.freshWeekly,sent,Dispatched.freshWeekly,cause] using none_
    · intro dispatched
      cases dispatched with
      | true => exact ensuresPure fun w here => here
      | false => exact ih

def tried (proposal : WeeklyProposal) : Site × String × Call := (.ranked,proposal.candidate.id,.refreshCredits)

theorem triedConfirm (proposal : WeeklyProposal) :
    Ensures (fun _ => True)
      (recover (confirmAndDispatch env.deps .ranked proposal.candidate proposal.pending none) (pure false))
      (fun _ w => tried proposal ∈ w.calls) (fun e w => e = .thrown ∧ tried proposal ∈ w.calls) := by
  have first : Ensures (fun _ => True) (env.deps.refreshCredits .ranked proposal.candidate.id true)
      (fun _ w => tried proposal ∈ w.calls) (fun e w => e = .thrown ∧ tried proposal ∈ w.calls) := by
    intro w _
    simp only [deps,read,call]
    cases throws : (env.answers .ranked proposal.candidate.id).throws .refreshCredits <;> simp [tried]
  exact (Deps.KeepFor.confirmAfter (callsKept _ _) .ranked first proposal.pending none).caught keepsPure

theorem rankPassTries (proposals : List WeeklyProposal) (w : World)
    (expiries : ∀ d ∈ (rankPass env.deps proposals w).2.dispatched, d.site = .ranked → d.request.cause = .expiry) :
    ∀ proposal ∈ proposals, tried proposal ∈ (rankPass env.deps proposals w).2.calls := by
  induction proposals generalizing w with
  | nil => exact fun proposal here => nomatch here
  | cons proposal rest ih =>
    obtain ⟨dispatched,u,ran,told⟩ := (@rankedTold env w.dispatched proposal).answers rfl
    have begun : rankPass env.deps (proposal::rest) w = (if dispatched then pure () else rankPass env.deps rest) u := bindRun ran
    have mine : tried proposal ∈ u.calls := (@triedConfirm env proposal).answer trivial ran
    rw [begun] at expiries ⊢
    cases dispatched with
    | true =>
      obtain ⟨request,cause,sent⟩ := told
      have weekly := expiries ⟨.ranked,proposal.candidate.id,request⟩
        (by
          change _ ∈ u.dispatched
          rw [sent]
          exact List.mem_append_right _ (List.mem_singleton_self _)) rfl
      rw [cause] at weekly
      cases weekly
    | false =>
      intro other its
      rcases List.mem_cons.mp its with rfl | later
      · exact Keeps.after (Deps.KeepFor.rankPass fun p _ => @callsKept env p.candidate.id (tried other)) mine
      · exact ih u expiries other later

theorem finalTold {ledger proposals held v}
    (run : firstPass env.deps env.listed [] false (World.start ledger) = (.ok (proposals,held),v)) :
    env.final ledger = if held then v
      else (rankPass env.deps (proposals.insertionSort (fun a b => compareWeeklyProposals a b ≤ 0)) v).2 := by
  cases listing : env.candidates with
  | none =>
    have nothing : tick env.deps (World.start ledger) = (.ok (),World.start ledger) := by
      simp only [deps,listing]
      rfl
    rw [listed,listing] at run
    obtain ⟨⟨rfl,rfl⟩,rfl⟩ : ([] = proposals ∧ false = held) ∧ World.start ledger = v := by
      have same := Prod.mk.inj run
      exact ⟨Prod.mk.inj (Except.ok.inj same.1),same.2⟩
    rw [final,nothing]
    rfl
  | some candidates =>
    rw [listed,listing] at run
    have listing : recover (do
        let candidates ← env.deps.listCandidateAccounts
        return some candidates) (pure none) (World.start ledger) = (.ok (some candidates),World.start ledger) := by
      simp only [deps,listing]
      rfl
    have ticked : tick env.deps (World.start ledger) = (if held then pure ()
        else rankPass env.deps (proposals.insertionSort (fun a b => compareWeeklyProposals a b ≤ 0))) v :=
      (bindRun listing).trans (bindRun run)
    rw [final,ticked]
    cases held <;> rfl

theorem codexOneWeekly (env : Env) (ledger : Ledger) (reach : ledgers.ReachableUnder StampedLater ledger)
    (distinct : (env.listed.map (·.id)).Nodup)
    (calm : ∀ v ∈ env.visits env.listed (World.start ledger), env.Undisturbed v.1 v.2) : env.OneWeekly ledger := by
  have oldest := @visitsOldest env _ (World.start ledger) distinct fun candidate _ =>
    Ledger.weeklyOldest reach candidate.id
  obtain ⟨proposals,held,v,run,fresh,holds⟩ := firstPassTold env.listed [] false (World.start ledger) calm oldest
  have final := finalTold run
  have empty : v.freshWeekly = [] := fresh
  constructor
  · rw [final]
    cases held with
    | true => simp [empty]
    | false =>
      obtain ⟨_,u,ran,once⟩ := (@rankPassOnce env
        (proposals.insertionSort (fun a b => compareWeeklyProposals a b ≤ 0))).answers empty
      simpa [ran] using once
  · intro some_
    have taken : held = true := holds.mpr (.inr some_)
    rw [final,if_pos taken,empty]
  · intro weekly result
    rw [run] at result
    have taken := (Prod.mk.inj (Except.ok.inj result)).2
    simpa using holds.mp taken
  · intro weekly result expiries proposal here
    rw [run] at result
    cases result
    rw [final,if_neg Bool.false_ne_true] at expiries ⊢
    exact rankPassTries _ v expiries proposal ((List.mem_insertionSort _).mpr here)

def exhausted : Answers where
  changes _ := []
  throws _ := false
  lands _ := false
  account := some ⟨"codex",false,"token",false,none,false,true,true,false,false⟩
  credits := some [⟨"spare",.available,none⟩]
  refreshed := true
  terminallyResolvedCreditIds := []
  weeklyWindow := ⟨some 100,some (7 * 24 * 60 * 60 * 1000)⟩
  otherAvailable := false
  cooldownAnchorAt := none
  now _ := 0
  outcome := .completed

def lostHold : Env where
  candidates := some [⟨"first","first"⟩,⟨"second","second"⟩]
  answers site id := if site = .before ∧ id = "first" then { exhausted with throws := (· == .getAccount) } else exhausted

def heldLedger : Ledger := (Ledger.insertAttempt [] ⟨"first","spare",.weeklyLimit,0⟩ 1).2

def turnedExpiry : Env where
  candidates := some [⟨"first","first"⟩,⟨"second","second"⟩]
  answers site id := if site = .discovery ∧ id = "first"
    then { exhausted with credits := some [⟨"expiring",.available,some 60⟩,⟨"spare",.available,none⟩] } else exhausted

theorem weeklySlotLost : (∃ ledger, ledgers.ReachableUnder StampedLater ledger ∧ ¬ lostHold.OneWeekly ledger) ∧
    ¬ turnedExpiry.OneWeekly [] := by
  refine ⟨⟨heldLedger,?_,fun one => ?_⟩,fun one => ?_⟩
  · exact Machine.reachableNext (m := ledgers) (e := .claim ⟨"first","spare",.weeklyLimit,0⟩ 1) (t := [])
      (Machine.reachableStart rfl) (fun row here => nomatch here) rfl
  · have allowed : lostHold.Allowed "first" (Ledger.attemptRow ⟨"first","spare",.weeklyLimit,0⟩ 1) :=
      ⟨⟨_,rfl,rfl⟩,⟨_,rfl,by decide +kernel,by decide +kernel⟩,"spare",rfl,by decide +kernel⟩
    have none_ := one.held ⟨(⟨"first","first"⟩,World.start heldLedger),by decide +kernel,rfl,
      Ledger.attemptRow ⟨"first","spare",.weeklyLimit,0⟩ 1,by decide +kernel,by decide +kernel,rfl,allowed⟩
    revert none_
    decide +kernel
  · have once := one.once
    revert once
    decide +kernel

end Env
end Clankermux.CodexReset
