import Clankermux.BankedResetSlot

/-! One weekly-limit reset in a tick of the Anthropic applier, and no replay before its time. -/
namespace Clankermux.BankedReset
open Fallible
open CodexReset (Candidate Account)

structure Sound (log : List Dispatched) : Prop where
  due : ∀ d ∈ log, d.Due
  stale : log.filter (·.freshWeekly) = []

theorem Sound.send {log : List Dispatched} (sound : Sound log) {d} (due : d.Due) (stale : d.freshWeekly = false) :
    Sound (log ++ [d]) := by
  refine ⟨fun other here => ?_,by simp [sound.stale,stale]⟩
  rcases List.mem_append.mp here with past | last
  · exact sound.due other past
  · rwa [List.mem_singleton.mp last]

def Idle (id : String) (log : List Dispatched) (w : World) : Prop := w.dispatched = log ∧ w.ledger.NoAuto id

namespace Env
variable {env : Env} {log : List Dispatched} {id : String}

theorem callThrows {α : Type} (site : Site) (id : String) (c : Call) (effect : Ledger → α × Ledger) (w : World) (e : Failure)
    (failed : (env.call site id c effect w).1 = .error e) : e = .thrown := by
  unfold call at failed
  cases throws : (env.answers site id).throws c with
  | true =>
    simp only [throws] at failed
    exact (Except.error.inj failed).symm
  | false => simp [throws] at failed

theorem lookEnsures {α : Type} (site : Site) (other : String) (c : Call) (look : Ledger → α) :
    Ensures (Idle id log) (env.call site other c (fun ledger => (look ledger,ledger)))
      (fun a w => a = look w.ledger ∧ Idle id log w) (fun e w => e = .thrown ∧ Idle id log w) := by
  intro w here
  have after := here.2.changed ((env.answers site other).changes c)
  unfold call
  cases throws : (env.answers site other).throws c with
  | true => simpa [throws,Idle,here.1] using after
  | false => simpa [throws,Idle,here.1] using after

theorem readsKeep {I : World → Prop} {other} (clock : ∀ w entry, I w → I { w with calls := w.calls ++ [entry] })
    (reads : ∀ {α} site c (answer : Answers → α), Keeps (· = .thrown) I (env.read site other c answer)) :
    env.deps.ReadsKeep (· = .thrown) I other where
  getAccount site := reads site .getAccount (·.account)
  getCachedStatus site := reads site .getCachedStatus (·.status)
  refreshStatus site _ := reads site .refreshStatus (·.refreshed)
  getAutoApplyCooldownAnchorAt site := reads site .getAutoApplyCooldownAnchorAt (·.cooldownAnchorAt)
  getRearmAt site := reads site .getRearmAt (·.rearmAt)
  statusNeedsRefresh site := reads site .statusNeedsRefresh (·.needsRefresh)
  getUsage site := reads site .getUsage (·.usage)
  getFamilyWeeklyMemo site := reads site .getFamilyWeeklyMemo (·.memo)
  hasOtherAvailableAccount site _ := reads site .hasOtherAvailableAccount (·.otherAvailable)
  now _ _ w here := clock w _ here

theorem idleReads (other : String) : env.deps.ReadsKeep (· = .thrown) (Idle id log) other :=
  readsKeep (fun _ _ here => here) fun site c answer =>
    (lookEnsures site other c (fun _ => answer (env.answers site other))).post fun _ _ here => here.2

theorem claimEnsures (site : Site) (input : ClaimInput) (own : input.accountId = id) :
    Ensures (Idle id log) (env.deps.claimAutoAttempt site input)
      (fun claim w => (∀ c ∈ claim, c.reused = false) ∧ w.dispatched = log) (fun e w => e = .thrown ∧ w.dispatched = log) := by
  subst own
  have settled : ∀ {row} {w : World}, some row = w.ledger.latestAutoRow input.accountId input.grantId →
      Idle input.accountId log w → (row.status == .pending) = false := fun found idle =>
    beq_false_of_ne (idle.2.latest found.symm)
  have mint : ∀ attemptSeq, Ensures (Idle input.accountId log)
      (claimAutoAttempt.mint (fun statement => env.call site input.accountId statement.call) input
        (env.answers site input.accountId).requestId attemptSeq)
      (fun claim w => (∀ c ∈ claim, c.reused = false) ∧ w.dispatched = log) (fun e w => e = .thrown ∧ w.dispatched = log) := by
    intro attemptSeq
    have inserts : Ensures (Idle input.accountId log)
        (env.call site input.accountId .insert
          (fun ledger => ledger.insertAuto input attemptSeq (env.answers site input.accountId).requestId))
        (fun inserted w => w.dispatched = log ∧ (inserted = false → w.ledger.NoAuto input.accountId))
        (fun e w => e = .thrown ∧ w.dispatched = log) := by
      intro w here
      have after := here.2.changed ((env.answers site input.accountId).changes .insert)
      unfold call
      cases throws : (env.answers site input.accountId).throws .insert with
      | true => simpa [throws] using here.1
      | false =>
        simp only [throws]
        refine ⟨here.1,fun refused => ?_⟩
        rcases @Ledger.insertCases (w.ledger.changed ((env.answers site input.accountId).changes .insert))
          (·.pendingOf input.accountId)
          (Ledger.attemptRow input attemptSeq (env.answers site input.accountId).requestId) with same | ⟨added,-⟩
        · rwa [Ledger.insertAuto,same]
        · rw [Ledger.insertAuto,added] at refused
          cases refused
    refine inserts.bind fun inserted => ?_
    cases inserted with
    | true => exact ensuresPure fun w here => ⟨fun c its => by cases its; rfl,here.1⟩
    | false =>
      refine Ensures.bind (((lookEnsures site input.accountId .winner _).weaken (fun w here => ⟨here.1,here.2 rfl⟩)
        (fun _ _ here => here) (fun e w here => ⟨here.1,here.2.1⟩))) fun winner => ?_
      intro w here
      cases winner with
      | none => exact ⟨(by intro c its; cases its),here.2.1⟩
      | some row =>
        simp only [settled here.1 here.2]
        exact ⟨(by intro c its; cases its),here.2.1⟩
  refine Ensures.bind ((lookEnsures site input.accountId .latest _).weaken (fun _ here => here) (fun _ _ here => here)
    (fun e w here => ⟨here.1,here.2.1⟩)) fun latest => ?_
  intro w here
  cases latest with
  | none => exact mint 1 w here.2
  | some row =>
    simp only [settled here.1 here.2]
    exact mint _ w here.2

theorem dispatchEnsures (site : Site) (id : String) (request : ClaimRequest) (w : World) :
    Ensures (fun s => s.2 = w) (dispatch env.deps site id request)
      (fun _ s => s.2.dispatched =
        w.dispatched ++ [⟨site,id,request,w.now,w.ledger.find? (fun row => row.id == request.ledgerRowId)⟩]) (fun _ _ => False) := by
  generalize sent : w.dispatched ++ [(⟨site,id,request,w.now,w.ledger.find? (fun row => row.id == request.ledgerRowId)⟩ :
    Dispatched)] = after
  have recorded : Ensures (fun v => v = w) (record site id request) (fun _ v => v.dispatched = after)
      (fun e v => e = .thrown ∧ v.dispatched = after) := by
    rintro v rfl
    exact sent
  have answered : Ensures (fun v => v.dispatched = after) (env.read site id .dispatchClaim (fun _ => ()))
      (fun _ v => v.dispatched = after) (fun e v => e = .thrown ∧ v.dispatched = after) := by
    intro v here
    unfold read call
    cases throws : (env.answers site id).throws .dispatchClaim <;> simpa [throws] using here
  exact (ensuresLift (recorded.bind fun _ => answered)).caught (ensuresPure fun _ here => here)

theorem claimSends (site : Site) (candidate : Candidate) (decision : BankedResetClaimDecision) :
    Ensures (fun s => Idle candidate.id log s.2) (claimAndDispatch env.deps site candidate decision)
      (fun sent s => if sent then ∃ d, s.2.dispatched = log ++ [d] ∧ d.site = site ∧
          d.request.cause = decision.kind.cause ∧ d.request.replay = false
        else s.2.dispatched = log) (fun e s => e = .thrown ∧ s.2.dispatched = log) := by
  refine Ensures.bind ((keepsLift ((@idleReads env log candidate.id candidate.id).now site .claiming)).weaken (fun _ here => here)
    (fun _ _ here => here) (fun e s here => ⟨here.1,here.2.1⟩)) fun now => ?_
  refine (ensuresLift (@claimEnsures env log candidate.id site ⟨candidate.id,decision.grantId,decision.kind.cause,now⟩ rfl)).bind fun claim => ?_
  cases claim with
  | none => exact ensuresPure fun s here => here.2
  | some claim =>
    refine ensuresGiven fun afresh => ?_
    have fresh : claim.reused = false := afresh claim rfl
    refine Ensures.bind (R := fun (_ : Unit) (s : Memory × World) => ∃ d : Dispatched, s.2.dispatched = log ++ [d] ∧ d.site = site ∧
      d.request.cause = decision.kind.cause ∧ d.request.replay = false) ?_ fun _ => ensuresPure fun _ here => here
    refine ensuresEach (f := Prod.snd) (p := fun w : World => w.dispatched = log) fun w same => ?_
    refine (dispatchEnsures site candidate.id _ w).weaken (fun _ here => here) (fun _ s here => ?_) (fun _ _ never => never.elim)
    exact ⟨_,by rw [here,same],rfl,rfl,fresh⟩

def Proposed (candidate : Candidate) (pass : Option Pass) (s : Memory × World) : Prop :=
  Sound s.2.dispatched ∧ pass ≠ some .weeklyHeld ∧
    ∀ proposal, pass = some (.proposal proposal) → proposal.candidate = candidate ∧ s.2.ledger.NoAuto candidate.id

theorem proposeEnsures (candidate : Candidate) (account : Account) (sound : Sound log) :
    Ensures (fun s => Idle candidate.id log s.2) (propose env.deps candidate account) (Proposed candidate)
      (fun e s => e = .thrown ∧ Sound s.2.dispatched) := by
  have reads := @idleReads env log candidate.id candidate.id
  have only : ∀ {α} {prog : Fallible (Memory × World) α}, Keeps (· = .thrown) (fun s => Idle candidate.id log s.2) prog →
      Ensures (fun s => Idle candidate.id log s.2) prog (fun _ s => Idle candidate.id log s.2)
        (fun e s => e = .thrown ∧ Sound s.2.dispatched) := fun keeps =>
    keeps.weaken (fun _ here => here) (fun _ _ here => here) fun e s here => ⟨here.1,by rwa [here.2.1]⟩
  have nothing : Ensures (fun s : Memory × World => Idle candidate.id log s.2) (pure none) (Proposed candidate)
      (fun e s => e = .thrown ∧ Sound s.2.dispatched) :=
    ensuresPure fun s here => ⟨by rwa [here.1],nofun,nofun⟩
  have act : ∀ discovery status usage memo, Ensures (fun s => Idle candidate.id log s.2)
      (propose.act env.deps candidate discovery status usage memo) (Proposed candidate)
      (fun e s => e = .thrown ∧ Sound s.2.dispatched) := by
    intro discovery status usage memo
    cases discovery with
    | weekly windows =>
      refine Ensures.bind (R := fun (proposal : Option WeeklyProposal) (s : Memory × World) =>
        Idle candidate.id log s.2 ∧ ∀ p ∈ proposal, p.candidate = candidate) ?_ ?_
      · have own : ∀ resetsAt endsAt, Ensures (fun s : Memory × World => Idle candidate.id log s.2)
            (pure (some ⟨candidate,resetsAt,endsAt⟩)) (fun (proposal : Option WeeklyProposal) s =>
              Idle candidate.id log s.2 ∧ ∀ p ∈ proposal, p.candidate = candidate)
            (fun e s => e = .thrown ∧ Sound s.2.dispatched) := fun resetsAt endsAt =>
          ensuresPure fun s here => ⟨here,fun p its => by cases its; rfl⟩
        have none_ : Ensures (fun s : Memory × World => Idle candidate.id log s.2) (pure none)
            (fun (proposal : Option WeeklyProposal) s => Idle candidate.id log s.2 ∧ ∀ p ∈ proposal, p.candidate = candidate)
            (fun e s => e = .thrown ∧ Sound s.2.dispatched) := ensuresPure fun s here => ⟨here,nofun⟩
        refine Ensures.bind (only (keepsLift (reads.now .proposal .deciding))) fun now => ?_
        dsimp only
        split
        · exact none_
        · refine Ensures.bind (only (keepsLift (reads.getAutoApplyCooldownAnchorAt .proposal))) fun anchor => ?_
          split
          · exact none_
          · split
            · refine Ensures.bind (only (keepsLift (reads.hasOtherAvailableAccount .proposal _))) fun other => ?_
              cases other with
              | true => exact none_
              | false => exact own _ _
            · exact own _ _
      · intro proposal
        refine ensuresPure fun s here => ⟨by rwa [here.1.1],by cases proposal <;> nofun,fun p same => ?_⟩
        cases proposal with
        | none => cases same
        | some other =>
          cases same
          exact ⟨here.2 p rfl,here.1.2⟩
    | expiry =>
      refine Ensures.bind (only (reads.confirm .confirmation)) fun decision => ?_
      cases decision with
      | none => exact nothing
      | some decision =>
        dsimp only
        split
        · exact ensuresPure fun s here => ⟨by rwa [here.1],nofun,fun proposal same => by cases same; exact ⟨rfl,here.2⟩⟩
        · next kind =>
          refine Ensures.bind ((claimSends .confirmation candidate decision).weaken (fun _ here => here) (fun _ _ here => here)
            fun e s here => ⟨here.1,by rwa [here.2]⟩) fun sent => ensuresPure fun s here => ⟨?_,nofun,nofun⟩
          cases sent with
          | false =>
            have same : s.2.dispatched = log := here
            rwa [same]
          | true =>
            obtain ⟨d,added,-,cause,fresh⟩ := here
            rw [added]
            refine sound.send (fun replayed => ?_) ?_
            · rw [fresh] at replayed
              cases replayed
            · simp [Dispatched.freshWeekly,cause,kind,ClaimKind.cause]
  have discovered : ∀ usage memo now, Ensures (fun s => Idle candidate.id log s.2)
      (propose.discovered env.deps candidate account usage memo now) (Proposed candidate)
      (fun e s => e = .thrown ∧ Sound s.2.dispatched) := by
    intro usage memo now
    refine Ensures.bind (only (keepsLift (reads.getCachedStatus .discovery))) fun status => ?_
    split
    · exact nothing
    · split
      · refine Ensures.bind (only (keepsLift (reads.statusNeedsRefresh .discovery))) fun due => ?_
        cases due with
        | true => exact act _ _ _ _
        | false => exact nothing
      · exact act _ _ _ _
  refine Ensures.bind (only (keepsLift (reads.now .discovery .deciding))) fun now => ?_
  refine Ensures.bind (only (keepsLift (reads.getUsage .discovery))) fun usage => ?_
  refine Ensures.bind (only (keepsLift (reads.getFamilyWeeklyMemo .discovery))) fun memo => ?_
  split
  · exact Ensures.bind (only (keepsLift (reads.refreshStatus .discovery false))) fun _ => discovered _ _ _
  · exact discovered _ _ _

theorem callTold {α : Type} (site : Site) (id : String) (c : Call) (look : Ledger → α) (w : World) :
    Ensures (fun v => v = w) (env.call site id c (fun ledger => (look ledger,ledger)))
      (fun a v => (env.answers site id).throws c = false ∧ a = look v.ledger ∧
        v.ledger = w.ledger.changed ((env.answers site id).changes c) ∧ v.dispatched = w.dispatched)
      (fun e v => e = .thrown ∧ (env.answers site id).throws c = true ∧ v.dispatched = w.dispatched) := by
  rintro v rfl
  unfold call
  cases throws : (env.answers site id).throws c <;> simp [throws]

theorem findKeyed {ledger : Ledger} (keyed : ledger.Keyed) {row other} (here : row ∈ ledger)
    (found : ledger.find? (fun candidate => candidate.id == row.id) = some other) : other = row := by
  have same : other.id = row.id := by simpa using List.find?_some found
  exact List.inj_on_of_nodup_map keyed (List.mem_of_find?_eq_some found) here same

theorem processEnsures (candidate : Candidate) (w : World) (sound : Sound w.dispatched) (keyed : w.ledger.Keyed) :
    Ensures (fun s => s.2 = w) (processAccount env.deps candidate)
      (fun pass s => Sound s.2.dispatched ∧ (pass = some .weeklyHeld ↔ env.Holds candidate w) ∧
        ∀ proposal, pass = some (.proposal proposal) → proposal.candidate = candidate ∧ s.2.ledger.NoAuto candidate.id)
      (fun e s => e = .thrown ∧ Sound s.2.dispatched ∧ ¬ env.Holds candidate w) := by
  refine Ensures.bind ((ensuresLift (callTold .visit candidate.id .getAccount
    (fun _ => (env.answers .visit candidate.id).account) w)).weaken (fun _ here => here) (fun _ _ here => here) ?_)
      fun account => ensuresGiven fun reads => ensuresGiven fun known => ?_
  · rintro e s ⟨thrown,throws,same⟩
    refine ⟨thrown,by rwa [same],fun held => ?_⟩
    rw [held.1] at throws
    cases throws
  cases account with
  | none =>
    refine ensuresPure fun s here => ⟨by rwa [here.2],?_,nofun⟩
    refine ⟨nofun,fun held => ?_⟩
    obtain ⟨-,-,account,there,-⟩ := held
    rw [← known] at there
    cases there
  | some account =>
    refine ensuresEach (f := Prod.snd) (p := fun v : World => v.ledger = w.ledger.changed
      ((env.answers .visit candidate.id).changes .getAccount) ∧ v.dispatched = w.dispatched) fun v first => ?_
    refine Ensures.bind ((ensuresLift (callTold .visit candidate.id .getPendingAttempts
      (fun ledger => ledger.findPendingForAccount candidate.id) v)).weaken (fun _ here => here) (fun _ _ here => here) ?_)
        fun allPending => ?_
    · rintro e s ⟨thrown,throws,same⟩
      refine ⟨thrown,by rwa [same,first.2],fun held => ?_⟩
      rw [held.2.1] at throws
      cases throws
    have at_ : ∀ u : World, u.ledger = v.ledger.changed ((env.answers .visit candidate.id).changes .getPendingAttempts) →
        u.ledger = env.ledgerAt candidate w := fun u here => by rw [here,first.1,ledgerAt]
    refine ensuresEach (f := Prod.snd) (p := fun u : World => (env.answers .visit candidate.id).throws .getPendingAttempts = false ∧
      allPending = u.ledger.findPendingForAccount candidate.id ∧
        u.ledger = v.ledger.changed ((env.answers .visit candidate.id).changes .getPendingAttempts) ∧
          u.dispatched = v.dispatched) fun u second => ?_
    obtain ⟨waits,found,ledger,same⟩ := second
    have ledger := at_ u ledger
    have keyed : u.ledger.Keyed := by
      rw [ledger]
      exact (keyed.changed _).changed _
    have sound : Sound u.dispatched := by rwa [same,first.2]
    have holds : env.Holds candidate w ↔ ((allPending.filter (fun row => row.trigger == .auto)).any
        (fun row => row.cause == some .weeklyLimit && mayReplay account row)) = true := by
      simp only [Holds,reads,waits,← known,true_and,Option.some.injEq,exists_eq_left',List.any_eq_true,List.mem_filter,
        beq_iff_eq,Bool.and_eq_true,found,Ledger.memPending,← ledger]
      constructor
      · rintro ⟨row,here,pending,auto,cause,may⟩
        exact ⟨row,⟨⟨here,pending⟩,auto⟩,cause,may⟩
      · rintro ⟨row,⟨⟨here,pending⟩,auto⟩,cause,may⟩
        exact ⟨row,here,pending,auto,cause,may⟩
    have hold : ∀ held, ((if held = true then some Pass.weeklyHeld else none) = some .weeklyHeld ↔ held = true) := by
      intro held
      cases held <;> simp
    have proposesNot : ∀ held, ∀ proposal, (if held = true then some Pass.weeklyHeld else none) ≠ some (.proposal proposal) := by
      intro held
      cases held <;> nofun
    refine Ensures.bind (R := fun (now : Int) (s : Memory × World) => now = u.now ∧ s.2.now = u.now ∧ s.2.ledger = u.ledger ∧
      s.2.dispatched = u.dispatched) ?_ fun now => ensuresGiven fun clock => ?_
    · rintro ⟨memory,_⟩ rfl
      exact ⟨rfl,rfl,rfl,rfl⟩
    dsimp only
    split
    · exact ensuresPure fun s here => ⟨by rwa [here.2.2],(hold _).trans holds.symm,fun proposal same => (proposesNot _ _ same).elim⟩
    · next notBackedOff =>
      split
      · next row replayed =>
        have inside := List.mem_of_find?_eq_some replayed
        obtain ⟨listed,-⟩ := List.mem_filter.mp inside
        rw [found,Ledger.memPending] at listed
        refine ensuresEach (f := Prod.snd) (p := fun x : World => x.now = u.now ∧ x.ledger = u.ledger ∧ x.dispatched = u.dispatched)
          fun x here => ?_
        refine Ensures.bind ((dispatchEnsures .visit candidate.id _ x).weaken (fun _ here => here) (fun _ _ here => here)
          (fun _ _ never => never.elim)) fun _ => ensuresPure fun s sent => ?_
        refine ⟨?_,(hold _).trans holds.symm,fun proposal same => (proposesNot _ _ same).elim⟩
        rw [sent,here.2.2]
        refine sound.send (fun _ other its nextAttemptAt due => ?_) (by simp [Dispatched.freshWeekly])
        rw [here.2.1] at its
        rw [findKeyed keyed listed.1 its] at due
        refine not_lt.mp fun late => notBackedOff (List.any_eq_true.mpr ⟨row,inside,?_⟩)
        rw [Option.mem_def.mp due,clock]
        simpa [here.1] using late
      · next none_ =>
        have unheld : ¬ env.Holds candidate w := by
          rw [holds,Bool.not_eq_true,List.any_eq_false]
          intro row inside may
          rw [List.find?_eq_none] at none_
          exact none_ row inside (Bool.and_eq_true_iff.mp may).2
        split
        · next empty =>
          have idle : u.ledger.NoAuto candidate.id := fun row here pending _ => by
            have inside := Ledger.memPending.mpr ⟨here,pending⟩
            rw [← found,List.isEmpty_iff.mp empty] at inside
            cases inside
          refine (proposeEnsures candidate account sound).weaken (fun s here => ⟨here.2.2,by rw [here.2.1]; exact idle⟩)
            (fun pass s here => ⟨here.1,?_,here.2.2⟩) (fun e s here => ⟨here.1,here.2,unheld⟩)
          simp [here.2.1,unheld]
        · exact ensuresPure fun s here => ⟨by rwa [here.2.2],by simp [unheld],nofun⟩

def Own {α : Type} (id : String) (effect : Ledger → α × Ledger) : Prop :=
  ∀ ledger, (effect ledger).2 = ledger ∨
    ∃ input attemptSeq requestId, input.accountId = id ∧ (effect ledger).2 = (ledger.insertAuto input attemptSeq requestId).2

theorem keepFor {I : World → Prop} (clock : ∀ w entry, I w → I { w with calls := w.calls ++ [entry] })
    (records : ∀ site request, Keeps (· = .thrown) I (record site id request))
    (calls : ∀ {α} site c (effect : Ledger → α × Ledger), Own id effect →
      Keeps (· = .thrown) I (env.call site id c effect)) :
    env.deps.KeepFor (· = .thrown) I id := by
  refine ⟨readsKeep clock fun site c answer => calls site c _ fun _ => .inl rfl,?_,?_,?_⟩
  · exact calls .visit .getPendingAttempts (fun ledger => (ledger.findPendingForAccount id,ledger)) fun _ => .inl rfl
  · rintro site input rfl
    have mint : ∀ attemptSeq, Keeps (· = .thrown) I
        (claimAutoAttempt.mint (fun statement => env.call site input.accountId statement.call) input
          (env.answers site input.accountId).requestId attemptSeq) := by
      intro attemptSeq
      refine (calls site .insert (fun ledger => ledger.insertAuto input attemptSeq (env.answers site input.accountId).requestId)
        fun _ => .inr ⟨input,attemptSeq,_,rfl,rfl⟩).bind fun inserted => ?_
      cases inserted with
      | true => exact keepsPure
      | false =>
        refine (calls site .winner _ fun _ => .inl rfl).bind fun winner => ?_
        cases winner with
        | none => exact keepsPure
        | some row =>
          dsimp only
          split <;> exact keepsPure
    refine (calls site .latest _ fun _ => .inl rfl).bind fun latest => ?_
    cases latest with
    | none => exact mint 1
    | some row =>
      dsimp only
      split
      · exact keepsPure
      · exact mint _
  · exact fun site request => (records site request).bind fun _ => calls site .dispatchClaim _ fun _ => .inl rfl

theorem ledgerKept {I : Ledger → Prop} (changes : ∀ ledger list, I ledger → I (ledger.changed list))
    (claims : ∀ ledger input attemptSeq requestId, input.accountId = id → I ledger →
      I (ledger.insertAuto input attemptSeq requestId).2) : env.deps.KeepFor (· = .thrown) (fun w => I w.ledger) id := by
  refine keepFor (fun _ _ here => here) (fun _ _ _ here => here) fun site c effect own =>
    keepsOf (fun w here => ?_) (callThrows site id c effect)
  have changed := changes _ ((env.answers site id).changes c) here
  have done : I (effect (w.ledger.changed ((env.answers site id).changes c))).2 := by
    rcases own (w.ledger.changed ((env.answers site id).changes c)) with same | ⟨input,attemptSeq,requestId,owner,same⟩
    · rwa [same]
    · rw [same]
      exact claims _ input attemptSeq requestId owner changed
  unfold call
  cases throws : (env.answers site id).throws c with
  | true =>
    cases lands : (env.answers site id).lands c with
    | true => simpa [throws,lands] using done
    | false => simpa [throws,lands] using changed
  | false => simpa [throws] using done

theorem keyedKept : env.deps.KeepFor (· = .thrown) (fun w => w.ledger.Keyed) id :=
  ledgerKept (fun _ _ here => here.changed _) fun _ _ _ _ _ here => here.insert _ _

theorem othersKept {other : String} (apart : id ≠ other) :
    env.deps.KeepFor (· = .thrown) (fun w => w.ledger.NoAuto other) id :=
  ledgerKept (fun _ _ here => here.changed _) fun _ input attemptSeq requestId owner here =>
    here.insertOther input attemptSeq requestId (owner ▸ apart)

theorem triedKept (proposal : WeeklyProposal) : env.deps.KeepFor (· = .thrown) (Tried proposal) id := by
  have grown : ∀ w entry, Tried proposal w → Tried proposal { w with calls := w.calls ++ [entry] } :=
    fun w entry here => here.imp (List.mem_append_left [entry]) (List.mem_append_left [entry])
  refine keepFor grown (fun _ _ _ here => here) fun site c effect _ =>
    keepsOf (fun w here => ?_) (callThrows site id c effect)
  have after := grown w (site,id,c) here
  unfold call
  cases throws : (env.answers site id).throws c <;> simpa [throws,Tried] using after

theorem visitTold (candidate : Candidate) (s : Memory × World) (sound : Sound s.2.dispatched) (keyed : s.2.ledger.Keyed) :
    ∃ pass t, recover (processAccount env.deps candidate) (pure none) s = (.ok pass,t) ∧ Sound t.2.dispatched ∧
      t.2.ledger.Keyed ∧ (pass = some .weeklyHeld ↔ env.Holds candidate s.2) ∧
      (∀ proposal, pass = some (.proposal proposal) → proposal.candidate = candidate ∧ t.2.ledger.NoAuto candidate.id) ∧
      ∀ other, candidate.id ≠ other → s.2.ledger.NoAuto other → t.2.ledger.NoAuto other := by
  have visit : Ensures (fun t : Memory × World => t.2 = s.2) (recover (processAccount env.deps candidate) (pure none))
      (fun pass t => Sound t.2.dispatched ∧ (pass = some .weeklyHeld ↔ env.Holds candidate s.2) ∧
        ∀ proposal, pass = some (.proposal proposal) → proposal.candidate = candidate ∧ t.2.ledger.NoAuto candidate.id)
      (fun _ _ => False) :=
    (processEnsures candidate s.2 sound keyed).caught (ensuresPure fun t here => ⟨here.1,by simp [here.2],nofun⟩)
  obtain ⟨pass,t,ran,sound,holds,proposes⟩ := visit.answers rfl
  have after : ∀ {I}, env.deps.KeepFor (· = .thrown) I candidate.id → I s.2 → I t.2 := fun keep here => by
    have kept := (keep.processAccount.recover (keepsPure (a := none))).after (s := s) here
    rwa [show (recover (processAccount env.deps candidate) (pure none) s).2 = t from congrArg Prod.snd ran] at kept
  exact ⟨pass,t,ran,sound,after keyedKept keyed,holds,proposes,fun other apart => after (othersKept apart)⟩

theorem firstPassTold (candidates : List Candidate) (weekly : List WeeklyProposal) (weeklyHeld : Bool) (s : Memory × World)
    (sound : Sound s.2.dispatched) (keyed : s.2.ledger.Keyed)
    (distinct : (weekly.map (·.candidate.id) ++ candidates.map (·.id)).Nodup)
    (idle : ∀ proposal ∈ weekly, s.2.ledger.NoAuto proposal.candidate.id) :
    ∃ proposals held t, firstPass env.deps candidates weekly weeklyHeld s = (.ok (proposals,held),t) ∧ Sound t.2.dispatched ∧
      (held = true ↔ weeklyHeld = true ∨ ∃ v ∈ env.visits candidates s, env.Holds v.1 v.2) ∧
      (proposals.map (·.candidate.id)).Nodup ∧ ∀ proposal ∈ proposals, t.2.ledger.NoAuto proposal.candidate.id := by
  induction candidates generalizing weekly weeklyHeld s with
  | nil =>
    rw [List.map_nil,List.append_nil] at distinct
    exact ⟨weekly,weeklyHeld,s,rfl,sound,by simp [visits],distinct,idle⟩
  | cons candidate rest ih =>
    obtain ⟨pass,t,ran,sound,keyed,holds,proposes,others⟩ := visitTold candidate s sound keyed
    have after : (recover (processAccount env.deps candidate) (pure none) s).2 = t := congrArg Prod.snd ran
    have begun : firstPass env.deps (candidate::rest) weekly weeklyHeld s = _ := bindRun ran
    have seen : (∃ v ∈ env.visits (candidate::rest) s, env.Holds v.1 v.2) ↔
        pass = some .weeklyHeld ∨ ∃ v ∈ env.visits rest t, env.Holds v.1 v.2 := by
      simp only [visits,List.exists_mem_cons_iff,after,holds]
    rw [begun,seen]
    rw [List.map_cons,List.nodup_append] at distinct
    obtain ⟨first,last,apart⟩ := distinct
    obtain ⟨fresh,last⟩ := List.nodup_cons.mp last
    have idle : ∀ proposal ∈ weekly, t.2.ledger.NoAuto proposal.candidate.id := fun proposal here =>
      others _ (fun same => apart _ (List.mem_map_of_mem here) _ (.head _) same.symm) (idle proposal here)
    have distinct : (weekly.map (·.candidate.id) ++ rest.map (·.id)).Nodup :=
      List.nodup_append.mpr ⟨first,last,fun a here b there => apart a here b (.tail _ there)⟩
    cases pass with
    | none =>
      obtain ⟨proposals,held,u,run,told,iff,rest⟩ := ih weekly weeklyHeld t sound keyed distinct idle
      exact ⟨proposals,held,u,run,told,by simp [iff],rest⟩
    | some pass =>
      cases pass with
      | weeklyHeld =>
        obtain ⟨proposals,held,u,run,told,iff,rest⟩ := ih weekly true t sound keyed distinct idle
        exact ⟨proposals,held,u,run,told,by simp [iff],rest⟩
      | proposal proposal =>
        obtain ⟨own,free⟩ := proposes proposal rfl
        have ids : ((weekly ++ [proposal]).map (·.candidate.id) ++ rest.map (·.id)).Nodup := by
          rw [List.map_append,List.append_assoc]
          refine List.nodup_append.mpr ⟨first,?_,?_⟩
          · simpa [own] using ⟨by simpa using fresh,last⟩
          · simpa [own] using apart
        obtain ⟨proposals,held,u,run,told,iff,rest⟩ := ih (weekly ++ [proposal]) weeklyHeld t sound keyed ids (by
          intro other here
          rcases List.mem_append.mp here with past | latest
          · exact idle other past
          · rw [List.mem_singleton.mp latest,own]
            exact free)
        exact ⟨proposals,held,u,run,told,by simp [iff],rest⟩

theorem rankTold (proposal : WeeklyProposal) :
    Ensures (fun s => Idle proposal.candidate.id log s.2) (recover (rank env.deps proposal) (pure false))
      (fun sent s => if sent then ∃ d, s.2.dispatched = log ++ [d] ∧ d.site = .ranked ∧
          d.request.cause = .weeklyLimit ∧ d.request.replay = false
        else s.2.dispatched = log ∨ ∃ d, s.2.dispatched = log ++ [d] ∧ d.request.cause = .expiry ∧
          d.request.replay = false) (fun _ _ => False) := by
  refine Ensures.caught (H := fun s => s.2.dispatched = log) ?_ (ensuresPure fun s here => .inl here)
  refine Ensures.bind (((@idleReads env log proposal.candidate.id proposal.candidate.id).confirm .ranked).weaken
    (fun _ here => here) (fun _ _ here => here) fun e s here => ⟨here.1,here.2.1⟩) fun decision => ?_
  cases decision with
  | none => exact ensuresPure fun s here => .inl here.1
  | some decision =>
    refine (claimSends .ranked proposal.candidate decision).bind fun sent => ensuresPure fun s here => ?_
    cases sent with
    | false => exact .inl here
    | true =>
      obtain ⟨d,added,site,cause,fresh⟩ := here
      cases kind : decision.kind.cause with
      | expiry => exact .inr ⟨d,added,cause.trans kind,fresh⟩
      | weeklyLimit => exact ⟨d,added,site,cause.trans kind,fresh⟩

theorem restIdle {proposal rest} {s t : Memory × World} {sent}
    (apart : proposal.candidate.id ∉ rest.map (·.candidate.id)) (idle : ∀ other ∈ proposal::rest, s.2.ledger.NoAuto other.candidate.id)
    (ran : recover (rank env.deps proposal) (pure false) s = (sent,t)) : ∀ other ∈ rest, t.2.ledger.NoAuto other.candidate.id := by
  intro other its
  have ne : proposal.candidate.id ≠ other.candidate.id := fun same => apart (List.mem_map.mpr ⟨other,its,same.symm⟩)
  have kept := ((@othersKept env _ _ ne).rank.recover (keepsPure (a := false))).after (s := s) (idle other (.tail _ its))
  rwa [ran] at kept

theorem rankPassOnce (proposals : List WeeklyProposal) (s : Memory × World) (sound : Sound s.2.dispatched)
    (distinct : (proposals.map (·.candidate.id)).Nodup) (idle : ∀ proposal ∈ proposals, s.2.ledger.NoAuto proposal.candidate.id) :
    (rankPass env.deps proposals s).2.2.freshWeekly.length ≤ 1 ∧ ∀ d ∈ (rankPass env.deps proposals s).2.2.dispatched, d.Due := by
  induction proposals generalizing s with
  | nil => exact ⟨by simp [rankPass,World.freshWeekly,Pure.pure,sound.stale],sound.due⟩
  | cons proposal rest ih =>
    obtain ⟨apart,distinct⟩ := List.nodup_cons.mp distinct
    obtain ⟨sent,t,ran,told⟩ := (@rankTold env s.2.dispatched proposal).answers ⟨rfl,idle proposal (.head _)⟩
    have begun : rankPass env.deps (proposal::rest) s = (if sent then pure () else rankPass env.deps rest) t := bindRun ran
    rw [begun]
    cases sent with
    | true =>
      obtain ⟨d,added,-,-,fresh⟩ := told
      refine ⟨?_,?_⟩
      · change (t.2.dispatched.filter (·.freshWeekly)).length ≤ 1
        rw [added,List.filter_append,sound.stale,List.nil_append]
        exact List.length_filter_le _ _
      · change ∀ d ∈ t.2.dispatched, d.Due
        rw [added]
        intro other here
        rcases List.mem_append.mp here with past | last
        · exact sound.due other past
        · rw [List.mem_singleton.mp last]
          intro replayed
          rw [fresh] at replayed
          cases replayed
    | false =>
      have sound : Sound t.2.dispatched := by
        rcases told with same | ⟨d,added,cause,fresh⟩
        · rwa [same]
        · rw [added]
          refine sound.send (fun replayed => ?_) (by simp [Dispatched.freshWeekly,cause])
          rw [fresh] at replayed
          cases replayed
      exact ih t sound distinct (restIdle apart idle ran)

theorem triedConfirm (proposal : WeeklyProposal) :
    Ensures (fun _ => True) (confirm env.deps .ranked proposal.candidate) (fun _ s => Tried proposal s.2)
      (fun e s => e = .thrown ∧ Tried proposal s.2) := by
  have keep := @triedKept env proposal.candidate.id proposal
  have clock : Ensures (fun _ => True) (lift (env.deps.now .ranked .reading proposal.candidate.id))
      (fun _ s => Tried proposal s.2) (fun e s => e = .thrown ∧ Tried proposal s.2) := by
    refine ensuresLift (P := fun _ => True) (Q := fun _ w => Tried proposal w) (E := fun e w => e = .thrown ∧ Tried proposal w)
      fun w _ => ?_
    simp [deps,Tried]
  have account : Ensures (fun _ => True) (lift (env.deps.getAccount .ranked proposal.candidate.id))
      (fun _ s => Tried proposal s.2) (fun e s => e = .thrown ∧ Tried proposal s.2) := by
    refine ensuresLift (P := fun _ => True) (Q := fun _ w => Tried proposal w) (E := fun e w => e = .thrown ∧ Tried proposal w)
      fun w _ => ?_
    simp only [deps,read,call]
    cases throws : (env.answers .ranked proposal.candidate.id).throws .getAccount <;> simp [Tried]
  refine Ensures.bind (R := fun (ready : Bool) (s : Memory × World) => ready = true ∨ Tried proposal s.2) ?_ fun ready => ?_
  · unfold readForConfirm
    refine Ensures.bind (R := fun (_ : Memory) (_ : Memory × World) => True) (fun _ _ => trivial) fun memory => ?_
    split
    · exact ensuresPure fun _ _ => .inl rfl
    · refine Ensures.post (Q := fun _ s => Tried proposal s.2) (clock.bind fun now => ?_) fun _ _ here => .inr here
      split
      · exact keepsPure
      · refine keepsRemember.bind fun _ => (keepsLift (keep.refreshStatus .ranked true)).bind fun refreshed => ?_
        cases refreshed with
        | false => exact keepsPure
        | true => exact keepsRemember.bind fun _ => keepsPure
  · cases ready with
    | false => exact ensuresPure fun s here => by simpa using here
    | true =>
      refine Ensures.bind ((keep.evaluateAfter .ranked account).pre fun _ _ => trivial) fun decision => ?_
      split <;> exact keepsPure

theorem triedRank (proposal : WeeklyProposal) (s : Memory × World) :
    Tried proposal (recover (rank env.deps proposal) (pure false) s).2.2 := by
  have told : Ensures (fun _ => True) (recover (rank env.deps proposal) (pure false))
      (fun _ s => Tried proposal s.2) (fun e s => e = .thrown ∧ Tried proposal s.2) :=
    (Deps.KeepFor.rankAfter (triedKept proposal) (triedConfirm proposal)).caught keepsPure
  have post := told s trivial
  cases run : recover (rank env.deps proposal) (pure false) s with
  | mk result t =>
    rw [run] at post
    cases result with
    | ok a => exact post
    | error e => exact post.2

theorem rankPassTries (proposals : List WeeklyProposal) (s : Memory × World)
    (distinct : (proposals.map (·.candidate.id)).Nodup) (idle : ∀ proposal ∈ proposals, s.2.ledger.NoAuto proposal.candidate.id)
    (expiries : ∀ d ∈ (rankPass env.deps proposals s).2.2.dispatched, d.site = .ranked → d.request.cause = .expiry) :
    ∀ proposal ∈ proposals, Tried proposal (rankPass env.deps proposals s).2.2 := by
  induction proposals generalizing s with
  | nil => exact fun proposal here => nomatch here
  | cons proposal rest ih =>
    obtain ⟨apart,distinct⟩ := List.nodup_cons.mp distinct
    obtain ⟨sent,t,ran,told⟩ := (@rankTold env s.2.dispatched proposal).answers ⟨rfl,idle proposal (.head _)⟩
    have begun : rankPass env.deps (proposal::rest) s = (if sent then pure () else rankPass env.deps rest) t := bindRun ran
    have mine : Tried proposal t.2 := by
      have tried := @triedRank env proposal s
      rwa [ran] at tried
    rw [begun] at expiries ⊢
    cases sent with
    | true =>
      obtain ⟨d,added,site,cause,-⟩ := told
      have weekly := expiries d (by
        change d ∈ t.2.dispatched
        rw [added]
        exact List.mem_append_right _ (List.mem_singleton_self _)) site
      rw [cause] at weekly
      cases weekly
    | false =>
      intro other its
      rcases List.mem_cons.mp its with rfl | later
      · exact Keeps.after (Deps.KeepFor.rankPass fun p _ => @triedKept env p.candidate.id other) mine
      · exact ih t distinct (restIdle apart idle ran) expiries other later

theorem sweepTold (s : Memory × World) (sound : Sound s.2.dispatched) (keyed : s.2.ledger.Keyed) :
    ∃ t, sweep env.deps s = (.ok (),t) ∧ Sound t.2.dispatched ∧ t.2.ledger.Keyed := by
  have swept : (s.2.ledger.expireStalePending s.2.now).2.Keyed := keyed.change (.expire s.2.now)
  cases throws : env.sweepThrows with
  | false => exact ⟨(s.1,{ s.2 with ledger := (s.2.ledger.expireStalePending s.2.now).2 }),
      by simp [sweep,recover,lift,deps,throws,Bind.bind,Pure.pure],sound,swept⟩
  | true =>
    cases lands : env.sweepLands with
    | false => exact ⟨s,by simp [sweep,recover,lift,deps,throws,lands,Bind.bind,Pure.pure],sound,keyed⟩
    | true => exact ⟨(s.1,{ s.2 with ledger := (s.2.ledger.expireStalePending s.2.now).2 }),
        by simp [sweep,recover,lift,deps,throws,lands,Bind.bind,Pure.pure],sound,swept⟩

theorem finalTold {s t u} {proposals : List WeeklyProposal} {held} (swept : sweep env.deps s = (.ok (),t))
    (run : firstPass env.deps env.listed [] false (env.opened s) = (.ok (proposals,held),u)) :
    env.final s = if held then u.2
      else (rankPass env.deps (proposals.insertionSort (fun a b => compareWeeklyProposals a b ≤ 0)) u).2.2 := by
  have opens : env.opened s = ({ t.1 with readThisTick := [] },t.2) := by rw [opened,swept]
  rw [opens] at run
  cases listing : env.candidates with
  | none =>
    rw [listed,listing] at run
    have listing : recover (do
        let candidates ← lift env.deps.listCandidateAccounts
        return some candidates) (pure none) t = (.ok none,t) := by
      simp [recover,lift,deps,listing,Bind.bind,Pure.pure]
    have ticked : tick env.deps s = (.ok (),t) := (bindRun swept).trans (bindRun listing)
    obtain ⟨⟨rfl,rfl⟩,same⟩ : ([] = proposals ∧ false = held) ∧ ({ t.1 with readThisTick := [] },t.2) = u := by
      have same := Prod.mk.inj run
      exact ⟨Prod.mk.inj (Except.ok.inj same.1),same.2⟩
    rw [final,ticked,← same]
    rfl
  | some candidates =>
    rw [listed,listing] at run
    have listing : recover (do
        let candidates ← lift env.deps.listCandidateAccounts
        return some candidates) (pure none) t = (.ok (some candidates),t) := by
      simp [recover,lift,deps,listing,Bind.bind,Pure.pure]
    have visited : visitAll env.deps candidates t = (if held then pure ()
        else rankPass env.deps (proposals.insertionSort (fun a b => compareWeeklyProposals a b ≤ 0))) u :=
      bindRun run
    have ticked : tick env.deps s = visitAll env.deps candidates t := (bindRun swept).trans (bindRun listing)
    rw [final,ticked,visited]
    cases held <;> rfl

theorem bankedOneWeekly (env : Env) (memory : Memory) (now : Int) (ledger : Ledger) (reach : ledgers.Reachable ledger)
    (distinct : (env.listed.map (·.id)).Nodup) : env.OneWeekly (memory,World.start now ledger) := by
  have nothing : Sound [] := ⟨fun d here => (nomatch here),rfl⟩
  obtain ⟨t,swept,sound,keyed⟩ := @sweepTold env (memory,World.start now ledger) nothing (Ledger.reachableKeyed reach)
  have opens : env.opened (memory,World.start now ledger) = ({ t.1 with readThisTick := [] },t.2) := by rw [opened,swept]
  obtain ⟨proposals,held,u,run,sound,holds,ids,idle⟩ := firstPassTold env.listed [] false
    ({ t.1 with readThisTick := [] },t.2) sound keyed distinct (fun p here => nomatch here)
  rw [← opens] at run holds
  have final := finalTold swept run
  have sorted : ∀ {p}, p ∈ proposals.insertionSort (fun a b => compareWeeklyProposals a b ≤ 0) ↔ p ∈ proposals :=
    List.mem_insertionSort _
  have idsSorted : ((proposals.insertionSort (fun a b => compareWeeklyProposals a b ≤ 0)).map (·.candidate.id)).Nodup :=
    ((List.perm_insertionSort _ proposals).map _).nodup_iff.mpr ids
  have ranked := @rankPassOnce env _ u sound idsSorted fun p here => idle p (sorted.mp here)
  constructor
  · rw [final]
    cases held with
    | true => simp [World.freshWeekly,sound.stale]
    | false => simpa using ranked.1
  · intro some_
    rw [final,if_pos (holds.mpr (.inr some_))]
    exact sound.stale
  · rw [final]
    cases held with
    | true => exact sound.due
    | false => exact ranked.2
  · intro weekly result
    rw [run] at result
    have taken := (Prod.mk.inj (Except.ok.inj result)).2
    simpa using holds.mp taken
  · intro weekly result expiries proposal here
    rw [run] at result
    cases result
    rw [final,if_neg Bool.false_ne_true] at expiries ⊢
    exact rankPassTries _ u idsSorted (fun p here => idle p (sorted.mp here)) expiries proposal (sorted.mpr here)

end Env
end Clankermux.BankedReset
