import Clankermux.PayloadLedger
import Clankermux.PayloadSingleWriter

/-! A payload past its retention is not posted again: whichever path would repost it
settles it as expired instead, but for the hand-over of a disposal, which does not look. -/
namespace Clankermux.PayloadWriteClient
open InsertionMap

variable {c d e : Client} {id seq : Nat}

def heir (c : Client) : Option Nat := c.active.filter (fun id => c.hasStatus id .ready && c.writerFatal.isNone)

def punctual (c : Client) : Bool :=
  (heir c).all (fun id => c.unacked.all (fun seqEntry =>
    (seqEntry.2.state = .sent && seqEntry.2.generation = some id) || !written c seqEntry.1 ||
      !expired c seqEntry.2.timestamp))

structure Due (id : Nat) (c : Client) (seqs : List Nat) : Prop where
  nodup : seqs.Nodup
  due : ∀ seq ∈ seqs, ∀ e, c.entry seq = some e → ¬ (e.state = .sent ∧ e.generation = some id) →
    written c seq = true → expired c e.timestamp = false

theorem punctualDue (on : punctual c = true) (its : heir c = some id) (nodup : (keys c.unacked).Nodup) :
    Due id c (keys c.unacked) := by
  refine ⟨nodup,fun seq _ e found elsewhere was => ?_⟩
  simp only [punctual,its,Option.all_some,List.all_eq_true] at on
  have entry := on (seq,e) (memOfGet found)
  simpa [elsewhere,was] using entry

theorem handOverEntryMails {rest : List Nat} (due : Due id c (seq::rest)) :
    Mails c (handOverEntry id c seq) ∧ Due id (handOverEntry id c seq) rest := by
  obtain ⟨nodup,due⟩ := due
  obtain ⟨apart,nodup⟩ := List.nodup_cons.mp nodup
  have still : Due id c rest := ⟨nodup,fun other member => due other (.tail _ member)⟩
  unfold handOverEntry
  split
  · exact ⟨.refl c,still⟩
  rename_i e found
  split
  · exact ⟨.refl c,still⟩
  rename_i elsewhere
  let sent : RegistryEntry := handed { e with state := .buffered,generation := none } id c.now
  let posted : Client := ((c.setEntry seq sent).post (.write id seq e.timestamp c.now c.retentionMs)).2
  have first : Mails c posted := (Mails.put found).trans
    (Mails.write (c := c.setEntry seq sent) id sent setEntryEntry (due seq (.head _) e found elsewhere))
  have mailbox : posted.mailbox = { (c.setEntry seq sent).mailbox with postings := ⟨seq,e.timestamp,c.now,c.retentionMs⟩::c.postings } :=
    mailboxOutside (callOutside _)
  -- The other entries are where they were, and none of them has been posted meanwhile.
  have others : ∀ {d}, d.postings = posted.postings → d.now = posted.now → d.retentionMs = posted.retentionMs →
      (∀ other, other ≠ seq → d.entry other = posted.entry other) → Due id d rest := by
    intro d postings now retentionMs entries
    refine ⟨nodup,fun other member e' its elsewhere was => ?_⟩
    have ne : other ≠ seq := fun same => apart (same ▸ member)
    have entry : posted.entry other = c.entry other :=
      (congrArg (InsertionMap.get · other) (congrArg Mailbox.unacked mailbox)).trans (getSetOther ne)
    have before : written c other = true := by
      have list : d.postings = ⟨seq,e.timestamp,c.now,c.retentionMs⟩::c.postings :=
        postings.trans (congrArg Mailbox.postings mailbox)
      simp only [written,list,List.any_cons,Bool.or_eq_true,decide_eq_true_eq] at was
      exact was.resolve_left (fun same => ne same.symm)
    have fresh := due other (.tail _ member) e' (entry.symm.trans ((entries other ne).symm.trans its))
      elsewhere before
    simpa [expired,now.trans first.now,retentionMs.trans first.retentionMs] using fresh
  have there : posted.entry seq = some sent := (callEntry _).trans setEntryEntry
  unfold sendDuringDispose
  simp only
  split
  · exact ⟨first.trans (.put there),others rfl rfl rfl (fun other ne => getSetOther ne)⟩
  · exact ⟨first,others rfl rfl rfl (fun _ _ => rfl)⟩

theorem handOverEachMails (seqs : List Nat) (due : Due id c seqs) : Mails c (seqs.foldl (handOverEntry id) c) := by
  induction seqs generalizing c with
  | nil => exact .refl c
  | cons seq rest ih =>
    obtain ⟨first,still⟩ := handOverEntryMails due
    exact first.trans (ih still)

theorem handOverMails (on : punctual c = true) (nodup : (keys c.unacked).Nodup) : Mails c (handOver c) := by
  unfold handOver
  split
  · exact (finalizeMoves c).mails
  · rename_i id its
    let handed := (keys c.unacked).foldl (handOverEntry id) c
    have first : Mails c handed := handOverEachMails _ (punctualDue on its nodup)
    have second : Mails handed (setPhase handed .closing) := .frame rfl
    exact (first.trans second).trans (.outside (closeGenerationOutside (setPhase handed .closing) _ _ _))

theorem awaitRotationMails (on : c.rotation = none → punctual c = true) (nodup : (keys c.unacked).Nodup) :
    Mails c (awaitRotation c) := by
  unfold awaitRotation
  split
  · exact (raceDeadlineMoves c _).mails
  · rename_i still
    exact handOverMails (on (by simpa [Client.rotationInFlight] using still)) nodup

theorem awaitSpawnMails (on : (c.spawnInFlight = none ∨ c.unacked = []) → c.rotation = none → punctual c = true)
    (nodup : (keys c.unacked).Nodup) : Mails c (awaitSpawn c) := by
  unfold awaitSpawn
  split
  · split
    · rename_i empty
      exact awaitRotationMails (on (.inr (by simpa using empty))) nodup
    · exact (raceDeadlineMoves c _).mails
  · rename_i none
    exact awaitRotationMails (on (.inl none)) nodup

theorem disposeMails (deadlineMs : Int)
    (on : c.disposed = false → (c.spawnInFlight = none ∨ c.unacked = []) → c.rotation = none → punctual c = true)
    (nodup : (keys c.unacked).Nodup) : Mails c (dispose c deadlineMs) := by
  unfold dispose
  split
  · exact .refl c
  rename_i open_
  let stopped : Client := { c with
    disposal := some ⟨deadlineMs,.closing⟩
    admissionSuspended := true
    watchdogTimer := none
    respawnTimer := none
    unacked := c.unacked.map (fun seqEntry => (seqEntry.1,{ seqEntry.2 with retryTimer := none })) }
  have same : punctual stopped = punctual c := by
    simp only [punctual,stopped,List.all_map]
    rfl
  have names : keys stopped.unacked = keys c.unacked :=
    keysMap (f := fun e : RegistryEntry => { e with retryTimer := none })
  have cleared : Mails c stopped := (Mails.map (f := fun e => { e with retryTimer := none }) c).trans (.frame rfl)
  refine cleared.trans (awaitSpawnMails (fun landed still => ?_) (names ▸ nodup))
  rw [same]
  refine on (eq_false_of_ne_true open_) (landed.imp (fun its => its) (fun empty => ?_)) still
  simpa [stopped] using empty

theorem resumeDisposeMails (on : (∃ chain, c.phase = some (.racing (.spawn chain) true) ∧ c.rotation = none) ∨
      (∃ replacement, c.phase = some (.racing (.rotation replacement) true)) → punctual c = true)
    (nodup : (keys c.unacked).Nodup) : Mails c (resumeDispose c) := by
  unfold resumeDispose
  split
  · rename_i chain racing
    exact awaitRotationMails (fun still => on (.inl ⟨chain,racing,still⟩)) nodup
  · rename_i replacement racing
    exact handOverMails (on (.inr ⟨replacement,racing⟩)) nodup
  · exact .refl c

def handsOver (c : Client) (e : Event) : Bool :=
  match c.jobs,e.action with
  | .caller::_,.op (.dispose _) => !c.disposed && (c.spawnInFlight.isNone || c.unacked.isEmpty) && c.rotation.isNone
  | .disposeResume::_,.job =>
    match c.phase with
    | some (.racing (.spawn _) true) => c.rotation.isNone
    | some (.racing (.rotation _) true) => true
    | _ => false
  | _,_ => false

def inTime (c : Client) (e : Event) : Bool := !handsOver c e || punctual (begin_ c e)

structure Numbered (c : Client) : Prop where
  timely : Timely c.postings
  posted : ∀ p ∈ c.postings, p.seq < c.nextSeq
  registered : ∀ seq, (c.entry seq).isSome → seq < c.nextSeq
  nodup : (keys c.unacked).Nodup

theorem Numbered.mails (n : Numbered c) (mails : Mails c d) (next : d.nextSeq = c.nextSeq)
    (nodup : (keys d.unacked).Nodup) : Numbered d := by
  refine ⟨mails.timely n.timely,fun p member => ?_,fun seq its => ?_,nodup⟩
  · rw [next]
    exact (mails.posted p member).elim (n.posted p) (n.registered p.seq)
  · rw [next]
    exact n.registered seq (mails.registered seq its)

theorem settlesNodup (settles : Settles c d) (nodup : (keys c.unacked).Nodup) : (keys d.unacked).Nodup := by
  have held : ∀ c : Client, keys c.ledger.held = keys c.unacked := fun c => keysMap (f := RegistryEntry.parcel)
  exact held d ▸ (settles.ledger.perm ((held c).symm ▸ nodup)).1

theorem Numbered.settles (n : Numbered c) (mails : Mails c d) (settles : Settles c d) : Numbered d :=
  n.mails mails settles.next (settlesNodup settles n.nodup)

theorem registerNumbered (n : Numbered c) (input : EntryInput) :
    Numbered (register c input) ∧ written (register c input) c.nextSeq = false := by
  have fresh : c.nextSeq ∉ keys c.unacked := by
    intro member
    obtain ⟨e,found⟩ := getOfMemKeys member
    have below := n.registered c.nextSeq (by simp [Client.entry,found])
    omega
  have same : (register c input).postings = c.postings ∧ (register c input).nextSeq = c.nextSeq + 1 ∧
      ∃ e, (register c input).unacked = set c.unacked c.nextSeq e := by
    unfold register startWatchdog
    simp only
    split
    · exact ⟨rfl,rfl,_,rfl⟩
    · exact ⟨rfl,rfl,_,rfl⟩
  obtain ⟨postings,next,e,unacked⟩ := same
  refine ⟨⟨?_,?_,?_,?_⟩,?_⟩
  · rw [postings]
    exact n.timely
  · intro p member
    rw [postings] at member
    have := n.posted p member
    omega
  · intro seq its
    simp only [Client.entry,unacked,getSet] at its
    split at its
    · omega
    · have := n.registered seq its
      omega
  · rw [unacked,setFresh fresh]
    simpa [keys] using List.Nodup.append n.nodup (List.nodup_singleton c.nextSeq) (by simpa [keys] using fresh)
  · simp only [written,postings,List.any_eq_false,decide_eq_true_eq]
    intro p member same
    have := n.posted p member
    omega

theorem publishNumbered (n : Numbered c) (input : EntryInput) :
    Numbered (trySend (ensureActiveGeneration (register c input)) c.nextSeq) := by
  obtain ⟨registered,fresh⟩ := registerNumbered n input
  let ensured := ensureActiveGeneration (register c input)
  have first : Mails (register c input) ensured := .outside (ensureActiveGenerationOutside _)
  have mailbox : ensured.mailbox = (register c input).mailbox := mailboxOutside (ensureActiveGenerationOutside _)
  have second : Mails ensured (trySend ensured c.nextSeq) := by
    refine trySendMails (fun _ _ was => ?_)
    have postings : ensured.postings = (register c input).postings := congrArg Mailbox.postings mailbox
    simp only [written,postings] at was
    cases was.symm.trans fresh
  have books : (trySend ensured c.nextSeq).books = (register c input).books :=
    (trySendBooks _ _).trans (ensureActiveGenerationBooks _)
  exact registered.settles (first.trans second) (.frame books)

theorem runOpNumbered (n : Numbered c) (op : Op)
    (on : ∀ deadlineMs, op = .dispose deadlineMs → c.disposed = false →
      (c.spawnInFlight = none ∨ c.unacked = []) → c.rotation = none → punctual c = true) : Numbered (runOp c op) := by
  cases op with
  | publish input =>
    simp only [runOp,publish]
    split
    · exact n
    · exact publishNumbered n input
  | publishReserved input =>
    simp only [runOp,publishReserved]
    split
    · exact n
    split
    · exact (registerNumbered n input).1
    · exact publishNumbered n input
  | beginDisposeDrain => exact { n with }
  | dispose deadlineMs =>
    exact n.settles (disposeMails deadlineMs (on deadlineMs rfl) n.nodup) (disposeSettles c deadlineMs)
  | setRetention retentionMs => exact { n with }

theorem runJobMails {job : Job} (c : Client)
    (on : job = .disposeResume → (∃ chain, c.phase = some (.racing (.spawn chain) true) ∧ c.rotation = none) ∨
      (∃ replacement, c.phase = some (.racing (.rotation replacement) true)) → punctual c = true)
    (nodup : (keys c.unacked).Nodup) : Mails c (runJob c job) := by
  by_cases resumes : job = .disposeResume
  · subst resumes
    exact resumeDisposeMails (on rfl) nodup
  · exact (runJobMoves c resumes).mails

theorem stepNumbered {ev : Event} (n : Numbered c) (meets : inTime c ev = true) (stepped : step c ev = some d) : Numbered d := by
  have begun : Numbered (begin_ c ev) := { n with }
  have meets : handsOver c ev = true → punctual (begin_ c ev) = true := fun hands => by simpa [inTime,hands] using meets
  by_cases own : ∃ op, ev.action = .op op
  · obtain ⟨op,its⟩ := own
    unfold step at stepped
    rw [its] at stepped
    split at stepped
    · cases stepped
    · rename_i rest op' queued same
      cases same
      cases stepped
      refine runOpNumbered begun op (fun deadlineMs same open_ landed still => meets ?_)
      have open_ : c.disposed = false := open_
      have still : c.rotation = none := still
      have landed : c.spawnInFlight = none ∨ c.unacked = [] := landed
      rcases landed with none | empty
      · simp [handsOver,queued,its,same,open_,still,none]
      · simp [handsOver,queued,its,same,open_,still,empty]
    all_goals simp_all
  · have settled := stepSettles _ (fun op its => own ⟨op,its⟩) stepped
    refine begun.settles ?_ settled
    unfold step at stepped
    split at stepped
    · exact (runTaskMoves stepped).mails
    · rename_i op _ its
      exact absurd ⟨op,its⟩ own
    · cases stepped
      exact .frame rfl
    · cases stepped
    · rename_i job rest _ queued its
      cases stepped
      refine Mails.trans (d := { begin_ c ev with jobs := rest }) (.frame rfl) (runJobMails { begin_ c ev with jobs := rest } (fun same racing => ?_) n.nodup)
      subst same
      refine meets ?_
      rcases racing with ⟨chain,phase,still⟩ | ⟨replacement,phase⟩
      · have phase : c.phase = some (.racing (.spawn chain) true) := phase
        have still : c.rotation = none := still
        simp [handsOver,queued,its,phase,still]
      · have phase : c.phase = some (.racing (.rotation replacement) true) := phase
        simp [handsOver,queued,its,phase]
    · cases stepped

theorem foldlVisits {α β : Type} {f} {P Q : α → Prop} {b}
    (pass : ∀ a x, x ≠ b → P a → P (f a x)) (visit : ∀ a, P a → Q (f a b))
    (stay : ∀ a x, Q a → Q (f a x)) {l : List β} {a} (member : b ∈ l) (waits : P a) : Q (l.foldl f a) := by
  have after : ∀ (l : List β) a, Q a → Q (l.foldl f a) := by
    intro l
    induction l with
    | nil => exact fun _ past => past
    | cons x rest ih => exact fun a past => ih (f a x) (stay a x past)
  induction l generalizing a with
  | nil => cases member
  | cons x rest ih =>
    by_cases same : x = b
    · subst same
      exact after rest _ (visit a waits)
    · exact ih ((List.mem_cons.mp member).resolve_left (fun its => same its.symm)) (pass a x same waits)

structure Spares (seq : Nat) (c d : Client) : Prop where
  entry : d.entry seq = c.entry seq
  settlements : ∀ s ∈ c.settlements, s ∈ d.settlements
  expired : ∀ timestamp, expired d timestamp = expired c timestamp
  active : d.active = c.active ∨ d.active = none

theorem Spares.refl (seq : Nat) (c : Client) : Spares seq c c := ⟨rfl,fun _ member => member,fun _ => rfl,.inl rfl⟩

theorem Spares.trans (first : Spares seq c d) (second : Spares seq d e) : Spares seq c e := by
  refine ⟨second.entry.trans first.entry,fun s member => second.settlements s (first.settlements s member),
    fun timestamp => (second.expired timestamp).trans (first.expired timestamp),?_⟩
  rcases second.active with same | none
  · exact first.active.imp same.trans same.trans
  · exact .inr none

theorem Spares.outside (same : d.outside = c.outside) (active : d.active = c.active ∨ d.active = none) : Spares seq c d := by
  have mailbox := mailboxOutside same
  have settlements : d.outside.settlements = c.outside.settlements := by rw [same]
  have settlements : d.settlements = c.settlements := settlements
  refine ⟨congrArg (InsertionMap.get · seq) (congrArg Mailbox.unacked mailbox),fun s member => settlements ▸ member,
    fun timestamp => ?_,active⟩
  have now : d.now = c.now := congrArg Mailbox.now mailbox
  have retentionMs : d.retentionMs = c.retentionMs := congrArg Mailbox.retentionMs mailbox
  simp only [PayloadWriteClient.expired,now,retentionMs]

theorem killGenerationActive (c : Client) (id : Nat) :
    (killGeneration c id).active = c.active ∨ (killGeneration c id).active = none := by
  unfold killGeneration
  split
  · exact .inl rfl
  split
  · exact .inl rfl
  · simp only
    split
    · exact .inr rfl
    · exact .inl rfl

theorem scheduleRespawnActive (c : Client) : (scheduleRespawn c).active = c.active := by
  unfold scheduleRespawn
  repeat' split
  all_goals rfl

theorem onGenerationDiedActive (c : Client) (id : Nat) :
    (onGenerationDied c id).active = c.active ∨ (onGenerationDied c id).active = none := by
  unfold onGenerationDied
  simp only
  split
  · exact killGenerationActive c id
  · rw [scheduleRespawnActive]
    exact killGenerationActive c id

theorem callActive (c : Client) : c.call.2.active = c.active := by
  unfold Client.call
  split <;> rfl

theorem finishActive (c : Client) (id : Nat) (detail : String) :
    (finish c id false detail none).active = c.active ∨ (finish c id false detail none).active = none := by
  unfold finish
  split
  · exact .inl rfl
  split
  · exact .inl rfl
  rename_i g _ _
  show (scheduleRespawn _).active = c.active ∨ (scheduleRespawn _).active = none
  rw [scheduleRespawnActive]
  exact killGenerationActive { c.setGeneration id { g with finished := true,readyTimer := none } with spawning := false } id

theorem spawnGenerationActive (purpose : Purpose) (idle : c.active = none) : (spawnGeneration c purpose).active = none := by
  have called : ({ c with spawning := true,nextGeneration := c.nextGeneration + 1 } : Client).call.2.active = none :=
    (callActive _).trans idle
  unfold spawnGeneration
  simp only
  split
  · exact (scheduleRespawnActive _).trans called
  · let begun : Client := ({ c with spawning := true,nextGeneration := c.nextGeneration + 1 } : Client).call.2.setGeneration
      c.nextGeneration (newGeneration purpose)
    have posted : (begun.post (.init c.nextGeneration)).2.active = none := (callActive _).trans called
    split
    · exact (finishActive _ c.nextGeneration _).elim (fun same => same.trans posted) (fun none => none)
    · exact posted

theorem maybeRotateActive (c : Client) : (maybeRotate c).active = c.active ∨ (maybeRotate c).active = none := by
  unfold maybeRotate rotate
  repeat' split
  all_goals first | exact .inl rfl | exact .inr (spawnGenerationActive _ rfl)
variable {other : Nat}

theorem setEntrySpares (ne : other ≠ seq) (new : RegistryEntry) : Spares seq c (c.setEntry other new) :=
  ⟨getSetOther (Ne.symm ne),fun _ member => member,fun _ => rfl,.inl rfl⟩

theorem trySendSpares (ne : other ≠ seq) : Spares seq c (trySend c other) := by
  unfold trySend
  split
  · exact .refl seq c
  rename_i e found
  split
  · exact .refl seq c
  split
  · exact setEntrySpares ne _
  rename_i id _
  have posts : ∀ d message, Spares seq d (d.post message).2 := by
    intro d message
    have logged : Spares seq d { d with trace := message::d.trace } :=
      ⟨rfl,fun _ member => member,fun _ => rfl,.inl rfl⟩
    exact logged.trans (.outside (callOutside _) (.inl (callActive _)))
  let sent : RegistryEntry := { handed e id c.now with everSent := true }
  let posted : Client := ((c.setEntry other sent).post (.write id other e.timestamp c.now c.retentionMs)).2
  have first : Spares seq c posted := (setEntrySpares ne sent).trans (posts _ _)
  simp only
  split
  · let back := posted.setEntry other { sent with state := .buffered,generation := none }
    have second : Spares seq posted back := setEntrySpares ne _
    exact (first.trans second).trans (.outside (onGenerationDiedOutside back id) (onGenerationDiedActive back id))
  · let charged := posted.modifyGeneration id (fun g => { g with publishedBytes := g.publishedBytes + e.transportBytes })
    have second : Spares seq posted charged := by
      refine .outside modifyGenerationOutside ?_
      simp only [charged,Client.modifyGeneration]
      split
      · exact .inl rfl
      · exact .inl rfl
    exact (first.trans second).trans (.outside (maybeRotateOutside charged) (maybeRotateActive charged))

theorem sendOrReplaySpares {old : RegistryEntry} (ne : other ≠ seq) : Spares seq c (sendOrReplay c other old) := by
  unfold sendOrReplay
  split
  · have counted : Spares seq c { c with stats.replays := c.stats.replays + 1 } :=
      ⟨rfl,fun _ member => member,fun _ => rfl,.inl rfl⟩
    exact counted.trans (trySendSpares ne)
  · exact trySendSpares ne

theorem expireSpares (ne : other ≠ seq) : Spares seq c (expire c other) := by
  unfold expire settle
  split
  · exact ⟨rfl,fun _ member => member,fun _ => rfl,.inl rfl⟩
  · exact ⟨getDeleteOther (Ne.symm ne),fun _ member => .tail _ member,fun _ => rfl,.inl rfl⟩

def Dropped (c : Client) (seq : Nat) : Prop := c.entry seq = none ∧ ∃ s, (seq,s) ∈ c.settlements ∧ s.outcome = .expired

theorem expireDropped {e : RegistryEntry} (found : c.entry seq = some e) : Dropped (expire c seq) seq := by
  have there : ({ c with stats.expired := c.stats.expired + 1 } : Client).entry seq = some e := found
  unfold expire settle
  rw [there]
  exact ⟨getDeleteSelf,_,.head _,rfl⟩

theorem Spares.dropped (spares : Spares seq c d) (dropped : Dropped c seq) : Dropped d seq := by
  obtain ⟨gone,s,member,outcome⟩ := dropped
  exact ⟨spares.entry.trans gone,s,spares.settlements _ member,outcome⟩

theorem flushEntrySpares (ne : other ≠ seq) : Spares seq c (flushEntry id c other) := by
  unfold flushEntry
  split
  · exact .refl seq c
  split
  · exact .refl seq c
  split
  · exact .refl seq c
  split
  · exact expireSpares ne
  · exact sendOrReplaySpares ne

theorem flushDrops {e : RegistryEntry} (open_ : c.disposed = false) (mild : c.writerFatal = none)
    (ready : readyActive c = some id) (found : c.entry seq = some e) (late : expired c e.timestamp = true)
    (elsewhere : ¬ (e.state = .sent ∧ e.generation = some id)) (idle : e.state ≠ .retryWait) :
    Dropped (flushBuffered c) seq := by
  have result : flushBuffered c = (keys c.unacked).foldl (flushEntry id) c := by
    simp [flushBuffered,open_,mild,ready]
  rw [result]
  refine foldlVisits (P := fun d => d.entry seq = some e ∧ expired d e.timestamp = true) (Q := fun d => Dropped d seq)
    (fun d other ne waits => ?_) (fun d waits => ?_) (fun d other past => ?_) (memKeysOfGet found) ⟨found,late⟩
  · have spares : Spares seq d (flushEntry id d other) := flushEntrySpares ne
    exact ⟨spares.entry.trans waits.1,(spares.expired _).trans waits.2⟩
  · have visited : flushEntry id d seq = expire d seq := by
      simp [flushEntry,waits.1,elsewhere,idle,waits.2]
    rw [visited]
    exact expireDropped waits.1
  · by_cases same : other = seq
    · have skipped : flushEntry id d other = d := by simp [flushEntry,same,past.1]
      rw [skipped]
      exact past
    · exact (flushEntrySpares same).dropped past

theorem replayEntrySpares (ne : other ≠ seq) : Spares seq c (replayEntry c other) := by
  unfold replayEntry
  split
  · exact .refl seq c
  split
  · exact .refl seq c
  split
  · exact expireSpares ne
  · exact (setEntrySpares ne _).trans (sendOrReplaySpares ne)

theorem replayDrops {e : RegistryEntry} (found : c.entry seq = some e) (late : expired c e.timestamp = true)
    (elsewhere : ¬ (e.state = .sent ∧ c.active.isSome = true ∧ e.generation = c.active)) : Dropped (replayToActive c) seq := by
  refine foldlVisits (P := fun d => d.entry seq = some e ∧ expired d e.timestamp = true ∧
      (d.active = c.active ∨ d.active = none)) (Q := fun d => Dropped d seq)
    (fun d other ne waits => ?_) (fun d waits => ?_) (fun d other past => ?_) (memKeysOfGet found) ⟨found,late,.inl rfl⟩
  · have spares : Spares seq d (replayEntry d other) := replayEntrySpares ne
    refine ⟨spares.entry.trans waits.1,(spares.expired _).trans waits.2.1,?_⟩
    rcases spares.active with same | none
    · exact waits.2.2.imp same.trans same.trans
    · exact .inr none
  · have apart : ¬ (e.state = .sent ∧ d.active.isSome = true ∧ e.generation = d.active) := by
      rcases waits.2.2 with same | none
      · rw [same]
        exact elsewhere
      · simp [none]
    have visited : replayEntry d seq = expire d seq := by
      simp only [replayEntry,waits.1,if_neg apart,waits.2.1,if_true]
    rw [visited]
    exact expireDropped waits.1
  · by_cases same : other = seq
    · have skipped : replayEntry d other = d := by simp [replayEntry,same,past.1]
      rw [skipped]
      exact past
    · exact (replayEntrySpares same).dropped past

theorem retryDrops {e : RegistryEntry} (late : expired c e.timestamp = true) : Dropped (onRetryTimer c seq e) seq := by
  let fired := c.setEntry seq { e with retryTimer := none }
  have result : onRetryTimer c seq e = expire fired seq := if_pos late
  rw [result]
  exact expireDropped setEntryEntry

def RetentionSafe (trace : List Effect) : Prop :=
  ∀ newer older generation seq timestamp now retentionMs,
    trace = newer ++ .write generation seq timestamp now (some retentionMs)::older → 0 < retentionMs →
    (∃ other timestamp' now' retentionMs', .write other seq timestamp' now' retentionMs' ∈ older) →
    now - timestamp ≤ retentionMs

theorem retentionSafeOf {trace : List Effect} (timely : Timely (trace.filterMap posting)) : RetentionSafe trace := by
  rintro newer older generation seq timestamp now retentionMs split finite ⟨other,timestamp',now',retentionMs',earlier⟩
  rw [split,List.filterMap_append,Timely,List.pairwise_append] at timely
  have first := (List.pairwise_cons.mp timely.2.1).1
  have due := first ⟨seq,timestamp',now',retentionMs'⟩ (List.mem_filterMap.mpr ⟨_,earlier,rfl⟩) rfl
  simp only [Posting.overdue,Option.any_some,Bool.and_eq_false_iff,decide_eq_false_iff_not] at due
  omega

structure ExpiresInstead (c : Client) : Prop where
  flush : ∀ id seq e, c.disposed = false → c.writerFatal = none → readyActive c = some id → c.entry seq = some e →
    expired c e.timestamp = true → ¬ (e.state = .sent ∧ e.generation = some id) → e.state ≠ .retryWait →
    Dropped (flushBuffered c) seq
  replay : ∀ seq e, c.entry seq = some e → expired c e.timestamp = true →
    ¬ (e.state = .sent ∧ c.active.isSome = true ∧ e.generation = c.active) → Dropped (replayToActive c) seq
  retry : ∀ seq e, c.entry seq = some e → expired c e.timestamp = true → Dropped (onRetryTimer c seq e) seq

theorem payloadRetentionSafe (reach : machine.ReachableUnder (fun c e => inTime c e = true) c) : RetentionSafe c.trace ∧ ExpiresInstead c := by
  have numbered : Numbered c := by
    refine reach.invariant (P := Numbered) ?_ (fun c ev d n meets stepped => stepNumbered n meets stepped)
    rintro c ⟨rotationByteBudget,retentionMs,now,rfl⟩
    constructor <;> simp [Client.start,Client.postings,Client.entry,Timely,keys]
  refine ⟨retentionSafeOf numbered.timely,?_⟩
  constructor
  · exact fun _ _ _ open_ mild ready found late elsewhere idle => flushDrops open_ mild ready found late elsewhere idle
  · exact fun _ _ found late elsewhere => replayDrops found late elsewhere
  · exact fun _ _ _ late => retryDrops late

def refusedAndDisposed (now : Int) : List Event :=
  [immediate .enter,immediate (.op (.publish ⟨"a",0,100,100⟩)),immediate (.leave 0),immediate (.message 1 .ready),
    immediate .job,immediate .job,immediate (.message 1 (.ack 1 [⟨1,false,some .retryable,none⟩])),
    ⟨now,[],.enter⟩,⟨now,[],.op (.dispose 15000)⟩]

theorem payloadRetentionSafeInTime : ∃ c, machine.runUnder inTime (.start 1000 (some 1000) 0) (refusedAndDisposed 500) = some c ∧
    .write 1 1 0 500 (some 1000) ∈ c.trace ∧ RetentionSafe c.trace :=
  ⟨_,rfl,by decide,(payloadRetentionSafe (Machine.runReachableUnder (s := .start 1000 (some 1000) 0)
    (refusedAndDisposed 500) ⟨1000,some 1000,0,rfl⟩ rfl)).1⟩

theorem payloadReposted : ∃ c, machine.run (.start 1000 (some 1000) 0) (refusedAndDisposed 5000) = some c ∧
    ¬ RetentionSafe c.trace := by
  refine ⟨_,rfl,fun safe => ?_⟩
  have kept := safe [.close 1] [.write 1 1 0 0 (some 1000),.init 1] 1 1 0 5000 1000 rfl (by decide)
    ⟨1,0,0,some 1000,by simp⟩
  exact absurd kept (by decide)

end Clankermux.PayloadWriteClient
