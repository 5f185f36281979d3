import Clankermux.Ledger
import Clankermux.PayloadWriteClient

/-! What the functions about generations leave alone: the registry, the books of the
client and the payloads it has posted. -/
namespace Clankermux.PayloadWriteClient
open InsertionMap

def Effect.isWrite : Effect → Bool
  | .write _ _ _ _ _ => true
  | _ => false

def Client.outside (c : Client) : Client :=
  { c with
    generations := []
    nextGeneration := 0
    active := none
    spawning := false
    spawnInFlight := none
    rotation := none
    respawnAttempts := 0
    respawnTimer := none
    stats := ⟨0,0,0,0,0,0,0,0,0⟩
    throws := []
    jobs := []
    trace := c.trace.filter Effect.isWrite }

variable {c : Client}

theorem callOutside (c : Client) : c.call.2.outside = c.outside := by
  unfold Client.call
  split <;> rfl

theorem modifyGenerationOutside {id f} :
    (c.modifyGeneration id f).outside = c.outside := by
  unfold Client.modifyGeneration
  split <;> rfl

theorem scheduleRespawnOutside (c : Client) : (scheduleRespawn c).outside = c.outside := by
  unfold scheduleRespawn
  repeat' split
  all_goals rfl

theorem killGenerationOutside (c : Client) (id : Nat) : (killGeneration c id).outside = c.outside := by
  unfold killGeneration
  repeat' split
  all_goals rfl

theorem onGenerationDiedOutside (c : Client) (id : Nat) : (onGenerationDied c id).outside = c.outside := by
  unfold onGenerationDied
  simp only
  split
  · exact killGenerationOutside c id
  · exact (scheduleRespawnOutside _).trans (killGenerationOutside c id)

theorem onSpawnFailureOutside (c : Client) : (onSpawnFailure c).outside = c.outside := by
  exact scheduleRespawnOutside _

theorem finishOutside (c : Client) (id : Nat) (ok : Bool) (detail : String) (errorClass : Option ErrorClass)
    (mild : errorClass ≠ some .writerFatal) : (finish c id ok detail errorClass).outside = c.outside := by
  unfold finish
  split
  · rfl
  split
  · rfl
  split
  · rfl
  · exact (onSpawnFailureOutside _).trans (killGenerationOutside _ id)

theorem spawnGenerationOutside (c : Client) (purpose : Purpose) : (spawnGeneration c purpose).outside = c.outside := by
  have called : ({ c with spawning := true,nextGeneration := c.nextGeneration + 1 } : Client).call.2.outside = c.outside :=
    callOutside _
  unfold spawnGeneration
  simp only
  split
  · exact (onSpawnFailureOutside _).trans called
  · let begun : Client := ({ c with spawning := true,nextGeneration := c.nextGeneration + 1 } : Client).call.2.setGeneration
      c.nextGeneration (newGeneration purpose)
    have posted : (begun.post (.init c.nextGeneration)).2.outside = c.outside := (callOutside _).trans called
    split
    · exact (finishOutside _ _ _ _ _ (by simp)).trans posted
    · exact posted

theorem ensureActiveGenerationOutside (c : Client) : (ensureActiveGeneration c).outside = c.outside := by
  unfold ensureActiveGeneration
  split
  · rfl
  split
  · rfl
  split
  · rfl
  · exact spawnGenerationOutside c .activate

theorem maybeRotateOutside (c : Client) : (maybeRotate c).outside = c.outside := by
  unfold maybeRotate rotate
  repeat' split
  all_goals first | rfl | exact spawnGenerationOutside _ _

theorem onTransportErrorOutside (c : Client) (id : Nat) (detail : String) :
    (onTransportError c id detail).outside = c.outside := by
  unfold onTransportError
  split
  · rfl
  split
  · exact onGenerationDiedOutside c id
  · exact finishOutside _ _ _ _ _ (by simp)

theorem onRespawnTimerOutside (c : Client) : (onRespawnTimer c).outside = c.outside := by
  unfold onRespawnTimer
  simp only
  split
  · exact maybeRotateOutside _
  · exact ensureActiveGenerationOutside _

theorem closeDoneOutside (c : Client) (id : Nat) : (closeDone c id).outside = c.outside := by
  unfold closeDone
  split
  · rfl
  split
  · rfl
  split
  · rfl
  · exact killGenerationOutside _ id

theorem closeGenerationOutside (c : Client) (id : Nat) (deadlineMs : Int) (waiter : CloseWaiter) :
    (closeGeneration c id deadlineMs waiter).outside = c.outside := by
  unfold closeGeneration
  split
  · rfl
  split
  · exact killGenerationOutside c id
  simp only
  have posted : ∀ d : Client, (d.post (.close id)).2.outside = d.outside := fun d => callOutside _
  split
  · exact (closeDoneOutside _ id).trans ((posted _).trans modifyGenerationOutside)
  · exact (posted _).trans modifyGenerationOutside

theorem racedByOutside (c : Client) (race : Race) : (racedBy c race).outside = c.outside := by
  unfold racedBy
  split <;> rfl

theorem killAllOutside (c : Client) : (killAll c).outside = c.outside := by
  suffices each : ∀ (ids : List Nat) (d : Client), (ids.foldl killGeneration d).outside = d.outside from each _ c
  intro ids
  induction ids with
  | nil => exact fun _ => rfl
  | cons id rest ih => exact fun d => (ih _).trans (killGenerationOutside d id)

/-! The registry of the client read as a ledger: what it holds, and what it has told its
owner of in the current step. Every function of the client only closes items of it,
but for the two that register a payload. -/

structure Parcel where
  requestId : String
  transportBytes : Nat
  payloadBytes : Nat

def EntryInput.parcel (e : EntryInput) : Parcel := ⟨e.requestId,e.transportBytes,e.payloadBytes⟩
def RegistryEntry.parcel (e : RegistryEntry) : Parcel := e.toEntryInput.parcel
def Settlement.parcel (s : Settlement) : Parcel := ⟨s.requestId,s.transportBytes,s.payloadBytes⟩

def Client.ledger (c : Client) : Ledger Nat Parcel :=
  ⟨c.unacked.map (Prod.map id RegistryEntry.parcel),c.settlements.map (Prod.map id Settlement.parcel)⟩

def Client.live (c : Client) : Bool := c.disposal.isNone && c.writerFatal.isNone

structure Books where
  ledger : Ledger Nat Parcel
  nextSeq : Nat
  phase : Option DisposePhase
  live : Bool
  watched : Bool

def Client.books (c : Client) : Books := ⟨c.ledger,c.nextSeq,c.phase,c.live,c.watchdogTimer.isSome⟩

structure Settles (c d : Client) : Prop where
  ledger : Ledger.Closes c.ledger d.ledger
  next : d.nextSeq = c.nextSeq
  returning : d.phase = some .returned → c.phase = some .returned ∨ d.unacked = []
  latched : d.live = true → c.live = true
  watched : d.live = true → c.watchdogTimer.isSome → d.watchdogTimer.isSome

structure Posting where
  seq : Nat
  timestamp : Int
  now : Int
  retentionMs : Option Int

def posting : Effect → Option Posting
  | .write _ seq timestamp now retentionMs => some ⟨seq,timestamp,now,retentionMs⟩
  | _ => none

def Client.postings (c : Client) : List Posting := c.trace.filterMap posting
def Posting.overdue (p : Posting) : Bool := p.retentionMs.any (fun retentionMs => 0 < retentionMs && retentionMs < p.now - p.timestamp)
def written (c : Client) (seq : Nat) : Bool := c.postings.any (fun p => p.seq = seq)

def Timely (postings : List Posting) : Prop :=
  postings.Pairwise (fun later earlier => later.seq = earlier.seq → later.overdue = false)

structure Mailbox where
  postings : List Posting
  now : Int
  retentionMs : Option Int
  unacked : InsertionMap Nat RegistryEntry

def Client.mailbox (c : Client) : Mailbox := ⟨c.postings,c.now,c.retentionMs,c.unacked⟩

structure Mails (c d : Client) : Prop where
  timely : Timely c.postings → Timely d.postings
  now : d.now = c.now
  retentionMs : d.retentionMs = c.retentionMs
  registered : ∀ seq, (d.entry seq).isSome → (c.entry seq).isSome
  posted : ∀ p ∈ d.postings, p ∈ c.postings ∨ (c.entry p.seq).isSome

variable {c d e : Client} {id seq : Nat}

theorem heldNone : c.ledger.held = [] ↔ c.unacked = [] := by simp [Client.ledger]

theorem Settles.frame (same : d.books = c.books) : Settles c d := by
  have ledger : d.ledger = c.ledger := congrArg Books.ledger same
  have phase : d.phase = c.phase := congrArg Books.phase same
  have live : d.live = c.live := congrArg Books.live same
  have watched : d.watchdogTimer.isSome = c.watchdogTimer.isSome := congrArg Books.watched same
  exact ⟨ledger ▸ .refl,congrArg Books.nextSeq same,fun returned => .inl (phase ▸ returned),fun alive => live ▸ alive,
    fun _ armed => watched ▸ armed⟩

theorem Settles.trans (first : Settles c d) (second : Settles d e) : Settles c e := by
  refine ⟨first.ledger.trans second.ledger,second.next.trans first.next,fun returned => ?_,
    fun alive => first.latched (second.latched alive),
    fun alive armed => second.watched alive (first.watched (second.latched alive) armed)⟩
  rcases second.returning returned with before | empty
  · rcases first.returning before with earlier | empty
    · exact .inl earlier
    · exact .inr (heldNone.mp (second.ledger.emptied (heldNone.mpr empty)))
  · exact .inr empty

theorem setEntryBooks {old : RegistryEntry} (new : RegistryEntry) (found : c.entry seq = some old) (same : new.parcel = old.parcel) :
    (c.setEntry seq new).books = c.books := by
  have held : (set c.unacked seq new).map (Prod.map id RegistryEntry.parcel) =
      c.unacked.map (Prod.map id RegistryEntry.parcel) := mapSet found same
  simp only [Client.books,Client.ledger,Client.setEntry,held]
  rfl

theorem mapEntriesBooks {f : RegistryEntry → RegistryEntry} (same : ∀ e, (f e).parcel = e.parcel) :
    ({ c with unacked := c.unacked.map (fun seqEntry => (seqEntry.1,f seqEntry.2)) } : Client).books = c.books := by
  have held : (c.unacked.map (fun seqEntry => (seqEntry.1,f seqEntry.2))).map (Prod.map id RegistryEntry.parcel) =
      c.unacked.map (Prod.map id RegistryEntry.parcel) := by
    simp [same]
  simp only [Client.books,Client.ledger,held]
  rfl

@[simp] theorem setEntryEntry {new : RegistryEntry} : (c.setEntry seq new).entry seq = some new := by
  simp [Client.setEntry,Client.entry]

theorem booksOutside (same : d.outside = c.outside) : d.books = c.books := by
  have seen : d.outside.books = c.outside.books := congrArg Client.books same
  exact seen

theorem callBooks (c : Client) : c.call.2.books = c.books :=
  booksOutside (callOutside c)

theorem callEntry (c : Client) : c.call.2.entry seq = c.entry seq := by
  unfold Client.call
  split <;> rfl

theorem modifyGenerationBooks {f : GenerationState → GenerationState} : (c.modifyGeneration id f).books = c.books :=
  booksOutside (modifyGenerationOutside)

theorem scheduleRespawnBooks (c : Client) : (scheduleRespawn c).books = c.books :=
  booksOutside (scheduleRespawnOutside c)

theorem onGenerationDiedBooks (c : Client) (id : Nat) : (onGenerationDied c id).books = c.books :=
  booksOutside (onGenerationDiedOutside c id)

theorem Mails.frame (same : d.mailbox = c.mailbox) : Mails c d := by
  have postings : d.postings = c.postings := congrArg Mailbox.postings same
  have unacked : d.unacked = c.unacked := congrArg Mailbox.unacked same
  have entry : ∀ seq, d.entry seq = c.entry seq := fun seq => congrArg (InsertionMap.get · seq) unacked
  exact ⟨fun timely => postings ▸ timely,congrArg Mailbox.now same,congrArg Mailbox.retentionMs same,
    fun seq its => entry seq ▸ its,fun p member => .inl (postings ▸ member)⟩

theorem Mails.refl (c : Client) : Mails c c := .frame rfl

theorem Mails.trans (first : Mails c d) (second : Mails d e) : Mails c e := by
  refine ⟨fun timely => second.timely (first.timely timely),second.now.trans first.now,
    second.retentionMs.trans first.retentionMs,fun seq its => first.registered seq (second.registered seq its),
    fun p member => ?_⟩
  rcases second.posted p member with before | its
  · exact first.posted p before
  · exact .inr (first.registered p.seq its)

theorem postingsOutside (c : Client) : c.outside.postings = c.postings := by
  show (c.trace.filter Effect.isWrite).filterMap posting = c.trace.filterMap posting
  rw [List.filterMap_filter]
  refine List.filterMap_congr (fun effect _ => ?_)
  cases effect <;> rfl

theorem mailboxOutside (same : d.outside = c.outside) : d.mailbox = c.mailbox := by
  have postings : d.postings = c.postings := by rw [← postingsOutside d,same,postingsOutside c]
  have rest : d.outside.now = c.outside.now ∧ d.outside.retentionMs = c.outside.retentionMs ∧
      d.outside.unacked = c.outside.unacked := by rw [same]; exact ⟨rfl,rfl,rfl⟩
  obtain ⟨now,retentionMs,unacked⟩ := rest
  simp only [Client.mailbox,postings]
  exact congrArg₂ (fun time rest => Mailbox.mk c.postings time rest.1 rest.2) now (congrArg₂ Prod.mk retentionMs unacked)

theorem Mails.outside (same : d.outside = c.outside) : Mails c d := .frame (mailboxOutside same)

theorem Mails.put {old new : RegistryEntry} (found : c.entry seq = some old) : Mails c (c.setEntry seq new) := by
  refine ⟨fun timely => timely,rfl,rfl,fun other its => ?_,fun p member => .inl member⟩
  by_cases same : other = seq
  · subst same
    simp [found]
  · rwa [show (c.setEntry seq new).entry other = c.entry other from getSetOther same] at its

theorem Mails.map {f : RegistryEntry → RegistryEntry} (c : Client) :
    Mails c { c with unacked := c.unacked.map (fun seqEntry => (seqEntry.1,f seqEntry.2)) } := by
  refine ⟨fun timely => timely,rfl,rfl,fun other its => ?_,fun p member => .inl member⟩
  have mapped : get (c.unacked.map (Prod.map (fun n => n) f)) other = (get c.unacked other).map f := getMap _ _ _
  have its : (get (c.unacked.map (Prod.map (fun n => n) f)) other).isSome = true := its
  rw [mapped,Option.isSome_map] at its
  exact its

theorem Mails.write (id : Nat) (old : RegistryEntry) (found : c.entry seq = some old)
    (due : written c seq = true → expired c old.timestamp = false) :
    Mails c (c.post (.write id seq old.timestamp c.now c.retentionMs)).2 := by
  have posted : (c.post (.write id seq old.timestamp c.now c.retentionMs)).2.mailbox =
      { c.mailbox with postings := ⟨seq,old.timestamp,c.now,c.retentionMs⟩::c.postings } :=
    mailboxOutside (callOutside _)
  have postings := congrArg Mailbox.postings posted
  refine ⟨fun timely => ?_,congrArg Mailbox.now posted,congrArg Mailbox.retentionMs posted,fun other its => ?_,fun p member => ?_⟩
  · rw [show (c.post _).2.postings = _ from postings]
    refine List.Pairwise.cons (fun earlier member same => ?_) timely
    exact due (List.any_eq_true.mpr ⟨earlier,member,by simpa using same.symm⟩)
  · have entry : (c.post (.write id seq old.timestamp c.now c.retentionMs)).2.entry other = c.entry other :=
      congrArg (InsertionMap.get · other) (congrArg Mailbox.unacked posted)
    rwa [entry] at its
  · rw [show (c.post _).2.postings = _ from postings] at member
    rcases List.mem_cons.mp member with rfl | before
    · exact .inr (by simp [found])
    · exact .inl before

structure Moves (c d : Client) : Prop where
  settles : Settles c d
  mails : Mails c d

theorem Moves.frame (books : d.books = c.books) (mailbox : d.mailbox = c.mailbox) : Moves c d := ⟨.frame books,.frame mailbox⟩

theorem Moves.refl (c : Client) : Moves c c := .frame rfl rfl

theorem Moves.outside (same : d.outside = c.outside) : Moves c d := ⟨.frame (booksOutside same),.outside same⟩

theorem Moves.trans (first : Moves c d) (second : Moves d e) : Moves c e :=
  ⟨first.settles.trans second.settles,first.mails.trans second.mails⟩

theorem Moves.via (rest : Moves d e) (books : d.books = c.books) (mailbox : d.mailbox = c.mailbox) : Moves c e :=
  (Moves.frame books mailbox).trans rest

theorem Moves.foldl {α : Type} {f : Client → α → Client} (each : ∀ c a, Moves c (f c a)) (c : Client) (l : List α) :
    Moves c (l.foldl f c) := by
  induction l generalizing c with
  | nil => exact .refl c
  | cons a rest ih => exact (each c a).trans (ih (f c a))

theorem Moves.put {old new : RegistryEntry} (found : c.entry seq = some old) (same : new.parcel = old.parcel) :
    Moves c (c.setEntry seq new) := ⟨.frame (setEntryBooks _ found same),.put found⟩

theorem onWriterFatalMoves (c : Client) (detail : String) :
    Moves c (onWriterFatal c detail) ∧ (onWriterFatal c detail).live = false := by
  unfold onWriterFatal
  split
  · rename_i fatal
    exact ⟨.refl c,by simp [Client.live,Option.isNone_eq_false_iff.mpr fatal]⟩
  · exact ⟨⟨⟨.refl,rfl,fun returned => .inl returned,fun alive => by simp [Client.live] at alive,fun _ armed => armed⟩,.frame rfl⟩,
      by simp [Client.live]⟩

theorem finishMoves (c : Client) (id : Nat) (ok : Bool) (detail : String) (errorClass : Option ErrorClass) :
    Moves c (finish c id ok detail errorClass) := by
  unfold finish
  split
  · exact .refl c
  split
  · exact .refl c
  rename_i g _ _
  let done : Client := { c.setGeneration id { g with finished := true,readyTimer := none } with spawning := false }
  have killed : Moves c (killGeneration done id) := .outside (killGenerationOutside done id)
  split
  · exact .frame rfl rfl
  split
  · exact (killed.trans (onWriterFatalMoves _ detail).1).trans (.frame rfl rfl)
  · exact (killed.trans (.outside (onSpawnFailureOutside _))).trans (.frame rfl rfl)

theorem ensureActiveGenerationBooks (c : Client) : (ensureActiveGeneration c).books = c.books :=
  booksOutside (ensureActiveGenerationOutside c)

theorem maybeRotateBooks (c : Client) : (maybeRotate c).books = c.books :=
  booksOutside (maybeRotateOutside c)

theorem trySendBooks (c : Client) (seq : Nat) : (trySend c seq).books = c.books := by
  unfold trySend
  split
  · rfl
  rename_i e found
  split
  · rfl
  split
  · exact setEntryBooks _ found rfl
  rename_i id _
  let sent : RegistryEntry := { handed e id c.now with everSent := true }
  let posted : Client := ((c.setEntry seq sent).post (.write id seq e.timestamp c.now c.retentionMs)).2
  have kept : posted.books = c.books := (callBooks _).trans (setEntryBooks _ found rfl)
  have there : posted.entry seq = some sent := (callEntry _).trans setEntryEntry
  simp only
  split
  · exact (onGenerationDiedBooks _ id).trans ((setEntryBooks _ there (by rfl)).trans kept)
  · exact (maybeRotateBooks _).trans (modifyGenerationBooks.trans kept)

theorem trySendMails (due : ∀ e, c.entry seq = some e → written c seq = true → expired c e.timestamp = false) :
    Mails c (trySend c seq) := by
  unfold trySend
  split
  · exact .refl c
  rename_i e found
  split
  · exact .refl c
  split
  · exact .put found
  rename_i id _
  let sent : RegistryEntry := { handed e id c.now with everSent := true }
  have put : Mails c (c.setEntry seq sent) := .put found
  have posted := Mails.write (c := c.setEntry seq sent) id sent setEntryEntry (due e found)
  have there : ((c.setEntry seq sent).post (.write id seq sent.timestamp c.now c.retentionMs)).2.entry seq = some sent :=
    (callEntry _).trans setEntryEntry
  simp only
  split
  · exact (put.trans posted).trans (.trans (.put there) (.outside (onGenerationDiedOutside _ id)))
  · exact (put.trans posted).trans (.outside ((maybeRotateOutside _).trans modifyGenerationOutside))

theorem sendOrReplayMoves {old : RegistryEntry}
    (due : ∀ e, c.entry seq = some e → written c seq = true → expired c e.timestamp = false) :
    Moves c (sendOrReplay c seq old) := by
  have sent : ∀ d, (∀ e, d.entry seq = some e → written d seq = true → expired d e.timestamp = false) →
      Moves d (trySend d seq) := fun d due => ⟨.frame (trySendBooks d seq),trySendMails due⟩
  unfold sendOrReplay
  split
  · exact .via (sent { c with stats.replays := c.stats.replays + 1 } due) rfl rfl
  · exact sent c due

theorem settleMoves (c : Client) (seq : Nat) (outcome : SettlementOutcome) (errorClass : Option ErrorClass)
    (detail : Option String) : Moves c (settle c seq outcome errorClass detail) := by
  unfold settle
  split
  · exact .refl c
  rename_i e found
  have held : get c.ledger.held seq = some e.parcel := by
    have mapped := getMap c.unacked seq RegistryEntry.parcel
    rw [show get c.unacked seq = some e from found] at mapped
    exact mapped
  constructor
  · refine ⟨?_,rfl,fun returned => .inl returned,fun alive => alive,fun _ armed => armed⟩
    have closed := Ledger.Close.close (l := c.ledger) seq e.parcel held
    rw [show delete c.ledger.held seq = (delete c.unacked seq).map (Prod.map id RegistryEntry.parcel) from deleteMap] at closed
    exact .single closed
  · refine ⟨fun timely => timely,rfl,rfl,fun other its => ?_,fun p member => .inl member⟩
    have its : (get (delete c.unacked seq) other).isSome = true := its
    rw [getDelete] at its
    split at its
    · cases its
    · exact its

theorem expireMoves (c : Client) (seq : Nat) : Moves c (expire c seq) :=
  .via (settleMoves { c with stats.expired := c.stats.expired + 1 } seq .expired none none) rfl rfl

theorem flushBufferedMoves (c : Client) : Moves c (flushBuffered c) := by
  unfold flushBuffered
  split
  · exact .refl c
  split
  · exact .refl c
  refine .foldl (fun c seq => ?_) c _
  unfold flushEntry
  split
  · exact .refl c
  rename_i e found
  split
  · exact .refl c
  split
  · exact .refl c
  split
  · exact expireMoves c seq
  · rename_i fresh
    refine sendOrReplayMoves (fun e' its _ => ?_)
    cases found.symm.trans its
    simpa using fresh

theorem replayToActiveMoves (c : Client) : Moves c (replayToActive c) := by
  refine .foldl (fun c seq => ?_) c _
  unfold replayEntry
  split
  · exact .refl c
  rename_i e found
  split
  · exact .refl c
  split
  · exact expireMoves c seq
  · rename_i fresh
    refine (Moves.put found (by rfl)).trans (sendOrReplayMoves (fun e' its _ => ?_))
    cases setEntryEntry.symm.trans its
    exact eq_false_of_ne_true fresh

theorem closeDoneBooks (c : Client) (id : Nat) : (closeDone c id).books = c.books :=
  booksOutside (closeDoneOutside c id)

theorem handleResultMoves (id ackGeneration : Nat) (c : Client) (result : Ack) :
    Moves c (handleResult id ackGeneration c result) := by
  unfold handleResult
  split
  · exact .refl c
  rename_i e found
  split
  · exact .refl c
  split
  · exact .via (settleMoves { c with stats.committed := c.stats.committed + 1 } _ _ _ _) rfl rfl
  split
  · exact .via (Moves.put (c := { c with stats.retries := c.stats.retries + 1 }) found (by rfl)) rfl rfl
  · have there : (onWriterFatal c (result.detail.getD "unclassified writer failure")).entry result.seq = some e := by
      unfold onWriterFatal
      split
      · exact found
      · exact found
    exact (onWriterFatalMoves c _).1.trans (.put there (by rfl))
  · exact .via (settleMoves { c with stats.droppedPermanent := c.stats.droppedPermanent + 1 } _ _ _ _) rfl rfl

theorem handleAckMoves (c : Client) (id ackGeneration : Nat) (results : List Ack) :
    Moves c (handleAck c id ackGeneration results) := by
  have resumed : Moves c (resumeAdmission { c with lastAckAt := c.now }) := by
    unfold resumeAdmission
    split
    · exact .frame rfl rfl
    · exact .frame rfl rfl
  have handled := resumed.trans (.foldl (handleResultMoves id ackGeneration) _ results)
  unfold handleAck
  simp only
  split
  · exact handled.trans (flushBufferedMoves _)
  · exact handled

theorem resumeActivationMoves (c : Client) (id : Nat) (ok : Bool) : Moves c (resumeActivation c id ok) := by
  have activated : Moves c (if ok = true then flushBuffered { c with active := some id } else c) := by
    split
    · exact .via (flushBufferedMoves { c with active := some id }) rfl rfl
    · exact .refl c
  exact activated.trans (.outside (racedByOutside _ _))

theorem endRotationMoves (c : Client) (r : Rotation) : Moves c (endRotation c r) := by
  unfold endRotation
  simp only
  split
  · exact .trans (.via (replayToActiveMoves { c with rotation := none }) rfl rfl) (.outside (racedByOutside _ _))
  · exact .outside (racedByOutside _ _)

theorem resumeRotationSpawnedMoves (c : Client) (id : Nat) (ok : Bool) : Moves c (resumeRotationSpawned c id ok) := by
  unfold resumeRotationSpawned
  split
  · exact .refl c
  rename_i r _
  split
  · exact .refl c
  split
  · exact .outside (closeGenerationOutside { c with rotation := some { r with spawned := true } } _ _ _)
  · refine .trans ?_ (endRotationMoves _ r)
    split
    · exact .frame rfl rfl
    · exact .frame rfl rfl

theorem resumeRotationClosedMoves (c : Client) (id : Nat) : Moves c (resumeRotationClosed c id) := by
  unfold resumeRotationClosed
  split
  · exact .refl c
  rename_i r _
  split
  · exact .refl c
  split
  · exact .trans (.outside (scheduleRespawnOutside { c with active := none })) (endRotationMoves _ r)
  · exact .via (endRotationMoves _ r) rfl rfl

theorem handleMessageMoves (c : Client) (id : Nat) (response : Response) : Moves c (handleMessage c id response) := by
  have heard : ∀ d f, Moves d (d.modifyGeneration id f) := fun d f => .outside modifyGenerationOutside
  cases response with
  | ack generation results => exact handleAckMoves c id generation results
  | closed => exact (Moves.outside (closeDoneOutside c id)).trans (heard _ _)
  | ready =>
    simp only [handleMessage]
    split
    · exact .refl c
    rename_i g _
    split
    · refine .trans ?_ (heard _ _)
      split
      · exact .via (finishMoves (c.setGeneration id { g with status := .ready }) id true "" none) rfl rfl
      · exact .frame rfl rfl
    · exact .refl c
  | error detail errorClass =>
    simp only [handleMessage]
    split
    · exact .refl c
    split
    · exact (finishMoves c id false detail (some errorClass)).trans (heard _ _)
    · exact heard _ _

theorem onRetryTimerMoves {e : RegistryEntry} (found : c.entry seq = some e) : Moves c (onRetryTimer c seq e) := by
  let fired := c.setEntry seq { e with retryTimer := none }
  have put : Moves c fired := .put found (by rfl)
  unfold onRetryTimer
  simp only
  split
  · exact put.trans (expireMoves fired seq)
  · rename_i fresh
    let back := fired.setEntry seq { e with state := .buffered,retryTimer := none }
    have again : Moves fired back := .put setEntryEntry (by rfl)
    have ensured : (ensureActiveGeneration back).mailbox = back.mailbox := mailboxOutside (ensureActiveGenerationOutside back)
    refine (put.trans again).trans (.trans (.outside (ensureActiveGenerationOutside back))
      ⟨.frame (trySendBooks _ _),trySendMails (fun e' its _ => ?_)⟩)
    have entry : (ensureActiveGeneration back).entry seq = back.entry seq :=
      congrArg (InsertionMap.get · seq) (congrArg Mailbox.unacked ensured)
    cases setEntryEntry.symm.trans (entry.symm.trans its)
    have now : (ensureActiveGeneration back).now = c.now := congrArg Mailbox.now ensured
    have retentionMs : (ensureActiveGeneration back).retentionMs = c.retentionMs := congrArg Mailbox.retentionMs ensured
    simp only [expired,now,retentionMs]
    exact eq_false_of_ne_true fresh

theorem fenceMoves (c : Client) : Moves c (fence c) := by
  unfold fence
  split
  · exact .refl c
  rename_i id _
  let killed := killGeneration { c with stats.fences := c.stats.fences + 1 } id
  let taken : Client := { killed with unacked := killed.unacked.map (fun seqEntry => (seqEntry.1,unsend seqEntry.2)) }
  let fenced : Client := { taken with lastAckAt := c.now,watchdogUnhealthy := true,admissionSuspended := true }
  have kept : Moves c killed := .outside (killGenerationOutside _ id)
  have unsent : Moves killed taken := ⟨.frame (mapEntriesBooks (f := unsend) (fun e => by unfold unsend; split <;> rfl)),.map killed⟩
  have marked : Moves taken fenced := .frame rfl rfl
  exact ((kept.trans unsent).trans marked).trans (.outside (scheduleRespawnOutside fenced))

theorem runWatchdogMoves (c : Client) : Moves c (runWatchdog c) := by
  unfold runWatchdog
  split
  · exact .refl c
  split
  · simp only
    split
    · exact .via (flushBufferedMoves _) rfl rfl
    · exact .frame rfl rfl
  · simp only
    split
    · exact fenceMoves c
    split
    · exact .frame rfl rfl
    · exact .frame rfl rfl

theorem onWatchdogTimerMoves (c : Client) : Moves c (onWatchdogTimer c) := by
  have ran := runWatchdogMoves { c with watchdogTimer := none }
  unfold onWatchdogTimer
  simp only
  split
  · rename_i disposed
    have dead : (runWatchdog { c with watchdogTimer := none }).live = false := by
      have gone : (runWatchdog { c with watchdogTimer := none }).disposal.isSome = true := disposed
      simp [Client.live,Option.isNone_eq_false_iff.mpr gone]
    exact ⟨{ ran.settles with watched := fun alive => by simp [dead] at alive },{ ran.mails with }⟩
  · exact ⟨{ ran.settles with watched := fun _ _ => rfl },{ ran.mails with }⟩

theorem setPhaseSettles {phase : DisposePhase} (going : phase ≠ .returned) : Settles c (setPhase c phase) :=
  ⟨.refl,rfl,fun returned => absurd (Option.some.inj returned) going,(fun alive => by cases alive),
    fun _ armed => armed⟩

theorem setPhaseMoves {phase : DisposePhase} (going : phase ≠ .returned) : Moves c (setPhase c phase) :=
  ⟨setPhaseSettles going,.frame rfl⟩

theorem abandonMoves (c : Client) (seq : Nat) : Moves c (abandon c seq) :=
  .via (settleMoves { c with stats.abandoned := c.stats.abandoned + 1 } seq .abandoned none none) rfl rfl

theorem abandonEntry (c : Client) (seq other : Nat) : (abandon c seq).entry other = if other = seq then none else c.entry other := by
  have settled : (abandon c seq).entry other = get (delete c.unacked seq) other := by
    unfold abandon settle
    split
    · rename_i absent
      have missing : get c.unacked seq = none := absent
      rw [getDelete]
      split
      · rename_i same
        rw [same]
        exact missing
      · rfl
    · rfl
  rw [settled,getDelete]
  rfl

theorem abandonAll (c : Client) (seqs : List Nat) (other : Nat) (member : other ∈ seqs ∨ c.entry other = none) :
    (seqs.foldl abandon c).entry other = none := by
  induction seqs generalizing c with
  | nil => exact member.resolve_left (by simp)
  | cons seq rest ih =>
    refine ih (abandon c seq) ?_
    rw [abandonEntry]
    rcases member with inside | absent
    · rcases List.mem_cons.mp inside with rfl | inside
      · exact .inr (by simp)
      · exact .inl inside
    · exact .inr (by simp [absent])

theorem unackedNone (none : ∀ seq, c.entry seq = .none) : c.unacked = [] := by
  cases its : c.unacked with
  | nil => rfl
  | cons head rest =>
    have first := none head.1
    simp [Client.entry,its,InsertionMap.get] at first

theorem finalizeMoves (c : Client) : Moves c (finalize c) := by
  let killed : Client := { killAll c with active := none }
  have kept : Moves c killed := .trans (.outside (killAllOutside c)) (.frame rfl rfl)
  have abandoned := kept.trans (.foldl abandonMoves killed (keys killed.unacked))
  have none : ((keys killed.unacked).foldl abandon killed).unacked = [] := by
    refine unackedNone (fun seq => abandonAll killed _ seq ?_)
    cases found : killed.entry seq with
    | none => exact .inr rfl
    | some e => exact .inl (memKeysOfGet found)
  exact ⟨⟨abandoned.settles.ledger,abandoned.settles.next,fun _ => .inr none,(fun alive => by cases alive),
    (fun alive => by cases alive)⟩,{ abandoned.mails with }⟩

theorem handOverEntryBooks (id : Nat) (c : Client) (seq : Nat) : (handOverEntry id c seq).books = c.books := by
  unfold handOverEntry
  split
  · rfl
  rename_i e found
  split
  · rfl
  unfold sendDuringDispose
  let sent : RegistryEntry := handed { e with state := .buffered,generation := none } id c.now
  let posted : Client := ((c.setEntry seq sent).post (.write id seq e.timestamp c.now c.retentionMs)).2
  have kept : posted.books = c.books := (callBooks _).trans (setEntryBooks _ found rfl)
  have there : posted.entry seq = some sent := (callEntry _).trans setEntryEntry
  simp only
  split
  · exact (setEntryBooks _ there (by rfl)).trans kept
  · exact kept

theorem handOverSettles (c : Client) : Settles c (handOver c) := by
  unfold handOver
  split
  · exact (finalizeMoves c).settles
  rename_i id _
  have handed : ∀ (seqs : List Nat) (c : Client), (seqs.foldl (handOverEntry id) c).books = c.books := by
    intro seqs
    induction seqs with
    | nil => exact fun _ => rfl
    | cons seq rest ih => exact fun c => (ih _).trans (handOverEntryBooks id c seq)
  exact ((Settles.frame (handed _ c)).trans (setPhaseSettles (by simp))).trans
    (.frame (booksOutside (closeGenerationOutside _ _ _ _)))

theorem raceDeadlineMoves (c : Client) (race : Race) : Moves c (raceDeadline c race) := by
  unfold raceDeadline
  split
  · exact .trans (setPhaseMoves (by simp)) (.frame rfl rfl)
  · exact setPhaseMoves (by simp)

theorem awaitRotationSettles (c : Client) : Settles c (awaitRotation c) := by
  unfold awaitRotation
  split
  · exact (raceDeadlineMoves c _).settles
  · exact handOverSettles c

theorem awaitSpawnSettles (c : Client) : Settles c (awaitSpawn c) := by
  unfold awaitSpawn
  split
  · split
    · exact awaitRotationSettles c
    · exact (raceDeadlineMoves c _).settles
  · exact awaitRotationSettles c

theorem disposeSettles (c : Client) (deadlineMs : Int) : Settles c (dispose c deadlineMs) := by
  unfold dispose
  split
  · exact .frame rfl
  · have kept := mapEntriesBooks (c := c) (f := fun e => { e with retryTimer := none }) (fun _ => rfl)
    have ledger := congrArg Books.ledger kept
    refine Settles.trans ⟨?_,?_,?_,?_,?_⟩ (awaitSpawnSettles _)
    · exact Eq.subst (motive := fun l => Ledger.Closes c.ledger l) ledger.symm .refl
    · rfl
    · intro returned
      cases returned
    · intro alive
      cases alive
    · intro alive
      cases alive

theorem settleRaceMoves (c : Client) (race : Race) : Moves c (settleRace c race) := by
  unfold settleRace
  split
  · exact .trans (setPhaseMoves (by simp)) (.frame rfl rfl)
  · exact .refl c

theorem resumeDisposeSettles (c : Client) : Settles c (resumeDispose c) := by
  unfold resumeDispose
  split
  · exact awaitRotationSettles c
  · exact handOverSettles c
  · exact .frame rfl

theorem runJobMoves {job : Job} (c : Client) (other : job ≠ .disposeResume) : Moves c (runJob c job) := by
  cases job with
  | caller => exact .refl c
  | spawned purpose id ok =>
    cases purpose with
    | activate => exact resumeActivationMoves c id ok
    | rotate => exact resumeRotationSpawnedMoves c id ok
  | clearSpawnInFlight chain =>
    simp only [runJob]
    split
    · exact .frame rfl rfl
    · exact .refl c
  | closed waiter id =>
    cases waiter with
    | rotate => exact resumeRotationClosedMoves c id
    | dispose => exact finalizeMoves c
  | raced race => exact settleRaceMoves c race
  | disposeResume => exact absurd rfl other

theorem runJobSettles (c : Client) (job : Job) : Settles c (runJob c job) := by
  by_cases resumes : job = .disposeResume
  · subst resumes
    exact resumeDisposeSettles c
  · exact (runJobMoves c resumes).settles

theorem runTaskMoves {action : Action} (ran : runTask c action = some d) : Moves c d := by
  cases taskRan ran with
  | enter => exact .frame rfl rfl
  | message response => exact handleMessageMoves c _ response
  | transportError id detail => exact .outside (onTransportErrorOutside c id detail)
  | readyTimeout found => exact .via (finishMoves (c.setGeneration _ _) _ false _ none) rfl rfl
  | closeTimeout found => exact .via (.outside (closeDoneOutside (c.setGeneration _ _) _)) rfl rfl
  | retryTimeout found => exact onRetryTimerMoves found
  | respawnTimeout => exact .outside (onRespawnTimerOutside c)
  | watchdogTimeout => exact onWatchdogTimerMoves c
  | raceTimeout racing => exact .trans (setPhaseMoves (by simp)) (.frame rfl rfl)

theorem stepSettles (ev : Event) (own : ∀ op, ev.action ≠ .op op) (stepped : step c ev = some d) :
    Settles (begin_ c ev) d := by
  unfold step at stepped
  split at stepped
  · exact (runTaskMoves stepped).settles
  · rename_i op _ its
    exact absurd its (own op)
  · cases stepped
    exact .frame rfl
  · cases stepped
  · rename_i job rest _ _ _
    cases stepped
    exact Settles.trans (d := { begin_ c ev with jobs := rest }) (.frame rfl) (runJobSettles _ job)
  · cases stepped

theorem publishReservedSettles (c : Client) (input : EntryInput) :
    (publishReserved c input).1 = true ∧ c.disposed = false ∧
        (publishReserved c input).2.books =
          ⟨{ c.ledger with held := set c.ledger.held c.nextSeq input.parcel },c.nextSeq + 1,c.phase,c.live,true⟩ ∨
      (publishReserved c input).1 = false ∧ (publishReserved c input).2 = c := by
  have registered : c.disposed = false → (register c input).books =
      ⟨{ c.ledger with held := set c.ledger.held c.nextSeq input.parcel },c.nextSeq + 1,c.phase,c.live,true⟩ := by
    intro open_
    have watched : ∀ held : Client, held.disposed = false → (startWatchdog held).books = { held.books with watched := true } := by
      intro held running
      unfold startWatchdog
      split
      · rename_i armed
        have either : held.watchdogTimer.isSome = true := by simpa [running] using armed
        simp only [Client.books,either]
      · rfl
    refine (watched _ (by exact open_)).trans ?_
    simp only [Client.books,Client.ledger,mapSetNew]
    rfl
  unfold publishReserved
  split
  · exact .inr ⟨rfl,rfl⟩
  rename_i running
  have open_ : c.disposed = false := eq_false_of_ne_true running
  split
  · exact .inl ⟨rfl,open_,registered open_⟩
  · exact .inl ⟨rfl,open_,(trySendBooks _ _).trans ((ensureActiveGenerationBooks _).trans (registered open_))⟩

end Clankermux.PayloadWriteClient
