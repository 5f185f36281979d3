import Clankermux.History
import Clankermux.PayloadWriteEngine

/-! What the engine of the payload writer answers, against what is durable. -/
namespace Clankermux.PayloadWriteEngine
open Transactions

variable {o : PayloadWriteEngineOptions} {db : PayloadWriteDb} {s next : PayloadSession} {rows batch : List PendingRow}
  {steps : List RowStep} {fatalRow : Option SqliteError} {err : SqliteError} {e : Engine}

def cleanUp : List (Statement PendingRow) := [.rollbackTo,.release,.rollback]

def StopsAt (issued : List (Issued PendingRow SqliteError)) (err : SqliteError) : Prop :=
  ∃ tried failing cleaning, issued = tried ++ failing::cleaning ∧ failing.error = some err ∧ ∀ i ∈ cleaning, i.statement ∈ cleanUp
variable {errorClass : PayloadWriteErrorClass} {pending : PendingRow}

theorem rowIssued {error : Option SqliteError} (wrote : writeRow db s pending = (error,next)) :
    ∃ added, next.issued = s.issued ++ added ∧ (∀ i ∈ added, i.statement ≠ .commit) ∧ ∀ err, error = some err → StopsAt added err := by
  unfold writeRow at wrote
  split at wrote
  · rename_i last tried
    cases wrote
    obtain ⟨passed,failing,issued,-,within,-⟩ := execAllIssued tried
    refine ⟨passed ++ failing,by rw [issued,List.append_assoc],?_,by simp⟩
    intro i inside same
    have listed := within i inside
    simp [same] at listed
  · rename_i err middle tried
    cases wrote
    obtain ⟨passed,failing,issued,-,within,ended⟩ := execAllIssued tried
    cases cleaned : execAll db middle [.rollbackTo,.release] with
    | mk error last =>
      obtain ⟨cleared,broken,more,-,inside,-⟩ := execAllIssued cleaned
      refine ⟨passed ++ failing ++ (cleared ++ broken),?_,?_,?_⟩
      · rw [more,issued]
        simp
      · intro i among same
        rcases List.mem_append.mp among with early | late
        · have listed := within i early
          simp [same] at listed
        · have listed := inside i late
          simp [same] at listed
      · rintro other ⟨⟩
        rcases ended with ⟨nothing,-⟩ | ⟨i,e,last,thrown,its⟩
        · simp at nothing
        · cases thrown
          refine ⟨passed,i,cleared ++ broken,by simp [last],its,?_⟩
          intro j late
          have listed := inside j late
          simp [cleanUp] at listed ⊢
          rcases listed with same | same
          · exact .inl same
          · exact .inr (.inl same)

theorem rowDurable {error : Option SqliteError} (wrote : writeRow db s pending = (error,next)) :
    s.connection.durable <+: next.connection.durable := by
  unfold writeRow at wrote
  split at wrote
  · rename_i last tried
    cases wrote
    exact execAllDurable tried
  · rename_i err middle tried
    cases wrote
    exact (execAllDurable tried).trans (execAllDurable rfl)

theorem rowHolds (wrote : writeRow db s pending = (none,next)) :
    next.connection.held = s.connection.held ++ [pending] := by
  unfold writeRow at wrote
  split at wrote
  · rename_i last tried
    cases wrote
    exact rowHeld tried
  · simp at wrote

inductive Writes (db : PayloadWriteDb) :
    PayloadSession → List PendingRow → List RowStep → Option SqliteError → PayloadSession → Prop where
  | done {s : PayloadSession} : Writes db s [] [] none s
  | stopped {s middle pending rest err} (first : writeRow db s pending = (some err,middle)) :
      Writes db s (pending::rest) [⟨pending,s.connection,middle.connection,some err⟩] (some err) middle
  | row {s middle next pending rest error steps fatalRow} (first : writeRow db s pending = (error,middle))
      (mild : error.filter (classifyRowError · = .writerFatal) = none) (later : Writes db middle rest steps fatalRow next) :
      Writes db s (pending::rest) (⟨pending,s.connection,middle.connection,error⟩::steps) fatalRow next

theorem writes (wrote : writeRows db s rows = (steps,fatalRow,next)) : Writes db s rows steps fatalRow next := by
  induction rows generalizing s steps with
  | nil =>
    cases wrote
    exact .done
  | cons pending rest ih =>
    rw [writeRows] at wrote
    cases first : writeRow db s pending with
    | mk error middle =>
      rw [first] at wrote
      simp only at wrote
      split at wrote
      · rename_i err fatal
        cases wrote
        obtain ⟨rfl,-⟩ := Option.filter_eq_some_iff.mp fatal
        exact .stopped first
      · rename_i mild
        cases later : writeRows db middle rest with
        | mk steps after =>
          rw [later] at wrote
          cases wrote
          exact .row first mild (ih later)

theorem rowsIssued (run : Writes db s rows steps fatalRow next) : ∃ added, next.issued = s.issued ++ added ∧
    (∀ i ∈ added, i.statement ≠ .commit) ∧ ∀ err, fatalRow = some err → StopsAt added err := by
  induction run with
  | done => exact ⟨[],by simp⟩
  | stopped first => exact rowIssued first
  | row first mild later ih =>
    obtain ⟨added,issued,others,-⟩ := rowIssued first
    obtain ⟨more,continued,rest,ended⟩ := ih
    refine ⟨added ++ more,by rw [continued,issued,List.append_assoc],?_,?_⟩
    · intro i inside
      rcases List.mem_append.mp inside with early | late
      · exact others i early
      · exact rest i late
    · intro err same
      obtain ⟨tried,failing,cleaning,whole,error,clean⟩ := ended err same
      exact ⟨added ++ tried,failing,cleaning,by rw [whole,List.append_assoc],error,clean⟩

theorem rowsDurable (run : Writes db s rows steps fatalRow next) :
    s.connection.durable <+: next.connection.durable := by
  induction run with
  | done => exact List.prefix_refl _
  | stopped first => exact rowDurable first
  | row first mild later ih => exact (rowDurable first).trans ih

def RowStep.released (step : RowStep) : Option PendingRow := if step.error = none then some step.pending else none

def RowStep.Spares (step : RowStep) : Prop := step.error ≠ none → step.before.held <+: step.after.held

theorem rowsTried (run : Writes db s rows steps none next) :
    steps.map RowStep.pending = rows ∧ ∀ step ∈ steps, ∀ detail, step.status ≠ .failed .writerFatal detail := by
  generalize unbroken : none = fatalRow at run
  induction run with
  | done => exact ⟨rfl,by simp⟩
  | stopped first => simp at unbroken
  | @row _ _ _ _ _ error _ _ first mild later ih =>
    obtain ⟨all,others⟩ := ih unbroken
    refine ⟨by rw [List.map_cons,all],?_⟩
    intro step inside detail
    rcases List.mem_cons.mp inside with rfl | inside
    · cases error with
      | none => simp [RowStep.status]
      | some err =>
        simp at mild
        simp [RowStep.status,mild]
    · exact others step inside detail

theorem rowReleased {error : Option SqliteError} (first : writeRow db s pending = (error,next))
    (spares : (RowStep.mk pending s.connection next.connection error).Spares) :
    ∃ made, next.connection.held = s.connection.held ++ made ∧
      ([RowStep.mk pending s.connection next.connection error].filterMap RowStep.released).Sublist made := by
  cases error with
  | none => exact ⟨[pending],rowHolds first,by simp [RowStep.released]⟩
  | some err =>
    obtain ⟨made,grown⟩ := spares (by simp)
    exact ⟨made,grown.symm,by simp [RowStep.released]⟩

theorem rowsHeld (run : Writes db s rows steps fatalRow next) (spares : ∀ step ∈ steps, step.Spares) :
    ∃ made, next.connection.held = s.connection.held ++ made ∧ (steps.filterMap RowStep.released).Sublist made := by
  induction run with
  | done => exact ⟨[],by simp⟩
  | stopped first => exact rowReleased first (spares _ (.head _))
  | @row s middle _ pending _ error others _ first mild later ih =>
    obtain ⟨made,grown,released⟩ := rowReleased first (spares _ (.head _))
    obtain ⟨more,continued,sub⟩ := ih fun step inside => spares step (.tail _ inside)
    refine ⟨made ++ more,by rw [continued,grown,List.append_assoc],?_⟩
    have split : (⟨pending,s.connection,middle.connection,error⟩::others).filterMap RowStep.released =
        [⟨pending,s.connection,middle.connection,error⟩].filterMap RowStep.released ++ others.filterMap RowStep.released :=
      List.filterMap_append (l := [_])
    rw [split]
    exact released.append sub

def Block.released (b : Block) : List PendingRow :=
  (b.rows.zip b.results).filterMap (fun answered => if answered.2.status = .committed then some answered.1 else none)

def Block.ran (b : Block) (statement : Statement PendingRow) (passed : Bool) : Prop :=
  ∃ i ∈ b.issued, i.statement = statement ∧ i.error.isNone = passed

def Block.Spares (b : Block) : Prop := b.ran .commit true → ∀ step ∈ b.steps, step.Spares

def Block.Fatal (b : Block) : Prop := ∃ answer ∈ b.results, ∃ detail, answer.status = .failed .writerFatal detail

structure Written (s : PayloadSession) (before : Option (List Char)) (batch : List PendingRow) (b : Block) (next : PayloadSession)
    (after : Option (List Char)) : Prop where
  rows : b.rows = batch
  connection : b.connection = next.connection
  answers : b.results.map (fun answer => (answer.seq,answer.id)) = batch.map (fun pending => (pending.row.seq,pending.row.id))
  durable : s.connection.durable <+: next.connection.durable
  released : b.Spares → ∃ made, next.connection.durable = s.connection.durable ++ made ∧ b.released.Sublist made
  commitFailed : b.ran .commit false → ∃ errorClass detail, b.results = nackAll batch errorClass detail
  broken : ∀ detail, before = some detail → b.issued = [] ∧ b.results = nackAll batch .writerFatal detail ∧ after = some detail
  latched : b.Fatal → ∃ detail, after = some detail ∧ b.results = nackAll batch .writerFatal detail ∧
    (before = none → ∃ err, detail = errorDetail err ∧ StopsAt b.issued err)

theorem nackAnswers (errorClass : PayloadWriteErrorClass) (detail : List Char) :
    (nackAll batch errorClass detail).map (fun answer => (answer.seq,answer.id)) =
      batch.map (fun pending => (pending.row.seq,pending.row.id)) := by
  rw [nackAll,List.map_map]
  rfl

theorem nackReleases (b : Block) (errorClass : PayloadWriteErrorClass) (detail : List Char)
    (nacked : b.results = nackAll b.rows errorClass detail) : b.released = [] := by
  rw [Block.released,nacked,nackAll,List.filterMap_eq_nil_iff]
  intro answered inside
  obtain ⟨pending,-,same⟩ := List.mem_map.mp (List.of_mem_zip inside).2
  simp [← same,PendingRow.answer]

theorem nackFatal {b : Block} {detail} (nacked : b.results = nackAll batch errorClass detail)
    (fatal : b.Fatal) : errorClass = .writerFatal := by
  obtain ⟨answer,inside,other,status⟩ := fatal
  rw [nacked] at inside
  obtain ⟨pending,-,rfl⟩ := List.mem_map.mp inside
  exact (Status.failed.inj status).1

theorem nackWritten {b : Block} {before after : Option (List Char)} {detail}
    (rows : b.rows = batch) (connection : b.connection = next.connection) (results : b.results = nackAll batch errorClass detail)
    (durable : s.connection.durable <+: next.connection.durable)
    (broken : ∀ old, before = some old → b.issued = [] ∧ errorClass = .writerFatal ∧ detail = old ∧ after = some old)
    (latched : errorClass = .writerFatal → after = some detail ∧ (before = none → ∃ err, detail = errorDetail err ∧ StopsAt b.issued err)) :
    Written s before batch b next after where
  rows := rows
  connection := connection
  answers := by rw [results,nackAnswers]
  durable := durable
  released := by
    intro _
    obtain ⟨made,grown⟩ := durable
    rw [nackReleases b errorClass detail (rows ▸ results)]
    exact ⟨made,grown.symm,List.nil_sublist _⟩
  commitFailed := fun _ => ⟨errorClass,detail,results⟩
  broken := by
    intro old same
    obtain ⟨quiet,rfl,rfl,still⟩ := broken old same
    exact ⟨quiet,results,still⟩
  latched := by
    intro fatal
    have same := nackFatal results fatal
    obtain ⟨still,stops⟩ := latched same
    exact ⟨detail,still,same ▸ results,stops⟩

theorem latchFatal (fatal : errorClass = .writerFatal) :
    latch e errorClass err = some (errorDetail err) := if_pos fatal

theorem dropIssued {added : List (Issued PendingRow SqliteError)} (issued : next.issued = s.issued ++ added) :
    next.issued.drop s.issued.length = added := by rw [issued,List.drop_left]

theorem rolledBack (db : PayloadWriteDb) (s : PayloadSession) : ∃ error, (exec db s .rollback).2.issued = s.issued ++ [⟨.rollback,error⟩] ∧
    s.connection.durable <+: (exec db s .rollback).2.connection.durable := by
  cases ran : exec db s .rollback with
  | mk error after => exact ⟨error,execIssued ran,execDurable ran⟩

theorem stopsThen {issued more : List (Issued PendingRow SqliteError)} (stops : StopsAt issued err)
    (clean : ∀ i ∈ more, i.statement ∈ cleanUp) : StopsAt (issued ++ more) err := by
  obtain ⟨tried,failing,cleaning,whole,error,cleaned⟩ := stops
  refine ⟨tried,failing,cleaning ++ more,by simp [whole],error,?_⟩
  intro i inside
  rcases List.mem_append.mp inside with early | late
  · exact cleaned i early
  · exact clean i late

theorem stopsNow (tried : List (Issued PendingRow SqliteError)) (statement : Statement PendingRow) :
    StopsAt (tried ++ [⟨statement,some err⟩]) err := ⟨tried,⟨statement,some err⟩,[],rfl,rfl,by simp⟩

theorem answersReleased (steps : List RowStep) :
    ((steps.map RowStep.pending).zip (steps.map (fun step => step.pending.answer step.status))).filterMap
      (fun answered => if answered.2.status = .committed then some answered.1 else none) = steps.filterMap RowStep.released := by
  induction steps with
  | nil => rfl
  | cons step rest ih =>
    rw [List.map_cons,List.map_cons,List.zip_cons_cons,List.filterMap_cons,List.filterMap_cons,ih]
    cases found : step.error with
    | none => simp [RowStep.status,RowStep.released,PendingRow.answer,found]
    | some err => simp [RowStep.status,RowStep.released,PendingRow.answer,found]

def Leaves (o : PayloadWriteEngineOptions) (e after : Engine) (batch : List PendingRow) : Prop := ∃ b next fatal,
  after = { e with
    session := next
    fatal := fatal
    posted := e.posted ++ [.ack o.generation b.results]
    blocks := e.blocks ++ [b] } ∧ Written e.session e.fatal batch b next fatal

theorem postLeaves {results fatal} (written : Written e.session e.fatal batch
    ⟨batch,results,next.issued.drop e.session.issued.length,steps,next.connection⟩ next fatal) :
    Leaves o e (post o e next batch steps results fatal) batch := ⟨_,next,fatal,rfl,written⟩

theorem commitWritten {began rowsWritten : PayloadSession} {added} (healthy : e.fatal = none)
    (begun : exec db e.session .beginImmediate = (none,began)) (wrote : writeRows db began batch = (steps,none,rowsWritten))
    (issued : next.issued.drop e.session.issued.length = added) (others : ∀ i ∈ added, i.statement = .commit → i.error = none)
    (listed : ∃ i ∈ added, i.statement = .commit) (committed : exec db rowsWritten .commit = (none,next)) :
    Written e.session e.fatal batch ⟨batch,steps.map (fun step => step.pending.answer step.status),
      next.issued.drop e.session.issued.length,steps,next.connection⟩ next e.fatal := by
  obtain ⟨all,mild⟩ := rowsTried (writes wrote)
  have kept := ((execDurable begun).trans (rowsDurable (writes wrote))).trans (execDurable committed)
  refine ⟨rfl,rfl,?_,kept,?_,?_,by simp [healthy],?_⟩
  · simp only [List.map_map]
    rw [← all,List.map_map]
    rfl
  · intro spares
    obtain ⟨i,inside,commit⟩ := listed
    obtain ⟨made,grown,released⟩ := rowsHeld (writes wrote)
      (spares ⟨i,issued ▸ inside,commit,by rw [others i inside commit]; rfl⟩)
    refine ⟨made,by rw [commitHeld committed,grown,beginHeld begun],?_⟩
    simp only [Block.released]
    rw [← all,answersReleased]
    exact released
  · rintro ⟨i,inside,commit,failed⟩
    rw [others i (issued ▸ inside) commit] at failed
    simp at failed
  · rintro ⟨answer,inside,detail,status⟩
    obtain ⟨step,among,rfl⟩ := List.mem_map.mp inside
    exact absurd status (mild step among detail)

theorem batchLeaves (o : PayloadWriteEngineOptions) (db : PayloadWriteDb) (e : Engine) (full : batch ≠ []) :
    Leaves o e (writeBatch o db e batch) batch := by
  rw [writeBatch,if_neg full]
  split
  · rename_i detail broken
    refine postLeaves (nackWritten rfl rfl rfl (List.prefix_refl _) ?_ ?_)
    · intro old same
      rw [broken] at same
      exact ⟨by simp,rfl,Option.some.inj same,same.symm ▸ broken⟩
    · intro _
      exact ⟨broken,by simp [broken]⟩
  · rename_i healthy
    split
    · rename_i err s began
      have beginning := execIssued began
      refine postLeaves (nackWritten rfl rfl rfl (execDurable began) (by simp [healthy]) ?_)
      intro fatal
      refine ⟨latchFatal fatal,fun _ => ⟨err,rfl,?_⟩⟩
      simp only [dropIssued beginning]
      exact stopsNow [] _
    · rename_i s began
      have beginning := execIssued began
      split
      · rename_i steps err s' wrote
        obtain ⟨added,issued,others,stops⟩ := rowsIssued (writes wrote)
        obtain ⟨error,rolled,still⟩ := rolledBack db s'
        refine postLeaves (nackWritten rfl rfl rfl (((execDurable began).trans (rowsDurable (writes wrote))).trans still) (by simp [healthy]) ?_)
        intro _
        refine ⟨rfl,fun _ => ⟨err,rfl,?_⟩⟩
        have whole : (exec db s' .rollback).2.issued = e.session.issued ++ (⟨.beginImmediate,none⟩::added ++ [⟨.rollback,error⟩]) := by
          rw [rolled,issued,beginning]
          simp
        simp only [dropIssued whole]
        obtain ⟨tried,failing,cleaning,same,its,clean⟩ := stops err rfl
        refine stopsThen ⟨⟨.beginImmediate,none⟩::tried,failing,cleaning,by rw [same]; rfl,its,clean⟩ ?_
        simp [cleanUp]
      · rename_i steps s' wrote
        obtain ⟨added,issued,others,-⟩ := rowsIssued (writes wrote)
        split
        · rename_i err s'' committed
          obtain ⟨error,rolled,still⟩ := rolledBack db s''
          have kept := ((execDurable began).trans (rowsDurable (writes wrote))).trans ((execDurable committed).trans still)
          refine postLeaves (nackWritten rfl rfl rfl kept (by simp [healthy]) ?_)
          intro fatal
          refine ⟨latchFatal fatal,fun _ => ⟨err,rfl,?_⟩⟩
          have whole : (exec db s'' .rollback).2.issued =
              e.session.issued ++ (⟨.beginImmediate,none⟩::added ++ [⟨.commit,some err⟩] ++ [⟨.rollback,error⟩]) := by
            rw [rolled,execIssued committed,issued,beginning]
            simp
          simp only [dropIssued whole]
          refine stopsThen (stopsNow _ _) ?_
          simp [cleanUp]
        · rename_i s'' committed
          have whole : s''.issued = e.session.issued ++ (⟨.beginImmediate,none⟩::added ++ [⟨.commit,none⟩]) := by
            rw [execIssued committed,issued,beginning]
            simp
          refine postLeaves (commitWritten healthy began wrote (dropIssued whole) ?_ ?_ committed)
          · intro i inside commit
            rcases List.mem_append.mp inside with early | late
            · rcases List.mem_cons.mp early with rfl | early
              · rfl
              · exact absurd commit (others i early)
            · cases List.mem_singleton.mp late
              rfl
          · exact ⟨⟨.commit,none⟩,by simp,rfl⟩

theorem takeBatchAll (o : PayloadWriteEngineOptions) (pending : List PendingRow) : ∀ count bytes,
    (takeBatch o count bytes pending).1 ++ (takeBatch o count bytes pending).2 = pending := by
  induction pending with
  | nil => exact fun _ _ => rfl
  | cons first rest ih =>
    intro count bytes
    rw [takeBatch]
    split
    · rfl
    · rw [List.cons_append,ih]

theorem takeBatchSome (o : PayloadWriteEngineOptions) {pending : List PendingRow} (some_ : pending ≠ []) : (takeBatch o 0 0 pending).1 ≠ [] := by
  cases pending with
  | nil => exact absurd rfl some_
  | cons first rest => simp [takeBatch]

@[grind] def PayloadWriteResponse.results : PayloadWriteResponse → Option (List PayloadWriteAck)
  | .ack _ results => some results
  | .closed _ => none

structure Kept (e : Engine) (accepted : List PayloadWriteRowMessage) : Prop where
  rows : (e.blocks.flatMap Block.rows ++ e.pending).map PendingRow.row = accepted
  posted : e.posted.filterMap PayloadWriteResponse.results = e.blocks.map Block.results
  answers : ∀ b ∈ e.blocks, b.results.map (fun answer => (answer.seq,answer.id)) =
    b.rows.map (fun pending => (pending.row.seq,pending.row.id))
  released : (∀ b ∈ e.blocks, b.Spares) → (e.blocks.flatMap Block.released).Sublist e.session.connection.durable ∧
    ∀ earlier b later, e.blocks = earlier ++ b::later → ((earlier ++ [b]).flatMap Block.released).Sublist b.connection.durable
  commitFailed : ∀ b ∈ e.blocks, b.ran .commit false → ∃ errorClass detail, b.results = nackAll b.rows errorClass detail
  stops : ∀ earlier b later, e.blocks = earlier ++ b::later → b.Fatal → ∃ detail,
    (∀ after ∈ b::later, after.results = nackAll after.rows .writerFatal detail) ∧ (∀ after ∈ later, after.issued = []) ∧
      (b.issued = [] ∨ ∃ err, detail = errorDetail err ∧ StopsAt b.issued err) ∧ e.fatal = some detail

theorem Kept.taken {accepted} {rest : List PendingRow} {after} (kept : Kept e accepted)
    (queue : e.pending = batch ++ rest) {n} (leaves : Leaves o { e with pending := rest,pendingBytes := n } after batch) :
    Kept after accepted ∧ after.pending = rest ∧ after.closed = e.closed ∧ after.timer = e.timer := by
  obtain ⟨b,next,fatal,rfl,written⟩ := leaves
  refine ⟨⟨?_,?_,?_,?_,?_,?_⟩,rfl,rfl,rfl⟩
  · rw [← kept.rows,queue]
    simp [written.rows]
  · simp [kept.posted,PayloadWriteResponse.results]
  · intro other inside
    rcases List.mem_append.mp inside with old | new
    · exact kept.answers other old
    · cases List.mem_singleton.mp new
      rw [written.answers,written.rows]
  · intro spares
    obtain ⟨before,earlierOnes⟩ := kept.released (fun other old => spares other (List.mem_append_left _ old))
    obtain ⟨made,grown,released⟩ := written.released (spares b (by simp))
    have whole : ((e.blocks ++ [b]).flatMap Block.released).Sublist next.connection.durable := by
      rw [grown,List.flatMap_append,List.flatMap_singleton]
      exact before.append released
    refine ⟨whole,?_⟩
    intro earlier other later split
    rcases History.snocSplit split with ⟨-,rfl,rfl⟩ | ⟨middle,-,old⟩
    · rwa [written.connection]
    · exact earlierOnes earlier other middle old
  · intro other inside failed
    rcases List.mem_append.mp inside with old | new
    · exact kept.commitFailed other old failed
    · cases List.mem_singleton.mp new
      rw [written.rows]
      exact written.commitFailed failed
  · intro earlier other later split fatal_
    rcases History.snocSplit split with ⟨rfl,rfl,rfl⟩ | ⟨middle,rfl,old⟩
    · obtain ⟨detail,still,results,stops⟩ := written.latched fatal_
      refine ⟨detail,?_,by simp,?_,still⟩
      · intro after inside
        cases List.mem_singleton.mp inside
        rw [written.rows]
        exact results
      · cases healthy : e.fatal with
        | none => exact .inr (stops healthy)
        | some old => exact .inl (written.broken old healthy).1
    · obtain ⟨detail,results,quiet,stops,latched⟩ := kept.stops earlier other middle old fatal_
      obtain ⟨silent,nacked,still⟩ := written.broken detail latched
      refine ⟨detail,?_,?_,stops,still⟩
      · intro after inside
        rcases List.mem_append.mp (List.cons_append ▸ inside : after ∈ (other::middle) ++ [b]) with old | new
        · exact results after old
        · cases List.mem_singleton.mp new
          rw [written.rows]
          exact nacked
      · intro after inside
        rcases List.mem_append.mp inside with old | new
        · exact quiet after old
        · cases List.mem_singleton.mp new
          exact silent

variable {accepted : List PayloadWriteRowMessage} (o db)

theorem Kept.written (kept : Kept e accepted) (some_ : e.pending ≠ []) : Kept (writeNext o db e) accepted ∧
    (writeNext o db e).pending.length < e.pending.length ∧ (writeNext o db e).closed = e.closed := by
  have all := takeBatchAll o e.pending 0 0
  have full := takeBatchSome o some_
  obtain ⟨after,queue,closed,-⟩ := kept.taken all.symm
    (batchLeaves o db { e with
      pending := (takeBatch o 0 0 e.pending).2
      pendingBytes := e.pendingBytes - ((takeBatch o 0 0 e.pending).1.map PendingRow.bytes).sum } full)
  refine ⟨after,?_,closed⟩
  have length := congrArg List.length all
  rw [List.length_append] at length
  have taken := List.length_pos_iff.mpr full
  change (writeBatch o db _ _).pending.length < _
  rw [queue]
  omega

theorem Kept.all (fuel : Nat) : ∀ {e}, Kept e accepted → e.pending.length ≤ fuel →
    Kept (writeAll o db fuel e) accepted ∧ (writeAll o db fuel e).pending = [] ∧ (writeAll o db fuel e).closed = e.closed := by
  induction fuel with
  | zero =>
    intro e kept enough
    exact ⟨kept,List.eq_nil_of_length_eq_zero (Nat.le_zero.mp enough),rfl⟩
  | succ fuel ih =>
    intro e kept enough
    rw [writeAll]
    split
    · rename_i empty
      exact ⟨kept,empty,rfl⟩
    · rename_i some_
      obtain ⟨next,shorter,closed⟩ := kept.written o db some_
      obtain ⟨last,empty,still⟩ := ih next (by omega)
      exact ⟨last,empty,still.trans closed⟩

theorem Kept.timed (kept : Kept e accepted) (timer closed : Bool) : Kept { e with timer := timer,closed := closed } accepted :=
  { kept with }

theorem Kept.flushed (kept : Kept e accepted) : Kept (flush o db e) accepted ∧ (flush o db e).pending = [] ∧
    (flush o db e).closed = e.closed :=
  Kept.all o db e.pending.length (kept.timed false e.closed) le_rfl

theorem Kept.queued (kept : Kept e accepted) (row : PayloadWriteRowMessage) (bytes n : Nat) :
    Kept { e with pending := e.pending ++ [⟨row,bytes⟩],pendingBytes := n } (accepted ++ [row]) := by
  refine { kept with rows := ?_ }
  rw [← kept.rows]
  simp

/-- The rows that are accepted: those before the first `close`. -/
def acceptedRows : List Call → List PayloadWriteRowMessage
  | [] => []
  | .accept row::rest => row::acceptedRows rest
  | .close::_ => []
  | _::rest => acceptedRows rest

structure Settled (e : Engine) (accepted : List PayloadWriteRowMessage) : Prop where
  kept : Kept e accepted
  empty : e.closed = true → e.pending = []

section
variable (settled : Settled e accepted)
include settled

theorem Settled.flushed : Settled (flush o db e) accepted ∧ (flush o db e).closed = e.closed := by
  obtain ⟨flushed,drained,still⟩ := settled.kept.flushed o db
  exact ⟨⟨flushed,fun _ => drained⟩,still⟩

theorem Settled.accepts (opened : e.closed = false) (row : PayloadWriteRowMessage) :
    Settled (accept o db e row) (accepted ++ [row]) ∧ (accept o db e row).closed = false := by
  have queued := settled.kept.queued row row.payload.length (e.pendingBytes + row.payload.length)
  rw [accept,if_neg (by simp [opened])]
  simp only
  split
  · obtain ⟨flushed,drained,still⟩ := queued.flushed o db
    exact ⟨⟨flushed,fun _ => drained⟩,still.trans opened⟩
  · exact ⟨⟨queued.timed true e.closed,fun closed => absurd (opened.symm.trans closed) (by simp)⟩,opened⟩

theorem Settled.closes : Settled (close o db e) accepted ∧ (close o db e).closed = true := by
  rw [close]
  split
  · rename_i closed
    exact ⟨settled,closed⟩
  · obtain ⟨flushed,drained,still⟩ := (settled.kept.timed e.timer true).flushed o db
    refine ⟨⟨{ flushed with posted := ?_ },fun _ => drained⟩,still⟩
    rw [List.filterMap_append]
    exact (List.append_nil _).trans flushed.posted

theorem Settled.elapsed : Settled (call o db e .elapse) accepted ∧
    (call o db e .elapse).closed = e.closed := by
  rw [call]
  split
  · exact settled.flushed o db
  · exact ⟨settled,rfl⟩

end

theorem Settled.afterClose (calls : List Call) : ∀ {e accepted}, Settled e accepted → e.closed = true →
    Settled (calls.foldl (call o db) e) accepted := by
  induction calls with
  | nil => exact fun settled _ => settled
  | cons c rest ih =>
    intro e accepted settled closed
    rw [List.foldl_cons]
    cases c with
    | accept row =>
      rw [call,accept,if_pos closed]
      exact ih settled closed
    | flush =>
      obtain ⟨next,still⟩ := settled.flushed o db
      exact ih next (still.trans closed)
    | close =>
      obtain ⟨next,still⟩ := settled.closes o db
      exact ih next still
    | elapse =>
      obtain ⟨next,still⟩ := settled.elapsed o db
      exact ih next (still.trans closed)

theorem Settled.run (calls : List Call) : ∀ {e accepted}, Settled e accepted → e.closed = false →
    Settled (calls.foldl (call o db) e) (accepted ++ acceptedRows calls) := by
  induction calls with
  | nil =>
    intro e accepted settled _
    simpa [acceptedRows] using settled
  | cons c rest ih =>
    intro e accepted settled opened
    cases c with
    | accept row =>
      obtain ⟨next,still⟩ := settled.accepts o db opened row
      have later := ih next still
      rwa [List.append_assoc] at later
    | flush =>
      obtain ⟨next,still⟩ := settled.flushed o db
      exact ih next (still.trans opened)
    | close =>
      obtain ⟨next,closed⟩ := settled.closes o db
      rw [acceptedRows,List.append_nil]
      exact next.afterClose o db rest closed
    | elapse =>
      obtain ⟨next,still⟩ := settled.elapsed o db
      exact ih next (still.trans opened)

structure Faithful (e : Engine) (accepted : List PayloadWriteRowMessage) : Prop where
  once : (e.blocks.flatMap Block.rows ++ e.pending).map PendingRow.row = accepted ∧ (e.closed = true → e.pending = [])
  posted : e.posted.filterMap PayloadWriteResponse.results = e.blocks.map Block.results
  answers : ∀ b ∈ e.blocks, b.results.map (fun answer => (answer.seq,answer.id)) =
    b.rows.map (fun pending => (pending.row.seq,pending.row.id))
  durable : (e.blocks.flatMap Block.released).Sublist e.session.connection.durable
  durableThen : ∀ earlier b later, e.blocks = earlier ++ b::later →
    ((earlier ++ [b]).flatMap Block.released).Sublist b.connection.durable
  commitFailed : ∀ b ∈ e.blocks, b.ran .commit false → ∃ errorClass detail, b.results = nackAll b.rows errorClass detail
  stops : ∀ earlier b later, e.blocks = earlier ++ b::later → b.Fatal → ∃ detail,
    (∀ after ∈ b::later, after.results = nackAll after.rows .writerFatal detail) ∧ (∀ after ∈ later, after.issued = []) ∧
      (b.issued = [] ∨ ∃ err, detail = errorDetail err ∧ StopsAt b.issued err)

def outOfMemory : SqliteError := ⟨some 7,some "SQLITE_NOMEM".toList,"out of memory".toList⟩

def misplaced : SqliteError := ⟨some 1,some "SQLITE_ERROR".toList,"no such savepoint: payload_row".toList⟩

def message (seq : Nat) (id : String) : PayloadWriteRowMessage := ⟨0,seq,id,[],0⟩

def exhausted : PayloadWriteDb where
  verdict n := if n = 5 then .fails outOfMemory true else if n = 8 ∨ n = 9 then .fails outOfMemory false else .passes
  refusal _ := misplaced

end Clankermux.PayloadWriteEngine
