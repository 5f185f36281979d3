import Clankermux.Transactions
import Mathlib.Algebra.GroupWithZero.Nat
import Mathlib.Data.List.Flatten

/-! The engine of the payload writer: rows are queued, taken in batches and written in one
transaction a batch, each row in a savepoint of its own; every batch is answered. -/
namespace Clankermux.PayloadWriteEngine
open Transactions

inductive PayloadWriteErrorClass where
  | entryPermanent
  | retryable
  | writerFatal
  deriving DecidableEq

structure SqliteError where
  errno : Option Int
  code : Option (List Char)
  message : List Char

def includes (text part : List Char) : Bool := text.tails.any (part.isPrefixOf ·)

def toLowerCase (text : List Char) : List Char := text.map (fun ch => if ch.toNat = 0x212A then 'k' else ch.toLower)

def primaryCode (err : SqliteError) : Option Int := err.errno.map (· % 256)

def primaryIn (codes : List Int) (err : SqliteError) : Bool := (primaryCode err).any (codes.contains ·)

def codeStarts (marks : List (List Char)) (err : SqliteError) : Bool := err.code.any (fun code => marks.any (·.isPrefixOf code))

def isTransientLockError (err : SqliteError) : Bool :=
  primaryIn [5,6] err || codeStarts ["SQLITE_BUSY".toList,"SQLITE_LOCKED".toList] err ||
    includes err.message "database is locked".toList || includes err.message "database table is locked".toList

def isCorruptionError (err : SqliteError) : Bool :=
  primaryIn [11,26] err || codeStarts ["SQLITE_CORRUPT".toList,"SQLITE_NOTADB".toList] err ||
    includes (toLowerCase err.message) "disk image is malformed".toList ||
    includes (toLowerCase err.message) "malformed database schema".toList ||
    includes (toLowerCase err.message) "database schema is corrupt".toList ||
    includes (toLowerCase err.message) "is not a database".toList

def WRITER_FATAL_PRIMARY_CODES : List Int := [8,10,11,13,14,26]

def RETRYABLE_EXTENDED_CODES : List (List Char) :=
  ["SQLITE_IOERR_LOCK".toList,"SQLITE_IOERR_RDLOCK".toList,"SQLITE_IOERR_UNLOCK".toList,
    "SQLITE_IOERR_CHECKRESERVEDLOCK".toList,"SQLITE_IOERR_ACCESS".toList,"SQLITE_PROTOCOL".toList]

def ENTRY_PERMANENT_PRIMARY_CODES : List Int := [18,19,20,25]

def extendedRetryable (err : SqliteError) : Bool := err.code.any (RETRYABLE_EXTENDED_CODES.contains ·)

def errorDetail (err : SqliteError) : List Char :=
  match err.code with
  | none => err.message
  | some [] => err.message
  | some code => code ++ ": ".toList ++ err.message

def classifyRowError (err : SqliteError) : PayloadWriteErrorClass :=
  if isTransientLockError err then .retryable
  else if extendedRetryable err then .retryable
  else if isCorruptionError err then .writerFatal
  else if primaryIn WRITER_FATAL_PRIMARY_CODES err then .writerFatal
  else if primaryIn ENTRY_PERMANENT_PRIMARY_CODES err then .entryPermanent
  else .entryPermanent

def classifyCommitError (err : SqliteError) : PayloadWriteErrorClass :=
  if isTransientLockError err then .retryable
  else if extendedRetryable err then .retryable
  else .writerFatal

structure PayloadWriteRowMessage where
  generation : Nat
  seq : Nat
  id : String
  payload : List UInt8
  timestamp : Int
  deriving DecidableEq

structure PendingRow where
  row : PayloadWriteRowMessage
  bytes : Nat
  deriving DecidableEq

inductive Status where
  | committed
  | failed (errorClass : PayloadWriteErrorClass) (detail : List Char)
  deriving DecidableEq

structure PayloadWriteAck where
  seq : Nat
  id : String
  status : Status
  deriving DecidableEq

inductive PayloadWriteResponse where
  | ack (generation : Nat) (results : List PayloadWriteAck)
  | closed (generation : Nat)
  deriving DecidableEq

def PendingRow.answer (pending : PendingRow) (status : Status) : PayloadWriteAck := ⟨pending.row.seq,pending.row.id,status⟩

def nackAll (batch : List PendingRow) (errorClass : PayloadWriteErrorClass) (detail : List Char) : List PayloadWriteAck :=
  batch.map (·.answer (.failed errorClass detail))

structure PayloadWriteEngineOptions where
  generation : Nat
  maxBatchBytes : Nat
  maxBatchRows : Nat

abbrev PayloadWriteDb := Database PendingRow SqliteError
abbrev PayloadSession := Session PendingRow SqliteError

structure RowStep where
  pending : PendingRow
  before : Connection PendingRow
  after : Connection PendingRow
  error : Option SqliteError

def RowStep.status (step : RowStep) : Status :=
  match step.error with
  | none => .committed
  | some err => .failed (classifyRowError err) (errorDetail err)

def writeRow (db : PayloadWriteDb) (s : PayloadSession) (pending : PendingRow) : Option SqliteError × PayloadSession :=
  match execAll db s [.savepoint,.insert pending,.release] with
  | (none,next) => (none,next)
  -- An error of the clean-up is swallowed.
  | (some err,next) => (some err,(execAll db next [.rollbackTo,.release]).2)

def writeRows (db : PayloadWriteDb) (s : PayloadSession) : List PendingRow → List RowStep × Option SqliteError × PayloadSession
  | [] => ([],none,s)
  | pending::rest =>
    let (error,next) := writeRow db s pending
    let step : RowStep := ⟨pending,s.connection,next.connection,error⟩
    match error.filter (classifyRowError · = .writerFatal) with
    | some err => ([step],some err,next)
    | none =>
      let (steps,fatalRow,last) := writeRows db next rest
      (step::steps,fatalRow,last)

structure Block where
  rows : List PendingRow
  results : List PayloadWriteAck
  issued : List (Issued PendingRow SqliteError)
  steps : List RowStep
  connection : Connection PendingRow

structure Engine where
  session : PayloadSession
  pending : List PendingRow
  pendingBytes : Nat
  timer : Bool
  fatal : Option (List Char)
  closed : Bool
  posted : List PayloadWriteResponse
  blocks : List Block

def Engine.start : Engine := ⟨.start,[],0,false,none,false,[],[]⟩

def post (o : PayloadWriteEngineOptions) (e : Engine) (session : PayloadSession) (batch : List PendingRow) (steps : List RowStep)
    (results : List PayloadWriteAck) (fatal : Option (List Char)) : Engine :=
  { e with
    session := session
    fatal := fatal
    posted := e.posted ++ [.ack o.generation results]
    blocks := e.blocks ++ [⟨batch,results,session.issued.drop e.session.issued.length,steps,session.connection⟩] }

def latch (e : Engine) (errorClass : PayloadWriteErrorClass) (err : SqliteError) : Option (List Char) :=
  if errorClass = .writerFatal then some (errorDetail err) else e.fatal

def writeBatch (o : PayloadWriteEngineOptions) (db : PayloadWriteDb) (e : Engine) (batch : List PendingRow) : Engine :=
  if batch = [] then e
  else
    match e.fatal with
    | some detail => post o e e.session batch [] (nackAll batch .writerFatal detail) e.fatal
    | none =>
      match exec db e.session .beginImmediate with
      | (some err,s) =>
        let errorClass := classifyCommitError err
        post o e s batch [] (nackAll batch errorClass (errorDetail err)) (latch e errorClass err)
      | (none,s) =>
        match writeRows db s batch with
        | (steps,some err,s) =>
          post o e (exec db s .rollback).2 batch steps (nackAll batch .writerFatal (errorDetail err)) (some (errorDetail err))
        | (steps,none,s) =>
          match exec db s .commit with
          | (some err,s) =>
            let errorClass := classifyCommitError err
            post o e (exec db s .rollback).2 batch steps (nackAll batch errorClass (errorDetail err)) (latch e errorClass err)
          | (none,s) => post o e s batch steps (steps.map (fun step => step.pending.answer step.status)) e.fatal

def takeBatch (o : PayloadWriteEngineOptions) (count bytes : Nat) : List PendingRow → List PendingRow × List PendingRow
  | [] => ([],[])
  | next::rest =>
    if 0 < count ∧ (o.maxBatchRows ≤ count ∨ o.maxBatchBytes < bytes + next.bytes) then ([],next::rest)
    else
      let (batch,kept) := takeBatch o (count+1) (bytes + next.bytes) rest
      (next::batch,kept)

def writeNext (o : PayloadWriteEngineOptions) (db : PayloadWriteDb) (e : Engine) : Engine :=
  let (batch,kept) := takeBatch o 0 0 e.pending
  writeBatch o db { e with pending := kept,pendingBytes := e.pendingBytes - (batch.map PendingRow.bytes).sum } batch

def writeAll (o : PayloadWriteEngineOptions) (db : PayloadWriteDb) : Nat → Engine → Engine
  | 0,e => e
  | fuel+1,e => if e.pending = [] then e else writeAll o db fuel (writeNext o db e)

def flush (o : PayloadWriteEngineOptions) (db : PayloadWriteDb) (e : Engine) : Engine :=
  writeAll o db e.pending.length { e with timer := false }

def accept (o : PayloadWriteEngineOptions) (db : PayloadWriteDb) (e : Engine) (row : PayloadWriteRowMessage) : Engine :=
  if e.closed then e
  else
    let bytes := row.payload.length
    let queued := { e with pending := e.pending ++ [⟨row,bytes⟩],pendingBytes := e.pendingBytes + bytes }
    if o.maxBatchRows ≤ queued.pending.length ∨ o.maxBatchBytes ≤ queued.pendingBytes then flush o db queued
    else { queued with timer := true }

def close (o : PayloadWriteEngineOptions) (db : PayloadWriteDb) (e : Engine) : Engine :=
  if e.closed then e
  else
    let flushed := flush o db { e with closed := true }
    { flushed with posted := flushed.posted ++ [.closed o.generation] }

inductive Call where
  | accept (row : PayloadWriteRowMessage)
  | flush
  | close
  -- The timer of a batch runs out, if it is armed.
  | elapse

def call (o : PayloadWriteEngineOptions) (db : PayloadWriteDb) (e : Engine) : Call → Engine
  | .accept row => accept o db e row
  | .flush => flush o db e
  | .close => close o db e
  | .elapse => if e.timer then flush o db e else e

def run (o : PayloadWriteEngineOptions) (db : PayloadWriteDb) (calls : List Call) : Engine := calls.foldl (call o db) .start

end Clankermux.PayloadWriteEngine
