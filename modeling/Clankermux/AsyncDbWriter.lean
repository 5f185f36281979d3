import Clankermux.PayloadLedger

/-! The owner of the payload writer: it admits a payload against a budget of bytes and
jobs, moves the budget from a reservation to the payload in flight, and gives it back
when the client tells it how the payload ended. The metadata queue is the environment:
its jobs call the methods, and `drained` is the moment it has run empty. -/
namespace Clankermux
open InsertionMap PayloadWriteClient

namespace AsyncDbWriter

def MAX_PAYLOAD_ENTRY_BYTES : Nat := 16 * 1024 * 1024
def PAYLOAD_FLUSH_DEADLINE_MS : Int := 15000
def PAYLOAD_QUEUE_HARD_CAP : Int := 1000
def PAYLOAD_BYTES_CAP : Int := 100 * 1024 * 1024

structure ReservationToken where
  reservedBytes : Nat
  settled : Bool

structure PayloadEnqueueInput where
  requestId : String
  byteLength : Nat
  timestamp : Int
  payloadBytes : Nat

structure WriterOptions where
  rotationByteBudget : Nat
  retentionMs : Option Int

end AsyncDbWriter

open AsyncDbWriter in
-- A counter of the source can go below zero; that none does is a result.
structure AsyncDbWriter where
  createPayloadWriter : Option WriterOptions
  payloadWriter : Option Client
  payloadReservedBytes : Int
  payloadReservedCount : Int
  payloadInFlightBytes : Int
  payloadInFlightOriginalBytes : Int
  payloadInFlightCount : Int
  payloadDropped : Nat
  payloadDroppedBytes : Nat
  payloadCommitted : Nat
  payloadExpired : Nat
  payloadAbandoned : Nat
  closingForDispose : Bool
  disposed : Bool
  tokens : InsertionMap Nat ReservationToken
  nextToken : Nat
  /-- The payloads that were accepted and the settlements that came back, newest first. -/
  accepted : List (Nat × Parcel)
  settlements : List (Nat × Settlement)

namespace AsyncDbWriter

def payloadBytesPending (w : AsyncDbWriter) : Int := w.payloadReservedBytes + w.payloadInFlightBytes
def payloadJobCount (w : AsyncDbWriter) : Int := w.payloadReservedCount + w.payloadInFlightCount

def canAcceptPayload (w : AsyncDbWriter) (estimatedBytes : Nat) : Bool :=
  if w.disposed || w.closingForDispose then false
  else if MAX_PAYLOAD_ENTRY_BYTES < estimatedBytes then false
  else if PAYLOAD_QUEUE_HARD_CAP ≤ payloadJobCount w then false
  else if PAYLOAD_BYTES_CAP < payloadBytesPending w + estimatedBytes then false
  else w.payloadWriter.all (·.acceptsWork)

def reservePayload (w : AsyncDbWriter) (estimatedBytes : Nat) : AsyncDbWriter :=
  if !canAcceptPayload w estimatedBytes then w
  else { w with
    payloadReservedBytes := w.payloadReservedBytes + estimatedBytes
    payloadReservedCount := w.payloadReservedCount + 1
    tokens := set w.tokens w.nextToken ⟨estimatedBytes,false⟩
    nextToken := w.nextToken + 1 }

def consume (w : AsyncDbWriter) (token : Nat) : Bool × AsyncDbWriter :=
  match get w.tokens token with
  | none => (false,w)
  | some t =>
    if t.settled then (false,w)
    else (true,{ w with
      payloadReservedBytes := w.payloadReservedBytes - t.reservedBytes
      payloadReservedCount := w.payloadReservedCount - 1
      tokens := set w.tokens token { t with settled := true } })

def release (w : AsyncDbWriter) (token : Nat) : AsyncDbWriter := (consume w token).2

def recordPayloadDrop (w : AsyncDbWriter) (bytes : Nat) : AsyncDbWriter :=
  { w with payloadDropped := w.payloadDropped + 1,payloadDroppedBytes := w.payloadDroppedBytes + bytes }

def onPayloadSettled (w : AsyncDbWriter) (settlement : Nat × Settlement) : AsyncDbWriter :=
  let released := { w with
    payloadInFlightBytes := w.payloadInFlightBytes - settlement.2.transportBytes
    payloadInFlightOriginalBytes := w.payloadInFlightOriginalBytes - settlement.2.payloadBytes
    payloadInFlightCount := w.payloadInFlightCount - 1
    settlements := settlement::w.settlements }
  match settlement.2.outcome with
  | .committed => { released with payloadCommitted := w.payloadCommitted + 1 }
  | .dropped => recordPayloadDrop released settlement.2.transportBytes
  | .expired => { released with payloadExpired := w.payloadExpired + 1 }
  | .abandoned => { released with payloadAbandoned := w.payloadAbandoned + 1 }

def afterwards (w : AsyncDbWriter) (c : Client) : AsyncDbWriter :=
  c.settlements.foldr (fun settlement w => onPayloadSettled w settlement) { w with payloadWriter := some c }

-- A client that is made is called from the task that makes it.
def ensurePayloadWriter (w : AsyncDbWriter) (now : Int) : Option Client :=
  match w.payloadWriter,w.createPayloadWriter with
  | some c,_ => some c
  | none,none => none
  | none,some options =>
    let c := { Client.start options.rotationByteBudget options.retentionMs now with jobs := [.caller] }
    some (if w.closingForDispose then beginDisposeDrain c else c)

def entryInput (entry : PayloadEnqueueInput) : EntryInput :=
  ⟨entry.requestId,entry.timestamp,entry.byteLength,entry.payloadBytes⟩

/-- The bytes belong to the accounting in flight until the client refuses the payload
or settles it. `publishReserved` has no way to throw. -/
def publishPayload (w : AsyncDbWriter) (c : Client) (entry : PayloadEnqueueInput) : AsyncDbWriter :=
  let charged := { w with
    payloadInFlightBytes := w.payloadInFlightBytes + entry.byteLength
    payloadInFlightOriginalBytes := w.payloadInFlightOriginalBytes + entry.payloadBytes
    payloadInFlightCount := w.payloadInFlightCount + 1 }
  let (published,d) := publishReserved c (entryInput entry)
  let called := afterwards charged d
  if published then { called with accepted := (c.nextSeq,(entryInput entry).parcel)::called.accepted }
  else recordPayloadDrop { called with
    payloadInFlightBytes := called.payloadInFlightBytes - entry.byteLength
    payloadInFlightOriginalBytes := called.payloadInFlightOriginalBytes - entry.payloadBytes
    payloadInFlightCount := called.payloadInFlightCount - 1 } entry.byteLength

def enqueuePayload (w : AsyncDbWriter) (now : Int) (throws : List Bool) (token : Nat) (entry : PayloadEnqueueInput) :
    AsyncDbWriter :=
  let (fresh,consumed) := consume w token
  if !fresh then consumed
  else if MAX_PAYLOAD_ENTRY_BYTES < entry.byteLength then recordPayloadDrop consumed entry.byteLength
  else if consumed.disposed || PAYLOAD_QUEUE_HARD_CAP ≤ consumed.payloadInFlightCount ||
      PAYLOAD_BYTES_CAP < payloadBytesPending consumed + entry.byteLength then recordPayloadDrop consumed entry.byteLength
  else
    match ensurePayloadWriter consumed now with
    | none => recordPayloadDrop consumed entry.byteLength
    | some c => publishPayload consumed (begin_ c ⟨now,throws,.op (.publishReserved (entryInput entry))⟩) entry

def callWriter (w : AsyncDbWriter) (now : Int) (throws : List Bool) (op : Op) : AsyncDbWriter :=
  match w.payloadWriter with
  | none => w
  | some c => afterwards w (runOp (begin_ c ⟨now,throws,.op op⟩) op)

def dispose (w : AsyncDbWriter) (now : Int) (throws : List Bool) : AsyncDbWriter :=
  callWriter { w with closingForDispose := true } now throws .beginDisposeDrain

def drained (w : AsyncDbWriter) (now : Int) (throws : List Bool) : AsyncDbWriter :=
  callWriter { w with disposed := true } now throws (.dispose PAYLOAD_FLUSH_DEADLINE_MS)

def setRetention (w : AsyncDbWriter) (now : Int) (throws : List Bool) (retentionMs : Option Int) : AsyncDbWriter :=
  callWriter { w with createPayloadWriter := w.createPayloadWriter.map (fun options => { options with retentionMs }) }
    now throws (.setRetention retentionMs)

inductive Action where
  | reservePayload (estimatedBytes : Nat)
  | release (token : Nat)
  | recordPayloadDrop (bytes : Nat)
  | enqueuePayload (token : Nat) (entry : PayloadEnqueueInput)
  | dispose
  | drained
  | setRetention (retentionMs : Option Int)
  | writer (action : PayloadWriteClient.Action)

structure Event where
  now : Int
  throws : List Bool
  action : Action

def runMethod (w : AsyncDbWriter) (e : Event) : Option AsyncDbWriter :=
  match e.action with
  | .reservePayload estimatedBytes => some (reservePayload w estimatedBytes)
  | .release token => some (release w token)
  | .recordPayloadDrop bytes => some (recordPayloadDrop w bytes)
  | .enqueuePayload token entry => some (enqueuePayload w e.now e.throws token entry)
  | .dispose => some (dispose w e.now e.throws)
  | .drained => if w.closingForDispose then some (drained w e.now e.throws) else none
  | .setRetention retentionMs => some (setRetention w e.now e.throws retentionMs)
  | .writer _ => none

def step (w : AsyncDbWriter) (e : Event) : Option AsyncDbWriter :=
  match e.action with
  | .writer (.op _) => none
  | .writer action =>
    w.payloadWriter.bind (fun c => (PayloadWriteClient.step c ⟨e.now,e.throws,action⟩).map (afterwards w))
  -- Whoever calls a method runs in a task of its own.
  | _ => if w.payloadWriter.all (fun c => c.jobs.head? = some .caller) then runMethod w e else none

def start (createPayloadWriter : Option WriterOptions) : AsyncDbWriter :=
  { createPayloadWriter,payloadWriter := none,payloadReservedBytes := 0,payloadReservedCount := 0
    payloadInFlightBytes := 0,payloadInFlightOriginalBytes := 0,payloadInFlightCount := 0,payloadDropped := 0
    payloadDroppedBytes := 0,payloadCommitted := 0,payloadExpired := 0,payloadAbandoned := 0
    closingForDispose := false,disposed := false,tokens := [],nextToken := 0,accepted := [],settlements := [] }

def machine : Machine AsyncDbWriter Event where
  init w := ∃ createPayloadWriter, w = .start createPayloadWriter
  step := step

def unconsumed (w : AsyncDbWriter) : List ReservationToken := (w.tokens.map Prod.snd).filter (fun t => !t.settled)
def registry (w : AsyncDbWriter) : InsertionMap Nat RegistryEntry := (w.payloadWriter.map (·.unacked)).getD []

def returned (w : AsyncDbWriter) : Prop := w.disposed = true ∧ ∀ c, w.payloadWriter = some c → c.phase = some .returned

def ledger (w : AsyncDbWriter) : Ledger Nat Parcel :=
  ⟨(registry w).map (Prod.map id RegistryEntry.parcel),w.settlements.map (Prod.map id Settlement.parcel)⟩

structure Accounted (w : AsyncDbWriter) : Prop where
  reservedBytes : w.payloadReservedBytes = ((unconsumed w).map (·.reservedBytes)).sum
  reservedCount : w.payloadReservedCount = (unconsumed w).length
  issued : ∀ token ∈ keys w.tokens, token < w.nextToken
  inFlightBytes : w.payloadInFlightBytes = Ledger.total Parcel.transportBytes (ledger w).held
  inFlightOriginalBytes : w.payloadInFlightOriginalBytes = Ledger.total Parcel.payloadBytes (ledger w).held
  inFlightCount : w.payloadInFlightCount = (ledger w).held.length
  balanced : Ledger.Balanced w.accepted (ledger w)
  numbered : ∀ seq ∈ w.accepted.map Prod.fst, ∃ c, w.payloadWriter = some c ∧ seq < c.nextSeq
  bytesCap : payloadBytesPending w ≤ PAYLOAD_BYTES_CAP
  countCap : payloadJobCount w ≤ PAYLOAD_QUEUE_HARD_CAP
  emptied : ∀ c, w.payloadWriter = some c → c.phase = some .returned → c.unacked = []

variable {w u : AsyncDbWriter} {c d : Client} {settlements : List (Nat × Settlement)}

structure SettledBy (settlements : List (Nat × Settlement)) (w u : AsyncDbWriter) : Prop where
  bytes : u.payloadInFlightBytes =
    w.payloadInFlightBytes - Ledger.total Parcel.transportBytes (settlements.map (Prod.map id Settlement.parcel))
  original : u.payloadInFlightOriginalBytes =
    w.payloadInFlightOriginalBytes - Ledger.total Parcel.payloadBytes (settlements.map (Prod.map id Settlement.parcel))
  count : u.payloadInFlightCount = w.payloadInFlightCount - settlements.length
  settlements : u.settlements = settlements ++ w.settlements
  writer : u.payloadWriter = w.payloadWriter
  tokens : u.tokens = w.tokens
  nextToken : u.nextToken = w.nextToken
  accepted : u.accepted = w.accepted
  reservedBytes : u.payloadReservedBytes = w.payloadReservedBytes
  reservedCount : u.payloadReservedCount = w.payloadReservedCount

theorem foldSettledBy (w : AsyncDbWriter) (settlements : List (Nat × Settlement)) :
    SettledBy settlements w (settlements.foldr (fun settlement w => onPayloadSettled w settlement) w) := by
  induction settlements with
  | nil => constructor <;> simp [Ledger.total]
  | cons head rest ih =>
    simp only [List.foldr_cons]
    generalize rest.foldr (fun settlement w => onPayloadSettled w settlement) w = u at ih ⊢
    obtain ⟨seq,s⟩ := head
    have counters : (onPayloadSettled u (seq,s)).payloadInFlightBytes = u.payloadInFlightBytes - s.transportBytes ∧
        (onPayloadSettled u (seq,s)).payloadInFlightOriginalBytes = u.payloadInFlightOriginalBytes - s.payloadBytes ∧
        (onPayloadSettled u (seq,s)).payloadInFlightCount = u.payloadInFlightCount - 1 ∧
        (onPayloadSettled u (seq,s)).settlements = (seq,s)::u.settlements := by
      unfold onPayloadSettled
      cases s.outcome <;> exact ⟨rfl,rfl,rfl,rfl⟩
    have kept : (onPayloadSettled u (seq,s)).payloadWriter = u.payloadWriter ∧
        (onPayloadSettled u (seq,s)).tokens = u.tokens ∧ (onPayloadSettled u (seq,s)).nextToken = u.nextToken ∧
        (onPayloadSettled u (seq,s)).accepted = u.accepted ∧
        (onPayloadSettled u (seq,s)).payloadReservedBytes = u.payloadReservedBytes ∧
        (onPayloadSettled u (seq,s)).payloadReservedCount = u.payloadReservedCount := by
      unfold onPayloadSettled
      cases s.outcome <;> exact ⟨rfl,rfl,rfl,rfl,rfl,rfl⟩
    obtain ⟨bytes,original,count,settled⟩ := counters
    constructor
    · rw [bytes,ih.bytes,List.map_cons,Prod.map_apply,Ledger.totalCons]
      simp only [Settlement.parcel]
      omega
    · rw [original,ih.original,List.map_cons,Prod.map_apply,Ledger.totalCons]
      simp only [Settlement.parcel]
      omega
    · rw [count,ih.count,List.length_cons]
      omega
    · rw [settled,ih.settlements]
      rfl
    · exact kept.1.trans ih.writer
    · exact kept.2.1.trans ih.tokens
    · exact kept.2.2.1.trans ih.nextToken
    · exact kept.2.2.2.1.trans ih.accepted
    · exact kept.2.2.2.2.1.trans ih.reservedBytes
    · exact kept.2.2.2.2.2.trans ih.reservedCount

theorem afterwardsSettled (w : AsyncDbWriter) (d : Client) :
    SettledBy d.settlements { w with payloadWriter := some d } (afterwards w d) := foldSettledBy _ _

theorem afterwardsQuiet (quiet : d.settlements = []) : afterwards w d = { w with payloadWriter := some d } := by
  simp [afterwards,quiet]

theorem Accounted.begun (a : Accounted w) (its : w.payloadWriter = some c) (ev : PayloadWriteClient.Event) :
    Accounted { w with payloadWriter := some (begin_ c ev) } := by
  have same : ledger { w with payloadWriter := some (begin_ c ev) } = ledger w := by
    simp only [ledger,registry,its]
    rfl
  exact ⟨a.reservedBytes,a.reservedCount,a.issued,same ▸ a.inFlightBytes,same ▸ a.inFlightOriginalBytes,
    same ▸ a.inFlightCount,same ▸ a.balanced,fun seq member => by
      obtain ⟨c',its',below⟩ := a.numbered seq member
      cases its.symm.trans its'
      exact ⟨_,rfl,below⟩,a.bytesCap,a.countCap,fun d its' returned => by
      cases its'
      exact a.emptied c its returned⟩

theorem Accounted.moved (a : Accounted w) (its : w.payloadWriter = some c) (quiet : c.settlements = [])
    (moved : Settles c d) : Accounted (afterwards w d) := by
  have s := afterwardsSettled w d
  generalize afterwards w d = u at s
  have free : unconsumed u = unconsumed w := by simp only [unconsumed,s.tokens]
  have before : (ledger w).held = c.ledger.held := by simp only [ledger,registry,its]; rfl
  have after : (ledger u).held = d.ledger.held := by simp only [ledger,registry,s.writer]; rfl
  have closed : c.ledger.closed = [] := by simp [Client.ledger,quiet]
  have now : d.ledger.closed = d.settlements.map (Prod.map id Settlement.parcel) := rfl
  have nodup : (keys c.ledger.held).Nodup := before ▸ a.balanced.nodup
  have perm := (moved.ledger.perm nodup).2
  rw [closed,List.append_nil] at perm
  have conserved : ∀ f, Ledger.total f c.ledger.held =
      Ledger.total f d.ledger.held + Ledger.total f (d.settlements.map (Prod.map id Settlement.parcel)) := by
    intro f
    rw [Ledger.totalPerm perm,Ledger.totalAppend,now]
  have counted : c.ledger.held.length = d.ledger.held.length + d.settlements.length := by
    rw [perm.length_eq,List.length_append,now,List.length_map]
  have inFlightBytes : u.payloadInFlightBytes = Ledger.total Parcel.transportBytes (ledger u).held := by
    have sum := conserved Parcel.transportBytes
    have was := before ▸ a.inFlightBytes
    rw [s.bytes,after]
    simp only
    omega
  have inFlightCount : u.payloadInFlightCount = (ledger u).held.length := by
    have was := before ▸ a.inFlightCount
    rw [s.count,after]
    simp only
    omega
  constructor
  · rw [s.reservedBytes,free]
    exact a.reservedBytes
  · rw [s.reservedCount,free]
    exact a.reservedCount
  · rw [s.tokens,s.nextToken]
    exact a.issued
  · exact inFlightBytes
  · have sum := conserved Parcel.payloadBytes
    have was := before ▸ a.inFlightOriginalBytes
    rw [s.original,after]
    simp only
    omega
  · exact inFlightCount
  · rw [s.accepted]
    have run := Ledger.Closes.onto (ledger w).closed moved.ledger closed
    rw [← before] at run
    have same : (⟨d.ledger.held,d.ledger.closed ++ (ledger w).closed⟩ : Ledger Nat Parcel) = ledger u := by
      rw [← after]
      simp only [ledger,s.settlements,List.map_append]
      rfl
    exact same ▸ a.balanced.closes run
  · intro seq member
    rw [s.accepted] at member
    obtain ⟨c',its',below⟩ := a.numbered seq member
    cases its.symm.trans its'
    exact ⟨d,s.writer,moved.next ▸ below⟩
  · have cap := a.bytesCap
    have sum := conserved Parcel.transportBytes
    have was := before ▸ a.inFlightBytes
    rw [after] at inFlightBytes
    simp only [payloadBytesPending,s.reservedBytes] at cap ⊢
    omega
  · have cap := a.countCap
    have was := before ▸ a.inFlightCount
    rw [after] at inFlightCount
    simp only [payloadJobCount,s.reservedCount] at cap ⊢
    omega
  · intro d' its' past
    cases s.writer.symm.trans its'
    rcases moved.returning past with earlier | empty
    · exact heldNone.mp (moved.ledger.emptied (heldNone.mpr (a.emptied c its earlier)))
    · exact empty

theorem Accounted.drop (a : Accounted w) (bytes : Nat) : Accounted (recordPayloadDrop w bytes) :=
  { a with }

theorem Accounted.reserve (a : Accounted w) (estimatedBytes : Nat) : Accounted (reservePayload w estimatedBytes) := by
  unfold reservePayload
  split
  · exact a
  rename_i can
  have room : payloadJobCount w < PAYLOAD_QUEUE_HARD_CAP ∧ payloadBytesPending w + estimatedBytes ≤ PAYLOAD_BYTES_CAP := by
    simp only [canAcceptPayload,Bool.not_eq_true',Bool.not_eq_false] at can
    split at can
    · cases can
    split at can
    · cases can
    split at can
    · cases can
    split at can
    · cases can
    exact ⟨by omega,by omega⟩
  have fresh : w.nextToken ∉ keys w.tokens := fun member => Nat.lt_irrefl _ (a.issued _ member)
  have more : ((set w.tokens w.nextToken ⟨estimatedBytes,false⟩).map Prod.snd).filter (fun t => !t.settled) =
      (w.tokens.map Prod.snd).filter (fun t => !t.settled) ++ [⟨estimatedBytes,false⟩] := by
    rw [setFresh fresh]
    simp
  constructor
  · have sum := a.reservedBytes
    simp only [unconsumed] at sum
    simp only [unconsumed,more,List.map_append,List.sum_append,List.map_cons,List.map_nil,List.sum_cons,List.sum_nil]
    omega
  · have count := a.reservedCount
    simp only [unconsumed] at count
    simp only [unconsumed,more,List.length_append,List.length_cons,List.length_nil]
    omega
  · intro token member
    rw [setFresh fresh] at member
    rcases List.mem_append.mp (by simpa [keys] using member : token ∈ keys w.tokens ++ [w.nextToken]) with old | new
    · exact Nat.lt_succ_of_lt (a.issued token old)
    · exact List.mem_singleton.mp new ▸ Nat.lt_succ_self _
  · exact a.inFlightBytes
  · exact a.inFlightOriginalBytes
  · exact a.inFlightCount
  · exact a.balanced
  · exact a.numbered
  · have cap := room.2
    simp only [payloadBytesPending] at cap ⊢
    omega
  · have cap := room.1
    simp only [payloadJobCount] at cap ⊢
    omega
  · exact a.emptied

theorem consumePerm {m : InsertionMap Nat ReservationToken} {token t}
    (found : get m token = some t) (unsettled : t.settled = false) :
    ((m.map Prod.snd).filter (fun t => !t.settled)).Perm
      (t::((set m token { t with settled := true }).map Prod.snd).filter (fun t => !t.settled)) := by
  induction m with
  | nil => simp at found
  | cons head rest ih =>
    obtain ⟨k,v⟩ := head
    by_cases its : k = token
    · subst its
      simp only [InsertionMap.get,if_true,Option.some.injEq] at found
      subst found
      simp [InsertionMap.set,unsettled]
    · simp only [InsertionMap.get,if_neg its] at found
      have inner := ih found
      cases free : v.settled with
      | true => simpa [InsertionMap.set,its,free] using inner
      | false =>
        have both := (inner.cons v).trans (.swap t v _)
        simpa [InsertionMap.set,its,free] using both

section
variable (a : Accounted w)
include a

theorem consumeSpec (token : Nat) :
    Accounted (consume w token).2 ∧ (consume w token).2.payloadWriter = w.payloadWriter ∧
      ((consume w token).1 = true → payloadJobCount (consume w token).2 < PAYLOAD_QUEUE_HARD_CAP) := by
  unfold consume
  split
  · exact ⟨a,rfl,fun impossible => by cases impossible⟩
  rename_i t found
  split
  · exact ⟨a,rfl,fun impossible => by cases impossible⟩
  rename_i unsettled
  have perm := consumePerm found (eq_false_of_ne_true unsettled)
  have bytes : ((unconsumed w).map (·.reservedBytes)).sum = t.reservedBytes + ((((set w.tokens token
      { t with settled := true }).map Prod.snd).filter (fun t => !t.settled)).map (·.reservedBytes)).sum :=
    (perm.map _).sum_eq
  have count : (unconsumed w).length = (((set w.tokens token
      { t with settled := true }).map Prod.snd).filter (fun t => !t.settled)).length + 1 := perm.length_eq
  have sum := a.reservedBytes
  have number := a.reservedCount
  refine ⟨?_,rfl,fun _ => ?_⟩
  · constructor
    · simp only [unconsumed]
      omega
    · simp only [unconsumed]
      omega
    · intro other member
      obtain ⟨value,its⟩ := getOfMemKeys member
      rw [getSet] at its
      split at its
      · rename_i same
        exact same ▸ a.issued token (memKeysOfGet found)
      · exact a.issued other (memKeysOfGet its)
    · exact a.inFlightBytes
    · exact a.inFlightOriginalBytes
    · exact a.inFlightCount
    · exact a.balanced
    · exact a.numbered
    · have cap := a.bytesCap
      simp only [payloadBytesPending] at cap ⊢
      omega
    · have cap := a.countCap
      simp only [payloadJobCount] at cap ⊢
      omega
    · exact a.emptied
  · have cap := a.countCap
    simp only [payloadJobCount] at cap ⊢
    omega

theorem Accounted.born (none : w.payloadWriter = .none) (empty : c.unacked = []) :
    Accounted { w with payloadWriter := some c } := by
  have same : ledger { w with payloadWriter := some c } = ledger w := by
    simp [ledger,registry,none,empty]
  exact ⟨a.reservedBytes,a.reservedCount,a.issued,same ▸ a.inFlightBytes,same ▸ a.inFlightOriginalBytes,
    same ▸ a.inFlightCount,same ▸ a.balanced,fun seq member => by
      obtain ⟨c',its,_⟩ := a.numbered seq member
      exact absurd (none.symm.trans its) (by simp),a.bytesCap,a.countCap,fun d its _ => by
      cases its
      exact empty⟩

theorem Accounted.publish (its : w.payloadWriter = some c) (quiet : c.settlements = [])
    (entry : PayloadEnqueueInput) (room : payloadJobCount w < PAYLOAD_QUEUE_HARD_CAP)
    (space : payloadBytesPending w + entry.byteLength ≤ PAYLOAD_BYTES_CAP) : Accounted (publishPayload w c entry) := by
  have held : (ledger w).held = c.ledger.held := by simp only [ledger,registry,its]; rfl
  rcases publishReservedSettles c (entryInput entry) with ⟨published,open_,books⟩ | ⟨refused,same⟩
  · -- The payload is held under a number of its own.
    generalize last : publishReserved c (entryInput entry) = pd at published books
    obtain ⟨ok,d⟩ := pd
    cases published
    have its' : d.ledger = { c.ledger with held := set c.ledger.held c.nextSeq (entryInput entry).parcel } :=
      congrArg Books.ledger books
    have next : d.nextSeq = c.nextSeq + 1 := congrArg Books.nextSeq books
    have phase : d.phase = c.phase := congrArg Books.phase books
    have silent : d.settlements = [] := by
      have closed : d.ledger.closed = [] := by rw [its']; simp [Client.ledger,quiet]
      exact List.map_eq_nil_iff.mp closed
    have result : publishPayload w c entry = { w with
        payloadWriter := some d
        payloadInFlightBytes := w.payloadInFlightBytes + entry.byteLength
        payloadInFlightOriginalBytes := w.payloadInFlightOriginalBytes + entry.payloadBytes
        payloadInFlightCount := w.payloadInFlightCount + 1
        accepted := (c.nextSeq,(entryInput entry).parcel)::w.accepted } := by
      simp only [publishPayload,last,if_true,afterwardsQuiet silent]
    have fresh : c.nextSeq ∉ w.accepted.map Prod.fst := by
      intro member
      obtain ⟨c',its',below⟩ := a.numbered _ member
      cases its.symm.trans its'
      exact Nat.lt_irrefl _ below
    rw [result]
    generalize after : ({ w with
        payloadWriter := some d
        payloadInFlightBytes := w.payloadInFlightBytes + entry.byteLength
        payloadInFlightOriginalBytes := w.payloadInFlightOriginalBytes + entry.payloadBytes
        payloadInFlightCount := w.payloadInFlightCount + 1
        accepted := (c.nextSeq,(entryInput entry).parcel)::w.accepted } : AsyncDbWriter) = u
    have ledger_ : ledger u = { ledger w with held := set (ledger w).held c.nextSeq (entryInput entry).parcel } := by
      subst after
      have now : d.unacked.map (Prod.map id RegistryEntry.parcel) =
          set c.ledger.held c.nextSeq (entryInput entry).parcel := congrArg Ledger.held its'
      rw [held]
      simp only [ledger,registry,Option.map_some,Option.getD_some,now]
    have opened := a.balanced.opens (a := (entryInput entry).parcel) fresh
    have absent : c.nextSeq ∉ keys (ledger w).held := by
      have distinct := opened.nodup
      intro member
      have inside := (a.balanced.perm.map Prod.fst).mem_iff.mpr (by
        rw [List.map_append]
        exact List.mem_append_left _ member)
      exact fresh inside
    have appended : (ledger u).held = (ledger w).held ++ [(c.nextSeq,(entryInput entry).parcel)] := by
      rw [ledger_]
      exact setFresh absent
    have bytes := a.inFlightBytes
    have original := a.inFlightOriginalBytes
    have count := a.inFlightCount
    have one : ∀ f, Ledger.total f (ledger u).held =
        Ledger.total f (ledger w).held + f (entryInput entry).parcel := by
      intro f
      rw [appended,Ledger.totalAppend,Ledger.totalCons]
      simp [Ledger.total]
    have bytesOne := one Parcel.transportBytes
    have originalOne := one Parcel.payloadBytes
    have countOne : (ledger u).held.length = (ledger w).held.length + 1 := by rw [appended]; simp
    simp only [entryInput,EntryInput.parcel] at bytesOne originalOne
    have accepted : u.accepted = (c.nextSeq,(entryInput entry).parcel)::w.accepted := by rw [← after]
    have flight : u.payloadInFlightBytes = w.payloadInFlightBytes + entry.byteLength := by rw [← after]
    have flightOriginal : u.payloadInFlightOriginalBytes = w.payloadInFlightOriginalBytes + entry.payloadBytes := by
      rw [← after]
    have flightCount : u.payloadInFlightCount = w.payloadInFlightCount + 1 := by rw [← after]
    have writer : u.payloadWriter = some d := by rw [← after]
    have reservedBytes : u.payloadReservedBytes = w.payloadReservedBytes := by rw [← after]
    have reservedCount : u.payloadReservedCount = w.payloadReservedCount := by rw [← after]
    constructor
    · subst after
      exact a.reservedBytes
    · subst after
      exact a.reservedCount
    · subst after
      exact a.issued
    · omega
    · omega
    · omega
    · rw [accepted,ledger_]
      exact opened
    · intro seq member
      rw [accepted] at member
      refine ⟨d,writer,?_⟩
      rcases List.mem_cons.mp member with rfl | old
      · exact next ▸ Nat.lt_succ_self _
      · obtain ⟨c',its',below⟩ := a.numbered seq old
        cases its.symm.trans its'
        exact next ▸ Nat.lt_succ_of_lt below
    · simp only [payloadBytesPending] at space ⊢
      omega
    · simp only [payloadJobCount] at room ⊢
      omega
    · intro d' its' past
      cases writer.symm.trans its'
      have running : c.phase = some .returned := phase ▸ past
      have gone : c.disposal = none := by simpa [Client.disposed] using open_
      simp [Client.phase,gone] at running
  · -- Refused: the budget is given back.
    have rolled : publishPayload w c entry = recordPayloadDrop w entry.byteLength := by
      simp only [publishPayload,refused,same,afterwardsQuiet quiet,Bool.false_eq_true,if_false]
      simp only [Int.add_sub_cancel,← its]
    rw [rolled]
    exact a.drop _

theorem Accounted.enqueue (now : Int) (throws : List Bool) (token : Nat) (entry : PayloadEnqueueInput) :
    Accounted (enqueuePayload w now throws token entry) := by
  obtain ⟨consumed,_,room⟩ := consumeSpec a token
  unfold enqueuePayload
  simp only
  split
  · exact consumed
  rename_i fresh
  split
  · exact consumed.drop _
  split
  · exact consumed.drop _
  rename_i fits
  have room := room (by simpa using fresh)
  have space : payloadBytesPending (consume w token).2 + entry.byteLength ≤ PAYLOAD_BYTES_CAP := by
    simp only [Bool.or_eq_true,decide_eq_true_eq] at fits
    omega
  split
  · exact consumed.drop _
  rename_i c ensured
  let ev : PayloadWriteClient.Event := ⟨now,throws,.op (.publishReserved (entryInput entry))⟩
  have ready : Accounted { (consume w token).2 with payloadWriter := some (begin_ c ev) } := by
    cases its : (consume w token).2.payloadWriter with
    | some c' =>
      have same : c' = c := by simpa [ensurePayloadWriter,its] using ensured
      subst same
      exact consumed.begun its ev
    | none =>
      refine consumed.born its ?_
      cases made : (consume w token).2.createPayloadWriter with
      | none => simp [ensurePayloadWriter,its,made] at ensured
      | some options =>
        simp only [ensurePayloadWriter,its,made,Option.some.injEq] at ensured
        rw [← ensured]
        split <;> rfl
  exact ready.publish rfl rfl entry room space

theorem Accounted.call (now : Int) (throws : List Bool) (op : Op)
    (own : ∀ c, Settles c (runOp c op)) : Accounted (callWriter w now throws op) := by
  unfold callWriter
  split
  · exact a
  · rename_i c its
    exact (a.begun its ⟨now,throws,.op op⟩).moved rfl rfl (own _)

theorem Accounted.flags (createPayloadWriter : Option WriterOptions) (closingForDispose disposed : Bool) :
    Accounted { w with createPayloadWriter,closingForDispose,disposed } :=
  { a with }

end

theorem stepAccounted {ev : Event} (a : Accounted w) (stepped : step w ev = some u) : Accounted u := by
  have method : runMethod w ev = some u → Accounted u := by
    intro ran
    unfold runMethod at ran
    split at ran
    · cases ran
      exact a.reserve _
    · cases ran
      exact (consumeSpec a _).1
    · cases ran
      exact a.drop _
    · cases ran
      exact a.enqueue _ _ _ _
    · cases ran
      exact (a.flags _ true _).call _ _ _ (fun _ => .frame rfl)
    · split at ran
      · cases ran
        exact (a.flags _ _ true).call _ _ _ (fun c => disposeSettles c _)
      · cases ran
    · cases ran
      exact (a.flags _ _ _).call _ _ _ (fun _ => .frame rfl)
    · cases ran
  unfold step at stepped
  split at stepped
  · cases stepped
  · rename_i action own its
    obtain ⟨c,writer,moved⟩ := Option.bind_eq_some_iff.mp stepped
    obtain ⟨d,went,rfl⟩ := Option.map_eq_some_iff.mp moved
    have settles := stepSettles ⟨ev.now,ev.throws,action⟩ (fun op same => own op same) went
    exact (a.begun writer ⟨ev.now,ev.throws,action⟩).moved rfl rfl settles
  · split at stepped
    · exact method stepped
    · cases stepped

theorem startAccounted (createPayloadWriter : Option WriterOptions) : Accounted (start createPayloadWriter) := by
  constructor <;> simp [start,unconsumed,ledger,registry,Ledger.total,payloadBytesPending,payloadJobCount,
    PAYLOAD_BYTES_CAP,PAYLOAD_QUEUE_HARD_CAP,keys]
  exact ⟨List.nodup_nil,.refl _⟩

theorem accountedReachable (reach : machine.Reachable w) : Accounted w := by
  refine reach.invariant ?_ (fun _ _ _ => stepAccounted)
  rintro _ ⟨createPayloadWriter,rfl⟩
  exact startAccounted createPayloadWriter

def timesSettled (w : AsyncDbWriter) (seq : Nat) : Nat := (w.settlements.map Prod.fst).count seq

structure PayloadsAccounted (w : AsyncDbWriter) : Prop where
  reservedBytes : w.payloadReservedBytes = ((unconsumed w).map (·.reservedBytes)).sum
  reservedCount : w.payloadReservedCount = (unconsumed w).length
  inFlightBytes : w.payloadInFlightBytes = ((registry w).map (·.2.transportBytes)).sum
  inFlightOriginalBytes : w.payloadInFlightOriginalBytes = ((registry w).map (·.2.payloadBytes)).sum
  inFlightCount : w.payloadInFlightCount = (registry w).length
  bytesCap : w.payloadReservedBytes + w.payloadInFlightBytes ≤ PAYLOAD_BYTES_CAP
  countCap : w.payloadReservedCount + w.payloadInFlightCount ≤ PAYLOAD_QUEUE_HARD_CAP
  /-- A payload that was accepted is registered and unsettled, or settled once. -/
  settledOnce : ∀ seq ∈ w.accepted.map Prod.fst,
    (seq ∈ keys (registry w) ∧ timesSettled w seq = 0) ∨ (seq ∉ keys (registry w) ∧ timesSettled w seq = 1)
  settledAccepted : ∀ settlement ∈ w.settlements, (settlement.1,settlement.2.parcel) ∈ w.accepted
  afterDispose : returned w → registry w = [] ∧ w.payloadInFlightBytes = 0 ∧ w.payloadInFlightOriginalBytes = 0 ∧
    w.payloadInFlightCount = 0 ∧ ∀ seq ∈ w.accepted.map Prod.fst, timesSettled w seq = 1

theorem payloadsAccounted (reach : machine.Reachable w) : PayloadsAccounted w := by
  have a := accountedReachable reach
  have total : ∀ f : Parcel → Nat, Ledger.total f (ledger w).held = ((registry w).map (fun entry => f entry.2.parcel)).sum := by
    intro f
    simp [Ledger.total,ledger,Function.comp_def]
  have held : keys (ledger w).held = keys (registry w) := keysMap
  have closed : (ledger w).closed.map Prod.fst = w.settlements.map Prod.fst := by
    simp [ledger]
  have once : ∀ seq ∈ w.accepted.map Prod.fst, (seq ∈ keys (registry w) ∧ timesSettled w seq = 0) ∨
      (seq ∉ keys (registry w) ∧ timesSettled w seq = 1) := by
    intro seq member
    have either := a.balanced.once member
    rwa [held,closed] at either
  have bytes := a.inFlightBytes.trans (congrArg Nat.cast (total Parcel.transportBytes))
  have original := a.inFlightOriginalBytes.trans (congrArg Nat.cast (total Parcel.payloadBytes))
  have count : w.payloadInFlightCount = (registry w).length := by
    rw [a.inFlightCount]
    simp [ledger]
  refine ⟨a.reservedBytes,a.reservedCount,bytes,original,count,a.bytesCap,a.countCap,once,?_,?_⟩
  · intro settlement member
    refine a.balanced.perm.mem_iff.mpr (List.mem_append_right _ ?_)
    exact List.mem_map.mpr ⟨settlement,member,rfl⟩
  · rintro ⟨-,past⟩
    have empty : registry w = [] := by
      cases its : w.payloadWriter with
      | none => simp [registry,its]
      | some c => simpa [registry,its] using a.emptied c its (past c its)
    rw [empty] at bytes original count
    refine ⟨empty,bytes,original,count,fun seq member => ?_⟩
    rcases once seq member with ⟨held,_⟩ | ⟨_,one⟩
    · rw [empty] at held
      cases held
    · exact one

def immediate (action : Action) : Event := ⟨0,[],action⟩

def shutDown : List Event :=
  [immediate (.reservePayload 10),immediate (.reservePayload 10),immediate (.enqueuePayload 0 ⟨"a",8,0,20⟩),
    immediate (.writer (.leave 0)),immediate (.writer (.message 1 .ready)),immediate (.writer .job),
    immediate (.writer .job),immediate (.writer (.message 1 (.ack 1 [⟨1,true,none,none⟩]))),
    immediate (.writer .enter),immediate .dispose,immediate (.enqueuePayload 1 ⟨"b",9,0,30⟩),immediate .drained,
    immediate (.writer (.leave 0)),immediate (.writer (.closeTimeout 1)),immediate (.writer .job)]

theorem payloadsAccountedShutDown : ∃ w, machine.run (start (some ⟨150,none⟩)) shutDown = some w ∧
    w.payloadCommitted = 1 ∧ w.payloadAbandoned = 1 ∧ w.payloadInFlightBytes = 0 ∧ PayloadsAccounted w :=
  ⟨_,rfl,rfl,rfl,rfl,payloadsAccounted
    (Machine.runReachable (s := start (some ⟨150,none⟩)) shutDown ⟨_,rfl⟩ rfl)⟩

end AsyncDbWriter
end Clankermux
