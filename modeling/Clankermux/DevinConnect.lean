import Clankermux.JsonText
import Clankermux.Utf8

/-! The envelopes a Devin answer comes in: each of its frames has a flag and a length before
it, and the last one is a trailer of JSON. They are taken out of the network's pieces. -/
namespace Clankermux.DevinConnect

abbrev Bytes := List UInt8

structure DevinRpcError where
  code : String
  message : List Char

inductive Failure where
  | rpc (error : DevinRpcError)
  | thrown

def dataLoss (message : String) : Failure := .rpc ⟨"data_loss",message.toList⟩

def maxFrame : Nat := 16*1024*1024

def uint32 (a b c d : UInt8) : Nat := ((a.toNat*256+b.toNat)*256+c.toNat)*256+d.toNat

def encodeConnect (bytes : Bytes) (flags : UInt8) : Bytes :=
  flags::UInt8.ofNat (bytes.length/16777216)::UInt8.ofNat (bytes.length/65536)::UInt8.ofNat (bytes.length/256)::
    UInt8.ofNat bytes.length::bytes

def decodeFatal (bytes : Bytes) : Option (List Char) :=
  let decoded := Utf8.decode (.clean true) bytes
  let text := decoded.2 ++ decoded.1.finish
  if Utf8.encode text = bytes then some (Utf8.withoutMark text) else none

def textField (name : String) (json : Json) : Option String :=
  match json.field name with
  | some (.str text) => some text
  | _ => none

def trailerError (payload : Bytes) : Option Failure :=
  match (decodeFatal payload).bind JsonText.parse with
  | some (.obj fields) => match (Json.obj fields).field "error" with
    | none => none
    | some .null => none
    | some error => match error with
      | .obj _ | .arr _ => some (.rpc ⟨(textField "code" error).getD "unknown",
          (((textField "message" error).map String.toList).getD "Devin request failed".toList).take 1000⟩)
      | _ => some (dataLoss "Invalid Devin Connect error trailer")
  | _ => some (dataLoss "Invalid Devin Connect trailer")

inductive Drained where
  | waiting (pending : Bytes)
  | ended
  | failed (failure : Failure)

section
variable (gunzip : Bytes → Option Bytes)

def unpack (flags : UInt8) (payload : Bytes) : Option Bytes :=
  if flags.toNat%2 = 1 then gunzip payload else some payload

def drain (pending : Bytes) : List Bytes × Drained :=
  match pending with
  | flags::a::b::c::d::rest =>
    if maxFrame < uint32 a b c d then ([],.failed (dataLoss "Devin Connect frame exceeds size limit"))
    else if 4 ≤ flags.toNat then ([],.failed (dataLoss "Unsupported Devin Connect frame flags"))
    else if rest.length < uint32 a b c d then ([],.waiting (flags::a::b::c::d::rest))
    else match unpack gunzip flags (rest.take (uint32 a b c d)) with
      | none => ([],.failed .thrown)
      | some payload =>
        if 2 ≤ flags.toNat then match trailerError payload with
          | some failure => ([],.failed failure)
          | none =>
            if rest.drop (uint32 a b c d) = [] then ([],.ended)
            else ([],.failed (dataLoss "Data after Devin Connect trailer"))
        else
          let later := drain (rest.drop (uint32 a b c d))
          (payload::later.1,later.2)
  | short => ([],.waiting short)
termination_by pending.length
decreasing_by
  simp only [List.length_cons,List.length_drop]
  omega

def decodeConnect (pending : Bytes) : List Bytes → List Bytes × Option Failure
  | [] => ([],some (if pending = [] then dataLoss "Devin stream missing end-stream envelope"
      else dataLoss "Devin Connect frame truncated"))
  | chunk::chunks =>
    let drained := drain gunzip (pending ++ chunk)
    match drained.2 with
    | .waiting left =>
      let later := decodeConnect left chunks
      (drained.1 ++ later.1,later.2)
    | .ended => (drained.1,none)
    | .failed failure => (drained.1,some failure)

end

section
variable {gunzip : Bytes → Option Bytes} {flags a b c d : UInt8} {rest more : Bytes}

theorem drainWhole (short : ¬maxFrame < uint32 a b c d) (small : ¬4 ≤ flags.toNat) (fits : ¬rest.length < uint32 a b c d) :
    drain gunzip (flags::a::b::c::d::(rest ++ more)) = match unpack gunzip flags (rest.take (uint32 a b c d)) with
      | none => ([],.failed .thrown)
      | some payload =>
        if 2 ≤ flags.toNat then match trailerError payload with
          | some failure => ([],.failed failure)
          | none =>
            if rest.drop (uint32 a b c d) ++ more = [] then ([],.ended)
            else ([],.failed (dataLoss "Data after Devin Connect trailer"))
        else
          let later := drain gunzip (rest.drop (uint32 a b c d) ++ more)
          (payload::later.1,later.2) := by
  have whole : ¬(rest ++ more).length < uint32 a b c d := by rw [List.length_append]; omega
  rw [drain,if_neg short,if_neg small,if_neg whole,List.take_append_of_le_length (Nat.le_of_not_lt fits),
    List.drop_append_of_le_length (Nat.le_of_not_lt fits)]

end

section
variable {gunzip : Bytes → Option Bytes} {bytes : Bytes} {payloads : List Bytes}

def resume (gunzip : Bytes → Option Bytes) (more : Bytes) : Drained → List Bytes × Drained
  | .waiting left => drain gunzip (left ++ more)
  | .ended => if more = [] then ([],.ended) else ([],.failed (dataLoss "Data after Devin Connect trailer"))
  | .failed failure => ([],.failed failure)

theorem drainMore (more : Bytes) : drain gunzip (bytes ++ more) = ((drain gunzip bytes).1 ++
    (resume gunzip more (drain gunzip bytes).2).1,(resume gunzip more (drain gunzip bytes).2).2) := by
  fun_induction drain gunzip bytes with
  | case1 flags a b c d rest long =>
    simp only [List.cons_append]
    rw [drain,if_pos long]
    rfl
  | case2 flags a b c d rest short large =>
    simp only [List.cons_append]
    rw [drain,if_neg short,if_pos large]
    rfl
  | case3 | case9 => rfl
  | case4 flags a b c d rest short small fits unpacked =>
    simp only [List.cons_append]
    rw [drainWhole short small fits,unpacked]
    rfl
  | case5 flags a b c d rest short small fits payload unpacked trailer failure wrong =>
    simp only [List.cons_append]
    rw [drainWhole short small fits,unpacked]
    dsimp only
    rw [if_pos trailer,wrong]
    rfl
  | case6 flags a b c d rest short small fits payload unpacked trailer fine last =>
    simp only [List.cons_append]
    rw [drainWhole short small fits,unpacked]
    dsimp only
    rw [if_pos trailer,fine,last]
    rfl
  | case7 flags a b c d rest short small fits payload unpacked trailer fine behind =>
    simp only [List.cons_append]
    rw [drainWhole short small fits,unpacked]
    dsimp only
    rw [if_pos trailer,fine]
    exact if_neg (fun none => behind (List.append_eq_nil_iff.mp none).1)
  | case8 flags a b c d rest short small fits payload unpacked single later ih =>
    simp only [List.cons_append]
    rw [drainWhole short small fits,unpacked]
    dsimp only
    rw [if_neg single,ih]

theorem drainAppend (more : Bytes) {left} (read : drain gunzip bytes = (payloads,.waiting left)) :
    drain gunzip (bytes ++ more) = (payloads ++ (drain gunzip (left ++ more)).1,(drain gunzip (left ++ more)).2) := by
  rw [drainMore,read]
  rfl

theorem drainBehind {more : Bytes} (read : drain gunzip bytes = (payloads,.ended)) (some : more ≠ []) :
    drain gunzip (bytes ++ more) = (payloads,.failed (dataLoss "Data after Devin Connect trailer")) := by
  rw [drainMore,read,resume,if_neg some,List.append_nil]

theorem drainFailed {more failure} (read : drain gunzip bytes = (payloads,.failed failure)) :
    drain gunzip (bytes ++ more) = (payloads,.failed failure) := by
  rw [drainMore,read,resume,List.append_nil]

end

def Reads (drained : List Bytes × Drained) (read : List Bytes × Option Failure) : Prop :=
  match drained.2 with
  | .waiting _ => read.1 = drained.1 ∧ read.2.isSome = true
  | .ended => read = (drained.1,none)
  | .failed failure => read = (drained.1,some failure) ∨
      failure = dataLoss "Data after Devin Connect trailer" ∧ read = (drained.1,none)

section
variable {gunzip : Bytes → Option Bytes}

theorem Reads.cons {drained read} (payloads : List Bytes)
    (reads : Reads drained read) : Reads (payloads ++ drained.1,drained.2) (payloads ++ read.1,read.2) := by
  obtain ⟨before,last⟩ := drained
  cases last with
  | waiting left => exact ⟨congrArg (payloads ++ ·) reads.1,reads.2⟩
  | ended => cases reads; rfl
  | failed failure =>
    obtain same | ⟨behind,same⟩ := reads
    · cases same; exact .inl rfl
    · cases same; exact .inr ⟨behind,rfl⟩

theorem decodeConnectReads (chunks : List Bytes) : ∀ pending payloads,
    drain gunzip pending = (payloads,.waiting pending) →
    Reads (drain gunzip (pending ++ chunks.flatten)) (decodeConnect gunzip pending chunks) := by
  induction chunks with
  | nil =>
    intro pending payloads waits
    rw [List.flatten_nil,List.append_nil,waits]
    have none : payloads = [] := by
      have again := drainAppend [] waits
      rw [List.append_nil,waits] at again
      exact List.self_eq_append_right.mp (congrArg Prod.fst again)
    exact ⟨none.symm,rfl⟩
  | cons chunk chunks ih =>
    intro pending payloads waits
    rw [List.flatten_cons,← List.append_assoc,decodeConnect]
    generalize read : drain gunzip (pending ++ chunk) = drained
    obtain ⟨before,last⟩ := drained
    cases last with
    | waiting left =>
      have rest : drain gunzip left = ([],.waiting left) := by
        have again := drainAppend [] read
        rw [List.append_nil,List.append_nil,read] at again
        obtain ⟨first,second⟩ := Prod.mk.inj again
        exact Prod.ext (List.self_eq_append_right.mp first) second.symm
      rw [drainAppend _ read]
      exact (ih left [] rest).cons before
    | ended =>
      cases behind : chunks.flatten with
      | nil => rw [List.append_nil,read]; rfl
      | cons byte bytes =>
        rw [drainBehind read (List.cons_ne_nil _ _)]
        exact .inr ⟨rfl,rfl⟩
    | failed failure =>
      rw [drainFailed read]
      exact .inl rfl

end

structure Frame (gunzip : Bytes → Option Bytes) where
  flags : UInt8
  packed : Bytes
  payload : Bytes
  small : packed.length ≤ maxFrame
  unpacks : unpack gunzip flags packed = some payload

section
variable {gunzip : Bytes → Option Bytes}

theorem drainNothing (gunzip : Bytes → Option Bytes) : drain gunzip [] = ([],.waiting []) := by simp [drain]

def Frame.bytes (frame : Frame gunzip) : Bytes := encodeConnect frame.packed frame.flags

theorem uint32Length {n} (small : n ≤ maxFrame) : uint32 (UInt8.ofNat (n/16777216)) (UInt8.ofNat (n/65536))
    (UInt8.ofNat (n/256)) (UInt8.ofNat n) = n := by
  have bound : n ≤ 16777216 := small
  simp only [uint32,UInt8.toNat_ofNat']
  omega

theorem drainFrame (frame : Frame gunzip) (message : frame.flags.toNat < 2) (more : Bytes) :
    drain gunzip (frame.bytes ++ more) = (frame.payload::(drain gunzip more).1,(drain gunzip more).2) := by
  have length := uint32Length frame.small
  have small := frame.small
  simp only [Frame.bytes,encodeConnect,List.cons_append]
  rw [drainWhole (by rw [length]; omega) (by omega) (by rw [length]; omega),length,List.take_length,List.drop_length,
    List.nil_append,frame.unpacks]
  exact if_neg (by omega)

theorem drainTrailer (frame : Frame gunzip) (trailer : 2 ≤ frame.flags.toNat ∧ frame.flags.toNat < 4)
    (success : trailerError frame.payload = none) : drain gunzip frame.bytes = ([],.ended) := by
  have length := uint32Length frame.small
  have small := frame.small
  rw [← List.append_nil frame.bytes]
  simp only [Frame.bytes,encodeConnect,List.cons_append]
  rw [drainWhole (by rw [length]; omega) (by omega) (by rw [length]; omega),length,List.take_length,List.drop_length,
    frame.unpacks]
  dsimp only
  rw [if_pos trailer.1,success]
  rfl

theorem drainFrames {frames : List (Frame gunzip)} {trailer : Frame gunzip}
    (messages : ∀ frame ∈ frames, frame.flags.toNat < 2) (last : 2 ≤ trailer.flags.toNat ∧ trailer.flags.toNat < 4)
    (success : trailerError trailer.payload = none) :
    drain gunzip (frames.flatMap Frame.bytes ++ trailer.bytes) = (frames.map Frame.payload,.ended) := by
  induction frames with
  | nil => exact drainTrailer trailer last success
  | cons frame rest ih =>
    rw [List.flatMap_cons,List.append_assoc,drainFrame frame (messages frame (.head _)),
      ih (fun frame inside => messages frame (.tail _ inside))]
    rfl

theorem decodeFrames {frames : List (Frame gunzip)} {trailer : Frame gunzip} {chunks : List Bytes}
    (messages : ∀ frame ∈ frames, frame.flags.toNat < 2) (last : 2 ≤ trailer.flags.toNat ∧ trailer.flags.toNat < 4)
    (success : trailerError trailer.payload = none) (cut : chunks.flatten = frames.flatMap Frame.bytes ++ trailer.bytes) :
    decodeConnect gunzip [] chunks = (frames.map Frame.payload,none) := by
  have reads := decodeConnectReads chunks [] [] (drainNothing gunzip)
  rw [List.nil_append,cut,drainFrames messages last success] at reads
  exact reads

theorem drainTruncated {bytes missing payloads} (read : drain gunzip (bytes ++ missing) = (payloads,.ended))
    (some_ : missing ≠ []) : ∃ before left, drain gunzip bytes = (before,.waiting left) := by
  generalize first : drain gunzip bytes = drained
  obtain ⟨before,last⟩ := drained
  cases last with
  | waiting left => exact ⟨before,left,rfl⟩
  | ended => rw [drainBehind first some_] at read; cases read
  | failed failure => rw [drainFailed first] at read; cases read

theorem decodeWaits {chunks before left}
    (read : drain gunzip chunks.flatten = (before,.waiting left)) : (decodeConnect gunzip [] chunks).2.isSome = true := by
  have reads := decodeConnectReads chunks [] [] (drainNothing gunzip)
  rw [List.nil_append,read] at reads
  exact reads.2

theorem drainMessages {frames : List (Frame gunzip)} (messages : ∀ frame ∈ frames, frame.flags.toNat < 2) :
    drain gunzip (frames.flatMap Frame.bytes) = (frames.map Frame.payload,.waiting []) := by
  induction frames with
  | nil => exact drainNothing gunzip
  | cons frame rest ih =>
    rw [List.flatMap_cons,drainFrame frame (messages frame (.head _)),
      ih (fun frame inside => messages frame (.tail _ inside))]
    rfl

theorem decodeEarly (late : List Bytes) (early : List Bytes) : ∀ pending payloads left,
    drain gunzip (pending ++ early.flatten) = (payloads,.waiting left) → drain gunzip pending = ([],.waiting pending) →
    (decodeConnect gunzip pending (early ++ late)).2 = (decodeConnect gunzip left late).2 := by
  induction early with
  | nil =>
    intro pending payloads left read waits
    rw [List.flatten_nil,List.append_nil,waits] at read
    cases read
    rfl
  | cons chunk rest ih =>
    intro pending payloads left read waits
    rw [List.flatten_cons,← List.append_assoc] at read
    rw [List.cons_append,decodeConnect]
    generalize first : drain gunzip (pending ++ chunk) = drained
    obtain ⟨before,last⟩ := drained
    cases last with
    | waiting kept =>
      rw [drainAppend _ first] at read
      obtain ⟨_,ended⟩ := Prod.mk.inj read
      have again := drainAppend [] first
      rw [List.append_nil,List.append_nil,first] at again
      obtain ⟨nothing,waiting⟩ := Prod.mk.inj again
      exact ih kept _ left (Prod.ext rfl ended) (Prod.ext (List.self_eq_append_right.mp nothing) waiting.symm)
    | ended =>
      cases behind : rest.flatten with
      | nil => rw [behind,List.append_nil,first] at read; cases read
      | cons byte bytes =>
        rw [behind,drainBehind first (List.cons_ne_nil _ _)] at read
        cases read
    | failed failure => rw [drainFailed first] at read; cases read

theorem decodeBehind {early late : List Bytes} {missing more : Bytes} {payloads}
    (read : drain gunzip (early.flatten ++ missing) = (payloads,.ended)) (some_ : missing ≠ []) (further : more ≠ []) :
    (decodeConnect gunzip [] (early ++ (missing ++ more)::late)).2.isSome = true := by
  obtain ⟨before,left,waits⟩ := drainTruncated read some_
  rw [decodeEarly _ early [] before left waits (drainNothing gunzip),decodeConnect]
  have behind := drainBehind read further
  rw [List.append_assoc,drainAppend _ waits] at behind
  obtain ⟨_,failed⟩ := Prod.mk.inj behind
  rw [failed]
  rfl

end

end Clankermux.DevinConnect
