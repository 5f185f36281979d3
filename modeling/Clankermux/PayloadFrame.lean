import Clankermux.Base64url
import Clankermux.Json
import Clankermux.Utf8

/-! The stored form of a request payload: a frame of the envelope and its two bodies, which is
compressed and encrypted where that applies. -/
namespace Clankermux.PayloadFrame
open Utf8

abbrev Bytes := List UInt8

def HEADER_BYTES : Nat := 12
def NULL_BODY : Nat := 0xffffffff

def setUint32 (n : Nat) : Bytes := [UInt8.ofNat n,UInt8.ofNat (n/256),UInt8.ofNat (n/65536),UInt8.ofNat (n/16777216)]

def getUint32 (bytes : Bytes) (offset : Nat) : Nat :=
  match bytes.drop offset with
  | a::b::c::d::_ => a.toNat + b.toNat*256 + c.toNat*65536 + d.toNat*16777216
  | _ => 0

def chunksBytes (chunks : List Bytes) : Nat := (chunks.map List.length).sum

def buildPayloadFrame (skeleton : List Char) (requestBody : Option Bytes) (responseChunks : List Bytes) : Except String Bytes :=
  let skeletonBytes := utf8Length skeleton
  let requestBytes := (requestBody.map List.length).getD 0
  let responseBytes := chunksBytes responseChunks
  if (encode skeleton).length ≠ skeletonBytes then .error "Payload skeleton did not encode to its UTF-8 length"
  else .ok (setUint32 skeletonBytes ++ setUint32 (if requestBytes > 0 then requestBytes else NULL_BODY) ++
    setUint32 (if responseBytes > 0 then responseBytes else NULL_BODY) ++
    (encode skeleton ++ (requestBody.getD [] ++ responseChunks.flatten)))

def base64Digit (n : Nat) : Char := if n = 62 then '+' else if n = 63 then '/' else Base64url.digit n

def toBase64 (bytes : Bytes) : String :=
  String.ofList ((Base64url.sextets bytes).map base64Digit ++ List.replicate ((3 - bytes.length % 3) % 3) '=')

def toText (bytes : Bytes) : List Char := (decode (.clean true) bytes).2 ++ (decode (.clean true) bytes).1.finish

def hasNullBody (part : Option Json) : Bool :=
  match part with
  | none => false
  | some part => part.isObject && match part.field "body" with
    | some .null => true
    | _ => false

def isEnvelopeSkeleton (value : Json) : Bool :=
  value.isObject && hasNullBody (value.field "request") && hasNullBody (value.field "response")

def setBody (name : String) (body : Json) (envelope : Json) : Json :=
  match envelope.field name with
  | some part => envelope.setField name (part.setField "body" body)
  | none => envelope

structure Platform (κ : Type) where
  parseJson : List Char → Except String Json
  zstdCompress : Bytes → Option Bytes
  zstdDecompress : Bytes → Except String Bytes
  encrypt : κ → Bytes → Bytes → Except String Bytes
  decrypt : κ → Bytes → Bytes → Except String Bytes

variable {κ : Type} (p : Platform κ)

def envelopeFromPayloadFrame (frame : Bytes) : Except String Json :=
  if frame.length < HEADER_BYTES then .error "Payload frame is shorter than its header"
  else
    let skeletonBytes := getUint32 frame 0
    let requestBytes := getUint32 frame 4
    let responseBytes := getUint32 frame 8
    let requestLen := if requestBytes = NULL_BODY then 0 else requestBytes
    let responseLen := if responseBytes = NULL_BODY then 0 else responseBytes
    if HEADER_BYTES + skeletonBytes + requestLen + responseLen ≠ frame.length then .error "Payload frame lengths do not match its size"
    else if requestBytes = 0 ∨ responseBytes = 0 then .error "Payload frame has a zero-length body"
    else
      match p.parseJson (toText ((frame.drop HEADER_BYTES).take skeletonBytes)) with
      | .error message => .error message
      | .ok skeleton =>
        if !isEnvelopeSkeleton skeleton then .error "Payload frame skeleton is not an envelope"
        else
          let offset := HEADER_BYTES + skeletonBytes
          let requestBody : Json :=
            if requestBytes = NULL_BODY then .null else .str (toBase64 ((frame.drop offset).take requestLen))
          let responseBody : Json :=
            if responseBytes = NULL_BODY then .null else .str (toBase64 ((frame.drop (offset + requestLen)).take responseLen))
          .ok (setBody "response" responseBody (setBody "request" requestBody skeleton))

def IV_LENGTH : Nat := 12
def FLAG_ZSTD : UInt8 := 0b01
def FLAG_ENCRYPTED : UInt8 := 0b10
def KNOWN_FLAGS : UInt8 := FLAG_ZSTD ||| FLAG_ENCRYPTED
def MIN_COMPRESS_BYTES : Nat := 512

def Iv := { bytes : Bytes // bytes.length = IV_LENGTH }

inductive PayloadError where
  | error (message : String)
  | decryptError (message : String)

def encryptBytes (encryptionKey : Option κ) (iv : Iv) (plaintext : Bytes) : Except PayloadError (Option Bytes) :=
  match encryptionKey with
  | none => .ok none
  | some key => match p.encrypt key iv.val plaintext with
    | .ok ciphertext => .ok (some (iv.val ++ ciphertext))
    | .error message => .error (.error message)

def decryptBytes (encryptionKey : Option κ) (combined : Bytes) : Except PayloadError Bytes :=
  match encryptionKey with
  | none => .error (.decryptError "Encrypted payload found but PAYLOAD_ENCRYPTION_KEY is not configured")
  | some key =>
    if combined.length ≤ IV_LENGTH then .error (.decryptError "Encrypted payload is too short to contain IV + ciphertext")
    else match p.decrypt key (combined.take IV_LENGTH) (combined.drop IV_LENGTH) with
      | .ok plaintext => .ok plaintext
      | .error message => .error (.decryptError message)

def compressed (frame : Bytes) : Bytes × UInt8 :=
  if frame.length ≥ MIN_COMPRESS_BYTES then
    match p.zstdCompress frame with
    | some small => if small.length < frame.length then (small,FLAG_ZSTD) else (frame,0)
    | none => (frame,0)
  else (frame,0)

def encodePayloadBlob (encryptionKey : Option κ) (iv : Iv) (frame : Bytes) : Except PayloadError Bytes :=
  let (body,flags) := compressed p frame
  match encryptBytes p encryptionKey iv body with
  | .error e => .error e
  | .ok none => .ok (flags::body)
  | .ok (some encrypted) => .ok ((flags ||| FLAG_ENCRYPTED)::encrypted)

def lift {α : Type} : Except String α → Except PayloadError α
  | .ok a => .ok a
  | .error message => .error (.error message)

def decodePayloadBlob (encryptionKey : Option κ) : Bytes → Except PayloadError Json
  | [] => .error (.error "Payload blob is empty")
  | flags::body =>
    if flags &&& ~~~KNOWN_FLAGS ≠ 0 then
      .error (.error ("Payload blob has unknown flags 0x" ++ String.ofList (Nat.toDigits 16 flags.toNat)))
    else
      match if flags &&& FLAG_ENCRYPTED ≠ 0 then decryptBytes p encryptionKey body else .ok body with
      | .error e => .error e
      | .ok body =>
        match if flags &&& FLAG_ZSTD ≠ 0 then lift (p.zstdDecompress body) else .ok body with
        | .error e => .error e
        | .ok body => lift (envelopeFromPayloadFrame p body)

variable {p} {frame : Bytes} {skeleton : List Char} {requestBody : Option Bytes} {responseChunks : List Bytes} {value : Json}

theorem uint32Back {n} (small : n < 4294967296) (rest : Bytes) : getUint32 (setUint32 n ++ rest) 0 = n := by
  simp only [setUint32,getUint32,List.drop_zero,List.cons_append]
  simp only [UInt8.toNat_ofNat']
  omega

theorem uint32Skip (n : Nat) (rest : Bytes) (offset : Nat) : getUint32 (setUint32 n ++ rest) (offset + 4) = getUint32 rest offset := rfl

theorem uint32Length (n : Nat) : (setUint32 n).length = 4 := rfl

def headerOf (bytes : Bytes) : Nat := if bytes.length > 0 then bytes.length else NULL_BODY

def bodyJson (bytes : Bytes) : Json := if bytes = [] then .null else .str (toBase64 bytes)

theorem encodeLength (text : List Char) : (encode text).length = utf8Length text := by
  induction text with
  | nil => rfl
  | cons c rest ih =>
    have split : encode (c::rest) = String.utf8EncodeChar c ++ encode rest := rfl
    rw [split,List.length_append,ih,String.length_utf8EncodeChar]
    simp [utf8Length]

theorem textBack (text : List Char) : toText (encode text) = text := by
  rw [toText,decodeSeen]
  exact List.append_nil text

theorem chunksLength (chunks : List Bytes) : chunksBytes chunks = chunks.flatten.length := by
  rw [chunksBytes,List.length_flatten]

def frameOf (skeleton : List Char) (request response : Bytes) : Bytes :=
  setUint32 (utf8Length skeleton) ++ (setUint32 (headerOf request) ++ (setUint32 (headerOf response) ++
    (encode skeleton ++ (request ++ response))))

theorem frameBuilt (skeleton : List Char) (requestBody : Option Bytes) (responseChunks : List Bytes) :
    buildPayloadFrame skeleton requestBody responseChunks = .ok (frameOf skeleton (requestBody.getD []) responseChunks.flatten) := by
  have request : (requestBody.map List.length).getD 0 = (requestBody.getD []).length := by
    cases requestBody with
    | none => rfl
    | some bytes => rfl
  rw [buildPayloadFrame,if_neg (not_not.mpr (encodeLength skeleton)),request,chunksLength]
  simp [frameOf,headerOf]

theorem headerSmall {bytes} (small : bytes.length < NULL_BODY) : headerOf bytes < 4294967296 := by
  rw [headerOf]
  simp only [NULL_BODY] at small ⊢
  split
  · omega
  · decide

theorem headerFull {bytes} (small : bytes.length < NULL_BODY) : headerOf bytes ≠ 0 ∧
    (if headerOf bytes = NULL_BODY then 0 else headerOf bytes) = bytes.length ∧ (headerOf bytes = NULL_BODY ↔ bytes = []) := by
  rw [headerOf]
  split
  · rename_i full
    have some_ : bytes ≠ [] := List.length_pos_iff.mp full
    have other : bytes.length ≠ NULL_BODY := Nat.ne_of_lt small
    exact ⟨Nat.ne_of_gt full,if_neg other,by simp [other,some_]⟩
  · rename_i empty
    have none_ : bytes = [] := List.eq_nil_of_length_eq_zero (Nat.eq_zero_of_not_pos empty)
    exact ⟨by decide,by simp [none_],by simp [none_]⟩

theorem frameBack {request response} (parses : p.parseJson skeleton = .ok value) (envelope : isEnvelopeSkeleton value = true)
    (skeletonSmall : utf8Length skeleton < NULL_BODY) (requestSmall : request.length < NULL_BODY)
    (responseSmall : response.length < NULL_BODY) : envelopeFromPayloadFrame p (frameOf skeleton request response) =
      .ok (setBody "response" (bodyJson response) (setBody "request" (bodyJson request) value)) := by
  have skeletonBytes : getUint32 (frameOf skeleton request response) 0 = utf8Length skeleton :=
    uint32Back (lt_trans skeletonSmall (by decide)) _
  have requestBytes : getUint32 (frameOf skeleton request response) 4 = headerOf request :=
    (uint32Skip _ _ 0).trans (uint32Back (headerSmall requestSmall) _)
  have responseBytes : getUint32 (frameOf skeleton request response) 8 = headerOf response :=
    (uint32Skip _ _ 4).trans ((uint32Skip _ _ 0).trans (uint32Back (headerSmall responseSmall) _))
  obtain ⟨requestSome,requestLen,requestNull⟩ := headerFull requestSmall
  obtain ⟨responseSome,responseLen,responseNull⟩ := headerFull responseSmall
  have length : (frameOf skeleton request response).length = HEADER_BYTES + utf8Length skeleton + request.length + response.length := by
    simp only [frameOf,List.length_append,uint32Length,encodeLength,HEADER_BYTES]
    omega
  have bodies : (frameOf skeleton request response).drop HEADER_BYTES = encode skeleton ++ (request ++ response) := rfl
  have text : ((frameOf skeleton request response).drop HEADER_BYTES).take (utf8Length skeleton) = encode skeleton := by
    rw [bodies,← encodeLength,List.take_left]
  have afterSkeleton : (frameOf skeleton request response).drop (HEADER_BYTES + utf8Length skeleton) = request ++ response := by
    rw [← List.drop_drop,bodies,← encodeLength,List.drop_left]
  have afterRequest : (frameOf skeleton request response).drop (HEADER_BYTES + utf8Length skeleton + request.length) = response := by
    rw [← List.drop_drop,afterSkeleton,List.drop_left]
  have long : ¬ (frameOf skeleton request response).length < HEADER_BYTES := by omega
  rw [envelopeFromPayloadFrame,if_neg long]
  simp only [skeletonBytes,requestBytes,responseBytes,requestLen,responseLen]
  rw [if_neg (not_not.mpr length.symm),if_neg (not_or.mpr ⟨requestSome,responseSome⟩),text,textBack,parses]
  simp only [envelope,afterSkeleton,afterRequest,List.take_left,List.take_length,requestNull,
    responseNull]
  rfl

structure Filled (skeleton envelope : Json) (request response : Json) : Prop where
  request : (envelope.field "request").bind (Json.field "body") = some request
  response : (envelope.field "response").bind (Json.field "body") = some response
  requestRest : ∀ name, name ≠ "body" →
    (envelope.field "request").bind (Json.field name) = (skeleton.field "request").bind (Json.field name)
  responseRest : ∀ name, name ≠ "body" →
    (envelope.field "response").bind (Json.field name) = (skeleton.field "response").bind (Json.field name)
  rest : ∀ name, name ≠ "request" → name ≠ "response" → envelope.field name = skeleton.field name

theorem slot {part} (slotted : hasNullBody part = true) : ∃ object, part = some object ∧ object.isObject = true := by
  cases part with
  | none => simp [hasNullBody] at slotted
  | some object =>
    rw [hasNullBody,Bool.and_eq_true] at slotted
    exact ⟨object,rfl,slotted.1⟩

theorem filled (envelope : isEnvelopeSkeleton value = true) (request response : Json) :
    Filled value (setBody "response" response (setBody "request" request value)) request response := by
  rw [isEnvelopeSkeleton,Bool.and_eq_true,Bool.and_eq_true] at envelope
  obtain ⟨⟨object,requestSlot⟩,responseSlot⟩ := envelope
  obtain ⟨requestPart,itsRequest,requestObject⟩ := slot requestSlot
  obtain ⟨responsePart,itsResponse,responseObject⟩ := slot responseSlot
  have first : setBody "request" request value = value.setField "request" (requestPart.setField "body" request) := by
    rw [setBody,itsRequest]
  have kept : (value.setField "request" (requestPart.setField "body" request)).field "response" = some responsePart := by
    rw [Json.fieldSet object,if_neg (by decide),itsResponse]
  have second : setBody "response" response (setBody "request" request value) =
      (value.setField "request" (requestPart.setField "body" request)).setField "response" (responsePart.setField "body" response) := by
    rw [first,setBody,kept]
  have fields : ∀ name, (setBody "response" response (setBody "request" request value)).field name =
      if name = "response" then some (responsePart.setField "body" response)
      else if name = "request" then some (requestPart.setField "body" request) else value.field name := by
    intro name
    rw [second,Json.fieldSet (Json.objectSet object _ _),Json.fieldSet object]
  refine ⟨?_,?_,?_,?_,?_⟩
  · simp [fields,Json.fieldSet requestObject]
  · simp [fields,Json.fieldSet responseObject]
  · intro name other
    simp [fields,itsRequest,Json.fieldSet requestObject,other]
  · intro name other
    simp [fields,itsResponse,Json.fieldSet responseObject,other]
  · intro name notRequest notResponse
    simp [fields,notRequest,notResponse]

structure Platform.Inverts (p : Platform κ) : Prop where
  zstd : ∀ frame small, p.zstdCompress frame = some small → p.zstdDecompress small = .ok frame
  cipher : ∀ key iv plaintext ciphertext, p.encrypt key iv plaintext = .ok ciphertext → p.decrypt key iv ciphertext = .ok plaintext
  tag : ∀ key iv plaintext ciphertext, p.encrypt key iv plaintext = .ok ciphertext → ciphertext ≠ []

theorem flagsOf (frame : Bytes) : (compressed p frame).2 = 0 ∨ (compressed p frame).2 = FLAG_ZSTD := by
  unfold compressed
  split
  · split
    · split
      · exact .inr rfl
      · exact .inl rfl
    · exact .inl rfl
  · exact .inl rfl

theorem flagsKnown {flags} (its : flags = 0 ∨ flags = FLAG_ZSTD) :
    flags &&& ~~~KNOWN_FLAGS = 0 ∧ flags &&& FLAG_ENCRYPTED = 0 ∧ (flags ||| FLAG_ENCRYPTED) &&& ~~~KNOWN_FLAGS = 0 ∧
      (flags ||| FLAG_ENCRYPTED) &&& FLAG_ENCRYPTED ≠ 0 ∧ (flags ||| FLAG_ENCRYPTED) &&& FLAG_ZSTD = flags &&& FLAG_ZSTD := by
  rcases its with rfl | rfl
  · decide
  · decide

theorem compressedBack (inverts : p.Inverts) (frame : Bytes) :
    (if (compressed p frame).2 &&& FLAG_ZSTD ≠ 0 then lift (p.zstdDecompress (compressed p frame).1) else .ok (compressed p frame).1) =
      .ok frame := by
  have plain : (if (0 : UInt8) &&& FLAG_ZSTD ≠ 0 then lift (p.zstdDecompress frame) else .ok frame) = .ok frame := if_neg (by decide)
  have packed : FLAG_ZSTD &&& FLAG_ZSTD ≠ 0 := by decide
  unfold compressed
  split
  · split
    · rename_i small found
      split
      · change (if FLAG_ZSTD &&& FLAG_ZSTD ≠ 0 then lift (p.zstdDecompress small) else .ok small) = _
        rw [if_pos packed,inverts.zstd _ _ found]
        rfl
      · exact plain
    · exact plain
  · exact plain

theorem decryptBack (inverts : p.Inverts) (key : κ) (iv : Iv) {plaintext ciphertext}
    (encrypted : p.encrypt key iv.val plaintext = .ok ciphertext) : decryptBytes p (some key) (iv.val ++ ciphertext) = .ok plaintext := by
  have long : ¬ (iv.val ++ ciphertext).length ≤ IV_LENGTH := by
    have full := List.length_pos_iff.mpr (inverts.tag _ _ _ _ encrypted)
    rw [List.length_append,iv.property]
    omega
  rw [decryptBytes,if_neg long,List.take_left' iv.property,List.drop_left' iv.property,inverts.cipher _ _ _ _ encrypted]

theorem blobBack (inverts : p.Inverts) (encryptionKey : Option κ) (iv : Iv) {blob}
    (stored : encodePayloadBlob p encryptionKey iv frame = .ok blob) :
    decodePayloadBlob p encryptionKey blob = lift (envelopeFromPayloadFrame p frame) := by
  have back := compressedBack inverts frame
  obtain ⟨known,plain,knownToo,sealed,same⟩ := flagsKnown (flagsOf (p := p) frame)
  rw [encodePayloadBlob] at stored
  simp only at stored
  cases encryptionKey with
  | none =>
    cases stored
    rw [decodePayloadBlob,if_neg (not_not.mpr known),if_neg (not_not.mpr plain)]
    simp only [back]
  | some key =>
    cases encrypted : p.encrypt key iv.val (compressed p frame).1 with
    | error message => simp [encryptBytes,encrypted] at stored
    | ok ciphertext =>
      simp only [encryptBytes,encrypted] at stored
      cases stored
      rw [decodePayloadBlob,if_neg (not_not.mpr knownToo),if_pos sealed,decryptBack inverts key iv encrypted]
      simp only [same,back]

theorem blobStored (encryptionKey : Option κ) (iv : Iv) {e} (failed : encodePayloadBlob p encryptionKey iv frame = .error e) :
    ∃ key plaintext message, encryptionKey = some key ∧ p.encrypt key iv.val plaintext = .error message ∧ e = .error message := by
  rw [encodePayloadBlob] at failed
  cases encryptionKey with
  | none => simp [encryptBytes] at failed
  | some key =>
    cases encrypted : p.encrypt key iv.val (compressed p frame).1 with
    | error message =>
      simp only [encryptBytes,encrypted] at failed
      cases failed
      exact ⟨key,_,message,rfl,encrypted,rfl⟩
    | ok ciphertext => simp [encryptBytes,encrypted] at failed

abbrev Fits (frame : Bytes) : Prop :=
  HEADER_BYTES + getUint32 frame 0 + (if getUint32 frame 4 = NULL_BODY then 0 else getUint32 frame 4) +
    (if getUint32 frame 8 = NULL_BODY then 0 else getUint32 frame 8) = frame.length

def skeletonOf (frame : Bytes) : List Char := toText ((frame.drop HEADER_BYTES).take (getUint32 frame 0))

/-- A frame is read when, and only when, its lengths add up, no body is of length zero and its
skeleton is an envelope with null bodies. -/
theorem frameRead (p : Platform κ) (frame : Bytes) : (∃ envelope, envelopeFromPayloadFrame p frame = .ok envelope) ↔
    Fits frame ∧ getUint32 frame 4 ≠ 0 ∧ getUint32 frame 8 ≠ 0 ∧
      ∃ skeleton, p.parseJson (skeletonOf frame) = .ok skeleton ∧ isEnvelopeSkeleton skeleton = true := by
  have header : Fits frame → ¬ frame.length < HEADER_BYTES := by
    intro fits
    omega
  unfold envelopeFromPayloadFrame
  constructor
  · rintro ⟨envelope,read⟩
    by_cases short : frame.length < HEADER_BYTES
    · rw [if_pos short] at read
      contradiction
    rw [if_neg short] at read
    by_cases fits : Fits frame
    · simp only [if_neg (not_not.mpr fits)] at read
      by_cases zero : getUint32 frame 4 = 0 ∨ getUint32 frame 8 = 0
      · rw [if_pos zero] at read
        contradiction
      rw [if_neg zero] at read
      refine ⟨fits,(not_or.mp zero).1,(not_or.mp zero).2,?_⟩
      cases parsed : p.parseJson (skeletonOf frame) with
      | error message =>
        simp only [skeletonOf] at parsed
        simp [parsed] at read
      | ok skeleton =>
        refine ⟨skeleton,rfl,?_⟩
        cases slots : isEnvelopeSkeleton skeleton with
        | true => rfl
        | false =>
          simp only [skeletonOf] at parsed
          simp [parsed,slots] at read
    · simp only [if_pos fits] at read
      contradiction
  · rintro ⟨fits,request,response,skeleton,parsed,slots⟩
    simp only [skeletonOf] at parsed
    simp only [if_neg (header fits),if_neg (not_not.mpr fits),if_neg (not_or.mpr ⟨request,response⟩),parsed,slots]
    exact ⟨_,rfl⟩

/-- What is stored is read back with its bodies in place, and what is not a frame of an envelope
is rejected. -/
theorem payloadFaithful (inverts : p.Inverts) :
    (∀ skeleton value requestBody responseChunks, p.parseJson skeleton = .ok value → isEnvelopeSkeleton value = true →
      utf8Length skeleton < NULL_BODY → (requestBody.getD []).length < NULL_BODY → responseChunks.flatten.length < NULL_BODY →
      ∃ frame envelope, buildPayloadFrame skeleton requestBody responseChunks = .ok frame ∧
        Filled value envelope (bodyJson (requestBody.getD [])) (bodyJson responseChunks.flatten) ∧
        ∀ encryptionKey iv, match encodePayloadBlob p encryptionKey iv frame with
          | .ok blob => decodePayloadBlob p encryptionKey blob = .ok envelope
          | .error e => ∃ key plaintext message, encryptionKey = some key ∧ p.encrypt key iv.val plaintext = .error message ∧
            e = .error message) ∧
    ∀ frame, ¬ Fits frame ∨ getUint32 frame 4 = 0 ∨ getUint32 frame 8 = 0 ∨
      (∀ skeleton, p.parseJson (skeletonOf frame) = .ok skeleton → isEnvelopeSkeleton skeleton = false) →
      ∃ message, envelopeFromPayloadFrame p frame = .error message := by
  refine ⟨?_,?_⟩
  · intro skeleton value requestBody responseChunks parses envelope skeletonSmall requestSmall responseSmall
    have back := frameBack parses envelope skeletonSmall requestSmall responseSmall
    refine ⟨_,_,frameBuilt skeleton requestBody responseChunks,filled envelope _ _,?_⟩
    intro encryptionKey iv
    split
    · rename_i blob stored
      rw [blobBack inverts encryptionKey iv stored,back]
      rfl
    · rename_i e failed
      exact blobStored encryptionKey iv failed
  · intro frame corrupt
    cases read : envelopeFromPayloadFrame p frame with
    | error message => exact ⟨message,rfl⟩
    | ok envelope =>
      obtain ⟨fits,request,response,skeleton,parsed,slots⟩ := (frameRead p frame).mp ⟨envelope,read⟩
      rcases corrupt with unfit | zero | zero | other
      · exact absurd fits unfit
      · exact absurd zero request
      · exact absurd zero response
      · simp [other skeleton parsed] at slots

def bareSkeleton : List Char := "\x7b\"request\":\x7b\"body\":null\x7d,\"response\":\x7b\"body\":null\x7d\x7d".toList

def bareEnvelope : Json := .obj [("request",.obj [("body",.null)]),("response",.obj [("body",.null)])]

def bare : Platform Unit where
  parseJson text := if text = bareSkeleton then .ok bareEnvelope else .error "JSON Parse error"
  zstdCompress _ := none
  zstdDecompress _ := .error "zstd is not available"
  encrypt _ _ _ := .error "no key"
  decrypt _ _ _ := .error "no key"

theorem bareFaithful : (∃ frame envelope, buildPayloadFrame bareSkeleton (some [0x68,0x69]) [] = .ok frame ∧
      frame.take 12 = [0x32,0,0,0,2,0,0,0,0xFF,0xFF,0xFF,0xFF] ∧
      Filled bareEnvelope envelope (.str "aGk=") .null) ∧
    ∃ message, envelopeFromPayloadFrame bare [1,0,0,0] = .error message := by
  have faithful := payloadFaithful (p := bare) ⟨fun _ _ same => by simp [bare] at same,fun _ _ _ _ same => by simp [bare] at same,
    fun _ _ _ _ same => by simp [bare] at same⟩
  obtain ⟨frame,envelope,built,filled,-⟩ := faithful.1 bareSkeleton bareEnvelope (some [0x68,0x69]) []
    (by simp [bare]) (by decide) (by decide) (by decide) (by decide)
  have header : (frameOf bareSkeleton [0x68,0x69] []).take 12 = [0x32,0,0,0,2,0,0,0,0xFF,0xFF,0xFF,0xFF] := by decide
  have same : frameOf bareSkeleton [0x68,0x69] [] = frame := Except.ok.inj ((frameBuilt _ _ _).symm.trans built)
  refine ⟨⟨frame,envelope,built,same ▸ header,?_⟩,faithful.2 [1,0,0,0] (.inl (by decide))⟩
  have body : bodyJson [0x68,0x69] = .str "aGk=" := by
    exact congrArg Json.str (by decide)
  exact body ▸ filled

end Clankermux.PayloadFrame
