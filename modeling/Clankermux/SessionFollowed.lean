import Clankermux.JsonText
import Clankermux.SessionExtended

/-! A stored session is resumed or extended only by the history it holds. -/
namespace Clankermux.SessionTranscript
open SessionHistory
open ResumePoint (lines decoded uuidOf parentUuid)

theorem storedFollowed (h : Host) :
    (∀ messages stored tail, messagesAfter h messages stored = some (some tail) → Follows h messages stored tail) ∧
    (∀ messages others, Function.Injective (shapeDigest h) → messageDigests h messages = messageDigests h others →
      shapes h (normalizeHistory messages) = shapes h (normalizeHistory others)) ∧
    (∀ messages others, List.Forall₂ SessionHistory.Alike messages others → messageDigests h messages = messageDigests h others) ∧
    (∀ messages, Normal messages) ∧
    ∀ messages stored toolNames tail, extensionTail h messages stored toolNames = some (some tail) →
      Follows h messages stored tail ∧ Paired h toolNames tail ∧
      ∀ (parseJson : List Char → Option Json) (ctx : TranscriptContext) (bytes extended : List UInt8) (fromId toId : String),
        forkExtendedTranscriptFile h parseJson (some bytes) fromId toId (fun leaf => buildSyntheticTranscript h tail (ctx.behind leaf)) =
          some (some extended) →
        Fresh parseJson bytes ctx tail.length →
        (∀ leaf entries, transcriptLeaf parseJson bytes = some leaf → buildSyntheticTranscript h tail (ctx.behind leaf) = some entries →
          Texts h parseJson bytes fromId toId entries) →
        ∃ leaf last entries r old, buildSyntheticTranscript h tail (ctx.behind leaf) = some entries ∧
          Extended h parseJson bytes extended fromId toId ((List.range tail.length).map ctx.randomId) leaf last entries r old := by
  refine ⟨fun _ _ _ => messagesAfterFollows,fun _ _ => digestsShapes,fun _ _ => digestsAlike,normalForm,
    fun messages stored toolNames tail found => ?_⟩
  obtain ⟨after,its,found⟩ := Option.bind_eq_some_iff.mp found
  cases after with
  | none => cases found
  | some after =>
    dsimp only at found
    split at found
    · cases found
    obtain ⟨eligible,checked,same⟩ := Option.map_eq_some_iff.mp found
    cases eligible with
    | false => cases same
    | true =>
      cases same
      have paired := eligiblePaired checked
      exact ⟨messagesAfterFollows its,paired,fun _ _ _ _ _ _ forked fresh texts => forkExtends paired forked fresh texts⟩

mutual

def printed : Json → List Char
  | .null => "null".toList
  | .bool value => (if value then "true" else "false").toList
  | .num value => (toString value.num).toList
  | .str value => JsonText.quote value.toList
  | .arr items => '['::(printedItems items ++ [']'])
  | .obj fields => '\x7b'::(printedFields fields ++ ['\x7d'])

def printedItems : List Json → List Char
  | [] => []
  | [item] => printed item
  | item::rest => printed item ++ ','::printedItems rest

def printedFields : List (String × Json) → List Char
  | [] => []
  | [(name,value)] => JsonText.quote name.toList ++ ':'::printed value
  | (name,value)::rest => JsonText.quote name.toList ++ ':'::(printed value ++ ','::printedFields rest)

end

def plainHost : Host where
  sha256 := fun text => "#" ++ text
  digestNonempty := fun text => by simp [String.ext_iff]
  stringify := fun value => String.ofList (printed value)
  numberText := fun value => toString value.num

def storedMessages : List ClientMessage := [⟨.user,.text "a"⟩,⟨.assistant,.text "b"⟩]
def laterMessages : List ClientMessage := [⟨.user,.text "c"⟩,⟨.assistant,.text "d"⟩]
def storedDigests : List String := (messageDigests plainHost storedMessages).getD []
def laterTail : List ApiMessage := normalizeHistory laterMessages

def oldId : String := "00000000-0000-0000-0000-000000000000"
def newId : String := "11111111-1111-1111-1111-111111111111"

def storedFile : List UInt8 := Utf8.encode (printed (.obj [("sessionId",.str oldId),("type",.str "assistant"),("uuid",.str "l")]))

def sampleContext : TranscriptContext where
  sessionId := newId
  cwd := "/"
  model := "m"
  upstreamToolName := id
  version := "1"
  randomId := fun i => "n" ++ toString i
  timestamp := "t"
  turnId := "u"
  parentUuid := none

deriving instance DecidableEq for ApiMessage

theorem exchangeFollowed : ∃ extended leaf last entries r old,
    extensionTail plainHost (storedMessages ++ laterMessages) storedDigests [] = some (some laterTail) ∧ Paired plainHost [] laterTail ∧
    Extended plainHost JsonText.parse storedFile extended oldId newId ["n0","n1"] leaf last entries r old := by
  have its : extensionTail plainHost (storedMessages ++ laterMessages) storedDigests [] = some (some laterTail) := by decide +kernel
  obtain ⟨-,-,-,-,extends_⟩ := storedFollowed plainHost
  obtain ⟨-,paired,forks⟩ := extends_ _ _ _ _ its
  have forked : ((forkExtendedTranscriptFile plainHost JsonText.parse (some storedFile) oldId newId
      (fun leaf => buildSyntheticTranscript plainHost laterTail (sampleContext.behind leaf))).bind id).isSome = true := by decide +kernel
  obtain ⟨extended,same⟩ := Option.isSome_iff_exists.mp forked
  obtain ⟨result,written,rfl⟩ := Option.bind_eq_some_iff.mp same
  have fresh : Fresh JsonText.parse storedFile sampleContext laterTail.length := by
    refine ⟨fun j k less below => ?_,fun j below => ?_⟩
    · have two : k < 2 := below
      obtain ⟨rfl,rfl⟩ : j = 0 ∧ k = 1 := by omega
      decide
    · have apart : ∀ j < laterTail.length, ∀ line ∈ lines storedFile, (JsonText.parse (decoded line)).all
          (fun entry => uuidOf entry ≠ some (sampleContext.randomId j) && parentUuid entry ≠ some (sampleContext.randomId j)) = true := by
        decide +kernel
      rintro ⟨line,inside,entry,parsed,named⟩
      have neither := apart j below line inside
      rw [parsed] at neither
      rcases named with its | its
      · simp [its] at neither
      · simp [its] at neither
  have texts : ∀ leaf entries, transcriptLeaf JsonText.parse storedFile = some leaf →
      buildSyntheticTranscript plainHost laterTail (sampleContext.behind leaf) = some entries →
      Texts plainHost JsonText.parse storedFile oldId newId entries := by
    intro leaf entries found built
    have its : transcriptLeaf JsonText.parse storedFile = some "l" := by decide +kernel
    cases Option.some.inj (found.symm.trans its)
    have each : (buildSyntheticTranscript plainHost laterTail (sampleContext.behind "l")).all (fun entries => entries.all (fun entry =>
        decide (JsonText.parse (printed entry) = some entry) && decide ('\n' ∉ printed entry ∧ printed entry ≠ []))) = true := by decide +kernel
    rw [built] at each
    have all : ∀ entry ∈ entries, JsonText.parse (plainHost.stringify entry).toList = some entry ∧
        ('\n' ∉ (plainHost.stringify entry).toList ∧ plainHost.stringify entry ≠ "") := by
      intro entry inside
      have both := Bool.and_eq_true_iff.mp (List.all_eq_true.mp each entry inside)
      obtain ⟨oneLine,some_⟩ := of_decide_eq_true both.2
      -- the text is taken as the characters it is made of, which are cheap to evaluate
      have chars : (plainHost.stringify entry).toList = printed entry := String.toList_ofList
      rw [chars]
      refine ⟨of_decide_eq_true both.1,oneLine,fun empty => some_ ?_⟩
      rw [← chars,empty]
      rfl
    refine ⟨fun entry inside => (all entry inside).1,fun entry inside => (all entry inside).2,?_⟩
    show ∀ line ∈ lines storedFile, (JsonText.parse (decoded (renamed oldId newId line))).map blank = (JsonText.parse (decoded line)).map blank
    decide +kernel
  obtain ⟨leaf,last,entries,r,old,-,whole⟩ := forks JsonText.parse sampleContext storedFile extended oldId newId written fresh texts
  exact ⟨extended,leaf,last,entries,r,old,its,paired,whole⟩

def signedThought : Json := .obj [("type",.str "thinking"),("thinking",.str "t"),("signature",.str "s")]

def thoughtful : List ClientMessage := [⟨.user,.text "a"⟩,⟨.assistant,.blocks [signedThought]⟩,⟨.user,.text "b"⟩]
def thoughtless : List ClientMessage := [⟨.user,.text "a"⟩,⟨.assistant,.blocks []⟩,⟨.user,.text "b"⟩]

def userCall : Json := .obj [("type",.str "tool_use"),("id",.str "c"),("name",.str "n"),("input",.obj [])]

def calling : List ClientMessage := [⟨.user,.blocks [userCall]⟩,⟨.assistant,.text "b"⟩]

theorem digestsJoined : (¬ ∀ messages others : List ClientMessage, List.Forall₂ (fun a b => a.role = b.role ∧ plain a = plain b) messages others →
      messageDigests plainHost messages = messageDigests plainHost others) ∧
    ¬ ∀ messages stored toolNames tail, extensionTail plainHost messages stored toolNames = some (some tail) →
      ∀ before message after, tail = before ++ message::after → ∀ use ∈ uses message, ∃ next ∈ after.head?,
        ∃ result ∈ results next, SessionHistory.text plainHost result "tool_use_id" = SessionHistory.text plainHost use "id" := by
  constructor
  · intro every
    have same := every thoughtful thoughtless (.cons ⟨rfl,rfl⟩ (.cons ⟨rfl,by decide +kernel⟩ (.cons ⟨rfl,rfl⟩ .nil)))
    have different : messageDigests plainHost thoughtful ≠ messageDigests plainHost thoughtless := by decide +kernel
    exact different same
  · intro every
    have its : extensionTail plainHost calling [] [] = some (some (normalizeHistory calling)) := by decide +kernel
    have parts : normalizeHistory calling = [] ++ ⟨.user,[userCall]⟩::[⟨.assistant,[.obj [("type",.str "text"),("text",.str "b")]]⟩] := by
      decide +kernel
    obtain ⟨next,behind,result,inside,-⟩ := every _ _ _ _ its _ _ _ parts userCall (by decide +kernel)
    cases Option.mem_some_iff.mp behind
    have none_ : results ⟨.assistant,[.obj [("type",.str "text"),("text",.str "b")]]⟩ = [] := by decide +kernel
    cases inside

end Clankermux.SessionTranscript
