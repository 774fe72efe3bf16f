import Hokora.CdspSessions
import Hokora.HandshakeInitiator
import Hokora.LinkResponses

/-!
# The queue of a resumed session on the wire

The acknowledgement of a resume as it is packed; the queue is deleted before it is sent.
-/
namespace Hokora.ResumeDelivery
open AnonymousReads BigEndian CdspSessions Constants HandshakeInitiator LinkResponses List Msgpack
  PackedSize PyValue ReadHandlers WireFrames

variable (fmt : FloatFormat)

/-- The envelope of the defer hook, which has no version. -/
def hookVal (eventType : String) (data : List (String × Val)) : Val :=
  .dict [("event", .str eventType), ("data", .dict data)]

def ItemPayload.val : ItemPayload → Val
  | .wireHex eventType data =>
    .dict [("wire_hex", .str (toHex ((packb fmt (hookVal eventType data)).toOption.getD [])))]
  | .request payload => payload

def WirePayload.val : WirePayload → Val
  | .event eventType data => hookVal eventType data
  | .stored payload => ItemPayload.val fmt payload

def FlushedItem.val (i : FlushedItem) : Val :=
  .dict [("channel_id", Val.ofStr? i.channelId), ("sync_action", .int i.syncAction),
    ("payload", WirePayload.val fmt i.payload)]

def SessionAnswer.response : SessionAnswer → List (String × Val)
  | .rejected errorCode =>
    [("action", .str "cdsp_session_reject"), ("error_code", .int errorCode),
      ("cdsp_version", .int cdspVersion)]
  | .resumed sessionId acceptedProfile flushed =>
    [("action", .str "cdsp_session_ack"), ("session_id", .str sessionId),
      ("accepted_profile", .int acceptedProfile), ("cdsp_version", .int cdspVersion),
      ("deferred_count", .int 0), ("resume_token", .none), ("resumed", .bool true),
      ("flushed_count", .int flushed.length),
      ("flushed_items", .list (flushed.map (FlushedItem.val fmt)))]
  | .opened sessionId acceptedProfile resumeToken =>
    [("action", .str "cdsp_session_ack"), ("session_id", .str sessionId),
      ("accepted_profile", .int acceptedProfile), ("cdsp_version", .int cdspVersion),
      ("deferred_count", .int 0), ("resume_token", .bytes resumeToken)]

def flushedItems (data : List (String × Val)) : List Val :=
  match data.lookup "flushed_items" with
  | some (.list items) => items
  | _ => []

structure InitCall where
  timeout : ℚ
  identityHash : String
  req : SessionInit
  draw : SessionDraw
  now : ℚ
  nonce : Bytes
  first : FloatVal
  second : FloatVal

/-- Every item that the request takes out of the queue is in the response that is sent. -/
def Lossless (s : CdspStore) (call : InitCall) : Prop :=
  ∀ s' answer, handleSessionInit call.timeout s call.identityHash call.req call.draw call.now =
        .ok (s', answer) →
      ∀ item ∈ s.deferred, item ∉ s'.deferred →
        ∃ sent, sendResponse fmt call.nonce (.ok (SessionAnswer.response fmt answer)) call.first
            call.second = .ok sent ∧
          FlushedItem.val fmt (unwrapDeferredItem item) ∈ flushedItems sent.data

def Resumes (s : CdspStore) (call : InitCall) (x : CdspSession) : Prop :=
  ¬ Refused call.req ∧ resumable s call.identityHash call.req = some x

def queueAck (s : CdspStore) (x : CdspSession) (call : InitCall) : List (String × Val) :=
  SessionAnswer.response fmt (.resumed x.sessionId call.req.syncProfile
    (((s.queue x.sessionId).insertionSort CdspStore.flushesBefore).map unwrapDeferredItem))

variable {fmt} {profile : ℤ}

lemma truncated_resumed {sid : String} {flushed : List FlushedItem} :
    truncated (SessionAnswer.response fmt (.resumed sid profile flushed)) =
      SessionAnswer.response fmt (.resumed sid profile flushed) ++ [("truncated", .bool true)] := by
  rfl

variable {nonce : Bytes} {x : CdspSession} {s : CdspStore} {flushed : List FlushedItem}
  {sid : String}

lemma fits_of_truncated
    (h : Fits nonce (truncated (SessionAnswer.response fmt (.resumed sid profile flushed)))) :
    Fits nonce (SessionAnswer.response fmt (.resumed sid profile flushed)) := by
  rw [truncated_resumed] at h
  refine fits_of_within (within_dict ?_) h
  exact forall₂_same.mpr fun e _ => .refl e.1 e.2

lemma carried_oversized
    (h : ¬ Fits nonce (SessionAnswer.response fmt (.resumed sid profile flushed))) :
    carried nonce (SessionAnswer.response fmt (.resumed sid profile flushed)) =
      internalError := by
  unfold carried
  rw [if_neg h,if_neg]
  rintro ⟨-,hc⟩
  exact h (fits_of_truncated hc)

lemma not_lossless {call : InitCall} (hx : Resumes s call x) (hqu : s.queue x.sessionId ≠ [])
    (hl : ¬ Fits call.nonce (queueAck fmt s x call)) : ¬ Lossless fmt s call := by
  obtain ⟨hva,hr⟩ := hx
  intro h
  obtain ⟨item,hi⟩ := exists_mem_of_ne_nil _ hqu
  obtain ⟨hm,hse⟩ := mem_filter.mp hi
  have hini : handleSessionInit call.timeout s call.identityHash call.req call.draw call.now =
      .ok ((flushSession s x.sessionId call.req.syncProfile call.now).2,
        .resumed x.sessionId call.req.syncProfile
          ((flushSession s x.sessionId call.req.syncProfile call.now).1.map
            unwrapDeferredItem)) := by
    obtain ⟨hv,hp⟩ := not_or.mp hva
    rw [handleSessionInit,if_neg hv,if_neg hp,hr]
  have hq : SessionAnswer.response fmt (.resumed x.sessionId call.req.syncProfile
      ((flushSession s x.sessionId call.req.syncProfile call.now).1.map unwrapDeferredItem)) =
        queueAck fmt s x call := rfl
  have hg : item ∉ (flushSession s x.sessionId call.req.syncProfile call.now).2.deferred := by
    intro hk
    have ho := (mem_filter.mp hk).2
    simp_all
  obtain ⟨sent,hs,hin⟩ := h _ _ hini item hm hg
  rw [sendResponse_data hs,hq,queueAck,carried_oversized hl] at hin
  cases hin

lemma queueAck_large {n : ℕ}
    (h : ∀ item ∈ s.queue x.sessionId, Large n (FlushedItem.val fmt (unwrapDeferredItem item)))
    (call : InitCall) :
    Large (n * (s.queue x.sessionId).length) (.dict (queueAck fmt s x call)) := by
  have hi : Large (n * (s.queue x.sessionId).length)
      (.list ((((s.queue x.sessionId).insertionSort CdspStore.flushesBefore).map
        unwrapDeferredItem).map (FlushedItem.val fmt))) := by
    rw [map_map]
    have hall := large_list (n := n) (l := ((s.queue x.sessionId).insertionSort
      CdspStore.flushesBefore).map (FlushedItem.val fmt ∘ unwrapDeferredItem)) ?_
    · rwa [length_map,length_insertionSort] at hall
    intro v hv
    obtain ⟨item,hit,rfl⟩ := mem_map.mp hv
    exact h item ((mem_insertionSort _).mp hit)
  refine large_dict (e := ("flushed_items", _)) ?_ hi
  simp [queueAck,SessionAnswer.response]

def signedPart : Bytes := replicate 30000 0

lemma signedPart_length : signedPart.length = 30000 := length_replicate

def longEvent (id : ℕ) : DeferredSyncItem where
  id := id
  sessionId := "s"
  channelId := some "general"
  syncAction := syncLiveEvent
  payload := .wireHex "message" [("lxmf_signed_part", .bytes signedPart)]
  createdAt := id
  expiresAt := none

def resumeToken : Bytes := [1, 2]

def sampleSession : CdspSession :=
  { sessionId := "s", identityHash := "alice", syncProfile := cdspProfileFull,
    resumeToken := some resumeToken, lastActivity := 0, expiresAt := none }

def sampleStore : CdspStore :=
  { sessions := .singleton sampleSession
    deferred := [longEvent 1, longEvent 2, longEvent 3] }

def sampleCall : InitCall where
  timeout := 3600
  identityHash := "alice"
  req := { resumeToken := some resumeToken }
  draw := ⟨"t",[3]⟩
  now := 10
  nonce := []
  first := .fin 0
  second := .fin 0

lemma longEvent_large {id : ℕ} :
    Large 30000 (FlushedItem.val zeroFormat (unwrapDeferredItem (longEvent id))) := by
  have hb : Large 30000 (.bytes signedPart) := signedPart_length ▸ large_bytes
  have hd : Large 30000 (.dict [("lxmf_signed_part", .bytes signedPart)]) :=
    large_dict mem_cons_self hb
  have he : Large 30000 (hookVal "message" [("lxmf_signed_part", .bytes signedPart)]) :=
    large_dict (e := ("data", _)) (by simp) hd
  refine large_dict (e := ("payload", _)) ?_ he
  simp [unwrapDeferredItem,longEvent,WirePayload.val,hookVal]

end Hokora.ResumeDelivery
