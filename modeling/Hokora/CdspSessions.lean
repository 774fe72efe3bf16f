import Hokora.AnonymousReads
import Hokora.Msgpack

/-!
# Sessions and their queues

The session manager with its tables. A request that waits is any value, an event keeps its name and
data.
-/
namespace Hokora.CdspSessions
open AnonymousReads BigEndian Constants KeyedTable List PushReceive PyValue ReadHandlers
open List.Subset (refl)

inductive SessionState where
  | init
  | active
  | suspended
  | closed
  deriving DecidableEq

def SessionState.text : SessionState → String
  | .init => "init"
  | .active => "active"
  | .suspended => "suspended"
  | .closed => "closed"

structure CdspSession where
  sessionId : String
  identityHash : String
  syncProfile : ℤ
  cdspVersion : ℤ := 1
  state : SessionState := .active
  resumeToken : Option Bytes
  lastActivity : ℚ
  expiresAt : Option ℚ
  deferredCount : ℕ := 0
  deriving DecidableEq

inductive ItemPayload where
  | wireHex (eventType : String) (data : Entry)
  | request (payload : Val)

inductive WirePayload where
  | event (eventType : String) (data : Entry)
  | stored (payload : ItemPayload)

structure DeferredSyncItem where
  id : ℕ
  sessionId : String
  channelId : Option String
  syncAction : ℤ
  payload : ItemPayload
  priority : ℤ := 0
  createdAt : ℚ
  expiresAt : Option ℚ

structure FlushedItem where
  channelId : Option String
  syncAction : ℤ
  payload : WirePayload

/-- A request that was sent with a key `wire_hex` is replaced too if that is a packed dictionary. -/
def unwrapRequest (payload : Val) : Val :=
  match payload with
  | .dict d =>
    match d.lookup "wire_hex" with
    | some hex =>
      match fromHex hex >>= Msgpack.unpackb Msgpack.readFormat with
      | .ok (.dict decoded) => .dict decoded
      | _ => .dict d
    | none => .dict d
  | _ => payload

def unwrapDeferredItem (i : DeferredSyncItem) : FlushedItem :=
  { channelId := i.channelId, syncAction := i.syncAction
    payload := match i.payload with
      | .wireHex eventType data => .event eventType data
      | .request payload => .stored (.request (unwrapRequest payload)) }

def storedItem (i : DeferredSyncItem) : FlushedItem :=
  { channelId := i.channelId, syncAction := i.syncAction, payload := .stored i.payload }

structure CdspStore where
  sessions : Table CdspSession.sessionId := .empty
  deferred : List DeferredSyncItem := []

def syncLiveEvent : ℤ := 0x30

namespace CdspStore
variable (s : CdspStore)

def getActiveSession (identityHash : String) : Option CdspSession :=
  ((s.sessions.rows.filter fun x =>
    x.identityHash = identityHash && decide (x.state = .active)).insertionSort
      fun a b => b.lastActivity ≤ a.lastActivity).head?

def rewrite (sessionId : String) (f : CdspSession → CdspSession)
    (hf : ∀ x, (f x).sessionId = x.sessionId) : CdspStore :=
  { s with sessions := s.sessions.update sessionId f hf }

def queue (sessionId : String) : List DeferredSyncItem :=
  s.deferred.filter fun i => i.sessionId = sessionId

/-- The order of `flush_for_session`. -/
def flushesBefore (a b : DeferredSyncItem) : Prop :=
  b.priority < a.priority ∨ a.priority = b.priority ∧ a.createdAt ≤ b.createdAt

instance : DecidableRel flushesBefore := fun _ _ => inferInstanceAs (Decidable (_ ∨ _))

def flushForSession (sessionId : String) : List DeferredSyncItem × CdspStore :=
  ((s.queue sessionId).insertionSort flushesBefore,
    { s with deferred := s.deferred.filter fun i => i.sessionId ≠ sessionId })

def newestIds (sessionId : String) (keepLimit : ℕ) : List ℕ :=
  (((s.queue sessionId).insertionSort fun a b => b.createdAt ≤ a.createdAt).take keepLimit).map
    DeferredSyncItem.id

def evictOldest (sessionId : String) (keepLimit : ℕ) : CdspStore :=
  let kept := s.newestIds sessionId keepLimit
  if kept.isEmpty then s
  else
    { s with
      deferred := s.deferred.filter fun i => i.sessionId ≠ sessionId || kept.contains i.id }

def nextId : ℕ := (s.deferred.map DeferredSyncItem.id).foldr max 0 + 1

def enqueue (sessionId : String) (channelId : Option String) (syncAction : ℤ)
    (payload : ItemPayload) (ttl : Option ℚ) (now : ℚ) : CdspStore :=
  let item : DeferredSyncItem :=
    { id := s.nextId, sessionId, channelId, syncAction, payload, createdAt := now,
      expiresAt := ttl }
  { s with deferred := s.deferred ++ [item] }

def enqueueBounded (limit : ℕ) (sess : CdspSession) (channelId : Option String) (syncAction : ℤ)
    (payload : ItemPayload) (now : ℚ) : CdspStore :=
  let room := if limit ≤ (s.queue sess.sessionId).length then
      s.evictOldest sess.sessionId (limit - 1)
    else s
  room.enqueue sess.sessionId channelId syncAction payload sess.expiresAt now

def deferLiveEvent (limit : ℕ) (identityHash channelId eventType : String) (data : Entry)
    (now : ℚ) : CdspStore :=
  match s.getActiveSession identityHash with
  | none => s
  | some sess => s.enqueueBounded limit sess (some channelId) syncLiveEvent
      (.wireHex eventType data) now

def setCount (n : ℕ) (x : CdspSession) : CdspSession := { x with deferredCount := n }

def deferSyncItem (limit : ℕ) (identityHash : String) (channelId : Option String) (action : ℤ)
    (payload : Val) (now : ℚ) : CdspStore :=
  match s.getActiveSession identityHash with
  | none => s
  | some sess =>
    let s' := s.enqueueBounded limit sess channelId action (.request payload) now
    s'.rewrite sess.sessionId (setCount (s'.queue sess.sessionId).length) fun _ => rfl

def expired (maxAge now : ℚ) (x : CdspSession) : Bool :=
  x.lastActivity < now - maxAge || x.expiresAt.any fun t => t < now

def cleanupExpired (maxAge now : ℚ) : CdspStore :=
  let gone := (s.sessions.rows.filter (expired maxAge now)).map CdspSession.sessionId
  { sessions := s.sessions.select fun x => !expired maxAge now x
    deferred := s.deferred.filter fun i =>
      !gone.contains i.sessionId && !i.expiresAt.any fun t => t < now }

end CdspStore

structure SessionInit where
  cdspVersion : ℤ := 1
  syncProfile : ℤ := cdspProfileFull
  resumeToken : Option Bytes := none

structure SessionDraw where
  sessionId : String
  resumeToken : Bytes

inductive SessionAnswer where
  | rejected (errorCode : ℕ)
  | resumed (sessionId : String) (acceptedProfile : ℤ) (flushed : List FlushedItem)
  | opened (sessionId : String) (acceptedProfile : ℤ) (resumeToken : Bytes)

def SessionAnswer.items : SessionAnswer → List FlushedItem
  | .resumed _ _ flushed => flushed
  | _ => []

def resumable (s : CdspStore) (identityHash : String) (req : SessionInit) : Option CdspSession :=
  match req.resumeToken with
  | some (b :: bs) => (s.getActiveSession identityHash).filter fun x =>
    x.resumeToken = some (b :: bs)
  | _ => none

def touchProfile (profile : ℤ) (now : ℚ) (x : CdspSession) : CdspSession :=
  { x with syncProfile := profile, lastActivity := now }

def close (now : ℚ) (x : CdspSession) : CdspSession :=
  { x with state := .closed, lastActivity := now }

def closePrevious (s : CdspStore) (identityHash : String) (now : ℚ) : CdspStore :=
  match s.getActiveSession identityHash with
  | none => s
  | some existing => s.rewrite existing.sessionId (close now) fun _ => rfl

lemma closePrevious_deferred {s : CdspStore} {i : String} {now : ℚ} :
    (closePrevious s i now).deferred = s.deferred := by
  unfold closePrevious
  split <;> rfl

def flushSession (s : CdspStore) (sessionId : String) (profile : ℤ) (now : ℚ) :
    List DeferredSyncItem × CdspStore :=
  let r := (s.rewrite sessionId (touchProfile profile now) fun _ => rfl).flushForSession sessionId
  (r.1, r.2.rewrite sessionId (CdspStore.setCount 0) fun _ => rfl)

def newRow (timeout : ℚ) (identityHash : String) (req : SessionInit) (draw : SessionDraw)
    (now : ℚ) : CdspSession :=
  { sessionId := draw.sessionId, identityHash, syncProfile := req.syncProfile,
    cdspVersion := req.cdspVersion, resumeToken := some draw.resumeToken, lastActivity := now,
    expiresAt := some (now + timeout) }

def openSession (timeout : ℚ) (s : CdspStore) (identityHash : String) (req : SessionInit)
    (draw : SessionDraw) (now : ℚ) : Py (CdspStore × SessionAnswer) :=
  match s.sessions.insert? (newRow timeout identityHash req draw now) with
  | none => .error .integrityError
  | some sessions =>
    .ok ({ s with sessions := sessions }, .opened draw.sessionId req.syncProfile draw.resumeToken)

def handleSessionInit (timeout : ℚ) (s : CdspStore) (identityHash : String) (req : SessionInit)
    (draw : SessionDraw) (now : ℚ) : Py (CdspStore × SessionAnswer) :=
  if cdspVersion < req.cdspVersion then .ok (s, .rejected 1)
  else if req.syncProfile ∉ validProfiles then .ok (s, .rejected 2)
  else
    match resumable s identityHash req with
    | some existing =>
      let r := flushSession s existing.sessionId req.syncProfile now
      .ok (r.2, .resumed existing.sessionId req.syncProfile (r.1.map unwrapDeferredItem))
    | none => openSession timeout (closePrevious s identityHash now) identityHash req draw now

inductive ProfileAnswer where
  | rejected (errorCode : ℕ)
  | updated (sessionId : String) (acceptedProfile : ℤ) (deferredCount : ℕ)
      (flushed : List FlushedItem)

def ProfileAnswer.items : ProfileAnswer → List FlushedItem
  | .updated _ _ _ flushed => flushed
  | _ => []

def maxSyncLimitOf (profile : ℤ) : ℤ :=
  if profile ∈ validProfiles then (cdspProfileLimits profile).maxSyncLimit else 0

def handleProfileUpdate (s : CdspStore) (sessionId : String) (newProfile : ℤ) (now : ℚ) :
    CdspStore × ProfileAnswer :=
  if newProfile ∉ validProfiles then (s, .rejected 2)
  else
    match s.sessions.get? sessionId with
    | none => (s, .rejected 3)
    | some sess =>
      if sess.state ≠ .active then (s, .rejected 3)
      else
        if maxSyncLimitOf sess.syncProfile < maxSyncLimitOf newProfile then
          let r := flushSession s sessionId newProfile now
          (r.2, .updated sessionId newProfile 0 (r.1.map storedItem))
        else
          (s.rewrite sessionId (touchProfile newProfile now) fun _ => rfl,
            .updated sessionId newProfile sess.deferredCount [])

def handleCdspSessionInit (hasCdspManager : Bool) (timeout : ℚ) (s : CdspStore)
    (requesterHash : Option String) (req : SessionInit) (draw : SessionDraw) (now : ℚ) :
    Py (CdspStore × SessionAnswer) :=
  if hasCdspManager = false then .error (syncError "CDSP not enabled on this node")
  else match present requesterHash with
    | none => .error (syncError "Authentication required for CDSP session")
    | some requester => handleSessionInit timeout s requester req draw now

def handleCdspProfileUpdate (hasCdspManager : Bool) (s : CdspStore) (sessionId : Option String)
    (syncProfile : Option ℤ) (now : ℚ) : Py (CdspStore × ProfileAnswer) :=
  if hasCdspManager = false then .error (syncError "CDSP not enabled on this node")
  else match present sessionId, syncProfile with
    | some sessionId, some newProfile => .ok (handleProfileUpdate s sessionId newProfile now)
    | _, _ => .error (syncError "session_id and sync_profile required for profile update")

def Refused (req : SessionInit) : Prop :=
  cdspVersion < req.cdspVersion ∨ req.syncProfile ∉ validProfiles

variable {x : CdspSession} {f : CdspSession → CdspSession} {s s' : CdspStore} {draw : SessionDraw}
  {req : SessionInit} {identityHash sid : String} {now timeout : ℚ}

lemma handleSessionInit_cases {answer : SessionAnswer}
    (h : handleSessionInit timeout s identityHash req draw now = .ok (s', answer)) :
    (Refused req ∧ s' = s ∧ ∃ code, answer = .rejected code) ∨
      (¬ Refused req ∧ ∃ x, resumable s identityHash req = some x ∧
        s' = (flushSession s x.sessionId req.syncProfile now).2 ∧
        answer = .resumed x.sessionId req.syncProfile
          ((flushSession s x.sessionId req.syncProfile now).1.map unwrapDeferredItem)) ∨
      (¬ Refused req ∧ resumable s identityHash req = none ∧ ∃ sessions,
        (closePrevious s identityHash now).sessions.insert?
          (newRow timeout identityHash req draw now) = some sessions ∧
        s' = { closePrevious s identityHash now with sessions := sessions } ∧
        answer = .opened draw.sessionId req.syncProfile draw.resumeToken) := by
  unfold handleSessionInit at h
  by_cases hv : cdspVersion < req.cdspVersion
  · rw [if_pos hv] at h
    cases h
    exact .inl ⟨.inl hv,rfl,1,rfl⟩
  by_cases hp : req.syncProfile ∉ validProfiles
  · rw [if_neg hv,if_pos hp] at h
    cases h
    exact .inl ⟨.inr hp,rfl,2,rfl⟩
  rw [if_neg hv,if_neg hp] at h
  have hva : ¬ Refused req := not_or.mpr ⟨hv,hp⟩
  split at h
  next x hr =>
    cases h
    exact .inr (.inl ⟨hva,x,hr,rfl,rfl⟩)
  next hr =>
    unfold openSession at h
    split at h
    · cases h
    next sessions hi =>
      cases h
      exact .inr (.inr ⟨hva,hr,sessions,hi,rfl,rfl⟩)

def Switches (s : CdspStore) (sessionId : String) (newProfile : ℤ) : Prop :=
  newProfile ∈ validProfiles ∧ ∃ x, s.sessions.get? sessionId = some x ∧ x.state = .active

variable {newProfile profile : ℤ} {item : FlushedItem}

lemma handleProfileUpdate_cases : (¬ Switches s sid newProfile ∧ ∃ code,
      handleProfileUpdate s sid newProfile now = (s, .rejected code)) ∨
      (Switches s sid newProfile ∧ ((∃ x, s.sessions.get? sid = some x ∧
            maxSyncLimitOf x.syncProfile < maxSyncLimitOf newProfile) ∧
          handleProfileUpdate s sid newProfile now =
            ((flushSession s sid newProfile now).2, .updated sid newProfile 0
              ((flushSession s sid newProfile now).1.map storedItem)) ∨
          ∃ count, handleProfileUpdate s sid newProfile now =
            (s.rewrite sid (touchProfile newProfile now) fun _ => rfl,
              .updated sid newProfile count []))) := by
  unfold handleProfileUpdate
  by_cases hp : newProfile ∉ validProfiles
  · rw [if_pos hp]
    exact .inl ⟨fun h => hp h.1,2,rfl⟩
  rw [if_neg hp]
  cases hg : s.sessions.get? sid with
  | none =>
    refine .inl ⟨?_,3,rfl⟩
    rintro ⟨-,x,hx,-⟩
    rw [hg] at hx
    cases hx
  | some sess =>
    by_cases hs : sess.state ≠ .active
    · refine .inl ⟨?_,3,if_pos hs⟩
      rintro ⟨-,x,hx,ha⟩
      rw [hg] at hx
      cases hx
      exact hs ha
    have hsw : Switches s sid newProfile :=
      ⟨not_not.mp hp,sess,hg,not_not.mp hs⟩
    simp only [if_neg hs]
    by_cases hl : maxSyncLimitOf sess.syncProfile < maxSyncLimitOf newProfile
    · exact .inr ⟨hsw,.inl ⟨⟨sess,rfl,hl⟩,if_pos hl⟩⟩
    · exact .inr ⟨hsw,.inr ⟨sess.deferredCount,if_neg hl⟩⟩

lemma get?_rewrite (hx : s.sessions.get? sid = some x) (hf : ∀ x, (f x).sessionId = x.sessionId) :
    (s.rewrite sid f hf).sessions.get? sid = some (f x) := by
  unfold CdspStore.rewrite
  rw [Table.get?_update,if_pos rfl,hx]
  rfl

lemma rewrite_fixed (hf : ∀ x, (f x).sessionId = x.sessionId)
    (h : ∀ x, s.sessions.get? sid = some x → f x = x) : s.rewrite sid f hf = s := by
  unfold CdspStore.rewrite
  rw [Table.update_fixed hf h]

lemma flushSession_row (hx : s.sessions.get? sid = some x) :
    (flushSession s sid profile now).2.sessions.get? sid =
      some (CdspStore.setCount 0 (touchProfile profile now x)) := by
  have ht := get?_rewrite hx (f := touchProfile profile now) fun _ => rfl
  exact get?_rewrite (s := ((s.rewrite sid (touchProfile profile now)
    fun _ => rfl).flushForSession sid).2) (f := CdspStore.setCount 0) ht fun _ => rfl

lemma getActiveSession_mem (h : s.getActiveSession identityHash = some x) :
    x ∈ s.sessions.rows ∧ x.identityHash = identityHash ∧ x.state = .active := by
  have hm := mem_of_head? h
  rw [mem_insertionSort,mem_filter,Bool.and_eq_true,decide_eq_true_eq, decide_eq_true_eq] at hm
  exact hm

lemma resumable_active (h : resumable s identityHash req = some x) :
    s.getActiveSession identityHash = some x := by
  unfold resumable at h
  split at h
  · exact (Option.filter_eq_some_iff.mp h).1
  · cases h

def CdspSession.toSession (x : CdspSession) : Session :=
  { sessionId := x.sessionId, identityHash := some x.identityHash, syncProfile := x.syncProfile,
    state := x.state.text, lastActivity := x.lastActivity }

def CdspStore.view (s : CdspStore) : List Session := s.sessions.rows.map CdspSession.toSession

lemma view_identified : Identified s.view := by
  intro x hx
  obtain ⟨row,-,rfl⟩ := mem_map.mp hx
  exact Option.some_ne_none row.identityHash

def ItemPayload.isEvent : ItemPayload → Bool
  | .wireHex _ _ => true
  | .request _ => false

/-- Every queued event is in the queue of a session whose identity has the property. -/
def EventsOf (P : String → Prop) (s : CdspStore) : Prop :=
  ∀ i ∈ s.deferred, i.payload.isEvent = true →
    ∃ x ∈ s.sessions.rows, x.sessionId = i.sessionId ∧ P x.identityHash

section
variable {P : String → Prop} {s s' : CdspStore}

lemma EventsOf.mono (h : EventsOf P s) (hit : s'.deferred ⊆ s.deferred)
    (hs : ∀ x ∈ s.sessions.rows, ∃ y ∈ s'.sessions.rows,
      y.sessionId = x.sessionId ∧ y.identityHash = x.identityHash) : EventsOf P s' := by
  intro i hi he
  obtain ⟨x,hx,hid,hP⟩ := h i (hit hi) he
  obtain ⟨y,hy,hyi,hyh⟩ := hs x hx
  exact ⟨y,hy,hyi.trans hid,hyh ▸ hP⟩

lemma EventsOf.sublist (h : EventsOf P s) {deferred : List DeferredSyncItem}
    (hi : deferred ⊆ s.deferred) : EventsOf P { s with deferred := deferred } :=
  h.mono hi fun x hx => ⟨x,hx,rfl,rfl⟩

lemma EventsOf.rewrite (h : EventsOf P s) (sid : String)
    (hf : ∀ x, (f x).sessionId = x.sessionId) (hh : ∀ x, (f x).identityHash = x.identityHash) :
    EventsOf P (s.rewrite sid f hf) := by
  refine h.mono (refl _) fun x hx => ?_
  refine ⟨if x.sessionId = sid then f x else x,?_,?_⟩
  · exact mem_map.mpr ⟨x,hx,rfl⟩
  split_ifs
  · exact ⟨hf x,hh x⟩
  · exact ⟨rfl,rfl⟩

lemma EventsOf.flush (h : EventsOf P s) (sid : String) :
    EventsOf P (s.flushForSession sid).2 := h.sublist (filter_subset_self _)

lemma EventsOf.queue (h : EventsOf P s) (hx : x ∈ s.sessions.rows) (hP : ¬ P x.identityHash)
    {i : DeferredSyncItem} (hi : i ∈ s.queue x.sessionId) : i.payload.isEvent = false := by
  obtain ⟨hm,hid⟩ := mem_filter.mp hi
  by_contra he
  obtain ⟨y,hy,hyi,hyP⟩ := h i hm (by simpa using he)
  have hk : y.sessionId = x.sessionId := hyi.trans (by simpa using hid)
  have hg := Table.get?_of_mem hy
  rw [hk,Table.get?_of_mem hx] at hg
  cases hg
  exact hP hyP

lemma evictOldest_sessions {keepLimit : ℕ} : (s.evictOldest sid keepLimit).sessions = s.sessions ∧
      (s.evictOldest sid keepLimit).deferred ⊆ s.deferred := by
  unfold CdspStore.evictOldest
  simp only
  split_ifs
  · exact ⟨rfl,refl _⟩
  · exact ⟨rfl,filter_subset_self _⟩

lemma EventsOf.enqueueBounded (h : EventsOf P s) (limit : ℕ) {sess : CdspSession}
    (hse : sess ∈ s.sessions.rows) (ch : Option String) (syncAction : ℤ)
    {p : ItemPayload} (hP : p.isEvent = true → P sess.identityHash) (now : ℚ) :
    EventsOf P (s.enqueueBounded limit sess ch syncAction p now) := by
  have hr : ∀ room : CdspStore, room.sessions = s.sessions → room.deferred ⊆ s.deferred →
      EventsOf P (room.enqueue sess.sessionId ch syncAction p sess.expiresAt now) := by
    intro room hs hit i hi he
    simp only [CdspStore.enqueue,hs] at hi ⊢
    rcases mem_append.mp hi with ho | hn
    · exact h i (hit ho) he
    · cases mem_singleton.mp hn
      exact ⟨sess,hse,rfl,hP he⟩
  unfold CdspStore.enqueueBounded
  split_ifs
  · exact hr _ evictOldest_sessions.1 evictOldest_sessions.2
  · exact hr s rfl (refl _)

lemma EventsOf.deferLiveEvent (h : EventsOf P s) (hP : P identityHash) (limit : ℕ)
    (ch eventType : String) (data : Entry) (now : ℚ) :
    EventsOf P (s.deferLiveEvent limit identityHash ch eventType data now) := by
  unfold CdspStore.deferLiveEvent
  split
  · exact h
  next sess hs =>
    obtain ⟨hm,hh,-⟩ := getActiveSession_mem hs
    exact h.enqueueBounded limit hm _ _ (fun _ => hh ▸ hP) now

lemma EventsOf.deferSyncItem (h : EventsOf P s) (limit : ℕ) (i : String)
    (ch : Option String) (action : ℤ) (p : Val) (now : ℚ) :
    EventsOf P (s.deferSyncItem limit i ch action p now) := by
  unfold CdspStore.deferSyncItem
  split
  · exact h
  next sess hs =>
    have hm := (getActiveSession_mem hs).1
    have hno : (ItemPayload.request p).isEvent = true → P sess.identityHash :=
      fun he => nomatch he
    have hq := h.enqueueBounded limit hm ch action hno now
    exact hq.rewrite _ _ fun _ => rfl

lemma EventsOf.cleanupExpired (h : EventsOf P s) (maxAge now : ℚ) :
    EventsOf P (s.cleanupExpired maxAge now) := by
  intro i hi hev
  obtain ⟨hm,hk⟩ := mem_filter.mp hi
  obtain ⟨x,hx,hid,hP⟩ := h i hm hev
  rw [Bool.and_eq_true,Bool.not_eq_true',contains_eq_mem,decide_eq_false_iff_not] at hk
  refine ⟨x,mem_filter.mpr ⟨hx,?_⟩,hid,hP⟩
  cases he : CdspStore.expired maxAge now x with
  | false => rfl
  | true =>
    -- An expired session takes its items with it.
    have hg := mem_map_of_mem (f := CdspSession.sessionId) (mem_filter.mpr ⟨hx,he⟩)
    rw [hid] at hg
    exact absurd hg hk.1

lemma EventsOf.flushSession (h : EventsOf P s) (sid : String) (profile : ℤ) (now : ℚ) :
    EventsOf P (flushSession s sid profile now).2 := by
  have hs := h.rewrite sid (f := touchProfile profile now) (fun _ => rfl) fun _ => rfl
  exact (hs.flush sid).rewrite sid (f := CdspStore.setCount 0) (fun _ => rfl) fun _ => rfl

lemma EventsOf.closePrevious (h : EventsOf P s) (i : String) (now : ℚ) :
    EventsOf P (closePrevious s i now) := by
  unfold CdspSessions.closePrevious
  split
  · exact h
  · exact h.rewrite _ (f := close now) (fun _ => rfl) fun _ => rfl

lemma EventsOf.sessionInit (h : EventsOf P s) {answer : SessionAnswer}
    (hok : handleSessionInit timeout s identityHash req draw now = .ok (s', answer)) :
    EventsOf P s' := by
  rcases handleSessionInit_cases hok with ⟨-,rfl,-⟩ | ⟨-,x,-,rfl,-⟩ | ⟨-,-,sessions,hi,rfl,-⟩
  · exact h
  · exact h.flushSession x.sessionId req.syncProfile now
  refine (h.closePrevious identityHash now).mono (refl _) fun x hx => ?_
  refine ⟨x,?_,rfl,rfl⟩
  rw [Table.insert?_rows hi]
  exact mem_append_left _ hx

lemma EventsOf.profileUpdate (h : EventsOf P s) (sid : String) (newProfile : ℤ) (now : ℚ) :
    EventsOf P (handleProfileUpdate s sid newProfile now).1 := by
  rcases handleProfileUpdate_cases with
    ⟨-,code,hr⟩ | ⟨-,⟨-,hr⟩ | ⟨count,hr⟩⟩
  · rw [hr]
    exact h
  · rw [hr]
    exact h.flushSession sid newProfile now
  · rw [hr]
    exact h.rewrite sid (f := touchProfile newProfile now) (fun _ => rfl) fun _ => rfl

end

lemma mem_flushSession {i : DeferredSyncItem} (h : i ∈ (flushSession s sid profile now).1) :
    i ∈ s.queue sid := (mem_insertionSort _).mp h

lemma handleSessionInit_items {answer : SessionAnswer}
    (hok : handleSessionInit timeout s identityHash req draw now = .ok (s', answer))
    (hit : item ∈ answer.items) : ∃ x, s.getActiveSession identityHash = some x ∧
      ∃ i ∈ s.queue x.sessionId, item = unwrapDeferredItem i := by
  rcases handleSessionInit_cases hok with ⟨-,-,code,rfl⟩ | ⟨-,x,hr,-,rfl⟩ | ⟨-,-,sessions,-,-,rfl⟩
  · cases hit
  · obtain ⟨i,hi,rfl⟩ := mem_map.mp hit
    exact ⟨x,resumable_active hr,i,mem_flushSession hi,rfl⟩
  · cases hit

lemma handleProfileUpdate_items (hit : item ∈ (handleProfileUpdate s sid newProfile now).2.items) :
    ∃ x, s.sessions.get? sid = some x ∧ ∃ i ∈ s.queue sid, item = storedItem i := by
  rcases handleProfileUpdate_cases with
    ⟨-,code,hr⟩ | ⟨⟨-,x,hx,-⟩,⟨-,hr⟩ | ⟨count,hr⟩⟩
  · rw [hr] at hit
    cases hit
  · rw [hr] at hit
    obtain ⟨i,hi,rfl⟩ := mem_map.mp hit
    exact ⟨x,hx,i,mem_flushSession hi,rfl⟩
  · rw [hr] at hit
    cases hit

/-- The events that the client replays from the items of a session ack. -/
def SessionAnswer.replayed (a : SessionAnswer) : List (String × Entry) :=
  a.items.filterMap fun i => match i.payload with
    | .event eventType data => if eventType = "" then none else some (eventType, data)
    | .stored (.request (.dict p)) =>
      match p.lookup "event", p.lookup "data" with
      | some (.str eventType), some (.dict data) =>
        if eventType = "" then none else some (eventType, data)
      | _, _ => none
    | .stored _ => none

/-- `handle_profile_ack` does not look at the items. -/
def ProfileAnswer.replayed (_ : ProfileAnswer) : List (String × Entry) := []

/-- A request without a packed dictionary, other than itself, under `wire_hex`. -/
def Unwrapped : ItemPayload → Prop
  | .wireHex _ _ => False
  | .request p => ∀ d hex bs decoded, p = .dict d → d.lookup "wire_hex" = some hex →
      fromHex hex = .ok bs → Msgpack.unpackb Msgpack.readFormat bs = .ok (.dict decoded) →
      decoded = d

lemma unwrapRequest_eq_iff {p : Val} : unwrapRequest p = p ↔ Unwrapped (.request p) := by
  unfold unwrapRequest Unwrapped
  constructor
  · rintro h d hex bs decoded rfl hl hb hu
    simp only [hl,hb,ok_bind,hu] at h
    exact Val.dict.inj h
  intro h
  split
  next d =>
    split
    next hex hl =>
      split
      next decoded hu =>
        obtain ⟨bs,hb,hu⟩ := bind_ok hu
        rw [h d hex bs decoded rfl hl hb hu]
      · rfl
    · rfl
  · rfl

lemma unwrap_eq_stored_iff {i : DeferredSyncItem} :
    unwrapDeferredItem i = storedItem i ↔ Unwrapped i.payload := by
  cases hp : i.payload with
  | wireHex t d => simp [unwrapDeferredItem,storedItem,hp,Unwrapped]
  | request p =>
    rw [← unwrapRequest_eq_iff]
    simp [unwrapDeferredItem,storedItem,hp]

def modest : CdspSession :=
  ⟨"s","alice",cdspProfileMinimal,1,.active,some [1],0,none,0⟩

def upgrading (deferred : List DeferredSyncItem) : CdspStore := ⟨.singleton modest,deferred⟩

def resuming : SessionInit := { resumeToken := some [1] }

def missed : DeferredSyncItem :=
  ⟨1,"s",some "hall",syncLiveEvent,.wireHex "message" [("seq", .int 1)],0,0,none⟩

def searched (payload : Entry) : DeferredSyncItem :=
  ⟨2,"s",some "hall",0x07,.request (.dict payload),0,1,none⟩

def plainSearch : DeferredSyncItem := searched [("query", .str "tea")]

end Hokora.CdspSessions
