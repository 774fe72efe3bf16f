import Hokora.LiveSubscriptions
import Hokora.MediaAccess

/-!
# The LXMF ingestor

The upload is stored before the message is checked.
-/
namespace Hokora.LxmfIngestor
open BigEndian Constants Database FileTree KeyedTable LiveSubscriptions MediaAccess MediaFiles
  MessageProcessor Pusher PyValue RateLimit ReadHandlers Repositories WriteAuthorisation WriteFrames
open MessageRepo (getByHash)

inductive EventKind where
  | message
  | messageUpdated
  deriving DecidableEq

structure LiveEvent (L : Type) where
  kind : EventKind
  link : L
  msgHash : Val
  seq : Option ℕ

variable {L : Type}

def broadcast (live : LiveManager L) (active : L → Bool) (channelId : String) (kind : EventKind)
    (msgHash : Val) (seq : Option ℕ) : List (LiveEvent L) :=
  ((live.getSubscribers channelId).filter fun x => active x.1).map fun x =>
    ⟨kind,x.1,msgHash,seq⟩

variable {live : LiveManager L} {active : L → Bool} {d : Delivery}

lemma mem_broadcast {ch : String}
    {kind : EventKind} {hash : Val} {seq : Option ℕ} {ev : LiveEvent L}
    (h : ev ∈ broadcast live active ch kind hash seq) :
    ev.kind = kind ∧ ev.msgHash = hash ∧ ev.seq = seq := by
  obtain ⟨x,-,rfl⟩ := List.mem_map.mp h
  exact ⟨rfl,rfl,rfl⟩

def extensionOf (path : String) : String :=
  let e := String.ofList ((suffix path).toList.dropWhile fun c => c = '.')
  if e = "" then "bin" else e

structure Delivery where
  envelope : MessageEnvelope
  mediaBytes : Option Bytes := none
  moment : Moment
  host : Host

def Delivery.attachment (d : Delivery) : Option (String × Bytes) :=
  match present d.envelope.mediaPath, d.mediaBytes with
  | some path, some data => if data = [] then none else some (path, data)
  | _, _ => none

def storeAttachment (ms : MediaStorage) (disk : Disk) (d : Delivery) (path : String)
    (data : Bytes) : Disk × Py String :=
  store ms d.host disk d.envelope.channelId (stem path) data (extensionOf path)

def upload (storage : Option MediaStorage) (disk : Disk) (d : Delivery) : Disk × MessageEnvelope :=
  match storage, d.attachment with
  | some ms, some (path, data) =>
    let r := storeAttachment ms disk d path data
    (r.1, match r.2 with
      | .ok stored => { d.envelope with mediaPath := some stored }
      | .error _ => d.envelope)
  | _, _ => (disk, d.envelope)

lemma upload_envelope (storage : Option MediaStorage) (disk : Disk) (d : Delivery) :
    ∃ path, (upload storage disk d).2 = { d.envelope with mediaPath := path } := by
  unfold upload
  split
  next ms path data _ =>
    cases hs : (storeAttachment ms disk d path data).2 with
    | ok stored => exact ⟨some stored,by simp [hs]⟩
    | error e => exact ⟨d.envelope.mediaPath,by simp [hs]⟩
  · exact ⟨d.envelope.mediaPath,rfl⟩

structure Ingestor (L : Type) where
  prim : Primitives
  processor : Processor
  live : Option (LiveManager L)
  active : L → Bool
  storage : Option MediaStorage

def updateTypes : List ℤ := [msgEdit, msgDelete, msgReaction, msgPin]

lemma mem_updateTypes {type : ℤ} : type ∈ updateTypes ↔ Mutation type := by
  unfold updateTypes Mutation
  simp only [List.mem_cons,List.not_mem_nil,or_false]
  tauto

def liveEvents (ing : Ingestor L) (env : MessageEnvelope) (message : Message) (st : Store) :
    List (LiveEvent L) :=
  match ing.live with
  | none => []
  | some live =>
    if env.type ∈ updateTypes then
      match (present env.replyTo).bind (getByHash st) with
      | some original =>
        broadcast live ing.active env.channelId .messageUpdated (.str original.msgHash) original.seq
      | none => []
    else
      broadcast live ing.active env.channelId .message (.str message.msgHash) message.seq

structure Result (L : Type) where
  limiter : Option RateLimiter
  disk : Disk
  outcome : Py (Message × Store)
  events : List (LiveEvent L)

def lxmfIngest (ing : Ingestor L) (lim : Option RateLimiter) (st : Store) (disk : Disk)
    (d : Delivery) : Result L :=
  let up := upload ing.storage disk d
  let r := ingest ing.prim ing.processor d.moment lim st up.2
  { limiter := r.1
    disk := up.1
    outcome := r.2
    events := match r.2 with
      | .ok (message, st') => liveEvents ing up.2 message st'
      | .error _ => [] }

lemma ingest_stored {prim : Primitives} {mp : Processor} {mo : Moment}
    {lim : Option RateLimiter} {st : Store} {env : MessageEnvelope} {r : Message × Store}
    (hki : ¬ Mutation env.type) (h : (ingest prim mp mo lim st env).2 = .ok r) :
    (∀ k row, getByHash st k = some row → getByHash r.2 k = some row) ∧
      getByHash r.2 r.1.msgHash = some r.1 ∧
      (getByHash st r.1.msgHash = none → r.1.mediaPath = env.mediaPath) := by
  obtain ⟨channel,env',⟨displayName,mentions,hno⟩,hs⟩ :=
    ingest_of_not_mutation hki h
  have hp : env'.mediaPath = env.mediaPath := by rw [hno]
  obtain ⟨hkn,hsa⟩ | ⟨seq,threadSeq,b,t,-,-,-,hi,hr,hm⟩ :=
    storeMessage_ok hs
  · have hh := Table.get?_key hkn
    rw [← hh] at hkn
    rw [hsa]
    refine ⟨fun k row hk => hk,hkn,fun hn => ?_⟩
    rw [hkn] at hn
    cases hn
  have hg : ∀ k, getByHash r.2 k = t.get? k := fun k => by
    rw [getByHash,hm]
  refine ⟨fun k row hk => ?_,?_,fun _ => by rw [hr]; exact hp⟩
  · rw [hg]
    exact Table.get?_insert?_of_some hi hk
  · rw [hg,Table.get?_insert? hi,hr,if_pos rfl]

/-- The upload writes or prunes a file. -/
def UploadTouches (storage : Option MediaStorage) (disk : Disk) (d : Delivery) : Prop :=
  ∃ ms path data, storage = some ms ∧ d.attachment = some (path, data) ∧
    Touches ms d.host disk.tree d.envelope.channelId (stem path) data (extensionOf path)

lemma attachment_nonempty {path : String} {data : Bytes}
    (h : d.attachment = some (path, data)) : data ≠ [] := by
  unfold Delivery.attachment at h
  split at h
  · split_ifs at h with he
    cases h
    exact he
  · cases h

lemma upload_untouched_iff {storage : Option MediaStorage} {disk : Disk} :
    (upload storage disk d).1.log = disk.log ↔ ¬ UploadTouches storage disk d := by
  unfold upload UploadTouches
  cases storage with
  | none => simp
  | some ms =>
    cases ha : d.attachment with
    | none => simp
    | some a =>
      obtain ⟨path,data⟩ := a
      have hs : (storeAttachment ms disk d path data).1.log = disk.log ↔
          ¬ Touches ms d.host disk.tree d.envelope.channelId (stem path) data (extensionOf path) :=
        store_untouched_iff (attachment_nonempty ha)
      simp only [hs]
      simp

/-- A refused message leaves the files and the subscribers alone exactly when its attachment,
if it has one, cannot be stored and prunes nothing. -/
theorem refused_without_effect_iff (ing : Ingestor L) (lim : Option RateLimiter) (st : Store)
    (disk : Disk) (d : Delivery) {e : PyError}
    (h : (lxmfIngest ing lim st disk d).outcome = .error e) :
    ((lxmfIngest ing lim st disk d).disk.log = disk.log ∧
        (lxmfIngest ing lim st disk d).events = []) ↔
      ¬ UploadTouches ing.storage disk d := by
  have he : (lxmfIngest ing lim st disk d).events = [] := by
    have hr : (ingest ing.prim ing.processor d.moment lim st
      (upload ing.storage disk d).2).2 = .error e := h
    simp [lxmfIngest,hr]
  rw [← upload_untouched_iff]
  exact and_iff_left he

/-! A text in the lobby, and a file for a channel that does not exist. -/

def sampleIngestor : Ingestor Unit where
  prim := samplePrimitives
  processor := sampleProcessor
  live := some { subscriptions := [("lobby", (), cdspProfileFull)] }
  active := fun _ => true
  storage := some sampleStorage

def helloText : Delivery where
  envelope :=
    { channelId := "lobby", senderHash := "alice", timestamp := .fin 2, type := msgText,
      body := some "hello" }
  moment := ⟨2,[]⟩
  host := sampleHost

def strayUpload : Delivery where
  envelope :=
    { channelId := "nowhere", senderHash := "mallory", timestamp := .fin 2, type := msgMedia,
      mediaPath := some "flood.bin" }
  mediaBytes := some [1, 2, 3]
  moment := ⟨2,[]⟩
  host := sampleHost

lemma strayUpload_refused :
    (lxmfIngest sampleIngestor none sampleThreads { tree := .empty } strayUpload).outcome =
      .error (messageError "Channel nowhere not found") := by
  rfl

theorem strayUpload_without_effect_iff :
    ((lxmfIngest sampleIngestor none sampleThreads { tree := .empty } strayUpload).disk.log = [] ∧
        (lxmfIngest sampleIngestor none sampleThreads { tree := .empty } strayUpload).events = []) ↔
      ¬ UploadTouches sampleIngestor.storage { tree := .empty } strayUpload :=
  refused_without_effect_iff sampleIngestor none sampleThreads { tree := .empty } strayUpload
    strayUpload_refused

theorem strayUpload_stored :
    (lxmfIngest sampleIngestor none sampleThreads { tree := .empty } strayUpload).outcome =
        .error (messageError "Channel nowhere not found") ∧
      (lxmfIngest sampleIngestor none sampleThreads { tree := .empty } strayUpload).disk.log =
        [.write ["media", "nowhere", "flood.bin"]] :=
  ⟨strayUpload_refused,by decide +kernel⟩

end Hokora.LxmfIngestor
