import Hokora.MirrorClient
import Hokora.PushProgress
import Hokora.ReadHandlers

/-!
# Pulling and pushing one message

One message offered by a push and by a page of history. The page lacks the sender's key.
-/
namespace Hokora.PullAgreement
open Database FederatedAcceptance KeyedTable MessageProcessor MirrorClient MirrorIngest
  PushDelivery PushedContent PushProgress PushReceive Pusher PyValue ReadHandlers Repositories
  SenderBinding

/-- `push_pending` sends the message, and the receiver of the push then has a row of it. -/
def PushStores (w : Setting) (p : FederationPusher) (env : PushEnv) (origin receiver : Store)
    (now : ℚ) (m : Message) : Prop :=
  ∃ payload ack st', Sends p env origin m payload ∧
    receive w receiver payload now = .ok (ack, st') ∧ (MessageRepo.getByHash st' m.msgHash).isSome

structure Origin where
  prim : ReadPrimitives
  ctx : SyncContext
  store : Store

/-- The requester's mirror hands this message of a history response to its ingestor. -/
def Pulled (o : Origin) (requesterHash : Option String) (msgData : Val) : Prop :=
  ∃ req channelId resp cursor,
    handleHistory o.prim o.ctx o.store req channelId requesterHash = .ok resp ∧
      msgData ∈ (handleResponse cursor ⟨resp.messages.map .dict,resp.hasMore⟩).ingested

def ingestAll (sig : SignatureScheme) (requireSigned : Bool) (channelId peerHash : String)
    (receiver : Store) (tasks : List (ℚ × Val)) : Store :=
  tasks.foldl (fun st t => MirrorIngest.ingest sig requireSigned t.1 st channelId t.2 peerHash)
    receiver

/-- Some run of the mirror's ingest tasks leaves a row of the message. -/
def PullStores (sig : SignatureScheme) (config : FederationConfig) (o : Origin)
    (requesterHash : Option String) (channelId peerHash : String) (receiver : Store)
    (m : Message) : Prop :=
  ∃ tasks : List (ℚ × Val), (∀ t ∈ tasks, Pulled o requesterHash t.2) ∧
    (MessageRepo.getByHash (ingestAll sig config.requireSignedFederation channelId peerHash receiver
      tasks) m.msgHash).isSome

variable {rq : Option String} {o : Origin}

lemma pulled_unkeyed {d : Val} (h : Pulled o rq d) :
    ∃ fields, d = .dict fields ∧ fields.lookup "sender_rns_public_key" = some .none := by
  obtain ⟨req,channelId,resp,cursor,hr,hm⟩ := h
  obtain ⟨-,-,ms,-,-,hms⟩ := handleHistory_ok hr
  obtain ⟨fields,hf,rfl⟩ := List.mem_map.mp (scan_ingested cursor _ hm)
  rw [hms,encodeMessagesWithKeys] at hf
  obtain ⟨m,-,rfl⟩ := List.mem_map.mp hf
  exact ⟨_,rfl,lookup_encodeMessageWithKeys (by decide) _ _ _ _ m⟩

lemma ingest_unkeyed {sig : SignatureScheme} {now : ℚ} {st : Store} {ch ph : String}
    {fields : List (String × Val)}
    (hke : fields.lookup "sender_rns_public_key" = some .none) :
    (MirrorIngest.ingest sig true now st ch (.dict fields) ph).messages = st.messages := by
  by_contra hc
  have hk : ∀ d, MsgData.ofVal (.dict fields) = .ok d → d.senderRnsPublicKey = .none := by
    rintro d ⟨⟩
    simp [hke]
  obtain ⟨hp,-,-⟩ := (ingest_changes_iff (d := _) rfl rfl).mp hc
  obtain ⟨-,-,-,hb⟩ := precheck_true.mp hp
  obtain ⟨pk,-,-,hpk,-⟩ := verifySenderBinding_signed hb
  rw [hk _ rfl] at hpk
  cases hpk

lemma ingestAll_pulled (sig : SignatureScheme) (ch ph : String)
    (receiver : Store) {tasks : List (ℚ × Val)} (h : ∀ t ∈ tasks, Pulled o rq t.2) :
    (ingestAll sig true ch ph receiver tasks).messages = receiver.messages := by
  induction tasks generalizing receiver with
  | nil => rfl
  | cons t tasks ih =>
    obtain ⟨fields,hf,hk⟩ := pulled_unkeyed (h t List.mem_cons_self)
    have hr := ih (MirrorIngest.ingest sig true t.1 receiver ch t.2 ph)
      fun x hx => h x (List.mem_cons_of_mem t hx)
    rw [ingestAll,List.foldl_cons,← ingestAll,hr,hf]
    exact ingest_unkeyed hk

lemma pull_stores_nothing {sig : SignatureScheme} {config : FederationConfig}
    (hsi : config.requireSignedFederation = true) {ch ph : String}
    {receiver : Store} (he : receiver.messages.rows = []) {m : Message} :
    ¬ PullStores sig config o rq ch ph receiver m := by
  rintro ⟨tasks,ht,hs⟩
  rw [hsi,MessageRepo.getByHash,ingestAll_pulled sig ch ph receiver ht,Table.get?,he] at hs
  cases hs

/-- What a push stores on an empty receiver, a pull does not. -/
theorem pull_misses_pushed {sig : SignatureScheme} {config : FederationConfig}
    (hsigned : config.requireSignedFederation = true) {o : Origin} {requesterHash : Option String}
    {p : FederationPusher} {env : PushEnv} {peerHash : String} {receiver : Store}
    (hempty : receiver.messages.rows = []) {now : ℚ} {m : Message} :
    PushStores ⟨sig,some config⟩ p env o.store receiver now m →
      ¬ PullStores sig config o requesterHash p.channelId peerHash receiver m :=
  fun _ => pull_stores_nothing hsigned hempty

/-! A signed post of an open channel, on a peer that trusts the origin. -/

def noticeMessage : Message :=
  messageRow vaultPrimitives noticeProcessor ⟨1000,[]⟩ noticePost (some 1) none
    { body := some "hello" }

def noticePusher : FederationPusher := { noticeEnds.pusher with pushCursor := 0 }

def noticeReceiver : Store := { noticeEnds.receiver with messages := .empty }

def noticeOrigin : Origin :=
  { prim := ⟨fun _ _ _ _ => none,fun _ => none⟩
    ctx := { channels := noticePosted.channels }
    store := noticePosted }

lemma noticeMessage_ingested :
    (MessageProcessor.ingest vaultPrimitives noticeProcessor ⟨1000,[]⟩ none noticeStart
      noticePost).2 = .ok (noticeMessage, noticePosted) := rfl

lemma noticeMessage_pushed :
    PushStores vaultSetting noticePusher vaultEnv noticePosted noticeReceiver 1000
      noticeMessage := by
  have hp : noticePusher.toPush noticePosted = [noticeMessage] := by decide +kernel
  have hr : ((receive vaultSetting noticeReceiver (pushPayload "general" "node"
      [attachKeys vaultEnv "node" noticeMessage]) 1000).toOption.bind fun r =>
        MessageRepo.getByHash r.2 noticeMessage.msgHash).isSome := by decide +kernel
  have hs : Sends noticePusher vaultEnv noticePosted noticeMessage (pushPayload "general" "node"
      [attachKeys vaultEnv "node" noticeMessage]) := by
    refine ⟨by rw [hp]; exact List.mem_singleton_self _,?_⟩
    rw [FederationPusher.pushPending,if_neg (by decide),hp]
    rfl
  obtain ⟨row,hro⟩ := Option.isSome_iff_exists.mp hr
  obtain ⟨⟨ack,st'⟩,hre,hf⟩ := Option.bind_eq_some_iff.mp hro
  exact ⟨_,ack,st',hs,toOption_eq_some.mp hre,Option.isSome_iff_exists.mpr ⟨row,hf⟩⟩

theorem noticeMessage_missed :
    ¬ PullStores sampleScheme {} noticeOrigin none "general" "peer" noticeReceiver noticeMessage :=
  pull_misses_pushed rfl (p := noticePusher) rfl noticeMessage_pushed

theorem noticeMessage_not_pulled :
    (MessageProcessor.ingest vaultPrimitives noticeProcessor ⟨1000,[]⟩ none noticeStart
        noticePost).2 = .ok (noticeMessage, noticePosted) ∧
      recalledKey vaultEnv noticeMessage ≠ none ∧
      outOfWindow (.float noticeMessage.timestamp) 1000 = .ok false ∧
      PushStores vaultSetting noticePusher vaultEnv noticePosted noticeReceiver 1000 noticeMessage ∧
      Pulled noticeOrigin none (.dict (encodeMessageWithKeys noticeOrigin.prim noticePosted none
        false noticeMessage)) ∧
      ¬ PullStores sampleScheme {} noticeOrigin none "general" "peer" noticeReceiver
        noticeMessage :=
  ⟨noticeMessage_ingested,by decide,by decide +kernel,noticeMessage_pushed,
    ⟨{ channelId := some "general" },none,_,0,rfl,List.mem_singleton_self _⟩,
    pull_stores_nothing rfl rfl⟩

end Hokora.PullAgreement
