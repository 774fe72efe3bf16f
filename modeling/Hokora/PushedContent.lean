import Hokora.FederatedAcceptance
import Hokora.MessageProcessor
import Hokora.PushDelivery

/-!
# What a push carries

The encoder leaves the ciphertext out, which the receiver then asks for.
-/
namespace Hokora.PushedContent
open Database FederatedAcceptance KeyedTable MessageProcessor PushDelivery PushReceive Pusher
  PyValue Repositories SenderBinding WireRows
open MessageRepo (getByHash)

structure Sends (p : FederationPusher) (env : PushEnv) (sender : Store) (m : Message)
    (payload : Val) : Prop where
  pending : m ∈ p.toPush sender
  sent : (p.pushPending env sender).2.1 = some payload

variable {m : Message} {env : PushEnv}

lemma Sends.payload_eq {p : FederationPusher} {sender : Store} {pl : Val}
    (h : Sends p env sender m pl) : pl = pushPayload p.channelId p.nodeIdentityHash
      ((p.toPush sender).map (attachKeys env p.nodeIdentityHash)) := by
  have hs := h.sent
  rcases pushPending_cases p env sender with ⟨-,hn⟩ | ⟨-,-,-,hn⟩ | ⟨-,-,hso⟩
  · simp [hn] at hs
  · simp [hn] at hs
  · rw [hso] at hs
    exact (Option.some.inj hs).symm

variable {st : Store} {b : PushBatch}

lemma receive_pushPayload {w : Setting} {st' : Store} {cid node : String}
    {entries : List Val} {now : ℚ} {ack : PushAck} :
    receive w st (pushPayload cid node entries) now = .ok (ack, st') ↔
      cid ≠ "" ∧ requireTrustedPeer st (.str node) = .ok () ∧
        ∃ as, pushEntries w.sig (batchFor w.config st cid (.str node)) now st entries =
            .ok (as, st') ∧
          ack = ⟨.str cid,as.filterMap Answer.received?,as.filterMap Answer.rejected?⟩ := by
  unfold receive handlePushMessages
  constructor
  · intro h
    obtain ⟨opened,ho,h⟩ := bind_ok h
    obtain ⟨hc,ht,rfl⟩ := openBatch_pushPayload.mp ho
    obtain ⟨⟨as,st₁⟩,hp,h⟩ := bind_ok h
    cases h
    exact ⟨hc,ht,as,hp,rfl⟩
  · rintro ⟨hc,ht,as,hp,rfl⟩
    have ho : openBatch w.config st (pushPayload cid node entries) none =
        .ok (.str cid, batchFor w.config st cid (.str node), entries) :=
      openBatch_pushPayload.mpr ⟨hc,ht,rfl⟩
    simp [ho,hp]

/-- The stored row has the ciphertext columns of the pushed one. -/
def SameCiphertext (m row : Message) : Prop :=
  row.encryptedBody = m.encryptedBody ∧ row.encryptionNonce = m.encryptionNonce ∧
    row.encryptionEpoch = m.encryptionEpoch

/-- The peer accepts the message and then holds it with its ciphertext. -/
def SealedFederates (w : Setting) (receiver : Store) (payload : Val) (now : ℚ) (m : Message) :
    Prop :=
  ∃ ack st' row, receive w receiver payload now = .ok (ack, st') ∧
    Val.str m.msgHash ∉ ack.rejected ∧ getByHash st' m.msgHash = some row ∧
    SameCiphertext m row

lemma pushContent_sealed : pushContent true (pushedData env m) = .ok none := by
  have hm : ((pushedData env m).body.truthy ||
      !(pushedData env m).encryptedBody.truthy) = true := Bool.or_true _
  have hl : ∃ n, (pushedData env m).body.lenOrZero = .ok n := by
    unfold Val.lenOrZero
    split_ifs <;> exact ⟨_,rfl⟩
  obtain ⟨n,hl⟩ := hl
  unfold pushContent
  rw [if_pos rfl,if_pos hm,hl]
  rfl

lemma vetEntry_sealed {sig : SignatureScheme} (hb : b.channelSealed = true) :
    vetEntry sig b st (pushedData env m) = .ok none := by
  have hc : vetContent sig b (pushedData env m) = .ok none := by
    unfold vetContent
    split
    · rfl
    have hv : ∃ v, isValidType (pushedData env m).type = .ok v := ⟨_,rfl⟩
    obtain ⟨v,hv⟩ := hv
    have hsi : bodySize (pushedData env m).body = .ok (m.body.getD "").utf8ByteSize := rfl
    rw [hv,hsi,ok_bind,ok_bind,hb,pushContent_sealed]
    split_ifs <;> rfl
  cases hs : m.senderHash with
  | none => simpa [vetEntry,pushedData,hs,Val.ofStr?,Val.truthy] using hc
  | some sender =>
    have hbl : isBlockedWire st (pushedData env m).senderHash = .ok (Ban.isBlocked st sender) := by
      simp [isBlockedWire,pushedData,hs,Val.ofStr?,bindText,pure,Except.pure]
    have ht : ∃ v, (pushedData env m).senderHash.take 16 = .ok v := by
      simp [pushedData,hs,Val.ofStr?,Val.take]
    obtain ⟨v,ht⟩ := ht
    unfold vetEntry
    rw [hbl,ht,hc]
    split_ifs <;> cases Ban.isBlocked st sender <;> rfl

def sealedAnswer (st : Store) (m : Message) : Answer :=
  if (getByHash st m.msgHash).isSome then .received (natVal? m.seq)
  else .rejected (.str m.msgHash)

lemma pushEntries_sealed (sig : SignatureScheme) (hb : b.channelSealed = true)
    (now : ℚ) (st : Store) (env : PushEnv) (node : String) (ms : List Message) :
    pushEntries sig b now st (ms.map (attachKeys env node)) =
      .ok (ms.map (sealedAnswer st), st) := by
  induction ms with
  | nil => rfl
  | cons m ms ih =>
    have hf : getByWireHash st (pushedData env m).msgHash = .ok (getByHash st m.msgHash) := rfl
    have he : pushEntry sig b now st (pushedData env m) = .ok (sealedAnswer st m, st) := by
      unfold pushEntry sealedAnswer
      rw [hf,ok_bind,vetEntry_sealed hb]
      cases getByHash st m.msgHash <;> rfl
    simp [pushEntries,attachKeys_data,he,ih]

lemma rejected_sealedAnswers {ms : List Message} (hm : m ∈ ms) :
    Val.str m.msgHash ∉ (ms.map (sealedAnswer st)).filterMap Answer.rejected? ↔
      (getByHash st m.msgHash).isSome := by
  constructor
  · intro hn
    by_contra hs
    refine hn (List.mem_filterMap.mpr ⟨sealedAnswer st m,List.mem_map_of_mem hm,?_⟩)
    rw [sealedAnswer,if_neg hs]
    rfl
  intro hs hme
  obtain ⟨a,ha,hr⟩ := List.mem_filterMap.mp hme
  obtain ⟨q,-,rfl⟩ := List.mem_map.mp ha
  unfold sealedAnswer at hr
  split_ifs at hr with hq
  · cases hr
  · have hh : q.msgHash = m.msgHash := by simpa [Answer.rejected?] using hr
    exact hq (hh ▸ hs)

/-- A message of a sealed channel federates exactly when the peer has it already, under
the same hash and with the same ciphertext. The push itself never transfers one. -/
theorem sealed_federates_iff (w : Setting) (now : ℚ) {p : FederationPusher} {env : PushEnv}
    {sender receiver : Store} {m : Message} {payload : Val} (hsends : Sends p env sender m payload)
    (htrust : requireTrustedPeer receiver (.str p.nodeIdentityHash) = .ok ()) {c : Channel}
    (hc : ChannelRepo.getById receiver p.channelId = some c) (hsealed : c.sealed = true) :
    SealedFederates w receiver payload now m ↔
      ∃ row, getByHash receiver m.msgHash = some row ∧ SameCiphertext m row := by
  have hci : p.channelId ≠ "" := Table.get?_key hc ▸ c.id_ne
  have hb : (batchFor w.config receiver p.channelId (.str p.nodeIdentityHash)).channelSealed =
      true := by simp [batchFor,hc,hsealed]
  have hp := pushEntries_sealed w.sig hb now receiver env p.nodeIdentityHash (p.toPush sender)
  rw [hsends.payload_eq]
  constructor
  · rintro ⟨ack,st',row,hr,-,hro,hs⟩
    obtain ⟨-,-,as,he,-⟩ := receive_pushPayload.mp hr
    cases hp.symm.trans he
    exact ⟨row,hro,hs⟩
  · rintro ⟨row,hro,hs⟩
    refine ⟨_,receiver,row,receive_pushPayload.mpr ⟨hci,htrust,_,hp,rfl⟩,?_,hro,hs⟩
    exact (rejected_sealedAnswers hsends.pending).mpr (Option.isSome_iff_exists.mpr ⟨row,hro⟩)

/-! One post to a sealed channel, ingested by a node that has the key, and pushed to a peer
with the same sealed channel. The stand-in cipher maps every text to one byte. -/

def vaultPrimitives : Primitives :=
  { sha256Hex := id, floatStr := fun _ => "t", aesGcm := fun _ _ _ _ => [5] }

def vault : Channel := { id := "vault", sealed := true }

def vaultProcessor : Processor :=
  { permissionResolver := none, nodeIdentityHash := some "node"
    sealedManager := some ⟨.singleton ⟨"vault",[1],1⟩⟩ }

def vaultPost : MessageEnvelope :=
  { channelId := "vault", senderHash := sampleHash, timestamp := .fin 1000, body := some "secret"
    lxmfSignature := some [1, 2, 3], lxmfSignedPart := some [1, 2, 3] }

def vaultStart : Store := { channels := .singleton vault }

def vaultRow : Message :=
  messageRow vaultPrimitives vaultProcessor ⟨1000,[9]⟩ vaultPost (some 1) none
    { encryptedBody := some [5], encryptionNonce := some [9], encryptionEpoch := some 1 }

def vaultSender : Store :=
  { channels := .singleton { vault with latestSeq := 1 }
    messages := .singleton vaultRow }

lemma vaultPost_ingested :
    (ingest vaultPrimitives vaultProcessor ⟨1000,[9]⟩ none vaultStart vaultPost).2 =
      .ok (vaultRow, vaultSender) := rfl

def vaultPusher : FederationPusher :=
  { peerIdentityHash := "peer", channelId := "vault", nodeIdentityHash := "node" }

def vaultEnv : PushEnv := { recallIdentity := fun _ => some (List.replicate 64 7) }

def vaultPayload : Val := pushPayload "vault" "node" [attachKeys vaultEnv "node" vaultRow]

def vaultReceiver : Store :=
  { channels := .singleton vault
    peers := .singleton { identityHash := "node", federationTrusted := true } }

def vaultHolder : Store :=
  { vaultReceiver with messages := .singleton vaultRow }

def vaultSetting : Setting := ⟨sampleScheme,some {}⟩

lemma vaultPayload_sent : Sends vaultPusher vaultEnv vaultSender vaultRow vaultPayload := by
  have hp : vaultPusher.toPush vaultSender = [vaultRow] := by decide
  exact ⟨by rw [hp]; exact List.mem_singleton_self _,rfl⟩

theorem vaultRow_federates_iff :
    SealedFederates vaultSetting vaultHolder vaultPayload 1000 vaultRow ↔
      ∃ row, getByHash vaultHolder vaultRow.msgHash = some row ∧ SameCiphertext vaultRow row :=
  sealed_federates_iff vaultSetting 1000 vaultPayload_sent rfl (c := vault) rfl rfl

theorem vaultRow_not_federated :
    (ingest vaultPrimitives vaultProcessor ⟨1000,[9]⟩ none vaultStart vaultPost).2 =
        .ok (vaultRow, vaultSender) ∧ Sends vaultPusher vaultEnv vaultSender vaultRow vaultPayload ∧
      ¬ SealedFederates vaultSetting vaultReceiver vaultPayload 1000 vaultRow := by
  refine ⟨vaultPost_ingested,vaultPayload_sent,?_⟩
  rintro ⟨ack,st',row,hr,ha,-⟩
  obtain ⟨-,-,as,he,rfl⟩ := receive_pushPayload.mp hr
  have hp := pushEntries_sealed vaultSetting.sig
    (b := batchFor vaultSetting.config vaultReceiver "vault" (.str "node")) rfl 1000 vaultReceiver
    vaultEnv "node" [vaultRow]
  cases hp.symm.trans he
  have hk : (getByHash vaultReceiver vaultRow.msgHash).isSome :=
    (rejected_sealedAnswers (List.mem_singleton_self vaultRow)).mp ha
  cases hk

end Hokora.PushedContent
