import Hokora.MirrorIngest

/-!
# What a receiving node accepts

What a push or a mirrored message must have to be stored: no link is asked for, and the body is not
signed.
-/
namespace Hokora.FederatedAcceptance
open Constants Database MirrorIngest PushReceive PyValue Repositories SenderBinding WireRows
open MsgData (ofVal)

/-! The evaluated cases use a scheme in which a signature repeats the message. -/

def sampleHash : String := "0123456789abcdef0123456789abcdef"

def sampleScheme : SignatureScheme :=
  { truncatedHashHex := fun _ => sampleHash
    verify := fun _ message signature => message = signature }

def sampleStore : Store :=
  { channels := ⟨[{ id := "general" }, { id := "ops" }],by decide⟩
    peers := ⟨[{ identityHash := "peer", federationTrusted := true }],by decide⟩ }

def sampleEntry (msgHash body : String) : Val :=
  .dict [("msg_hash", .str msgHash), ("sender_hash", .str sampleHash), ("timestamp", .int 1000),
    ("body", .str body), ("sender_rns_public_key", .bytes (List.replicate 64 7)),
    ("lxmf_signed_part", .bytes [1, 2, 3]), ("lxmf_signature", .bytes [1, 2, 3])]

/-- The batch of a request is opened, raises nothing and has an admissible entry. -/
def Effective (sig : SignatureScheme) (config : Option FederationConfig) (now : ℚ) (st : Store)
    (payload : Val) (channelId : Option String) : Prop :=
  ∃ c b entries, openBatch config st payload channelId = .ok (c, b, entries) ∧
    Unexceptional sig b now st [] entries ∧
    ∃ v ∈ entries, ∃ d, ofVal v = .ok d ∧ Admissible sig b st d

lemma handlePushMessages_changes_iff {L : Type} {sig : SignatureScheme}
    {config : Option FederationConfig} {now : ℚ} {st : Store} {p : Val}
    {ch : Option String} (rq : Option String) (link : Option L) :
    (committed st (handlePushMessages sig config now st p ch rq
      link)).messages ≠ st.messages ↔ Effective sig config now st p ch := by
  unfold handlePushMessages Effective
  cases hop : openBatch config st p ch with
  | error e => simp [committed]
  | ok opened =>
    obtain ⟨c,b,entries⟩ := opened
    have hru : (∃ r, pushEntries sig b now st entries = .ok r) ↔
        Unexceptional sig b now st [] entries := pushEntries_succeeds_iff (.refl st b)
    cases hp : pushEntries sig b now st entries with
    | error e =>
      simp only [ok_bind,hp,error_bind,committed]
      refine iff_of_false (fun h => h rfl) ?_
      rintro ⟨c',b',entries',ho,hrun,-⟩
      cases ho
      obtain ⟨r,hr⟩ := hru.mpr hrun
      rw [hp] at hr
      cases hr
    | ok r =>
      have hi := pushEntries_unchanged_iff hp
      simp only [ok_bind,hp,committed,pure,Except.pure]
      constructor
      · intro hne
        rw [ne_eq,hi] at hne
        push Not at hne
        obtain ⟨v,hv,d,hd,ha⟩ := hne
        exact ⟨c,b,entries,rfl,hru.mp ⟨r,hp⟩,v,hv,d,hd,ha⟩
      · rintro ⟨c',b',entries',ho,-,v,hv,d,hd,ha⟩ heq
        cases ho
        exact hi.mp heq v hv d hd ha

lemma handlePushMessages_origin {L : Type} {sig : SignatureScheme}
    {config : Option FederationConfig} {now : ℚ} {st : Store} {pl : Val}
    {ch rq : Option String} {link : Option L} {p : String}
    (hp : pl.get "node_identity" .none = .ok (.str p)) {row : Message}
    (hro : row ∈ (committed st (handlePushMessages sig config now st pl ch
      rq link)).messages.rows) :
    row ∈ st.messages.rows ∨ row.originNode = some p := by
  rcases handlePushMessages_cases with hs | ⟨c,b,entries,as,st',hop,hpu,hs⟩
  · rw [hs] at hro
    exact .inl hro
  obtain ⟨rows,hr,hall⟩ := pushEntries_appended hpu
  rw [hs,hr,List.mem_append] at hro
  refine hro.imp_right fun hn => ?_
  have ho := (hall row hn).2
  rw [Except.ok.inj ((openBatch_ok hop).2.1.symm.trans hp)] at ho
  exact (Except.ok.inj ho).symm

/-- A push in the name of a peer is stored only from a link on which that peer completed
the handshake; `handshakes` says which peer that is. -/
def PusherAuthenticated {L : Type} (sig : SignatureScheme) (config : Option FederationConfig)
    (now : ℚ) (st : Store) (payload : Val) (channelId : Option String)
    (handshakes : L → Option String) : Prop :=
  ∀ p, payload.get "node_identity" .none = .ok (.str p) →
    ∀ (requesterHash : Option String) (link : Option L),
      (∀ row ∈ (committed st (handlePushMessages sig config now st payload channelId
          requesterHash link)).messages.rows,
        row ∈ st.messages.rows ∨ row.originNode = some p) ∧
      (link.bind handshakes ≠ some p →
        (committed st (handlePushMessages sig config now st payload channelId requesterHash
          link)).messages = st.messages)

/-- The handler looks neither at the requester nor at the link, so it authenticates the
pusher exactly when the push has no effect at all. -/
theorem pusher_authenticated_iff {L : Type} (sig : SignatureScheme)
    (config : Option FederationConfig) (now : ℚ) (st : Store) (payload : Val)
    (channelId : Option String) (handshakes : L → Option String) {p : String}
    (hp : payload.get "node_identity" .none = .ok (.str p)) :
    PusherAuthenticated sig config now st payload channelId handshakes ↔
      ¬ Effective sig config now st payload channelId := by
  constructor
  · intro h he
    -- No handshake was ever completed on an absent link.
    have hs := (h p hp none none).2 (by simp)
    exact (handlePushMessages_changes_iff none (none : Option L)).mpr he hs
  intro hn q hq rq link
  refine ⟨fun row => handlePushMessages_origin hq,fun _ => ?_⟩
  by_contra hne
  exact hn ((handlePushMessages_changes_iff rq link).mp hne)

def sampleHandshakes (link : ℕ) : Option String := if link = 0 then some "peer" else none

def samplePush : Val := pushPayload "general" "peer" [sampleEntry "h1" "hello"]

theorem samplePush_authenticated_iff :
    PusherAuthenticated sampleScheme (some {}) 1000 sampleStore samplePush none sampleHandshakes ↔
      ¬ Effective sampleScheme (some {}) 1000 sampleStore samplePush none :=
  pusher_authenticated_iff sampleScheme (some {}) 1000 sampleStore samplePush none
    sampleHandshakes rfl

theorem samplePush_not_authenticated :
    ¬ PusherAuthenticated sampleScheme (some {}) 1000 sampleStore samplePush none
      sampleHandshakes := by
  intro h
  have hs := (h "peer" rfl none (some 1)).2 (by decide)
  exact absurd hs (by decide)

/-- The four fields that the binding check reads. -/
def SameSignature (d e : MsgData) : Prop :=
  d.senderHash = e.senderHash ∧ d.senderRnsPublicKey = e.senderRnsPublicKey ∧
    d.lxmfSignedPart = e.lxmfSignedPart ∧ d.lxmfSignature = e.lxmfSignature

structure Reception where
  st : Store
  channelId : String
  peer : String
  now : ℚ

/-- A push of this one message adds a row. -/
def PushAccepts (sig : SignatureScheme) (config : FederationConfig) (r : Reception) (p : Val) :
    Prop :=
  (committed r.st (handlePushMessages sig (some config) r.now r.st
    (pushPayload r.channelId r.peer [p]) none none (none : Option Unit))).messages ≠ r.st.messages

def MirrorAccepts (sig : SignatureScheme) (config : FederationConfig) (r : Reception) (p : Val) :
    Prop :=
  (ingest sig config.requireSignedFederation r.now r.st r.channelId p r.peer).messages ≠
    r.st.messages

/-- The binding verdict on a payload. -/
def Bound (sig : SignatureScheme) (config : FederationConfig) (d : MsgData) : Prop :=
  (verifySenderBinding sig d.senderHash d.senderRnsPublicKey d.lxmfSignedPart d.lxmfSignature
    config.requireSignedFederation).1 = true

structure PushChecks (config : FederationConfig) (r : Reception) (d : MsgData) : Prop where
  channel : r.channelId ≠ ""
  trusted : requireTrustedPeer r.st (.str r.peer) = .ok ()
  fresh : getByWireHash r.st d.msgHash = .ok none
  notBanned : NotBanned r.st d
  type : isValidType d.type = .ok true
  size : ∃ size, bodySize d.body = .ok size ∧ size ≤ maxMessageBodySize
  stored : ∃ content, pushContent ((ChannelRepo.getById r.st r.channelId).any Channel.sealed) d =
      .ok (some content) ∧
    Storable (batchFor (some config) r.st r.channelId (.str r.peer)) r.now r.st d content

structure MirrorChecks (config : FederationConfig) (r : Reception) (p : Val) (d : MsgData) :
    Prop where
  size : ∃ size, bodySize d.body = .ok size ∧ size ≤ maxMessageBodySize
  sender : shortSenderHash d.senderHash = false
  window : outOfWindow d.timestamp r.now = .ok false
  fresh : getByWireHash r.st d.msgHash = .ok none
  stored : ∃ content, mirrorContent
      ((ChannelRepo.getById r.st r.channelId).any Channel.sealed) d = .ok (some content) ∧
    ∃ origin, p.get "origin_node" .none = .ok origin ∧
      Storable (mirrorBatch config.requireSignedFederation r.st r.channelId r.peer origin) r.now
        r.st d content

variable {config : FederationConfig} {d : MsgData} {sig : SignatureScheme} {p : Val}

lemma effective_single_iff {config : Option FederationConfig} {now : ℚ} {st : Store}
    {cid peer : String} (hd : ofVal p = .ok d) :
    Effective sig config now st (pushPayload cid peer [p]) none ↔
      cid ≠ "" ∧ requireTrustedPeer st (.str peer) = .ok () ∧
        getByWireHash st d.msgHash = .ok none ∧
        ∃ content, vetEntry sig (batchFor config st cid (.str peer)) st d = .ok (some content) ∧
          Storable (batchFor config st cid (.str peer)) now st d content := by
  constructor
  · rintro ⟨c,b,entries,ho,hru,v,hv,d',hd',hf,content,hve⟩
    obtain ⟨hci,ht,heq⟩ := openBatch_pushPayload.mp ho
    cases heq
    cases List.mem_singleton.mp hv
    cases hd.symm.trans hd'
    refine ⟨hci,ht,hf,content,hve,?_⟩
    obtain ⟨d',key,hd',hke,hc⟩ := hru
    cases hd.symm.trans hd'
    have hn := ((After.refl st (batchFor config st cid (.str peer))).found hke).mp hf
    rcases hc with ⟨hk,-⟩ | ⟨-,⟨hr,-⟩ | ⟨content',hv',hs,-⟩⟩
    · exact absurd hk hn
    · cases hve.symm.trans hr
    · cases hve.symm.trans hv'
      exact hs
  · rintro ⟨hci,ht,hf,content,hve,hs⟩
    obtain ⟨key,hke,-⟩ := bind_ok hf
    have hn := ((After.refl st (batchFor config st cid (.str peer))).found hke).mp hf
    exact ⟨_,_,_,openBatch_pushPayload.mpr ⟨hci,ht,rfl⟩,
      ⟨d,key,hd,hke,.inr ⟨hn,.inr ⟨content,hve,hs,trivial⟩⟩⟩,p,
      List.mem_singleton_self p,d,hd,hf,content,hve⟩

lemma pushAccepts_iff {r : Reception} (hd : ofVal p = .ok d) :
    PushAccepts sig config r p ↔ Bound sig config d ∧ PushChecks config r d := by
  unfold PushAccepts
  rw [handlePushMessages_changes_iff,effective_single_iff hd]
  constructor
  · rintro ⟨hci,ht,hf,content,hv,hs⟩
    obtain ⟨hba,hb,hty,hsi,hc⟩ := vetEntry_some.mp hv
    exact ⟨hb,hci,ht,hf,hba,hty,hsi,content,hc,hs⟩
  · rintro ⟨hb,hci,ht,hf,hba,hty,hsi,content,hc,hs⟩
    exact ⟨hci,ht,hf,content,vetEntry_some.mpr ⟨hba,hb,hty,hsi,hc⟩,hs⟩

lemma mirrorAccepts_iff {r : Reception} (hd : ofVal p = .ok d) :
    MirrorAccepts sig config r p ↔ Bound sig config d ∧ MirrorChecks config r p d := by
  obtain ⟨fields,rfl⟩ := MsgData.ofVal_dict hd
  have hor : (Val.dict fields).get "origin_node" .none =
      .ok ((fields.lookup "origin_node").getD .none) := rfl
  unfold MirrorAccepts
  rw [ingest_changes_iff hd hor,precheck_true]
  constructor
  · rintro ⟨⟨hsi,hs,hw,hb⟩,hf,content,hc,hsto⟩
    exact ⟨hb,hsi,hs,hw,hf,content,hc,_,hor,(storeEntry_succeeds_iff hf).mp hsto⟩
  rintro ⟨hb,hsi,hs,hw,hf,content,hc,origin,ho,hst⟩
  cases hor.symm.trans ho
  exact ⟨⟨hsi,hs,hw,hb⟩,hf,content,hc,(storeEntry_succeeds_iff hf).mpr hst⟩

lemma SameSignature.bound_iff {e : MsgData} (h : SameSignature d e) :
    Bound sig config d ↔ Bound sig config e := by
  obtain ⟨hse,hk,hp,hs⟩ := h
  unfold Bound
  rw [hse,hk,hp,hs]

/-- An accepted payload shows that the sender's key signed the signed bytes. Any payload with the
same signature fields is accepted exactly when it passes the other checks. -/
theorem signature_fields_decide_binding (sig : SignatureScheme) {config : FederationConfig}
    (hc : config.requireSignedFederation = true) {r₁ r₂ : Reception} {p q : Val} {d e : MsgData}
    (hp : ofVal p = .ok d) (hq : ofVal q = .ok e) (hsame : SameSignature d e)
    (hacc : PushAccepts sig config r₁ p ∨ MirrorAccepts sig config r₁ p) :
    (∃ pk m s, e.senderRnsPublicKey = .bytes pk ∧ e.lxmfSignedPart = .bytes m ∧
        e.lxmfSignature = .bytes s ∧ e.senderHash = .str (sig.truncatedHashHex pk) ∧
        sig.verify (pk.drop ed25519PublicKeySize) m s = true) ∧
      (PushAccepts sig config r₂ q ↔ PushChecks config r₂ e) ∧
      (MirrorAccepts sig config r₂ q ↔ MirrorChecks config r₂ q e) := by
  have hb : Bound sig config e := by
    rw [← hsame.bound_iff]
    rcases hacc with h | h
    · exact ((pushAccepts_iff hp).mp h).1
    · exact ((mirrorAccepts_iff hp).mp h).1
  refine ⟨?_,?_,?_⟩
  · unfold Bound at hb
    rw [hc] at hb
    obtain ⟨pk,m,s,hpk,-,hr⟩ := verifySenderBinding_signed hb
    exact ⟨pk,m,s,hpk,hr⟩
  · rw [pushAccepts_iff hq]
    exact and_iff_right hb
  · rw [mirrorAccepts_iff hq]
    exact and_iff_right hb

def sampleReception : Reception := ⟨sampleStore,"general","peer",1000⟩

def sampleData (msgHash body : String) : MsgData :=
  { msgHash := .str msgHash, seq := .int 0, senderHash := .str sampleHash,
    senderRnsPublicKey := .bytes (List.replicate 64 7), lxmfSignedPart := .bytes [1, 2, 3],
    lxmfSignature := .bytes [1, 2, 3], type := .int 1, body := .str body, encryptedBody := .none,
    encryptionNonce := .none, encryptionEpoch := .none, timestamp := .int 1000,
    displayName := .none }

lemma sampleEntry_ofVal (hash body : String) :
    ofVal (sampleEntry hash body) = .ok (sampleData hash body) := rfl

theorem sampleEntry_binding_decided :
    (∃ pk m s, (sampleData "h2" "forged").senderRnsPublicKey = .bytes pk ∧
        (sampleData "h2" "forged").lxmfSignedPart = .bytes m ∧
        (sampleData "h2" "forged").lxmfSignature = .bytes s ∧
        (sampleData "h2" "forged").senderHash = .str (sampleScheme.truncatedHashHex pk) ∧
        sampleScheme.verify (pk.drop ed25519PublicKeySize) m s = true) ∧
      (PushAccepts sampleScheme {} sampleReception (sampleEntry "h2" "forged") ↔
        PushChecks {} sampleReception (sampleData "h2" "forged")) ∧
      (MirrorAccepts sampleScheme {} sampleReception (sampleEntry "h2" "forged") ↔
        MirrorChecks {} sampleReception (sampleEntry "h2" "forged") (sampleData "h2" "forged")) :=
  signature_fields_decide_binding sampleScheme rfl (sampleEntry_ofVal "h1" "hello")
    (sampleEntry_ofVal "h2" "forged") ⟨rfl,rfl,rfl,rfl⟩
    (.inl (show PushAccepts sampleScheme {} sampleReception (sampleEntry "h1" "hello") by
      unfold PushAccepts
      decide))

theorem sampleEntry_body_not_bound :
    SameSignature (sampleData "h1" "hello") (sampleData "h2" "forged") ∧
      (sampleData "h1" "hello").body ≠ (sampleData "h2" "forged").body ∧
      PushAccepts sampleScheme {} sampleReception (sampleEntry "h1" "hello") ∧
      PushAccepts sampleScheme {} sampleReception (sampleEntry "h2" "forged") ∧
      MirrorAccepts sampleScheme {} sampleReception (sampleEntry "h1" "hello") ∧
      MirrorAccepts sampleScheme {} sampleReception (sampleEntry "h2" "forged") := by
  refine ⟨⟨rfl,rfl,rfl,rfl⟩,by simp [sampleData],?_,?_,?_,?_⟩
  · unfold PushAccepts
    decide
  · unfold PushAccepts
    decide
  · unfold MirrorAccepts
    decide +kernel
  · unfold MirrorAccepts
    decide +kernel

end Hokora.FederatedAcceptance
