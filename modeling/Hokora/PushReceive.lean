import Hokora.SealedChannels
import Hokora.SenderBinding
import Hokora.WireRows

/-!
# Receiving pushed messages

Fields of any type, as msgpack gives them. An exception rolls the batch back.
-/
namespace Hokora.PushReceive
open Constants Database KeyedTable PyValue Repositories SenderBinding WireRows
open ChannelRepo (bumpSeq getById getById_bumpSeq incrementSeq_ok)
open MessageRepo (getByHash)

structure FederationConfig where
  requireSignedFederation : Bool := true
  federationAutoTrust : Bool := false
  fsEnabled : Bool := true
  fsEpochDuration : ℕ := 3600

def syncError (text : String) : PyError := .hokora .syncError text

structure MsgData where
  msgHash : Val
  seq : Val
  senderHash : Val
  senderRnsPublicKey : Val
  lxmfSignedPart : Val
  lxmfSignature : Val
  type : Val
  body : Val
  encryptedBody : Val
  encryptionNonce : Val
  encryptionEpoch : Val
  timestamp : Val
  displayName : Val

def MsgData.ofVal (v : Val) : Py MsgData := do
  pure {
    msgHash := ← v.get "msg_hash" (.str "")
    seq := ← v.get "seq" (.int 0)
    senderHash := ← v.get "sender_hash" .none
    senderRnsPublicKey := ← v.get "sender_rns_public_key" .none
    lxmfSignedPart := ← v.get "lxmf_signed_part" .none
    lxmfSignature := ← v.get "lxmf_signature" .none
    type := ← v.get "type" (.int 1)
    body := ← v.get "body" (.str "")
    encryptedBody := ← v.get "encrypted_body" .none
    encryptionNonce := ← v.get "encryption_nonce" .none
    encryptionEpoch := ← v.get "encryption_epoch" .none
    timestamp := ← v.get "timestamp" (.int 0)
    displayName := ← v.get "display_name" .none }

variable {d : MsgData} {b : PushBatch} {sig : SignatureScheme} {st st' : Store} {content : WireBody}
  {now : ℚ} {v : Val}

lemma MsgData.ofVal_dict (h : ofVal v = .ok d) : ∃ fields, v = .dict fields := by
  obtain ⟨_,hg,-⟩ := bind_ok h
  cases v with
  | dict fields => exact ⟨fields,rfl⟩
  | _ => cases hg

lemma MsgData.ofVal_lookups {d : List (String × Val)} : ofVal (.dict d) = .ok
      { msgHash := (d.lookup "msg_hash").getD (.str "")
        seq := (d.lookup "seq").getD (.int 0)
        senderHash := (d.lookup "sender_hash").getD .none
        senderRnsPublicKey := (d.lookup "sender_rns_public_key").getD .none
        lxmfSignedPart := (d.lookup "lxmf_signed_part").getD .none
        lxmfSignature := (d.lookup "lxmf_signature").getD .none
        type := (d.lookup "type").getD (.int 1)
        body := (d.lookup "body").getD (.str "")
        encryptedBody := (d.lookup "encrypted_body").getD .none
        encryptionNonce := (d.lookup "encryption_nonce").getD .none
        encryptionEpoch := (d.lookup "encryption_epoch").getD .none
        timestamp := (d.lookup "timestamp").getD (.int 0)
        displayName := (d.lookup "display_name").getD .none } := rfl

def isBlockedWire (st : Store) (senderHash : Val) : Py Bool := do
  let key ← bindText senderHash
  pure ((key.map (Ban.isBlocked st)).getD false)

def isValidType (v : Val) : Py Bool :=
  match v with
  | .list _ => .error .typeError
  | .dict _ => .error .typeError
  | v =>
    match v.num? with
    | some (.fin q) => .ok (validMessageTypes.any fun t => (t : ℚ) = q)
    | _ => .ok false

def pushContent (channelSealed : Bool) (d : MsgData) : Py (Option WireBody) :=
  if channelSealed then
    if d.body.truthy || !d.encryptedBody.truthy then do
      let _ ← d.msgHash.take 16
      let _ ← d.body.lenOrZero
      let _ ← d.encryptedBody.lenOrZero
      pure none
    else pure (some ⟨.none,d.encryptedBody,d.encryptionNonce,d.encryptionEpoch⟩)
  else pure (some ⟨d.body,.none,.none,.none⟩)

structure PushBatch where
  channelId : String
  channelSealed : Bool
  nodeIdentity : Val
  requireSigned : Bool

def vetContent (sig : SignatureScheme) (b : PushBatch) (d : MsgData) : Py (Option WireBody) :=
  match verifySenderBinding sig d.senderHash d.senderRnsPublicKey d.lxmfSignedPart
      d.lxmfSignature b.requireSigned with
  | (false, _) => pure none
  | (true, _) => do
      let valid ← isValidType d.type
      if valid = false then pure none else do
        let size ← bodySize d.body
        if maxMessageBodySize < size then pure none else pushContent b.channelSealed d

def vetEntry (sig : SignatureScheme) (b : PushBatch) (st : Store) (d : MsgData) :
    Py (Option WireBody) := do
  let blocked ← if d.senderHash.truthy then isBlockedWire st d.senderHash else pure false
  if blocked then do
    let _ ← d.msgHash.take 16
    let _ ← d.senderHash.take 16
    pure none
  else vetContent sig b d

def entryRow (b : PushBatch) (d : MsgData) (content : WireBody) (displayName : Val) : WireRow :=
  { msgHash := d.msgHash, channelId := b.channelId, senderHash := d.senderHash,
    timestamp := d.timestamp, type := d.type, content := content, displayName := displayName,
    originNode := b.nodeIdentity }

def storeEntry (b : PushBatch) (now : ℚ) (st : Store) (d : MsgData) (content : WireBody) :
    Py (ℕ × Store) := do
  let (seq, st₁) ← SequenceManager.nextSeq st b.channelId
  let displayName ← shortName d.displayName
  let st₂ ← addRow st₁ (entryRow b d content displayName) seq now
  pure (seq, st₂)

inductive Answer where
  | received (seq : Val)
  | rejected (msgHash : Val)

def pushEntry (sig : SignatureScheme) (b : PushBatch) (now : ℚ) (st : Store) (d : MsgData) :
    Py (Answer × Store) := do
  match ← getByWireHash st d.msgHash with
  | some _ => pure (.received d.seq, st)
  | none =>
    match ← vetEntry sig b st d with
    | none => pure (.rejected d.msgHash, st)
    | some content => do
        let (seq, st') ← storeEntry b now st d content
        pure (.received (.int seq), st')

def pushEntries (sig : SignatureScheme) (b : PushBatch) (now : ℚ) :
    Store → List Val → Py (List Answer × Store)
  | st, [] => .ok ([], st)
  | st, v :: vs => do
      let d ← MsgData.ofVal v
      let (a, st₁) ← pushEntry sig b now st d
      let (as, st₂) ← pushEntries sig b now st₁ vs
      pure (a :: as, st₂)

def Answer.received? : Answer → Option Val
  | .received seq => some seq
  | .rejected _ => none

def Answer.rejected? : Answer → Option Val
  | .received _ => none
  | .rejected msgHash => some msgHash

structure PushAck where
  channelId : Val
  received : List Val
  rejected : List Val

def requireTrustedPeer (st : Store) (nodeIdentity : Val) : Py Unit :=
  if nodeIdentity.truthy then do
    let key ← bindText nodeIdentity
    match key.bind st.peers.get? with
    | some peer =>
      if peer.federationTrusted then pure ()
      else .error (syncError "Push rejected: peer not trusted")
    | none => .error (syncError "Push rejected: peer not trusted")
  else .error (syncError "Push rejected: missing node_identity")

def batchFor (config : Option FederationConfig) (st : Store) (channelId : String)
    (nodeIdentity : Val) : PushBatch :=
  { channelId := channelId
    channelSealed := (getById st channelId).any Channel.sealed
    nodeIdentity := nodeIdentity
    requireSigned := config.any FederationConfig.requireSignedFederation }

def openBatch (config : Option FederationConfig) (st : Store) (payload : Val)
    (channelId : Option String) : Py (Val × PushBatch × List Val) := do
  let pushChannelId ← payload.get "channel_id" (Val.ofStr? channelId)
  let messages ← payload.get "messages" (.list [])
  let nodeIdentity ← payload.get "node_identity" .none
  if pushChannelId.truthy = false then .error (syncError "No channel_id in push_messages")
  else do
    requireTrustedPeer st nodeIdentity
    let id ← notNull (← bindText pushChannelId)
    let entries ← messages.iter
    pure (pushChannelId, batchFor config st id nodeIdentity, entries)

/-- As in the source, the requester and the link are not read. -/
def handlePushMessages {L : Type} (sig : SignatureScheme) (config : Option FederationConfig)
    (now : ℚ) (st : Store) (payload : Val) (channelId : Option String)
    (_requesterHash : Option String) (_link : Option L) : Py (PushAck × Store) := do
  let (pushChannelId, batch, entries) ← openBatch config st payload channelId
  let (answers, st') ← pushEntries sig batch now st entries
  pure ({ channelId := pushChannelId
          received := answers.filterMap Answer.received?
          rejected := answers.filterMap Answer.rejected? }, st')

variable {config : Option FederationConfig}

lemma openBatch_ok {p c : Val} {ch : Option String} {entries : List Val}
    (h : openBatch config st p ch = .ok (c, b, entries)) :
    b.requireSigned = config.any FederationConfig.requireSignedFederation ∧
      p.get "node_identity" .none = .ok b.nodeIdentity ∧
      ∃ messages, p.get "messages" (.list []) = .ok messages ∧ messages.iter = .ok entries := by
  obtain ⟨_,-,h⟩ := bind_ok h
  obtain ⟨messages,hm,h⟩ := bind_ok h
  obtain ⟨_,hn,h⟩ := bind_ok h
  split_ifs at h
  obtain ⟨_,-,h⟩ := bind_ok h
  obtain ⟨_,-,h⟩ := bind_ok h
  obtain ⟨_,-,h⟩ := bind_ok h
  obtain ⟨_,hi,h⟩ := bind_ok h
  cases h
  exact ⟨rfl,hn,messages,hm,hi⟩

lemma handlePushMessages_cases {L : Type} {p : Val} {ch rq : Option String} {link : Option L} :
    committed st (handlePushMessages sig config now st p ch rq link) = st ∨
      ∃ c b entries as st', openBatch config st p ch = .ok (c, b, entries) ∧
        pushEntries sig b now st entries = .ok (as, st') ∧
        committed st (handlePushMessages sig config now st p ch rq link) = st' := by
  cases hp : handlePushMessages sig config now st p ch rq link with
  | error e => exact .inl rfl
  | ok r =>
    obtain ⟨⟨c,b,entries⟩,ho,h⟩ := bind_ok hp
    obtain ⟨⟨as,st'⟩,he,h⟩ := bind_ok h
    cases h
    exact .inr ⟨c,b,entries,as,st',ho,he,rfl⟩

def pushPayload (channelId nodeIdentity : String) (entries : List Val) : Val :=
  .dict [("channel_id", .str channelId), ("messages", .list entries),
    ("node_identity", .str nodeIdentity)]

lemma openBatch_pushPayload {cid nodeIdentity : String} {entries : List Val}
    {ch : Option String} {r : Val × PushBatch × List Val} :
    openBatch config st (pushPayload cid nodeIdentity entries) ch = .ok r ↔
      cid ≠ "" ∧ requireTrustedPeer st (.str nodeIdentity) = .ok () ∧
        r = (.str cid, batchFor config st cid (.str nodeIdentity), entries) := by
  -- The three lookups reduce, which leaves the checks.
  have ho : openBatch config st (pushPayload cid nodeIdentity entries) ch =
      if (Val.str cid).truthy = false then .error (syncError "No channel_id in push_messages")
      else requireTrustedPeer st (.str nodeIdentity) >>= fun _ =>
        .ok (.str cid, batchFor config st cid (.str nodeIdentity), entries) := rfl
  rw [ho]
  by_cases hc : cid = ""
  · simp [hc]
  simp only [Val.truthy_str,ne_eq,hc,not_false_eq_true,decide_true,Bool.true_eq_false,
    if_false,true_and]
  constructor
  · intro h
    obtain ⟨_,ht,h⟩ := bind_ok h
    cases h
    exact ⟨ht,rfl⟩
  · rintro ⟨ht,rfl⟩
    rw [ht]
    rfl

inductive EntryEffect (sig : SignatureScheme) (b : PushBatch) (st : Store) (d : MsgData) :
    Answer → Store → Prop
  | duplicate {row : Message} : getByWireHash st d.msgHash = .ok (some row) →
      EntryEffect sig b st d (.received d.seq) st
  | refused : getByWireHash st d.msgHash = .ok none → vetEntry sig b st d = .ok none →
      EntryEffect sig b st d (.rejected d.msgHash) st
  | stored {content : WireBody} {c : Channel} {row : Message} {t : Table Message.msgHash} :
      getByWireHash st d.msgHash = .ok none → vetEntry sig b st d = .ok (some content) →
      getById st b.channelId = some c →
      bindText d.msgHash = .ok (some row.msgHash) → row.channelId = b.channelId →
      row.seq = some (c.latestSeq + 1) → bindText b.nodeIdentity = .ok row.originNode →
      st.messages.insert? row = some t →
      EntryEffect sig b st d (.received (.int (c.latestSeq + 1 : ℕ)))
        { bumpSeq st b.channelId with messages := t }

lemma storeEntry_cases {seq : ℕ} (h : storeEntry b now st d content = .ok (seq, st')) :
    ∃ c name row t, getById st b.channelId = some c ∧ seq = c.latestSeq + 1 ∧
      shortName d.displayName = .ok name ∧ (entryRow b d content name).bind now = .ok row ∧
      st.messages.insert? { row with seq := some (c.latestSeq + 1) } = some t ∧
      st' = { bumpSeq st b.channelId with messages := t } := by
  obtain ⟨⟨n,st₁⟩,hs,h⟩ := bind_ok h
  obtain ⟨c,hc,rfl,rfl⟩ := incrementSeq_ok.mp hs
  obtain ⟨name,hn,h⟩ := bind_ok h
  obtain ⟨st₂,ha,h⟩ := bind_ok h
  obtain ⟨row,t,hb,hi,rfl⟩ := addRow_ok ha
  cases h
  exact ⟨c,name,row,t,hc,rfl,hn,hb,hi,rfl⟩

lemma storeEntry_ok {seq : ℕ} (h : storeEntry b now st d content = .ok (seq, st')) :
    ∃ c row t, getById st b.channelId = some c ∧ seq = c.latestSeq + 1 ∧
      bindText d.msgHash = .ok (some row.msgHash) ∧ row.channelId = b.channelId ∧
      row.seq = some (c.latestSeq + 1) ∧ bindText b.nodeIdentity = .ok row.originNode ∧
      st.messages.insert? row = some t ∧
      st' = { bumpSeq st b.channelId with messages := t } := by
  obtain ⟨c,name,row,t,hc,hn,-,hb,hi,hst⟩ := storeEntry_cases h
  obtain ⟨hh,hch,ho,-,-,-⟩ := WireRow.bind_ok hb
  exact ⟨c,{ row with seq := some (c.latestSeq + 1) },t,hc,hn,hh,hch,rfl,ho,hi,hst⟩

/-- The channel exists and every column takes its value. -/
def Storable (b : PushBatch) (now : ℚ) (st : Store) (d : MsgData) (content : WireBody) : Prop :=
  (∃ c, getById st b.channelId = some c) ∧ ∃ name row, shortName d.displayName = .ok name ∧
      (entryRow b d content name).bind now = .ok row

lemma storeEntry_succeeds_iff (hne : getByWireHash st d.msgHash = .ok none) :
    (∃ r, storeEntry b now st d content = .ok r) ↔ Storable b now st d content := by
  constructor
  · rintro ⟨⟨seq,st'⟩,h⟩
    obtain ⟨c,name,row,-,hc,-,hn,hb,-,-⟩ := storeEntry_cases h
    exact ⟨⟨c,hc⟩,name,row,hn,hb⟩
  rintro ⟨⟨c,hc⟩,name,row,hn,hb⟩
  have hs := incrementSeq_ok.mpr ⟨c,hc,rfl,rfl⟩
  have hbu : getById (bumpSeq st b.channelId) b.channelId =
      some { c with latestSeq := c.latestSeq + 1 } := by
    rw [getById_bumpSeq,if_pos rfl,hc]
    rfl
  obtain ⟨st',ha⟩ := addRow_of_fresh hb hbu hne (c.latestSeq + 1)
  refine ⟨(c.latestSeq + 1, st'),?_⟩
  simp [storeEntry,SequenceManager.nextSeq,hs,hn,ha]

lemma storeEntry_changes {r : ℕ × Store} (h : storeEntry b now st d content = .ok r) :
    r.2.messages ≠ st.messages := by
  obtain ⟨c,row,t,-,-,-,-,-,-,hi,hr⟩ := storeEntry_ok h
  intro heq
  rw [hr] at heq
  have hro : t.rows = st.messages.rows := congrArg Table.rows heq
  rw [Table.insert?_rows hi] at hro
  simp at hro

lemma pushEntry_cases {a : Answer} (h : pushEntry sig b now st d = .ok (a, st')) :
    (∃ row, getByWireHash st d.msgHash = .ok (some row) ∧ a = .received d.seq ∧ st' = st) ∨
      getByWireHash st d.msgHash = .ok none ∧
        (vetEntry sig b st d = .ok none ∧ a = .rejected d.msgHash ∧ st' = st ∨
          ∃ content seq, vetEntry sig b st d = .ok (some content) ∧
            storeEntry b now st d content = .ok (seq, st') ∧ a = .received (.int seq)) := by
  obtain ⟨found,hf,h⟩ := bind_ok h
  cases found with
  | some row =>
    cases h
    exact .inl ⟨row,hf,rfl,rfl⟩
  | none =>
    refine .inr ⟨hf,?_⟩
    obtain ⟨verdict,hv,h⟩ := bind_ok h
    cases verdict with
    | none =>
      cases h
      exact .inl ⟨hv,rfl,rfl⟩
    | some content =>
      obtain ⟨⟨seq,st₁⟩,hs,h⟩ := bind_ok h
      cases h
      exact .inr ⟨content,seq,hv,hs,rfl⟩

lemma pushEntry_effect {a : Answer} (h : pushEntry sig b now st d = .ok (a, st')) :
    EntryEffect sig b st d a st' := by
  obtain ⟨row,hf,rfl,rfl⟩ | ⟨hf,⟨hv,rfl,rfl⟩ | ⟨content,seq,hv,hs,rfl⟩⟩ :=
    pushEntry_cases h
  · exact .duplicate hf
  · exact .refused hf hv
  · obtain ⟨c,row,t,hc,rfl,hh,hch,hse,ho,hi,rfl⟩ := storeEntry_ok hs
    exact .stored hf hv hc hh hch hse ho hi

/-- An entry that would be stored, as far as the checks on its fields go. -/
def Admissible (sig : SignatureScheme) (b : PushBatch) (st : Store) (d : MsgData) : Prop :=
  getByWireHash st d.msgHash = .ok none ∧ ∃ content, vetEntry sig b st d = .ok (some content)

def admissible (sig : SignatureScheme) (b : PushBatch) (st : Store) (d : MsgData) : Bool :=
  match getByWireHash st d.msgHash, vetEntry sig b st d with
  | .ok none, .ok (some _) => true
  | _, _ => false

lemma admissible_iff : admissible sig b st d = true ↔ Admissible sig b st d := by
  unfold admissible Admissible
  split
  next hf hv => simp [hf,hv]
  next hne =>
    simp only [Bool.false_eq_true,false_iff]
    rintro ⟨hf,content,hv⟩
    exact hne content hf hv

def NotBanned (st : Store) (d : MsgData) : Prop :=
  d.senderHash.truthy = true → isBlockedWire st d.senderHash = .ok false

lemma vetContent_some : vetContent sig b d = .ok (some content) ↔
      (verifySenderBinding sig d.senderHash d.senderRnsPublicKey d.lxmfSignedPart
          d.lxmfSignature b.requireSigned).1 = true ∧ isValidType d.type = .ok true ∧
        (∃ size, bodySize d.body = .ok size ∧ size ≤ maxMessageBodySize) ∧
        pushContent b.channelSealed d = .ok (some content) := by
  unfold vetContent
  rcases verifySenderBinding sig d.senderHash d.senderRnsPublicKey d.lxmfSignedPart
    d.lxmfSignature b.requireSigned with ⟨_ | _,reason⟩
  · simp [pure,Except.pure]
  cases isValidType d.type with
  | error e => simp
  | ok valid =>
    cases valid with
    | false => simp [pure,Except.pure]
    | true =>
      cases bodySize d.body with
      | error e => simp
      | ok size =>
        by_cases hs : maxMessageBodySize < size
        · simp [hs,pure,Except.pure]
        · simp [hs,Nat.le_of_not_lt hs]

lemma vetEntry_some : vetEntry sig b st d = .ok (some content) ↔ NotBanned st d ∧
        (verifySenderBinding sig d.senderHash d.senderRnsPublicKey d.lxmfSignedPart
          d.lxmfSignature b.requireSigned).1 = true ∧ isValidType d.type = .ok true ∧
        (∃ size, bodySize d.body = .ok size ∧ size ≤ maxMessageBodySize) ∧
        pushContent b.channelSealed d = .ok (some content) := by
  unfold vetEntry NotBanned
  by_cases ht : d.senderHash.truthy = true
  · simp only [ht,if_true,true_implies]
    cases isBlockedWire st d.senderHash with
    | error e => simp
    | ok blocked =>
      cases blocked with
      | false => simpa using vetContent_some
      | true =>
        simp only [ok_bind,if_true,Except.ok.injEq,Bool.true_eq_false,false_and,iff_false]
        intro h
        obtain ⟨_,-,h⟩ := bind_ok h
        obtain ⟨_,-,h⟩ := bind_ok h
        cases h
  · simpa [ht,pure,Except.pure] using vetContent_some

section Effects
variable {sig : SignatureScheme} {b : PushBatch} {now : ℚ} {st st' : Store} {a : Answer}
  {as : List Answer} {vs : List Val} {d : MsgData}

lemma EntryEffect.unchanged (h : EntryEffect sig b st d a st') (hn : ¬ Admissible sig b st d) :
    st' = st := by
  cases h with
  | duplicate => rfl
  | refused => rfl
  | stored hf hv => exact absurd ⟨hf,_,hv⟩ hn

lemma EntryEffect.appended (h : EntryEffect sig b st d a st') (ha : Admissible sig b st d) :
    ∃ row, st'.messages.rows = st.messages.rows ++ [row] ∧ row.channelId = b.channelId ∧
      bindText b.nodeIdentity = .ok row.originNode := by
  obtain ⟨hn,content,hv⟩ := ha
  cases h with
  | duplicate hf =>
    rw [hn] at hf
    cases hf
  | refused _ hr =>
    rw [hv] at hr
    cases hr
  | stored _ _ _ _ hc _ ho hi =>
    exact ⟨_,Table.insert?_rows hi,hc,ho⟩

lemma mem_received : v ∈ as.filterMap Answer.received? ↔ Answer.received v ∈ as := by
  rw [List.mem_filterMap]
  constructor
  · rintro ⟨answer,ha,hv⟩
    cases answer with
    | rejected => cases hv
    | received x =>
      cases hv
      exact ha
  · intro hv
    exact ⟨_,hv,rfl⟩

lemma pushEntries_cons : pushEntries sig b now st (v :: vs) = .ok (as, st') ↔
      ∃ d a st₁ as', MsgData.ofVal v = .ok d ∧ pushEntry sig b now st d = .ok (a, st₁) ∧
        pushEntries sig b now st₁ vs = .ok (as', st') ∧ as = a :: as' := by
  constructor
  · intro h
    obtain ⟨d,hd,h⟩ := bind_ok h
    obtain ⟨⟨a,st₁⟩,he,h⟩ := bind_ok h
    obtain ⟨⟨as',st₂⟩,hr,h⟩ := bind_ok h
    cases h
    exact ⟨d,a,st₁,as',hd,he,hr,rfl⟩
  · rintro ⟨d,a,st₁,as',hd,he,hr,rfl⟩
    simp [pushEntries,hd,he,hr]

lemma pushEntries_rel {R : Store → Store → Prop} (hr : ∀ s, R s s)
    (ht : ∀ {s s₁ s₂}, R s s₁ → R s₁ s₂ → R s s₂)
    (hs : ∀ {s s' d a}, pushEntry sig b now s d = .ok (a, s') → R s s')
    (h : pushEntries sig b now st vs = .ok (as, st')) : R st st' := by
  induction vs generalizing st as with
  | nil =>
    cases h
    exact hr _
  | cons v vs ih =>
    obtain ⟨d,a,st₁,as',-,he,hre,-⟩ := pushEntries_cons.mp h
    exact ht (hs he) (ih hre)

lemma pushEntries_appended (h : pushEntries sig b now st vs = .ok (as, st')) :
    ∃ rows, st'.messages.rows = st.messages.rows ++ rows ∧
      ∀ row ∈ rows, row.channelId = b.channelId ∧ bindText b.nodeIdentity = .ok row.originNode := by
  induction vs generalizing st as with
  | nil =>
    cases h
    exact ⟨[],by simp,by simp⟩
  | cons v vs ih =>
    obtain ⟨d,a,st₁,as',-,hen,hre,rfl⟩ := pushEntries_cons.mp h
    obtain ⟨rows,hr,hall⟩ := ih hre
    have he := pushEntry_effect hen
    by_cases ha : Admissible sig b st d
    · obtain ⟨row,hro,hch,ho⟩ := he.appended ha
      refine ⟨row :: rows,?_,?_⟩
      · rw [hr,hro,List.append_assoc]
        rfl
      · simpa [hch,ho] using hall
    · rw [he.unchanged ha] at hr
      exact ⟨rows,hr,hall⟩

lemma pushEntries_unchanged_iff (h : pushEntries sig b now st vs = .ok (as, st')) :
    st'.messages = st.messages ↔
      ∀ v ∈ vs, ∀ d, MsgData.ofVal v = .ok d → ¬ Admissible sig b st d := by
  induction vs generalizing as with
  | nil =>
    cases h
    simp
  | cons v vs ih =>
    obtain ⟨d,a,st₁,as',hd,hen,hr,rfl⟩ := pushEntries_cons.mp h
    have hef := pushEntry_effect hen
    by_cases ha : Admissible sig b st d
    · refine iff_of_false ?_ ?_
      · -- The head's row is at a fixed place in every later table.
        intro heq
        obtain ⟨row,hrow,-,-⟩ := hef.appended ha
        obtain ⟨rows,hro,-⟩ := pushEntries_appended hr
        have hl := congrArg (fun t : Table Message.msgHash => t.rows.length) heq
        simp only [hro,hrow,List.length_append,List.length_cons] at hl
        omega
      · intro hall
        exact hall v List.mem_cons_self d hd ha
    obtain rfl := hef.unchanged ha
    rw [ih hr]
    constructor
    · intro hall w hw e he
      rcases List.mem_cons.mp hw with rfl | hw
      · rw [hd] at he
        cases he
        exact ha
      · exact hall w hw e he
    · intro hall w hw
      exact hall w (List.mem_cons_of_mem v hw)

lemma vetEntry_congr (h : st'.identities = st.identities) :
    vetEntry sig b st' d = vetEntry sig b st d := by
  have hb : ∀ v, isBlockedWire st' v = isBlockedWire st v := by
    intro v
    unfold isBlockedWire
    have hba : Ban.isBlocked st' = Ban.isBlocked st := by
      funext identityHash
      unfold Ban.isBlocked IdentityRepo.isBlocked IdentityRepo.getByHash
      rw [h]
    rw [hba]
  unfold vetEntry
  rw [hb]

lemma EntryEffect.identities (h : EntryEffect sig b st d a st') :
    st'.identities = st.identities := by
  cases h <;> rfl

lemma EntryEffect.kept (h : EntryEffect sig b st d a st') {hash : String}
    (hs : (getByHash st hash).isSome) :
    (getByHash st' hash).isSome := by
  cases h with
  | duplicate => exact hs
  | refused => exact hs
  | stored _ _ _ _ _ _ _ hi =>
    obtain ⟨row,hr⟩ := Option.isSome_iff_exists.mp hs
    exact Option.isSome_iff_exists.mpr ⟨row,Table.get?_insert?_of_some hi hr⟩

/-- The hash of a wire row is in the table or among those added since. -/
def Known (st : Store) (seen : List String) (key : Option String) : Prop :=
  ∃ msgHash, key = some msgHash ∧ ((getByHash st msgHash).isSome ∨ msgHash ∈ seen)

/-- No entry raises. The second argument collects the hashes that earlier entries of the
batch add, since an entry with such a hash counts as a duplicate. -/
def Unexceptional (sig : SignatureScheme) (b : PushBatch) (now : ℚ) (st : Store) :
    List String → List Val → Prop
  | _, [] => True
  | seen, v :: vs => ∃ d key, MsgData.ofVal v = .ok d ∧ bindText d.msgHash = .ok key ∧
      (Known st seen key ∧ Unexceptional sig b now st seen vs ∨ ¬ Known st seen key ∧
          (vetEntry sig b st d = .ok none ∧ Unexceptional sig b now st seen vs ∨
            ∃ content, vetEntry sig b st d = .ok (some content) ∧ Storable b now st d content ∧
              Unexceptional sig b now st (key.toList ++ seen) vs))

structure After (st : Store) (b : PushBatch) (seen : List String) (st' : Store) : Prop where
  identities : st'.identities = st.identities
  rows : ∀ h, (getByHash st' h).isSome ↔ (getByHash st h).isSome ∨ h ∈ seen
  channel : (∃ c, getById st' b.channelId = some c) ↔ ∃ c, getById st b.channelId = some c

lemma After.refl (st : Store) (b : PushBatch) : After st b [] st :=
  ⟨rfl,by simp,Iff.rfl⟩

variable {key : Option String} {seen : List String}

lemma After.found (h : After st b seen st') {hash : Val} (hk : bindText hash = .ok key) :
    getByWireHash st' hash = .ok none ↔ ¬ Known st seen key := by
  unfold getByWireHash Known
  rw [hk,ok_bind]
  cases key with
  | none => simp [pure,Except.pure]
  | some k =>
    have hr := h.rows k
    simp [pure,Except.pure,← hr]

lemma After.storable (h : After st b seen st') :
    Storable b now st' d content ↔ Storable b now st d content := by
  unfold Storable
  rw [h.channel]

lemma After.store (h : After st b seen st') {r : ℕ × Store}
    (hs : storeEntry b now st' d content = .ok r)
    (hke : bindText d.msgHash = .ok key) : After st b (key.toList ++ seen) r.2 := by
  obtain ⟨seq,st''⟩ := r
  obtain ⟨c,row,t,hc,-,hh,-,-,-,hi,rfl⟩ := storeEntry_ok hs
  cases hke.symm.trans hh
  refine ⟨h.identities,fun k => ?_,?_⟩
  · change (t.get? k).isSome ↔ _
    rw [Table.get?_insert? hi]
    split_ifs with hk
    · simp [hk]
    · have hne : k ≠ row.msgHash := Ne.symm hk
      exact (h.rows k).trans (by simp [hne])
  · change (∃ c, getById (bumpSeq st' b.channelId) b.channelId = some c) ↔ _
    rw [← h.channel,getById_bumpSeq,if_pos rfl,hc]
    simp

lemma After.pushEntry_ok {st₁ st₂ : Store} (h : After st b seen st₁)
    (hke : bindText d.msgHash = .ok key) :
    pushEntry sig b now st₁ d = .ok (a, st₂) ↔ Known st seen key ∧ a = .received d.seq ∧ st₂ = st₁ ∨
        ¬ Known st seen key ∧
          (vetEntry sig b st d = .ok none ∧ a = .rejected d.msgHash ∧ st₂ = st₁ ∨
            ∃ content seq, vetEntry sig b st d = .ok (some content) ∧
              storeEntry b now st₁ d content = .ok (seq, st₂) ∧ a = .received (.int seq)) := by
  have hf := h.found hke
  unfold pushEntry
  rw [vetEntry_congr h.identities]
  by_cases hkn : Known st seen key
  · obtain ⟨row,hr⟩ : ∃ row, getByWireHash st₁ d.msgHash = .ok (some row) := by
      obtain ⟨k,rfl,hk⟩ := hkn
      obtain ⟨row,hr⟩ := Option.isSome_iff_exists.mp ((h.rows k).mpr hk)
      refine ⟨row,?_⟩
      unfold getByWireHash
      rw [hke,ok_bind,Option.bind_some,hr]
      rfl
    simp [hr,hkn,pure,Except.pure,eq_comm]
  rw [hf.mpr hkn,ok_bind]
  cases vetEntry sig b st d with
  | error e => simp [hkn]
  | ok verdict =>
    cases verdict with
    | none => simp [hkn,pure,Except.pure,eq_comm]
    | some content =>
      simp only [hkn,ok_bind,bind_eq_ok,Prod.exists,pure,Except.pure]
      simp [eq_comm]

lemma pushEntries_succeeds_iff {st₁ : Store} (h : After st b seen st₁) :
    (∃ r, pushEntries sig b now st₁ vs = .ok r) ↔ Unexceptional sig b now st seen vs := by
  induction vs generalizing seen st₁ with
  | nil => exact iff_of_true ⟨_,rfl⟩ trivial
  | cons v vs ih =>
    constructor
    · rintro ⟨⟨as,st'⟩,hr⟩
      obtain ⟨d,a,st₂,as',hd,he,hre,-⟩ := pushEntries_cons.mp hr
      obtain ⟨found,hf,-⟩ := bind_ok he
      obtain ⟨key,hke,-⟩ := bind_ok hf
      refine ⟨d,key,hd,hke,?_⟩
      rcases (h.pushEntry_ok hke).mp he with ⟨hk,-,rfl⟩ | ⟨hn,⟨hv,-,rfl⟩ | ⟨content,seq,hv,hs,-⟩⟩
      · exact .inl ⟨hk,(ih h).mp ⟨_,hre⟩⟩
      · exact .inr ⟨hn,.inl ⟨hv,(ih h).mp ⟨_,hre⟩⟩⟩
      have hst := h.storable.mp ((storeEntry_succeeds_iff ((h.found hke).mpr hn)).mp ⟨_,hs⟩)
      have ht := (ih (h.store hs hke)).mp ⟨_,hre⟩
      exact .inr ⟨hn,.inr ⟨content,hv,hst,ht⟩⟩
    rintro ⟨d,key,hd,hke,hc⟩
    have hste : ∀ {a : Answer} {st₂ : Store}, pushEntry sig b now st₁ d = .ok (a, st₂) →
        (∃ r, pushEntries sig b now st₂ vs = .ok r) →
        ∃ r, pushEntries sig b now st₁ (v :: vs) = .ok r := by
      rintro a st₂ he ⟨⟨as,st'⟩,hre⟩
      exact ⟨(a :: as, st'),pushEntries_cons.mpr ⟨d,a,st₂,as,hd,he,hre,rfl⟩⟩
    rcases hc with ⟨hk,hre⟩ | ⟨hn,⟨hv,hre⟩ | ⟨content,hv,hst,hre⟩⟩
    · exact hste ((h.pushEntry_ok hke).mpr (.inl ⟨hk,rfl,rfl⟩)) ((ih h).mpr hre)
    · exact hste ((h.pushEntry_ok hke).mpr (.inr ⟨hn,.inl ⟨hv,rfl,rfl⟩⟩)) ((ih h).mpr hre)
    obtain ⟨⟨seq,st₂⟩,hs⟩ := (storeEntry_succeeds_iff ((h.found hke).mpr hn)).mpr
      (h.storable.mpr hst)
    exact hste ((h.pushEntry_ok hke).mpr (.inr ⟨hn,.inr ⟨content,seq,hv,hs,rfl⟩⟩))
      ((ih (h.store hs hke)).mpr hre)

end Effects

end Hokora.PushReceive
