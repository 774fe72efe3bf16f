import Hokora.FederatedAcceptance

/-!
# The two receive paths on one payload

The same fields offered to a push and to a mirror. Fields of other types are not covered.
-/
namespace Hokora.ReceivePaths
open Constants Database FederatedAcceptance KeyedTable MirrorIngest PushReceive PyValue
  Repositories SealedChannels SenderBinding WireRows
open MessageRepo (getByHash)

structure WellTyped (p : Val) (d : MsgData) : Prop where
  msgHash : ∃ s, d.msgHash = .str s
  senderHash : ∃ s, bindText d.senderHash = .ok s
  timestamp : ∃ x, bindFloat d.timestamp = .ok (some x)
  type : ∃ i, bindInteger d.type = .ok (some i)
  body : ∃ s, bindText d.body = .ok s
  encryptedBody : ∃ b, bindBlob d.encryptedBody = .ok b
  encryptionNonce : ∃ b, bindBlob d.encryptionNonce = .ok b
  encryptionEpoch : ∃ i, bindInteger d.encryptionEpoch = .ok i
  displayName : ∃ name s, shortName d.displayName = .ok name ∧ bindText name = .ok s
  originNode : ∀ v, p.get "origin_node" .none = .ok v → ∃ s, bindText v = .ok s

def wireContent (channelSealed : Bool) (d : MsgData) : WireBody :=
  if channelSealed then ⟨.none,d.encryptedBody,d.encryptionNonce,d.encryptionEpoch⟩
  else ⟨d.body,.none,.none,.none⟩

lemma WellTyped.binds {p : Val} {d : MsgData} (h : WellTyped p d) (b : PushBatch)
    (hor : ∃ s, bindText b.nodeIdentity = .ok s) (channelSealed : Bool) (now : ℚ) :
    ∃ name row, shortName d.displayName = .ok name ∧
      (entryRow b d (wireContent channelSealed d) name).bind now = .ok row := by
  obtain ⟨hash,hh⟩ := h.msgHash
  obtain ⟨senderHash,hs⟩ := h.senderHash
  obtain ⟨timestamp,ht⟩ := h.timestamp
  obtain ⟨type,hty⟩ := h.type
  obtain ⟨name,displayName,hna,hd⟩ := h.displayName
  obtain ⟨originNode,ho⟩ := hor
  have hc : ∃ body enc nonce epoch, bindText (wireContent channelSealed d).body = .ok body ∧
        bindBlob (wireContent channelSealed d).encryptedBody = .ok enc ∧
        bindBlob (wireContent channelSealed d).encryptionNonce = .ok nonce ∧
        bindInteger (wireContent channelSealed d).encryptionEpoch = .ok epoch := by
    obtain ⟨body,hb⟩ := h.body
    obtain ⟨enc,hen⟩ := h.encryptedBody
    obtain ⟨nonce,hn⟩ := h.encryptionNonce
    obtain ⟨epoch,he⟩ := h.encryptionEpoch
    cases channelSealed with
    | true => exact ⟨none,enc,nonce,epoch,rfl,hen,hn,he⟩
    | false => exact ⟨body,none,none,none,hb,rfl,rfl,rfl⟩
  obtain ⟨body,enc,nonce,epoch,hb,hen,hn,he⟩ := hc
  refine ⟨name,{
    msgHash := hash, channelId := b.channelId, senderHash := senderHash
    timestamp := timestamp, type := type, body := body, encryptedBody := enc
    encryptionNonce := nonce, encryptionEpoch := epoch, displayName := displayName
    originNode := originNode, receivedAt := now },hna,WireRow.bind_iff.mpr ⟨?_,rfl⟩⟩
  exact ⟨congrArg bindText hh,hs,ht,hty,hb,hen,hn,he,hd,ho⟩

structure SharedChecks (sig : SignatureScheme) (config : FederationConfig) (channelSealed : Bool)
    (d : MsgData) : Prop where
  bound : Bound sig config d
  size : ∃ size, bodySize d.body = .ok size ∧ size ≤ maxMessageBodySize
  ciphertext : channelSealed = true → d.body.truthy = false ∧ d.encryptedBody.truthy = true

section Content
variable {channelSealed : Bool} {d : MsgData} {content : WireBody}

lemma pushContent_some : pushContent channelSealed d = .ok (some content) ↔
    (channelSealed = true → d.body.truthy = false ∧ d.encryptedBody.truthy = true) ∧
      wireContent channelSealed d = content := by
  unfold pushContent wireContent
  cases channelSealed with
  | false => simp [pure,Except.pure]
  | true =>
    simp only [if_true,true_implies]
    split_ifs with hr
    · refine iff_of_false ?_ ?_
      · intro h
        obtain ⟨_,-,h⟩ := bind_ok h
        obtain ⟨_,-,h⟩ := bind_ok h
        obtain ⟨_,-,h⟩ := bind_ok h
        cases h
      · rintro ⟨⟨hb,he⟩,-⟩
        simp [hb,he] at hr
    · have hok : d.body.truthy = false ∧ d.encryptedBody.truthy = true := by
        simpa using hr
      simp [hok,pure,Except.pure]

lemma validateMirrorPayload_ok {r : Val × Val × Val × Val} :
    validateMirrorPayload channelSealed d.body d.encryptedBody d.encryptionNonce
        d.encryptionEpoch = .ok r ↔
      (channelSealed = true → d.body.truthy = false ∧ d.encryptedBody.truthy = true) ∧
        r = ((wireContent channelSealed d).body, (wireContent channelSealed d).encryptedBody,
          (wireContent channelSealed d).encryptionNonce,
          (wireContent channelSealed d).encryptionEpoch) := by
  unfold validateMirrorPayload wireContent
  cases channelSealed with
  | false => simp only [Bool.false_eq_true,if_false,false_implies,true_and,Except.ok.injEq,
      eq_comm]
  | true =>
    simp only [if_true,true_implies]
    split_ifs with hr
    · refine iff_of_false ?_ ?_
      · intro h
        obtain ⟨_,-,h⟩ := bind_ok h
        obtain ⟨_,-,h⟩ := bind_ok h
        cases h
      · rintro ⟨⟨hb,he⟩,-⟩
        simp [hb,he] at hr
    · have hok : d.body.truthy = false ∧ d.encryptedBody.truthy = true := by
        simpa using hr
      simp [hok,eq_comm]

lemma mirrorContent_some : mirrorContent channelSealed d = .ok (some content) ↔
    (channelSealed = true → d.body.truthy = false ∧ d.encryptedBody.truthy = true) ∧
      wireContent channelSealed d = content := by
  unfold mirrorContent
  cases hv : validateMirrorPayload channelSealed d.body d.encryptedBody d.encryptionNonce
      d.encryptionEpoch with
  | ok r =>
    obtain ⟨hc,rfl⟩ := validateMirrorPayload_ok.mp hv
    simp only [Except.ok.injEq,Option.some.injEq]
    exact (and_iff_right hc).symm
  | error e =>
    refine iff_of_false ?_ ?_
    · intro h
      split at h
      next heq => cases heq
      · obtain ⟨_,-,h⟩ := bind_ok h
        cases h
      · cases h
    · rintro ⟨hc,-⟩
      have hok := validateMirrorPayload_ok.mpr ⟨hc,rfl⟩
      rw [hv] at hok
      cases hok

end Content

structure Offered (r : Reception) (now : ℚ) (c : Channel) (p : Val) (d : MsgData) (k : String) :
    Prop where
  payload : MsgData.ofVal p = .ok d
  typed : WellTyped p d
  channel : ChannelRepo.getById r.st r.channelId = some c
  trusted : requireTrustedPeer r.st (.str r.peer) = .ok ()
  msgHash : d.msgHash = .str k
  fresh : getByHash r.st k = none
  notBanned : NotBanned r.st d
  window : outOfWindow d.timestamp now = .ok false

section Paths
variable {sig : SignatureScheme} {config : FederationConfig} {r : Reception} {now : ℚ}
  {c : Channel} {p : Val} {d : MsgData} {k : String}

lemma Offered.key (h : Offered r now c p d k) : bindText d.msgHash = .ok (some k) := by
  rw [h.msgHash]
  rfl

lemma Offered.new (h : Offered r now c p d k) : getByWireHash r.st d.msgHash = .ok none := by
  rw [getByWireHash,h.key,ok_bind,Option.bind_some,h.fresh]
  rfl

lemma Offered.sealed (h : Offered r now c p d k) :
    (ChannelRepo.getById r.st r.channelId).any Channel.sealed = c.sealed := by
  rw [h.channel]
  rfl

lemma Offered.storable (h : Offered r now c p d k) {b : PushBatch}
    (hb : b.channelId = r.channelId) (ho : ∃ s, bindText b.nodeIdentity = .ok s) (now' : ℚ) :
    Storable b now' r.st d (wireContent c.sealed d) :=
  ⟨⟨c,hb ▸ h.channel⟩,h.typed.binds b ho c.sealed now'⟩

lemma bound_not_short (h : Bound sig config d) : shortSenderHash d.senderHash = false := by
  unfold Bound verifySenderBinding at h
  cases hs : d.senderHash with
  | str sender =>
    rw [hs] at h
    dsimp only at h
    split_ifs at h with he hl
    all_goals
      rw [not_not] at hl
      simp only [shortSenderHash,hl]
      rfl
  | _ =>
    rw [hs] at h
    cases h

lemma Offered.push_iff (h : Offered r now c p d k) : PushAccepts sig config r p ↔
      SharedChecks sig config c.sealed d ∧ isValidType d.type = .ok true := by
  have hid : r.channelId ≠ "" := by
    have hk : c.id = r.channelId := Table.get?_key h.channel
    rw [← hk]
    exact c.id_ne
  rw [pushAccepts_iff h.payload]
  constructor
  · rintro ⟨hb,hc⟩
    obtain ⟨content,hco,-⟩ := hc.stored
    rw [h.sealed] at hco
    exact ⟨⟨hb,hc.size,(pushContent_some.mp hco).1⟩,hc.type⟩
  rintro ⟨hs,ht⟩
  refine ⟨hs.bound,hid,h.trusted,h.new,h.notBanned,ht,hs.size,
    wireContent c.sealed d,?_,h.storable rfl ⟨_,rfl⟩ r.now⟩
  rw [h.sealed]
  exact pushContent_some.mpr ⟨hs.ciphertext,rfl⟩

lemma Offered.mirror_iff (h : Offered r now c p d k) (ph : String) :
    MirrorAccepts sig config { r with peer := ph, now := now } p ↔
      SharedChecks sig config c.sealed d := by
  rw [mirrorAccepts_iff h.payload]
  constructor
  · rintro ⟨hb,hch⟩
    obtain ⟨content,hc,-⟩ := hch.stored
    rw [h.sealed] at hc
    exact ⟨hb,hch.size,(mirrorContent_some.mp hc).1⟩
  intro hs
  obtain ⟨fields,rfl⟩ := MsgData.ofVal_dict h.payload
  refine ⟨hs.bound,hs.size,bound_not_short hs.bound,h.window,h.new,
    wireContent c.sealed d,?_,_,rfl,?_⟩
  · rw [h.sealed]
    exact mirrorContent_some.mpr ⟨hs.ciphertext,rfl⟩
  refine h.storable rfl ?_ now
  -- the payload's origin is used when no peer is named
  simp only [mirrorBatch,Val.or]
  split_ifs
  · exact ⟨_,rfl⟩
  · exact h.typed.originNode _ rfl

end Paths

def pushed (sig : SignatureScheme) (config : FederationConfig) (r : Reception) (p : Val) : Store :=
  committed r.st (handlePushMessages sig (some config) r.now r.st
    (pushPayload r.channelId r.peer [p]) none none (none : Option Unit))

def mirrored (sig : SignatureScheme) (config : FederationConfig) (r : Reception) (p : Val) :
    Store :=
  ingest sig config.requireSignedFederation r.now r.st r.channelId p r.peer

structure SameContent (row row' : Message) : Prop where
  msgHash : row.msgHash = row'.msgHash
  senderHash : row.senderHash = row'.senderHash
  timestamp : row.timestamp = row'.timestamp
  type : row.type = row'.type
  body : row.body = row'.body
  encryptedBody : row.encryptedBody = row'.encryptedBody
  encryptionNonce : row.encryptionNonce = row'.encryptionNonce
  encryptionEpoch : row.encryptionEpoch = row'.encryptionEpoch
  displayName : row.displayName = row'.displayName

structure PathsAgree (sig : SignatureScheme) (config : FederationConfig) (r : Reception)
    (peerHash : String) (now : ℚ) (p : Val) (k : String) : Prop where
  admitted : (getByHash (pushed sig config r p) k).isSome ↔
    (getByHash (mirrored sig config { r with peer := peerHash, now := now } p) k).isSome
  content : ∀ row row', getByHash (pushed sig config r p) k = some row →
    getByHash (mirrored sig config { r with peer := peerHash, now := now } p) k =
      some row' → SameContent row row'

/-- A row that was bound from the entry, with these text columns. -/
def BoundFrom (d : MsgData) (content : WireBody) (row : Message) : Prop :=
  ∃ b name, shortName d.displayName = .ok name ∧ (entryRow b d content name).Columns row

lemma BoundFrom.sameContent {d : MsgData} {content : WireBody} {row row' : Message}
    (h : BoundFrom d content row) (h' : BoundFrom d content row') : SameContent row row' := by
  obtain ⟨b,name,hn,hr⟩ := h
  obtain ⟨b',name',hn',hr'⟩ := h'
  cases hn.symm.trans hn'
  constructor
  · exact Option.some.inj (Except.ok.inj (hr.msgHash.symm.trans hr'.msgHash))
  · exact Except.ok.inj (hr.senderHash.symm.trans hr'.senderHash)
  · exact Option.some.inj (Except.ok.inj (hr.timestamp.symm.trans hr'.timestamp))
  · exact Option.some.inj (Except.ok.inj (hr.type.symm.trans hr'.type))
  · exact Except.ok.inj (hr.body.symm.trans hr'.body)
  · exact Except.ok.inj (hr.encryptedBody.symm.trans hr'.encryptedBody)
  · exact Except.ok.inj (hr.encryptionNonce.symm.trans hr'.encryptionNonce)
  · exact Except.ok.inj (hr.encryptionEpoch.symm.trans hr'.encryptionEpoch)
  · exact Except.ok.inj (hr.displayName.symm.trans hr'.displayName)

/-- Nothing happened, or the entry was stored with these text columns. -/
def Received (st : Store) (d : MsgData) (content : WireBody) (st' : Store) : Prop :=
  st' = st ∨ ∃ b now s, storeEntry b now st d content = .ok s ∧ st' = s.2

section Rows
variable {st st' : Store} {d : MsgData} {content : WireBody} {k : String}

lemma storeEntry_row {b : PushBatch} {now : ℚ} {s : ℕ × Store}
    (h : storeEntry b now st d content = .ok s) (hke : bindText d.msgHash = .ok (some k)) :
    ∃ row, getByHash s.2 k = some row ∧ BoundFrom d content row := by
  obtain ⟨seq,st'⟩ := s
  obtain ⟨c,name,row,t,-,-,hn,hb,hi,rfl⟩ := storeEntry_cases h
  obtain ⟨hc,-⟩ := WireRow.bind_iff.mp hb
  have hk : row.msgHash = k := by
    cases hke.symm.trans hc.msgHash
    rfl
  refine ⟨{ row with seq := some (c.latestSeq + 1) },?_,b,name,hn,?_⟩
  · change t.get? k = _
    rw [Table.get?_insert? hi,if_pos hk]
  exact ⟨hc.msgHash,hc.senderHash,hc.timestamp,hc.type,hc.body,
    hc.encryptedBody,hc.encryptionNonce,hc.encryptionEpoch,
    hc.displayName,hc.originNode⟩

lemma Received.row_iff (h : Received st d content st')
    (hk : bindText d.msgHash = .ok (some k)) (hn : getByHash st k = none) :
    (getByHash st' k).isSome ↔ st'.messages ≠ st.messages := by
  rcases h with rfl | ⟨b,now,s,hs,rfl⟩
  · simp [hn]
  · obtain ⟨row,hr,-⟩ := storeEntry_row hs hk
    exact iff_of_true (Option.isSome_iff_exists.mpr ⟨row,hr⟩) (storeEntry_changes hs)

lemma Received.boundFrom (h : Received st d content st')
    (hk : bindText d.msgHash = .ok (some k)) (hn : getByHash st k = none)
    {row : Message} (hr : getByHash st' k = some row) : BoundFrom d content row := by
  rcases h with rfl | ⟨b,now,s,hs,rfl⟩
  · rw [hn] at hr
    cases hr
  obtain ⟨row',hr',hb⟩ := storeEntry_row hs hk
  cases hr.symm.trans hr'
  exact hb

end Rows

section Agreement
variable {r : Reception} {now : ℚ} {c : Channel} {p : Val} {d : MsgData} {k : String}

lemma Offered.pushed_received (h : Offered r now c p d k) (sig : SignatureScheme)
    (config : FederationConfig) :
    Received r.st d (wireContent c.sealed d) (pushed sig config r p) := by
  unfold pushed
  cases hp : handlePushMessages sig (some config) r.now r.st
      (pushPayload r.channelId r.peer [p]) none none (none : Option Unit) with
  | error e => exact .inl rfl
  | ok ack =>
    obtain ⟨opened,ho,hp⟩ := bind_ok hp
    obtain ⟨-,-,rfl⟩ := openBatch_pushPayload.mp ho
    obtain ⟨⟨as,st'⟩,he,hp⟩ := bind_ok hp
    cases hp
    obtain ⟨d',a,st₁,as',hd',hen,hr,-⟩ := pushEntries_cons.mp he
    cases h.payload.symm.trans hd'
    cases hr
    obtain ⟨-,-,-,rfl⟩ | ⟨-,⟨-,-,rfl⟩ | ⟨content,seq,hv,hst,-⟩⟩ :=
      pushEntry_cases hen
    · exact .inl rfl
    · exact .inl rfl
    obtain ⟨-,-,-,-,hc⟩ := vetEntry_some.mp hv
    have hs := (pushContent_some.mp hc).2
    have hse : (batchFor (some config) r.st r.channelId (.str r.peer)).channelSealed =
        c.sealed := h.sealed
    rw [hse] at hs
    rw [hs]
    exact .inr ⟨_,_,_,hst,rfl⟩

lemma Offered.mirrored_received (h : Offered r now c p d k) (sig : SignatureScheme)
    (config : FederationConfig) (ph : String) : Received r.st d (wireContent c.sealed d)
      (mirrored sig config { r with peer := ph, now := now } p) := by
  unfold mirrored ingest
  cases htx : ingestTx sig config.requireSignedFederation now r.st r.channelId p ph with
  | error e => exact .inl rfl
  | ok st' =>
    cases ingestTx_effect htx with
    | stored hd' _ _ _ hc hst =>
      cases h.payload.symm.trans hd'
      have hs := (mirrorContent_some.mp hc).2
      rw [h.sealed] at hs
      rw [hs]
      exact .inr ⟨_,_,_,hst,rfl⟩
    | _ => exact .inl rfl

/-- The paths agree on a payload exactly when it has a message type that the push path knows or
fails a check that both make. -/
theorem receive_paths_agree_iff (sig : SignatureScheme) (config : FederationConfig)
    (peerHash : String) (h : Offered r now c p d k) : PathsAgree sig config r peerHash now p k ↔
      (SharedChecks sig config c.sealed d → isValidType d.type = .ok true) := by
  have hp := h.pushed_received sig config
  have hm := h.mirrored_received sig config peerHash
  have hpu : (getByHash (pushed sig config r p) k).isSome ↔
      SharedChecks sig config c.sealed d ∧ isValidType d.type = .ok true :=
    (hp.row_iff h.key h.fresh).trans h.push_iff
  have hmi : (getByHash (mirrored sig config { r with peer := peerHash, now := now } p) k).isSome ↔
      SharedChecks sig config c.sealed d :=
    (hm.row_iff h.key h.fresh).trans (h.mirror_iff peerHash)
  constructor
  · intro ha hs
    exact (hpu.mp (ha.admitted.mpr (hmi.mpr hs))).2
  intro ht
  refine ⟨?_,?_⟩
  · rw [hpu,hmi]
    exact ⟨And.left,fun hs => ⟨hs,ht hs⟩⟩
  · intro row row' hr hr'
    exact (hp.boundFrom h.key h.fresh hr).sameContent (hm.boundFrom h.key h.fresh hr')

end Agreement

def typedEntry (type : ℤ) : Val :=
  .dict [("msg_hash", .str "h1"), ("sender_hash", .str sampleHash), ("timestamp", .int 1000),
    ("type", .int type), ("body", .str "hello"),
    ("sender_rns_public_key", .bytes (List.replicate 64 7)),
    ("lxmf_signed_part", .bytes [1, 2, 3]), ("lxmf_signature", .bytes [1, 2, 3])]

def typedData (type : ℤ) : MsgData := { sampleData "h1" "hello" with type := .int type }

lemma typedEntry_offered {type : ℤ} (h : fitsInt64 type = true) :
    Offered sampleReception 1000 { id := "general" } (typedEntry type) (typedData type) "h1" where
  payload := rfl
  typed :=
    { msgHash := ⟨_,rfl⟩
      senderHash := ⟨_,rfl⟩
      timestamp := ⟨_,rfl⟩
      type := ⟨type,if_pos h⟩
      body := ⟨_,rfl⟩
      encryptedBody := ⟨_,rfl⟩
      encryptionNonce := ⟨_,rfl⟩
      encryptionEpoch := ⟨_,rfl⟩
      displayName := ⟨_,_,rfl,rfl⟩
      originNode := by
        intro v hv
        cases hv
        exact ⟨_,rfl⟩ }
  channel := rfl
  trusted := rfl
  msgHash := rfl
  fresh := rfl
  notBanned := fun _ => rfl
  window := by
    change outOfWindow (.int 1000) 1000 = .ok false
    decide +kernel

theorem text_paths_agree : PathsAgree sampleScheme {} sampleReception "mirror" 1000
    (typedEntry msgText) "h1" :=
  (receive_paths_agree_iff sampleScheme {} "mirror" (typedEntry_offered (by decide))).mpr
    fun _ => rfl

theorem unknown_type_mirrored :
    Offered sampleReception 1000 { id := "general" } (typedEntry 99) (typedData 99) "h1" ∧
      ¬ PathsAgree sampleScheme {} sampleReception "mirror" 1000 (typedEntry 99) "h1" := by
  refine ⟨typedEntry_offered (by decide),?_⟩
  intro h
  have hm : (getByHash (mirrored sampleScheme {}
      { sampleReception with peer := "mirror", now := 1000 } (typedEntry 99)) "h1").isSome := by
    decide +kernel
  have hp : (getByHash (pushed sampleScheme {} sampleReception (typedEntry 99))
      "h1").isSome = false := by
    decide +kernel
  rw [h.admitted.mpr hm] at hp
  cases hp

end Hokora.ReceivePaths
