import Hokora.IngestionSpec

/-!
# Who may write to a channel

Who gets a row into a channel: roles, permissions and the types that are let through.
-/
namespace Hokora.WriteAuthorisation
open Constants Database KeyedTable MessageProcessor Permissions PyValue RateLimit Repositories
  SealedChannels
open ChannelRepo (bumpSeq getById)
open MessageRepo (getByHash getByHash_update_none)

def samplePrimitives : Primitives :=
  { sha256Hex := id
    floatStr := fun _ => "t"
    aesGcm := fun _ _ plaintext _ => plaintext }

def sampleStore : Store :=
  { channels := ⟨[{ id := "private", accessMode := .privateAccess },
      { id := "announce", accessMode := .writeRestricted }],by decide⟩
    roles := ⟨[{ id := "r1", name := "member", permissions := permSendMessages }],by decide⟩
    assignments := [{ roleId := "r1", identityHash := "alice", channelId := some "private" }] }

def samplePrivate : Channel := { id := "private", accessMode := .privateAccess }

lemma samplePrivate_stored : getById sampleStore samplePrivate.id = some samplePrivate := by
  decide

def sampleProcessor : Processor :=
  { permissionResolver := some ⟨"owner"⟩, nodeIdentityHash := some "node", sealedManager := none }

section Ingestion
variable {prim : Primitives} {mp : Processor} {m : Moment} {lim : Option RateLimiter}
  {st : Store} {env : MessageEnvelope}

/-- A role that is assigned to the identity on exactly this channel. -/
def HoldsChannelRole (st : Store) (identityHash channelId : String) : Prop :=
  ∃ a ∈ st.assignments, a.identityHash = identityHash ∧ a.channelId = some channelId ∧
    (st.roles.get? a.roleId).isSome

lemma channelMessages_changed {ch : String}
    (hw : (committed st (ingest prim mp m lim st env).2).channelMessages ch ≠
      st.channelMessages ch) :
    ∃ r, (ingest prim mp m lim st env).2 = .ok r ∧ env.channelId = ch := by
  cases ho : (ingest prim mp m lim st env).2 with
  | error e =>
    rw [ho] at hw
    exact absurd rfl hw
  | ok r =>
    refine ⟨r,rfl,?_⟩
    rw [ho] at hw
    obtain ⟨channel,env',-,-,hp,hr⟩ := ingest_ok ho
    obtain ⟨_,_,rfl⟩ := checkPermissions_normalised hp
    by_contra hne
    exact hw ((route_writes hr).filter_eq (Ne.symm hne))

/-- No row of a private or sealed channel is added or changed, whatever the type of the
envelope, unless its sender is the node or holds a role on exactly that channel, and is
not banned. -/
theorem membership_guards_local_writes (prim : Primitives) (mp : Processor) (m : Moment)
    (lim : Option RateLimiter) (st : Store) (env : MessageEnvelope)
    {resolver : PermissionResolver} {channel : Channel}
    (hr : mp.permissionResolver = some resolver) (hc : getById st channel.id = some channel)
    (hp : channel.accessMode = .privateAccess ∨ channel.sealed = true)
    (hw : (committed st (ingest prim mp m lim st env).2).channelMessages channel.id ≠
      st.channelMessages channel.id) : (some env.senderHash = mp.nodeIdentityHash ∨
        HoldsChannelRole st env.senderHash channel.id) ∧
      Ban.isBlocked st env.senderHash = false := by
  obtain ⟨r,ho,hid⟩ := channelMessages_changed hw
  obtain ⟨channel',env',hc',-,hpe,-⟩ := ingest_ok ho
  obtain rfl : channel = channel' := by
    rw [hid,hc] at hc'
    exact Option.some.inj hc'
  obtain ⟨hf,-,hac⟩ := (checkPermissions_ok hr).mp hpe
  obtain ⟨hm,-,-⟩ := accessGate_ok.mp hac
  refine ⟨?_,hf⟩
  rcases (membershipGate_ok hp).mp hm with hn | ⟨role,hro⟩
  · exact .inl hn
  · obtain ⟨a,ha,hs,hch,hg⟩ := strict_role_assignment hro
    exact .inr ⟨a,ha,hs,hch,by rw [hg]; rfl⟩

def memberPost : MessageEnvelope :=
  { channelId := "private", senderHash := "alice", timestamp := .fin 7, body := some "hello" }

theorem memberPost_guarded : (some "alice" = sampleProcessor.nodeIdentityHash ∨
        HoldsChannelRole sampleStore "alice" "private") ∧
      Ban.isBlocked sampleStore "alice" = false :=
  membership_guards_local_writes samplePrimitives sampleProcessor ⟨8,[]⟩ none sampleStore
    memberPost rfl samplePrivate_stored (.inl rfl) (by decide)

/-- The ingestion adds a numbered row of the envelope's own type with the envelope's body as the
channel stores it. -/
def AddsMainRow (prim : Primitives) (mp : Processor) (m : Moment) (lim : Option RateLimiter)
    (st : Store) (env : MessageEnvelope) (channel : Channel) : Prop :=
  ∃ row, getByHash st row.msgHash = none ∧
    getByHash (committed st (ingest prim mp m lim st env).2) row.msgHash = some row ∧
    row.seq.isSome ∧ row.type = env.type ∧
    sealForOrigin prim.aesGcm channel env.body mp.sealedManager m.gcmNonce =
      .ok ⟨row.body,row.encryptedBody,row.encryptionNonce,row.encryptionEpoch⟩

/-- The types for which the gate and the storage path agree: text and media ask for
SEND_MESSAGES, the others add no such row. A thread reply is one of them only when it
names a target. -/
def Covered (env : MessageEnvelope) : Prop :=
  env.type = msgText ∨ env.type = msgMedia ∨ env.type = msgReaction ∨ env.type = msgDelete ∨
    env.type = msgPin ∨ env.type = msgEdit ∨
    (env.type = msgThreadReply ∧ env.target.isSome)

instance (env : MessageEnvelope) : Decidable (Covered env) := by
  unfold Covered
  infer_instance

structure Admissible (prim : Primitives) (mp : Processor) (m : Moment)
    (lim : Option RateLimiter) (st : Store) (env : MessageEnvelope) (channel : Channel)
    (perms : Perms) : Prop where
  size : (env.body.getD "").utf8ByteSize ≤ maxMessageBodySize
  notBanned : Ban.isBlocked st env.senderHash = false
  rate : (rateGate lim env.senderHash channel m.now).2 = .ok ()
  member : membershipGate mp st env.senderHash channel = .ok ()
  threads : env.type = msgThreadReply → perms.has permCreateThreads = true
  fresh : getByHash st (env.computeHash prim) = none
  sealing : ∃ b, sealForOrigin prim.aesGcm channel env.body mp.sealedManager m.gcmNonce = .ok b

/-- The types with a handler of their own. -/
def Mutation (type : ℤ) : Prop :=
  type = msgEdit ∨ type = msgDelete ∨ type = msgPin ∨ type = msgReaction

variable {channel : Channel} {rv : PermissionResolver} {r : Message × Store} {perms : Perms}

lemma route_new_row {row : Message}
    (h : route prim mp m st env channel = .ok r) (hn : getByHash st row.msgHash = none)
    (hro : getByHash r.2 row.msgHash = some row) : row.senderHash = some env.senderHash ∧
      ((env.type = msgEdit ∧ row.seq = none) ∨ (env.type = msgPin ∧ row.type = msgSystem) ∨
        ¬ Mutation env.type ∧ getByHash st (env.computeHash prim) = none ∧
          (row.seq.isSome ↔ threadRoot env = none)) := by
  -- The handlers that only rewrite a row leave the hash absent.
  have ha : getByHash r.2 row.msgHash ≠ none := by
    rw [hro]
    exact Option.some_ne_none row
  unfold route at h
  split_ifs at h with hed hd hp hre
  · obtain ⟨th,o,_,b,t,-,ho,-,-,-,-,hi,-,-,hr⟩ := processEdit_ok h
    have hot : row.msgHash ≠ th := by
      intro he
      rw [← he,hn] at ho
      cases ho
    rw [hr,MessageRepo.getByHash_update_ne _ hot] at hro
    rw [Table.eq_of_get?_insert? hi hn hro]
    exact ⟨rfl,.inl ⟨hed,rfl⟩⟩
  · obtain ⟨th,o,-,-,-,hr⟩ := processDelete_ok h
    refine absurd ?_ ha
    rw [getByHash,hr]
    exact getByHash_update_none _ _ _ hn
  · obtain ⟨th,o,seq,b,t,-,-,-,hi,-,hr⟩ := processPin_ok h
    rw [getByHash,hr] at hro
    rw [Table.eq_of_get?_insert? hi (getByHash_update_none _ _ _ hn) hro]
    exact ⟨rfl,.inr (.inl ⟨hp,rfl⟩)⟩
  · obtain ⟨th,o,-,-,-,hr | ⟨rs,hr⟩⟩ := processReaction_ok h
    · rw [hr] at ha
      exact absurd hn ha
    refine absurd ?_ ha
    rw [hr]
    exact getByHash_update_none _ _ _ hn
  · obtain ⟨-,hr⟩ | ⟨seq,threadSeq,b,t,hf,hs,-,hi,-,hr⟩ := storeMessage_ok h
    · rw [hr] at ha
      exact absurd hn ha
    rw [getByHash,hr] at hro
    rw [Table.eq_of_get?_insert? hi hn hro]
    have hm : ¬ Mutation env.type := by simp [Mutation,hed,hd,hp,hre]
    exact ⟨rfl,.inr (.inr ⟨hm,hf,hs⟩)⟩

lemma typeGate_send (ht : env.type = msgText ∨ env.type = msgMedia)
    (h : typeGate st env perms = .ok ()) : perms.has permSendMessages = true := by
  unfold typeGate at h
  rcases ht with ht | ht
  · rw [if_pos ht] at h
    exact requirePerm_ok.mp h
  rw [if_neg (by rw [ht]; decide),if_pos ht] at h
  obtain ⟨⟨⟩,hs,-⟩ := bind_ok h
  exact requirePerm_ok.mp hs

lemma typeGate_uncovered (hu : ¬ Covered env) : typeGate st env perms = .ok () ↔
      (env.type = msgThreadReply → perms.has permCreateThreads = true) := by
  simp only [Covered,not_or] at hu
  obtain ⟨h₁,h₂,h₃,h₄,h₅,h₆,-⟩ := hu
  simp only [typeGate,if_neg h₁,if_neg h₂,if_neg h₃,if_neg h₄,if_neg h₅,if_neg h₆]
  split_ifs with ht
  · simp [requirePerm_ok,ht]
  · simp [ht]

lemma threadRoot_uncovered (hu : ¬ Covered env) : threadRoot env = none := by
  unfold threadRoot
  split_ifs with ht
  · rw [← Option.not_isSome_iff_eq_none]
    intro hs
    exact hu (.inr (.inr (.inr (.inr (.inr (.inr ⟨ht,hs⟩))))))
  · rfl

lemma checkPermissions_uncovered (hr : mp.permissionResolver = some rv) (hu : ¬ Covered env) :
    (∃ env', (checkPermissions mp lim st (truncateDisplayName env) channel m.now).2 = .ok env') ↔
      Ban.isBlocked st env.senderHash = false ∧
        (rateGate lim env.senderHash channel m.now).2 = .ok () ∧
        membershipGate mp st env.senderHash channel = .ok () ∧ (env.type = msgThreadReply →
          (getEffectivePermissions rv st env.senderHash channel).has permCreateThreads = true) := by
  simp only [checkPermissions_ok hr,accessGate_ok]
  constructor
  · rintro ⟨env',hf,hra,hm,hty,-⟩
    exact ⟨hf,hra,hm,(typeGate_uncovered hu).mp hty⟩
  · rintro ⟨hf,hra,hm,ht⟩
    exact ⟨_,hf,hra,hm,(typeGate_uncovered hu).mpr ht,rfl⟩

lemma storeMessage_main {b : StoredBody}
    (hc : getById st env.channelId = some channel) (hr : threadRoot env = none)
    (hf : getByHash st (env.computeHash prim) = none)
    (hb : sealForOrigin prim.aesGcm channel env.body mp.sealedManager m.gcmNonce = .ok b) :
    ∃ seq st', storeMessage prim mp m st env channel =
        .ok (messageRow prim mp m env (some seq) none b, st') ∧
      getByHash st' (env.computeHash prim) = some (messageRow prim mp m env (some seq) none b) := by
  have hi := ChannelRepo.incrementSeq_ok.mpr ⟨channel,hc,rfl,rfl⟩
  have hbu : (bumpSeq st env.channelId).channels.get? env.channelId =
      some { channel with latestSeq := channel.latestSeq + 1 } := by
    have hg := ChannelRepo.getById_bumpSeq st env.channelId env.channelId
    rw [if_pos rfl,hc] at hg
    exact hg
  obtain ⟨t,ht,hin⟩ := MessageRepo.insert_of_fresh
    (m := messageRow prim mp m env (some (channel.latestSeq + 1)) none b) hbu hf
  refine ⟨channel.latestSeq + 1,
    rememberSender { bumpSeq st env.channelId with messages := t } env m.now,?_,?_⟩
  · simp [storeMessage,hf,assignSeq,hr,SequenceManager.nextSeq,hi,hb,hin]
  unfold getByHash
  rw [rememberSender_messages,Table.get?_insert? ht]
  exact if_pos rfl

lemma route_of_not_mutation (h : ¬ Mutation env.type) :
    route prim mp m st env channel = storeMessage prim mp m st env channel := by
  simp only [Mutation,not_or] at h
  obtain ⟨he,hd,hp,hr⟩ := h
  rw [route,if_neg he,if_neg hd,if_neg hp,if_neg hr]

lemma ingest_of_not_mutation (hk : ¬ Mutation env.type)
    (h : (ingest prim mp m lim st env).2 = .ok r) :
    ∃ channel env', Normalised env env' ∧ storeMessage prim mp m st env' channel = .ok r := by
  obtain ⟨channel,env',-,-,hp,hr⟩ := ingest_ok h
  obtain ⟨displayName,mentions,hs⟩ := checkPermissions_normalised hp
  have hk' : ¬ Mutation env'.type := by
    rw [hs]
    exact hk
  rw [route_of_not_mutation hk'] at hr
  exact ⟨channel,env',⟨displayName,mentions,hs⟩,hr⟩

lemma uncovered_route (hu : ¬ Covered env) :
    route prim mp m st env channel = storeMessage prim mp m st env channel := by
  simp only [Covered,not_or] at hu
  obtain ⟨-,-,hr,hd,hp,he,-⟩ := hu
  exact route_of_not_mutation (by simp [Mutation,he,hd,hp,hr])

lemma addsMainRow_accepted (hr : mp.permissionResolver = some rv)
    (hc : getById st env.channelId = some channel) (h : AddsMainRow prim mp m lim st env channel) :
    (env.body.getD "").utf8ByteSize ≤ maxMessageBodySize ∧
      (∃ env', (checkPermissions mp lim st (truncateDisplayName env) channel m.now).2 = .ok env') ∧
      typeGate st env (getEffectivePermissions rv st env.senderHash channel) = .ok () ∧
      ¬ Mutation env.type ∧ getByHash st (env.computeHash prim) = none ∧
      threadRoot env = none := by
  obtain ⟨row,hne,hrow,hse,ht,-⟩ := h
  cases ho : (ingest prim mp m lim st env).2 with
  | error e =>
    rw [ho] at hrow
    exact absurd (hrow.symm.trans hne) (by simp)
  | ok r =>
    rw [ho] at hrow
    obtain ⟨channel',env',hc',hsi,hp,hro⟩ := ingest_ok ho
    obtain rfl : channel = channel' := Option.some.inj (hc.symm.trans hc')
    have hn := checkPermissions_normalised hp
    obtain ⟨-,-,ha⟩ := (checkPermissions_ok hr).mp hp
    obtain ⟨-,hg,-⟩ := accessGate_ok.mp ha
    obtain ⟨_,_,rfl⟩ := hn
    rcases (route_new_row hro hne hrow).2 with ⟨-,hno⟩ | ⟨hpi,hs⟩ | ⟨hm,hf,hroo⟩
    · rw [hno] at hse
      cases hse
    · have hb : msgPin = msgSystem := hpi.symm.trans (ht.symm.trans hs)
      exact absurd hb (by decide)
    · exact ⟨hsi,⟨_,hp⟩,hg,hm,hf,hroo.mp hse⟩

lemma covered_authorised (hr : mp.permissionResolver = some rv)
    (hc : getById st env.channelId = some channel) (hco : Covered env)
    (h : AddsMainRow prim mp m lim st env channel) :
    (getEffectivePermissions rv st env.senderHash channel).has permSendMessages = true := by
  obtain ⟨-,-,hg,hm,-,hro⟩ := addsMainRow_accepted hr hc h
  rcases hco with ht | ht | ht | ht | ht | ht | ⟨ht,hta⟩
  · exact typeGate_send (.inl ht) hg
  · exact typeGate_send (.inr ht) hg
  · exact absurd (.inr (.inr (.inr ht))) hm
  · exact absurd (.inr (.inl ht)) hm
  · exact absurd (.inr (.inr (.inl ht))) hm
  · exact absurd (.inl ht) hm
  · rw [threadRoot,if_pos ht] at hro
    rw [hro] at hta
    cases hta

lemma uncovered_addsMainRow (hr : mp.permissionResolver = some rv)
    (hc : getById st env.channelId = some channel) (hu : ¬ Covered env) :
    AddsMainRow prim mp m lim st env channel ↔ Admissible prim mp m lim st env channel
      (getEffectivePermissions rv st env.senderHash channel) := by
  constructor
  · intro h
    obtain ⟨hs,hp,-,-,hfr,-⟩ := addsMainRow_accepted hr hc h
    obtain ⟨hf,hra,hm,ht⟩ := (checkPermissions_uncovered hr hu).mp hp
    obtain ⟨row,-,-,-,-,hb⟩ := h
    exact ⟨hs,hf,hra,hm,ht,hfr,_,hb⟩
  rintro ⟨hs,hf,hra,hm,ht,hfr,b,hb⟩
  obtain ⟨env',hp⟩ :=
    (checkPermissions_uncovered hr hu).mpr ⟨hf,hra,hm,ht⟩
  obtain ⟨name,mentions,he⟩ := checkPermissions_normalised hp
  have hu' : ¬ Covered env' := by rwa [he]
  have hc' : getById st env'.channelId = some channel := by rwa [he]
  have hf' : getByHash st (env'.computeHash prim) = none := by rwa [he]
  have hb' : sealForOrigin prim.aesGcm channel env'.body mp.sealedManager m.gcmNonce = .ok b := by
    rwa [he]
  obtain ⟨seq,st',hst,hg⟩ :=
    storeMessage_main hc' (threadRoot_uncovered hu') hf' hb'
  refine ⟨messageRow prim mp m env' (some seq) none b,hf',?_,rfl,?_,hb⟩
  · rw [ingest_of_ok hc hs hp,uncovered_route hu',hst]
    exact hg
  · rw [he]
    rfl

/-- The write is authorised exactly when the sender may send, or the type is one on which
gate and storage agree, or the envelope is refused for another reason. -/
theorem main_row_authorised_iff (prim : Primitives) (mp : Processor) (m : Moment)
    (lim : Option RateLimiter) (st : Store) (env : MessageEnvelope)
    {resolver : PermissionResolver} {channel : Channel}
    (hr : mp.permissionResolver = some resolver) (hc : getById st env.channelId = some channel) :
    (AddsMainRow prim mp m lim st env channel →
        (getEffectivePermissions resolver st env.senderHash channel).has permSendMessages = true) ↔
      (getEffectivePermissions resolver st env.senderHash channel).has permSendMessages = true ∨
        Covered env ∨ ¬ Admissible prim mp m lim st env channel
          (getEffectivePermissions resolver st env.senderHash channel) := by
  by_cases hco : Covered env
  · simp only [hco,true_or,or_true,iff_true]
    exact covered_authorised hr hc hco
  · rw [uncovered_addsMainRow hr hc hco]
    tauto

end Ingestion

def sampleAnnounce : Channel := { id := "announce", accessMode := .writeRestricted }

lemma sampleAnnounce_stored : getById sampleStore sampleAnnounce.id = some sampleAnnounce := by
  decide

def systemPost : MessageEnvelope :=
  { channelId := "announce", senderHash := "mallory", timestamp := .fin 7, type := msgSystem,
    body := some "hello" }

theorem systemPost_authorised_iff :
    (AddsMainRow samplePrimitives sampleProcessor ⟨8,[]⟩ none sampleStore systemPost
          sampleAnnounce →
        (getEffectivePermissions ⟨"owner"⟩ sampleStore "mallory" sampleAnnounce).has
          permSendMessages = true) ↔
      (getEffectivePermissions ⟨"owner"⟩ sampleStore "mallory" sampleAnnounce).has
          permSendMessages = true ∨ Covered systemPost ∨
        ¬ Admissible samplePrimitives sampleProcessor ⟨8,[]⟩ none sampleStore systemPost
          sampleAnnounce (getEffectivePermissions ⟨"owner"⟩ sampleStore "mallory" sampleAnnounce) :=
  main_row_authorised_iff samplePrimitives sampleProcessor ⟨8,[]⟩ none sampleStore systemPost
    rfl sampleAnnounce_stored

theorem systemPost_unauthorised :
    AddsMainRow samplePrimitives sampleProcessor ⟨8,[]⟩ none sampleStore systemPost sampleAnnounce ∧
      (getEffectivePermissions ⟨"owner"⟩ sampleStore "mallory" sampleAnnounce).has
        permSendMessages = false := by
  refine ⟨⟨messageRow samplePrimitives sampleProcessor ⟨8,[]⟩ systemPost (some 1) none
    { body := some "hello" },?_,?_,rfl,rfl,rfl⟩,by decide⟩
  · decide
  · decide

end Hokora.WriteAuthorisation
