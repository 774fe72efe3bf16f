import Hokora.MessageProcessor

/-!
# What an accepted envelope did

What each kind of envelope changes, said once for the modules on ingestion.
-/
namespace Hokora.MessageProcessor
open Constants Database KeyedTable Permissions PyValue RateLimit Repositories SealedChannels
open Message (msgHash)
open MessageRepo (getByHash insert_ok setPinned softDelete)

lemma requirePerm_ok {perms flag : Perms} {name : String} :
    requirePerm perms flag name = .ok () ↔ perms.has flag = true := by
  unfold requirePerm
  split_ifs with h
  · simp [h]
  · simp [h]

variable {channel : Channel} {r : Message × Store} {env env' : MessageEnvelope} {m : Moment}
  {lim : Option RateLimiter} {prim : Primitives} {mp : Processor} {st : Store} {h th : String}
  {now : ℚ} {sender : String} {f : Message → Message} {row : Message}

lemma membershipGate_ok (hp : channel.accessMode = .privateAccess ∨ channel.sealed = true) :
    membershipGate mp st sender channel = .ok () ↔ some sender = mp.nodeIdentityHash ∨
        ∃ r, r ∈ RoleRepo.getIdentityRoles st sender (some channel.id) true := by
  have hg : (decide (channel.accessMode = .privateAccess) || channel.sealed) = true := by
    simpa using hp
  unfold membershipGate
  split_ifs with h
  · simp only [false_iff]
    rintro (hs | ⟨r,hr⟩)
    · simp [hs] at h
    rw [Bool.and_eq_true,List.isEmpty_iff] at h
    rw [h.2] at hr
    cases hr
  simp only [true_iff]
  by_contra hn
  rw [not_or,not_exists] at hn
  apply h
  rw [Bool.and_eq_true,decide_eq_true_eq,List.isEmpty_iff]
  exact ⟨hn.1,List.eq_nil_iff_forall_not_mem.mpr hn.2⟩

lemma strict_role_assignment {r : Role}
    (h : r ∈ RoleRepo.getIdentityRoles st sender (some channel.id) true) :
    ∃ a ∈ st.assignments, a.identityHash = sender ∧ a.channelId = some channel.id ∧
      st.roles.get? a.roleId = some r := by
  obtain ⟨a,ha,hs,hsc,hr⟩ := RoleRepo.mem_getIdentityRoles.mp h
  refine ⟨a,ha,hs,?_,hr⟩
  simpa [RoleRepo.inScope,channel.id_ne] using hsc

variable {rv : PermissionResolver}

lemma accessGate_ok : accessGate mp rv st env channel = .ok env' ↔
      membershipGate mp st env.senderHash channel = .ok () ∧
        typeGate st env (getEffectivePermissions rv st env.senderHash channel) = .ok () ∧
        env' = stripMentions env (getEffectivePermissions rv st env.senderHash channel) := by
  unfold accessGate
  constructor
  · intro h
    obtain ⟨⟨⟩,hm,h⟩ := bind_ok h
    obtain ⟨⟨⟩,ht,h⟩ := bind_ok h
    cases h
    exact ⟨hm,ht,rfl⟩
  · rintro ⟨hm,ht,rfl⟩
    simp only [hm,ht,ok_bind]
    rfl

lemma checkPermissions_ok (hr : mp.permissionResolver = some rv) :
    (checkPermissions mp lim st env channel now).2 = .ok env' ↔
      Ban.isBlocked st env.senderHash = false ∧
        (rateGate lim env.senderHash channel now).2 = .ok () ∧
        accessGate mp rv st env channel = .ok env' := by
  simp only [checkPermissions,hr]
  cases hb : Ban.checkNotBlocked st env.senderHash with
  | error e =>
    have hbl : Ban.isBlocked st env.senderHash ≠ false := by
      intro hf
      rw [Ban.checkNotBlocked_ok.mpr hf] at hb
      cases hb
    simp [hbl]
  | ok u =>
    have hfr := Ban.checkNotBlocked_ok.mp hb
    simp only [hfr,true_and,bind_eq_ok]
    exact ⟨fun ⟨_,h⟩ => h,fun h => ⟨(),h⟩⟩

lemma stripMentions_fields {perms : Perms} :
    stripMentions env perms = { env with mentions := (stripMentions env perms).mentions } := by
  unfold stripMentions
  split_ifs <;> rfl

/-- The envelope as the gate sees it and as the handlers see it: only the display name
and the mentions can differ from what was delivered. -/
def Normalised (env env' : MessageEnvelope) : Prop :=
  ∃ displayName mentions, env' = { env with displayName := displayName, mentions := mentions }

lemma ingest_ok (h : (ingest prim mp m lim st env).2 = .ok r) :
    ∃ channel env', ChannelRepo.getById st env.channelId = some channel ∧
      (env.body.getD "").utf8ByteSize ≤ maxMessageBodySize ∧
      (checkPermissions mp lim st (truncateDisplayName env) channel m.now).2 = .ok env' ∧
      route prim mp m st env' channel = .ok r := by
  unfold ingest at h
  split at h
  · cases h
  next channel hc =>
    split_ifs at h with hs
    obtain ⟨env',he,h⟩ := bind_ok h
    exact ⟨channel,env',hc,Nat.le_of_not_lt hs,he,h⟩

lemma ingest_of_ok (hc : ChannelRepo.getById st env.channelId = some channel)
    (hs : (env.body.getD "").utf8ByteSize ≤ maxMessageBodySize)
    (hp : (checkPermissions mp lim st (truncateDisplayName env) channel m.now).2 = .ok env') :
    (ingest prim mp m lim st env).2 = route prim mp m st env' channel := by
  simp [ingest,hc,if_neg (Nat.not_lt.mpr hs),hp]

lemma checkPermissions_normalised
    (h : (checkPermissions mp lim st (truncateDisplayName env) channel now).2 = .ok env') :
    Normalised env env' := by
  cases hr : mp.permissionResolver with
  | none =>
    simp only [checkPermissions,hr] at h
    cases h
    exact ⟨_,env.mentions,rfl⟩
  | some rv =>
    obtain ⟨-,-,ha⟩ := (checkPermissions_ok hr).mp h
    obtain ⟨-,-,rfl⟩ := accessGate_ok.mp ha
    exact ⟨_,_,stripMentions_fields⟩

lemma requireTargetInChannel_ok {ch : String} {og : Message} :
    requireTargetInChannel st th ch = .ok og ↔ getByHash st th = some og ∧ og.channelId = ch := by
  unfold requireTargetInChannel
  cases getByHash st th with
  | none => simp
  | some o =>
    simp only
    split_ifs with h
    · constructor
      · intro e
        cases e
        exact ⟨rfl,h⟩
      rintro ⟨e,-⟩
      cases e
      rfl
    · simp only [Option.some.injEq,false_iff,not_and]
      rintro rfl
      exact h

lemma requireTarget_ok {kind : String} :
    requireTarget env kind = .ok th ↔ env.target = some th := by
  unfold requireTarget
  cases env.target <;> simp

lemma target_ok {A : Type} {text : String} {f : String → Message → Py A} {a : A}
    (h : (requireTarget env text >>= fun th =>
      requireTargetInChannel st th env.channelId >>= f th) = .ok a) :
    ∃ th o, env.target = some th ∧ getByHash st th = some o ∧ o.channelId = env.channelId ∧
      f th o = .ok a := by
  obtain ⟨th,ht,h⟩ := bind_ok h
  obtain ⟨o,ho,h⟩ := bind_ok h
  obtain ⟨ho,hch⟩ := requireTargetInChannel_ok.mp ho
  exact ⟨th,o,requireTarget_ok.mp ht,ho,hch,h⟩

lemma processEdit_ok (h : processEdit prim mp m st env = .ok r) : ∃ th o channel b t,
      env.target = some th ∧ getByHash st th = some o ∧
      o.channelId = env.channelId ∧ o.senderHash = some env.senderHash ∧
      ChannelRepo.getById st env.channelId = some channel ∧
      sealForOrigin prim.aesGcm channel env.body mp.sealedManager m.gcmNonce = .ok b ∧
      st.messages.insert? (editRow prim mp m env th b) = some t ∧
      o.editChain.length < maxEditChainLength ∧ r.1 = editRow prim mp m env th b ∧
      r.2 = MessageRepo.update { st with messages := t } th
        (applyEdit (editRow prim mp m env th b).msgHash b) applyEdit_msgHash := by
  obtain ⟨th,o,ht,ho,hch,h⟩ := target_ok h
  split at h
  · cases h
  next hs =>
  split at h
  · cases h
  next channel hc =>
    obtain ⟨b,hb,h⟩ := bind_ok h
    obtain ⟨st',hi,h⟩ := bind_ok h
    obtain ⟨-,t,hin,rfl⟩ := insert_ok hi
    split_ifs at h with hl
    cases h
    exact ⟨th,o,channel,b,t,ht,ho,hch,not_not.mp hs,hc,hb,hin,Nat.lt_of_not_le hl,rfl,rfl⟩

lemma processDelete_store (h : processDelete m st env = .ok r) : ∃ th o entry,
      env.target = some th ∧ getByHash st th = some o ∧ o.channelId = env.channelId ∧
      r.2 = AuditLogRepo.log (softDelete st th env.senderHash) entry := by
  obtain ⟨th,o,ht,ho,hch,h⟩ := target_ok h
  cases h
  exact ⟨th,o,_,ht,ho,hch,rfl⟩

lemma processDelete_ok (h : processDelete m st env = .ok r) : ∃ th o,
      env.target = some th ∧ getByHash st th = some o ∧ o.channelId = env.channelId ∧
      r.2.messages = (softDelete st th env.senderHash).messages := by
  obtain ⟨th,o,entry,ht,ho,hch,hr⟩ := processDelete_store h
  exact ⟨th,o,ht,ho,hch,by rw [hr]; rfl⟩

lemma processPin_store (h : processPin prim mp m st env channel = .ok r) : ∃ th o seq b t,
      env.target = some th ∧ getByHash st th = some o ∧ o.channelId = env.channelId ∧
      sealForOrigin prim.aesGcm channel (some (pinText env (!o.pinned))) mp.sealedManager
        m.gcmNonce = .ok b ∧ (setPinned st th (!o.pinned) m.now).messages.insert?
        (pinNotice prim mp m env seq b) = some t ∧ r.1 = pinNotice prim mp m env seq b ∧
      r.2 = { ChannelRepo.bumpSeq (setPinned st th (!o.pinned) m.now)
        env.channelId with messages := t } := by
  obtain ⟨th,o,ht,ho,hch,h⟩ := target_ok h
  obtain ⟨⟨seq,st₂⟩,hs,h⟩ := bind_ok h
  obtain ⟨c,-,-,rfl⟩ := ChannelRepo.incrementSeq_ok.mp hs
  obtain ⟨b,hb,h⟩ := bind_ok h
  obtain ⟨st₃,hi,h⟩ := bind_ok h
  obtain ⟨-,t,hin,rfl⟩ := insert_ok hi
  cases h
  exact ⟨th,o,seq,b,t,ht,ho,hch,hb,hin,rfl,rfl⟩

lemma processPin_ok (h : processPin prim mp m st env channel = .ok r) : ∃ th o seq b t,
      env.target = some th ∧ getByHash st th = some o ∧ o.channelId = env.channelId ∧
      (setPinned st th (!o.pinned) m.now).messages.insert?
        (pinNotice prim mp m env seq b) = some t ∧
      r.1 = pinNotice prim mp m env seq b ∧ r.2.messages = t := by
  obtain ⟨th,o,seq,b,t,ht,ho,hch,-,hi,hro,hr⟩ := processPin_store h
  exact ⟨th,o,seq,b,t,ht,ho,hch,hi,hro,congrArg Store.messages hr⟩

lemma processReaction_ok (h : processReaction st env = .ok r) : ∃ th og,
      env.target = some th ∧ getByHash st th = some og ∧
      og.channelId = env.channelId ∧ (r.2 = st ∨ ∃ rs, r.2 = MessageRepo.update st th
        (fun o => { o with reactions := setReaction (env.body.getD "") rs o.reactions })
        fun _ => rfl) := by
  obtain ⟨th,og,ht,ho,hch,h⟩ := target_ok h
  refine ⟨th,og,ht,ho,hch,?_⟩
  simp only at h
  split_ifs at h
  split at h
  · split_ifs at h <;> cases h <;> exact .inl rfl
  · cases h
    exact .inr ⟨_,rfl⟩

lemma assignSeq_ok {st' : Store} {seq threadSeq : Option ℕ}
    (h : assignSeq st env now = .ok (seq, threadSeq, st')) :
    st'.messages = st.messages ∧ (seq.isSome ↔ threadRoot env = none) := by
  unfold assignSeq at h
  split at h
  next root hr =>
    obtain ⟨⟨n,st₁⟩,h₁,h⟩ := bind_ok h
    obtain ⟨st₂,h₂,h⟩ := bind_ok h
    cases h
    have hm : st'.messages = st₁.messages := by
      unfold updateThreadMetadata at h₂
      split at h₂
      · cases h₂
        rfl
      unfold SequenceManager.insertThread at h₂
      split at h₂ <;> cases h₂
      rfl
    exact ⟨hm.trans (SequenceManager.nextThreadSeq_messages h₁),by simp [hr]⟩
  next hr =>
    obtain ⟨⟨n,st₁⟩,h₁,h⟩ := bind_ok h
    obtain ⟨c,-,-,rfl⟩ := ChannelRepo.incrementSeq_ok.mp h₁
    cases h
    exact ⟨rfl,by simp [hr]⟩

@[simp] lemma rememberSender_messages (env : MessageEnvelope) (now : ℚ) :
    (rememberSender st env now).messages = st.messages := by
  unfold rememberSender
  split
  · exact IdentityRepo.upsert_messages ..
  · rfl

lemma storeMessage_stored (h : storeMessage prim mp m st env channel = .ok r) :
    (getByHash st (env.computeHash prim) = some r.1 ∧ r.2 = st) ∨ ∃ seq threadSeq st₁ b t,
        getByHash st (env.computeHash prim) = none ∧
        assignSeq st env m.now = .ok (seq, threadSeq, st₁) ∧
        sealForOrigin prim.aesGcm channel env.body mp.sealedManager m.gcmNonce = .ok b ∧
        st.messages.insert? (messageRow prim mp m env seq threadSeq b) = some t ∧
        r.1 = messageRow prim mp m env seq threadSeq b ∧
        r.2 = rememberSender { st₁ with messages := t } env m.now := by
  unfold storeMessage at h
  split at h
  next existing he =>
    cases h
    exact .inl ⟨he,rfl⟩
  next hn =>
    obtain ⟨⟨seq,threadSeq,st₁⟩,hs,h⟩ := bind_ok h
    obtain ⟨b,hb,h⟩ := bind_ok h
    obtain ⟨st₂,hi,h⟩ := bind_ok h
    obtain ⟨-,t,hin,rfl⟩ := insert_ok hi
    cases h
    rw [(assignSeq_ok hs).1] at hin
    exact .inr ⟨seq,threadSeq,st₁,b,t,hn,hs,hb,hin,rfl,rfl⟩

lemma storeMessage_ok (h : storeMessage prim mp m st env channel = .ok r) :
    (getByHash st (env.computeHash prim) = some r.1 ∧ r.2 = st) ∨ ∃ seq threadSeq b t,
        getByHash st (env.computeHash prim) = none ∧ (seq.isSome ↔ threadRoot env = none) ∧
        sealForOrigin prim.aesGcm channel env.body mp.sealedManager m.gcmNonce = .ok b ∧
        st.messages.insert? (messageRow prim mp m env seq threadSeq b) = some t ∧
        r.1 = messageRow prim mp m env seq threadSeq b ∧ r.2.messages = t := by
  obtain hd | ⟨seq,threadSeq,st₁,b,t,hn,hs,hb,hi,hro,hr⟩ := storeMessage_stored h
  · exact .inl hd
  refine .inr ⟨seq,threadSeq,b,t,hn,(assignSeq_ok hs).2,hb,hi,hro,?_⟩
  rw [hr]
  exact rememberSender_messages ..

inductive RowChange (prim : Primitives) (mp : Processor) (m : Moment) (env : MessageEnvelope)
    (row : Message) : Message → Prop
  | kept : RowChange prim mp m env row row
  | edited {channel : Channel} {editHash : String} {b : StoredBody} :
      env.type = msgEdit → env.target = some row.msgHash → row.channelId = env.channelId →
      row.senderHash = some env.senderHash →
      sealForOrigin prim.aesGcm channel env.body mp.sealedManager m.gcmNonce = .ok b →
      RowChange prim mp m env row (applyEdit editHash b row)
  | deleted : RowChange prim mp m env row
      { row with
        deleted := true, deletedBy := some env.senderHash, body := none, mediaPath := none }
  | pinned (pinned : Bool) (pinnedAt : Option ℚ) :
      RowChange prim mp m env row { row with pinned := pinned, pinnedAt := pinnedAt }
  | reacted (reactions : List (String × Reaction)) :
      RowChange prim mp m env row { row with reactions := reactions }

lemma getByHash_update {st' : Store} {k : String} {hf : ∀ q, (f q).msgHash = q.msgHash}
    (hst : st'.messages = (MessageRepo.update st k f hf).messages)
    (hr : getByHash st h = some row) :
    getByHash st' h = some (if h = k then f row else row) := by
  have hg : getByHash st' h =
      if h = k then (getByHash st h).map f else getByHash st h := by
    unfold getByHash
    rw [hst]
    exact Table.get?_update st.messages k f hf h
  rw [hg,hr]
  split_ifs <;> rfl

inductive Rewrites (prim : Primitives) (mp : Processor) (m : Moment) (env : MessageEnvelope)
    (row : Message) : Message → Prop
  | edited {channel : Channel} {editHash : String} {b : StoredBody} :
      env.type = msgEdit → row.senderHash = some env.senderHash →
      sealForOrigin prim.aesGcm channel env.body mp.sealedManager m.gcmNonce = .ok b →
      Rewrites prim mp m env row (applyEdit editHash b row)
  | deleted : env.type = msgDelete → Rewrites prim mp m env row
      { row with
        deleted := true, deletedBy := some env.senderHash, body := none, mediaPath := none }
  | pinned (pinned : Bool) (pinnedAt : Option ℚ) : env.type = msgPin →
      Rewrites prim mp m env row { row with pinned := pinned, pinnedAt := pinnedAt }
  | reacted (reactions : List (String × Reaction)) : env.type = msgReaction →
      Rewrites prim mp m env row { row with reactions := reactions }

lemma route_target (hro : route prim mp m st env channel = .ok r)
    (hrow : getByHash st h = some row) : ∃ row', getByHash r.2 h = some row' ∧
      (row' = row ∨ env.target = some h ∧ row.channelId = env.channelId ∧
        Rewrites prim mp m env row row') := by
  -- The row that a handler loaded under the hash is this one.
  have hs : ∀ {k : String} {o : Message}, h = k → getByHash st k = some o → row = o := by
    intro k o hk ho
    rw [← hk,hrow] at ho
    exact Option.some.inj ho
  unfold route at hro
  split_ifs at hro with he hd hpi hre
  · obtain ⟨k,o,c,b,t,ht,ho,hch,ha,-,hb,hi,-,-,hr⟩ :=
      processEdit_ok hro
    have hr' : getByHash { st with messages := t } h = some row :=
      Table.get?_insert?_of_some hi hrow
    refine ⟨_,getByHash_update (congrArg Store.messages hr) hr',?_⟩
    split_ifs with hk
    · obtain rfl := hs hk ho
      exact .inr ⟨by rw [ht,hk],hch,.edited he ha hb⟩
    · exact .inl rfl
  · obtain ⟨k,o,ht,ho,hch,hr⟩ := processDelete_ok hro
    refine ⟨_,getByHash_update hr hrow,?_⟩
    split_ifs with hk
    · obtain rfl := hs hk ho
      exact .inr ⟨by rw [ht,hk],hch,.deleted hd⟩
    · exact .inl rfl
  · obtain ⟨k,o,seq,b,t,ht,ho,hch,hi,-,rfl⟩ := processPin_ok hro
    have hp : getByHash (setPinned st k (!o.pinned) m.now) h = _ := getByHash_update rfl hrow
    refine ⟨_,Table.get?_insert?_of_some hi hp,?_⟩
    by_cases hk : h = k
    · obtain rfl := hs hk ho
      rw [if_pos hk]
      exact .inr ⟨by rw [ht,hk],hch,.pinned _ _ hpi⟩
    · rw [if_neg hk]
      exact .inl rfl
  · obtain ⟨k,o,ht,ho,hch,hr | ⟨rs,hr⟩⟩ := processReaction_ok hro
    · rw [hr]
      exact ⟨row,hrow,.inl rfl⟩
    refine ⟨_,getByHash_update (congrArg Store.messages hr) hrow,?_⟩
    split_ifs with hk
    · obtain rfl := hs hk ho
      exact .inr ⟨by rw [ht,hk],hch,.reacted _ hre⟩
    · exact .inl rfl
  · obtain ⟨-,hr⟩ | ⟨seq,threadSeq,b,t,-,-,-,hi,-,rfl⟩ := storeMessage_ok hro
    · rw [hr]
      exact ⟨row,hrow,.inl rfl⟩
    · exact ⟨row,Table.get?_insert?_of_some hi hrow,.inl rfl⟩

lemma route_row (hro : route prim mp m st env channel = .ok r) (hrow : getByHash st h = some row) :
    ∃ row', getByHash r.2 h = some row' ∧ RowChange prim mp m env row row' := by
  have hh : row.msgHash = h := Table.get?_key hrow
  obtain ⟨row',hr',rfl | ⟨ht,hch,hr⟩⟩ := route_target hro hrow
  · exact ⟨row',hr',.kept⟩
  refine ⟨row',hr',?_⟩
  cases hr with
  | edited hty ha hb => exact .edited hty (by rw [ht,hh]) hch ha hb
  | deleted => exact .deleted
  | pinned => exact .pinned _ _
  | reacted => exact .reacted _

inductive ChannelWrites (channelId : String) :
    Table msgHash → Table msgHash → Prop
  | refl (s : Table msgHash) : ChannelWrites channelId s s
  | insert {s t u : Table msgHash} {row : Message} :
      ChannelWrites channelId s t → t.insert? row = some u → row.channelId = channelId →
      ChannelWrites channelId s u
  | update {s t : Table msgHash} {targetHash : String} {row : Message}
      {f : Message → Message} (hf : ∀ q, (f q).msgHash = q.msgHash) :
      ChannelWrites channelId s t → t.get? targetHash = some row →
      row.channelId = channelId → (f row).channelId = channelId →
      ChannelWrites channelId s (t.update targetHash f hf)

lemma ChannelWrites.filter_eq {ch other : String} (ho : other ≠ ch)
    {s t : Table msgHash} (h : ChannelWrites ch s t) :
    t.rows.filter (fun q => q.channelId = other) =
      s.rows.filter (fun q => q.channelId = other) := by
  induction h with
  | refl => rfl
  | insert _ hi hc ih =>
    rw [Table.filter_insert? hi,ih]
    simpa [hc] using ho.symm
  | update hf _ hg hc hfc ih =>
    rw [Table.filter_update,ih]
    intro q hq
    rw [hg] at hq
    cases hq
    exact ⟨by simpa [hc] using ho.symm,by simpa [hfc] using ho.symm⟩

lemma ChannelWrites.of_update {ch : String} {s : Table msgHash}
    {hf : ∀ q, (f q).msgHash = q.msgHash}
    (h : ChannelWrites ch s st.messages) (hr : getByHash st th = some row) (hc : row.channelId = ch)
    (hfc : (f row).channelId = ch) : ChannelWrites ch s (MessageRepo.update st th f hf).messages :=
  .update hf h hr hc hfc

lemma route_writes (h : route prim mp m st env channel = .ok r) :
    ChannelWrites env.channelId st.messages r.2.messages := by
  unfold route at h
  split_ifs at h
  · obtain ⟨th,o,_,b,t,-,ho,hch,-,-,-,hi,-,-,hr⟩ := processEdit_ok h
    rw [hr]
    have hw : ChannelWrites env.channelId st.messages t := .insert (.refl _) hi rfl
    have ht : getByHash { st with messages := t } th = some o :=
      Table.get?_insert?_of_some hi ho
    exact hw.of_update ht hch hch
  · obtain ⟨th,o,-,ho,hch,hr⟩ := processDelete_ok h
    rw [hr]
    exact (ChannelWrites.refl _).of_update ho hch hch
  · obtain ⟨th,o,seq,b,t,-,ho,hch,hi,-,rfl⟩ := processPin_ok h
    exact .insert ((ChannelWrites.refl _).of_update ho hch hch) hi rfl
  · obtain ⟨th,o,-,ho,hch,hr | ⟨rs,hr⟩⟩ := processReaction_ok h
    · rw [hr]
      exact .refl _
    · rw [hr]
      exact (ChannelWrites.refl _).of_update ho hch hch
  · obtain ⟨-,hr⟩ | ⟨seq,threadSeq,b,t,-,-,-,hi,-,rfl⟩ := storeMessage_ok h
    · rw [hr]
      exact .refl _
    · exact .insert (.refl _) hi rfl

end Hokora.MessageProcessor
