import Hokora.WriteAuthorisation

/-!
# What an accepted envelope may touch

Which rows, threads and channels an envelope can change, and for whom.
-/
namespace Hokora.WriteFrames
open Constants Database KeyedTable MessageProcessor Permissions PyValue RateLimit Repositories
  SealedChannels WriteAuthorisation
open ChannelRepo (bumpSeq getById incrementSeq_ok)
open MessageRepo (getByHash)
open SequenceManager (insertThread nextThreadSeq updateThread)

section
variable {prim : Primitives} {mp : Processor} {m : Moment} {lim : Option RateLimiter}
  {st st' : Store} {env : MessageEnvelope} {channel : Channel} {perms : Perms}
  {r : Message × Store} {row row' : Message}

def storedBody (row : Message) : StoredBody :=
  ⟨row.body,row.encryptedBody,row.encryptionNonce,row.encryptionEpoch⟩

/-- The sender may delete this row. -/
def DeleteAllowed (perms : Perms) (env : MessageEnvelope) (row : Message) : Prop :=
  (row.senderHash = some env.senderHash ∧ perms.has permDeleteOwn = true) ∨
    perms.has permDeleteOthers = true

structure Authorised (perms : Perms) (env : MessageEnvelope) (row row' : Message) : Prop where
  channel : row' ≠ row → row.channelId = env.channelId
  text : storedBody row' ≠ storedBody row →
    (env.type = msgEdit ∧ row.senderHash = some env.senderHash ∧ perms.has permEditOwn = true) ∨
      env.type = msgDelete
  mark : row'.deleted ≠ row.deleted → env.type = msgDelete
  pin : (row'.pinned, row'.pinnedAt) ≠ (row.pinned, row.pinnedAt) →
    env.type = msgPin ∧ perms.has permPinMessages = true
  reactions : row'.reactions ≠ row.reactions →
    env.type = msgReaction ∧ perms.has permAddReactions = true
  sender : row'.senderHash = row.senderHash
  timestamp : row'.timestamp = row.timestamp
  seq : row'.seq = row.seq
  msgHash : row'.msgHash = row.msgHash

lemma Authorised.refl (perms : Perms) (env : MessageEnvelope) (row : Message) :
    Authorised perms env row row :=
  ⟨fun h => absurd rfl h,fun h => absurd rfl h,fun h => absurd rfl h,fun h => absurd rfl h,
    fun h => absurd rfl h,rfl,rfl,rfl,rfl⟩

lemma Authorised.of_normalised {env' : MessageEnvelope} (hn : Normalised env env')
    (h : Authorised perms env' row row') : Authorised perms env row row' := by
  obtain ⟨_,_,rfl⟩ := hn
  exact ⟨h.channel,h.text,h.mark,h.pin,h.reactions,h.sender,h.timestamp,h.seq,h.msgHash⟩

lemma typeGate_edit (ht : env.type = msgEdit) (h : typeGate st env perms = .ok ()) :
    perms.has permEditOwn = true := by
  have hg : typeGate st env perms = editGate st env perms := by
    unfold typeGate
    rw [ht]
    rfl
  rw [hg] at h
  obtain ⟨_,hp,-⟩ := bind_ok h
  exact requirePerm_ok.mp hp

lemma typeGate_pin (ht : env.type = msgPin) (h : typeGate st env perms = .ok ()) :
    perms.has permPinMessages = true := by
  have hg : typeGate st env perms = requirePerm perms permPinMessages "PIN_MESSAGES" := by
    unfold typeGate
    rw [ht]
    rfl
  exact requirePerm_ok.mp (hg ▸ h)

lemma typeGate_reaction (ht : env.type = msgReaction) (h : typeGate st env perms = .ok ()) :
    perms.has permAddReactions = true := by
  have hg : typeGate st env perms = requirePerm perms permAddReactions "ADD_REACTIONS" := by
    unfold typeGate
    rw [ht]
    rfl
  exact requirePerm_ok.mp (hg ▸ h)

lemma typeGate_delete {th : String} (ht : env.type = msgDelete)
    (h : typeGate st env perms = .ok ()) (hta : env.target = some th)
    (hr : getByHash st th = some row) : DeleteAllowed perms env row := by
  have hg : typeGate st env perms = deleteGate st env perms := by
    unfold typeGate
    rw [ht]
    rfl
  rw [hg,deleteGate,hta,Option.bind_some,hr] at h
  simp only at h
  split_ifs at h with ha
  · exact .inl ⟨ha,requirePerm_ok.mp h⟩
  · exact .inr (requirePerm_ok.mp h)

lemma rewrites_authorised (hch : row.channelId = env.channelId)
    (hg : typeGate st env perms = .ok ()) (h : Rewrites prim mp m env row row') :
    Authorised perms env row row' := by
  cases h with
  | edited ht ha _ =>
    exact { Authorised.refl perms env row with
      channel := fun _ => hch
      text := fun _ => .inl ⟨ht,ha,typeGate_edit ht hg⟩
      mark := fun hne => absurd rfl hne
      pin := fun hne => absurd rfl hne
      reactions := fun hne => absurd rfl hne }
  | deleted ht =>
    exact { Authorised.refl perms env row with
      channel := fun _ => hch
      text := fun _ => .inr ht
      mark := fun _ => ht
      pin := fun hne => absurd rfl hne
      reactions := fun hne => absurd rfl hne }
  | pinned _ _ ht =>
    exact { Authorised.refl perms env row with
      channel := fun _ => hch
      text := fun hne => absurd rfl hne
      mark := fun hne => absurd rfl hne
      pin := fun _ => ⟨ht,typeGate_pin ht hg⟩
      reactions := fun hne => absurd rfl hne }
  | reacted _ ht =>
    exact { Authorised.refl perms env row with
      channel := fun _ => hch
      text := fun hne => absurd rfl hne
      mark := fun hne => absurd rfl hne
      pin := fun hne => absurd rfl hne
      reactions := fun _ => ⟨ht,typeGate_reaction ht hg⟩ }

lemma ingest_gated {rv : PermissionResolver} (hr : mp.permissionResolver = some rv)
    (h : (ingest prim mp m lim st env).2 = .ok r) :
    ∃ channel env', getById st env.channelId = some channel ∧ Normalised env env' ∧
      typeGate st env' (getEffectivePermissions rv st env.senderHash channel) = .ok () ∧
      route prim mp m st env' channel = .ok r := by
  obtain ⟨channel,env',hc,-,hp,hro⟩ := ingest_ok h
  have hn := checkPermissions_normalised hp
  obtain ⟨-,-,ha⟩ := (checkPermissions_ok hr).mp hp
  obtain ⟨-,hg,-⟩ := accessGate_ok.mp ha
  refine ⟨channel,env',hc,hn,?_,hro⟩
  obtain ⟨_,_,rfl⟩ := hn
  exact hg

end

/-- Every row that was there is still there and changed at most as its author, or a holder of
the right permission, may change it; and a delete is accepted only from such a sender. -/
theorem mutation_authority (prim : Primitives) (mp : Processor) (m : Moment)
    (lim : Option RateLimiter) (st : Store) (env : MessageEnvelope)
    {resolver : PermissionResolver} {r : Message × Store}
    (hr : mp.permissionResolver = some resolver) (h : (ingest prim mp m lim st env).2 = .ok r) :
    ∃ channel, getById st env.channelId = some channel ∧
      (∀ msgHash row, getByHash st msgHash = some row → ∃ row', getByHash r.2 msgHash = some row' ∧
          Authorised (getEffectivePermissions resolver st env.senderHash channel) env row row') ∧
      (env.type = msgDelete → ∃ msgHash row, env.target = some msgHash ∧
        getByHash st msgHash = some row ∧
        DeleteAllowed (getEffectivePermissions resolver st env.senderHash channel) env row) := by
  obtain ⟨channel,env',hc,hn,hg,hro⟩ := ingest_gated hr h
  refine ⟨channel,hc,?_,?_⟩
  · intro msgHash row hrow
    obtain ⟨row',hr',rfl | ⟨-,hch,hre⟩⟩ := route_target hro hrow
    · exact ⟨row',hr',.refl _ _ _⟩
    · exact ⟨row',hr',(rewrites_authorised hch hg hre).of_normalised hn⟩
  intro hty
  obtain ⟨_,_,rfl⟩ := hn
  rw [route,if_neg (by rw [hty]; decide),if_pos hty] at hro
  obtain ⟨th,o,ht,ho,-,-⟩ := processDelete_ok hro
  exact ⟨th,o,ht,ho,typeGate_delete hty hg ht ho⟩

def sampleRow : Message :=
  { msgHash := "root", channelId := "lobby", senderHash := some "alice", seq := some 1,
    timestamp := .fin 1, type := msgText, body := some "hello" }

def sampleThreads : Store :=
  { channels := (Table.singleton { id := "lobby", latestSeq := 1 }).set { id := "board" }
    messages := .singleton sampleRow
    roles := .singleton { id := "e", name := roleEveryone, permissions := permAll }
    threads := .singleton
      { rootMsgHash := "root", channelId := "lobby", replyCount := 1, latestThreadSeq := 1,
        participantHashes := ["bob"] } }

def ownEdit : MessageEnvelope :=
  { channelId := "lobby", senderHash := "alice", timestamp := .fin 2, type := msgEdit,
    body := some "goodbye", replyTo := some "root" }

theorem ownEdit_authorised :
    ∃ r channel row', (ingest samplePrimitives sampleProcessor ⟨2,[]⟩ none sampleThreads
        ownEdit).2 = .ok r ∧ getByHash r.2 "root" = some row' ∧
      Authorised (getEffectivePermissions ⟨"owner"⟩ sampleThreads "alice" channel) ownEdit
        sampleRow row' := by
  obtain ⟨r,hok⟩ := toOption_isSome.mp (show (ingest samplePrimitives sampleProcessor
    ⟨2,[]⟩ none sampleThreads ownEdit).2.toOption.isSome by decide +kernel)
  obtain ⟨channel,-,hr,-⟩ := mutation_authority samplePrimitives sampleProcessor ⟨2,[]⟩ none
    sampleThreads ownEdit rfl hok
  obtain ⟨row',hr',ha⟩ := hr "root" sampleRow (by decide)
  exact ⟨r,channel,row',hok,hr',ha⟩

def threadsOf (st : Store) (channelId : String) : List Thread :=
  st.threads.rows.filter fun t => t.channelId = channelId

structure Isolated (st st' : Store) (channelId : String) : Prop where
  messages : ∀ other, other ≠ channelId → st'.channelMessages other = st.channelMessages other
  threads : ∀ other, other ≠ channelId → threadsOf st' other = threadsOf st other
  counters : ∀ other, other ≠ channelId → getById st' other = getById st other

/-- A new reply whose root has a thread in another channel. -/
def ForeignThread (prim : Primitives) (st : Store) (env : MessageEnvelope) : Prop :=
  getByHash st (env.computeHash prim) = none ∧
    ∃ root t, threadRoot env = some root ∧ st.threads.get? root = some t ∧
      t.channelId ≠ env.channelId

section
variable {prim : Primitives} {mp : Processor} {m : Moment} {lim : Option RateLimiter}
  {st st' : Store} {env : MessageEnvelope} {channel : Channel} {r : Message × Store}

lemma rememberSender_eq (st : Store) (env : MessageEnvelope) (now : ℚ) :
    ∃ identities, rememberSender st env now = { st with identities := identities } := by
  unfold rememberSender IdentityRepo.upsert
  split
  · split <;> exact ⟨_,rfl⟩
  · exact ⟨_,rfl⟩

variable {threadSeq : Option ℕ} {other root : String} {t : Thread} {now : ℚ}

lemma getById_bumpSeq_other {ch : String} (h : other ≠ ch) : getById (bumpSeq st ch) other =
      getById st other := by
  rw [ChannelRepo.getById_bumpSeq,if_neg h]

variable {f : Thread → Thread} {seq : Option ℕ}

lemma threadsOf_updateThread {hf : ∀ t, (f t).rootMsgHash = t.rootMsgHash}
    (hch : ∀ t, (f t).channelId = t.channelId)
    (h : ∀ t, st.threads.get? root = some t → t.channelId ≠ other) :
    threadsOf (updateThread st root f hf) other = threadsOf st other := by
  refine Table.filter_update hf fun t ht => ?_
  simp [hch,h t ht]

lemma get?_updateThread {hf : ∀ t, (f t).rootMsgHash = t.rootMsgHash}
    (h : st.threads.get? root = some t) :
    (updateThread st root f hf).threads.get? root = some (f t) := by
  have hg := Table.get?_update st.threads root f hf root
  rw [if_pos rfl,h] at hg
  exact hg

lemma insertThread_ok (h : insertThread st t = .ok st') :
    ∃ threads, st.threads.insert? t = some threads ∧ st' = { st with threads := threads } := by
  unfold insertThread at h
  split at h
  next ht =>
    cases h
    exact ⟨_,ht,rfl⟩
  · cases h

lemma threadsOf_insertThread (h : insertThread st t = .ok st')
    (ht : t.channelId ≠ other) : threadsOf st' other = threadsOf st other := by
  obtain ⟨threads,hi,rfl⟩ := insertThread_ok h
  exact Table.filter_insert? hi (by simpa using ht)

lemma nextThreadSeq_eq {ch : String} {n : ℕ} (h : nextThreadSeq st root ch now = .ok (n, st')) :
    ∃ threads, st' = { st with threads := threads } := by
  unfold nextThreadSeq at h
  split at h
  · cases h
    exact ⟨_,rfl⟩
  obtain ⟨st₁,hi,h⟩ := bind_ok h
  cases h
  obtain ⟨threads,-,rfl⟩ := insertThread_ok hi
  exact ⟨threads,rfl⟩

lemma updateThreadMetadata_eq (h : updateThreadMetadata st env root now = .ok st') :
    ∃ threads, st' = { st with threads := threads } := by
  unfold updateThreadMetadata at h
  split at h
  · cases h
    exact ⟨_,rfl⟩
  · obtain ⟨threads,-,rfl⟩ := insertThread_ok h
    exact ⟨threads,rfl⟩

lemma assignSeq_eq (h : assignSeq st env now = .ok (seq, threadSeq, st')) :
    (∃ threads, st' = { st with threads := threads }) ∨ st' = bumpSeq st env.channelId := by
  unfold assignSeq at h
  split at h
  · obtain ⟨⟨n,st₁⟩,hn,h⟩ := bind_ok h
    obtain ⟨st₂,hm,h⟩ := bind_ok h
    cases h
    obtain ⟨threads₁,rfl⟩ := nextThreadSeq_eq hn
    obtain ⟨threads₂,rfl⟩ := updateThreadMetadata_eq hm
    exact .inl ⟨threads₂,rfl⟩
  · obtain ⟨⟨n,st₁⟩,hn,h⟩ := bind_ok h
    obtain ⟨c,-,-,rfl⟩ := incrementSeq_ok.mp hn
    cases h
    exact .inr rfl

lemma nextThreadSeq_threads {ch : String} {n : ℕ}
    (h : nextThreadSeq st root ch now = .ok (n, st')) : (∃ t, st'.threads.get? root = some t ∧
        ((∃ old, st.threads.get? root = some old ∧ t.channelId = old.channelId ∧
            t.latestThreadSeq = old.latestThreadSeq + 1) ∨
          (st.threads.get? root = none ∧ t.channelId = ch))) ∧
      ∀ other, other ≠ ch → (∀ t, st.threads.get? root = some t → t.channelId ≠ other) →
        threadsOf st' other = threadsOf st other := by
  unfold nextThreadSeq at h
  split at h
  next old hol =>
    cases h
    refine ⟨⟨_,get?_updateThread hol,.inl ⟨old,hol,rfl,rfl⟩⟩,?_⟩
    intro other _ ho
    exact threadsOf_updateThread (fun _ => rfl) ho
  next hn =>
    obtain ⟨st₁,hi,h⟩ := bind_ok h
    cases h
    constructor
    · obtain ⟨threads,ht,rfl⟩ := insertThread_ok hi
      exact ⟨_,(Table.get?_insert? ht root).trans (if_pos rfl),.inr ⟨hn,rfl⟩⟩
    · intro other hne _
      exact threadsOf_insertThread hi (Ne.symm hne)

lemma updateThreadMetadata_threads (ht : st.threads.get? root = some t)
    (h : updateThreadMetadata st env root now = .ok st') :
    (∃ t', st'.threads.get? root = some t' ∧ t'.latestThreadSeq = t.latestThreadSeq) ∧
      ∀ other, t.channelId ≠ other → threadsOf st' other = threadsOf st other := by
  unfold updateThreadMetadata at h
  rw [ht] at h
  cases h
  refine ⟨⟨_,get?_updateThread ht,rfl⟩,?_⟩
  intro other ho
  refine threadsOf_updateThread (fun _ => rfl) fun q hq => ?_
  rw [ht] at hq
  cases hq
  exact ho

lemma assignSeq_threads (h : assignSeq st env now = .ok (seq, threadSeq, st')) :
    (∀ other, other ≠ env.channelId →
        (∀ root t, threadRoot env = some root → st.threads.get? root = some t →
          t.channelId ≠ other) → threadsOf st' other = threadsOf st other) ∧
      ∀ root t, threadRoot env = some root → st.threads.get? root = some t →
        ∃ t', st'.threads.get? root = some t' ∧ t'.latestThreadSeq = t.latestThreadSeq + 1 := by
  unfold assignSeq at h
  split at h
  next root hr =>
    obtain ⟨⟨n,st₁⟩,hn,h⟩ := bind_ok h
    obtain ⟨st₂,hm,h⟩ := bind_ok h
    cases h
    obtain ⟨⟨t₁,ht₁,ho⟩,hothers₁⟩ := nextThreadSeq_threads hn
    obtain ⟨⟨t₂,ht₂,hseq₂⟩,hothers₂⟩ := updateThreadMetadata_threads ht₁ hm
    refine ⟨fun other hne hot => ?_,?_⟩
    · have hf : t₁.channelId ≠ other := by
        rcases ho with ⟨old,hol,hch,-⟩ | ⟨-,hch⟩
        · rw [hch]
          exact hot root old hr hol
        · rw [hch]
          exact Ne.symm hne
      rw [hothers₂ other hf,hothers₁ other hne fun t ht => hot root t hr ht]
    intro root' t hr' ht
    rw [hr] at hr'
    cases hr'
    refine ⟨t₂,ht₂,?_⟩
    rcases ho with ⟨old,hol,-,hs⟩ | ⟨hno,-⟩
    · rw [ht] at hol
      cases hol
      rw [hseq₂,hs]
    · rw [ht] at hno
      cases hno
  next hr =>
    obtain ⟨⟨n,st₁⟩,hn,h⟩ := bind_ok h
    obtain ⟨c,-,-,rfl⟩ := incrementSeq_ok.mp hn
    cases h
    refine ⟨fun _ _ _ => rfl,?_⟩
    intro root _ hr'
    rw [hr] at hr'
    cases hr'

lemma assignSeq_counters (h : assignSeq st env now = .ok (seq, threadSeq, st'))
    (hne : other ≠ env.channelId) :
    getById st' other = getById st other := by
  obtain ⟨threads,rfl⟩ | rfl := assignSeq_eq h
  · rfl
  · exact getById_bumpSeq_other hne

lemma route_frame (h : route prim mp m st env channel = .ok r) : (∀ other, other ≠ env.channelId →
        getById r.2 other = getById st other) ∧ (¬ ForeignThread prim st env →
        ∀ other, other ≠ env.channelId → threadsOf r.2 other = threadsOf st other) := by
  unfold route at h
  split_ifs at h
  · obtain ⟨_,_,_,_,_,-,-,-,-,-,-,-,-,-,hr⟩ := processEdit_ok h
    rw [hr]
    exact ⟨fun _ _ => rfl,fun _ _ _ => rfl⟩
  · obtain ⟨_,_,_,-,-,-,hr⟩ := processDelete_store h
    rw [hr]
    exact ⟨fun _ _ => rfl,fun _ _ _ => rfl⟩
  · obtain ⟨_,_,_,_,_,-,-,-,-,-,-,hr⟩ := processPin_store h
    rw [hr]
    exact ⟨fun _ hne => getById_bumpSeq_other hne,fun _ _ _ => rfl⟩
  · obtain ⟨_,_,-,-,-,hr | ⟨_,hr⟩⟩ := processReaction_ok h
    · rw [hr]
      exact ⟨fun _ _ => rfl,fun _ _ _ => rfl⟩
    · rw [hr]
      exact ⟨fun _ _ => rfl,fun _ _ _ => rfl⟩
  · obtain ⟨-,hr⟩ | ⟨seq,threadSeq,st₁,b,t,hn,hs,-,-,-,hr⟩ := storeMessage_stored h
    · rw [hr]
      exact ⟨fun _ _ => rfl,fun _ _ _ => rfl⟩
    obtain ⟨ht,-⟩ := assignSeq_threads hs
    have hc : ∀ other, other ≠ env.channelId → getById st₁ other = getById st other :=
      fun _ => assignSeq_counters hs
    obtain ⟨identities,hre⟩ := rememberSender_eq { st₁ with messages := t } env m.now
    rw [hr,hre]
    refine ⟨hc,fun ho other hne => ht other hne ?_⟩
    intro root q hro hq hch
    exact ho ⟨hn,root,q,hro,hq,by rw [hch]; exact hne⟩

lemma route_foreign (h : route prim mp m st env channel = .ok r) (hf : ForeignThread prim st env) :
    ∃ other, other ≠ env.channelId ∧ threadsOf r.2 other ≠ threadsOf st other := by
  obtain ⟨hn,root,t,hro,ht,hne⟩ := hf
  refine ⟨t.channelId,hne,fun heq => ?_⟩
  have hty : env.type = msgThreadReply := by
    unfold threadRoot at hro
    split_ifs at hro with hty
    exact hty
  have hs : storeMessage prim mp m st env channel = .ok r := by
    rw [route,if_neg (by rw [hty]; decide),if_neg (by rw [hty]; decide),
      if_neg (by rw [hty]; decide),if_neg (by rw [hty]; decide)] at h
    exact h
  obtain ⟨ho,-⟩ | ⟨seq,threadSeq,st₁,b,u,-,hse,-,-,-,hr⟩ := storeMessage_stored hs
  · rw [hn] at ho
    cases ho
  obtain ⟨-,hc⟩ := assignSeq_threads hse
  obtain ⟨t',ht',hs'⟩ := hc root t hro ht
  obtain ⟨identities,hre⟩ := rememberSender_eq { st₁ with messages := u } env m.now
  have hm : t ∈ threadsOf st t.channelId :=
    List.mem_filter.mpr ⟨Table.get?_mem ht,by simp⟩
  rw [← heq,hr,hre] at hm
  have hg : st₁.threads.get? root = some t := by
    have hrow := Table.get?_of_mem (List.mem_filter.mp hm).1
    rwa [Table.get?_key ht] at hrow
  rw [ht'] at hg
  cases hg
  omega

end

/-- An accepted envelope leaves the other channels alone exactly when it does not reply, anew,
to the root of another channel's thread. -/
theorem writes_isolated_iff (prim : Primitives) (mp : Processor) (m : Moment)
    (lim : Option RateLimiter) (st : Store) (env : MessageEnvelope) {r : Message × Store}
    (h : (ingest prim mp m lim st env).2 = .ok r) :
    Isolated st r.2 env.channelId ↔ ¬ ForeignThread prim st env := by
  obtain ⟨channel,env',-,-,hp,hr⟩ := ingest_ok h
  obtain ⟨_,_,rfl⟩ := checkPermissions_normalised hp
  constructor
  · intro hi hf
    obtain ⟨other,hne,ht⟩ := route_foreign hr hf
    exact ht (hi.threads other hne)
  intro ho
  obtain ⟨hc,ht⟩ := route_frame hr
  exact ⟨fun other hne => (route_writes hr).filter_eq hne,ht ho,hc⟩

def crossReply : MessageEnvelope :=
  { channelId := "board", senderHash := "carol", timestamp := .fin 3, type := msgThreadReply,
    body := some "over here", replyTo := some "root" }

theorem crossReply_isolated_iff :
    ∃ r, (ingest samplePrimitives sampleProcessor ⟨4,[]⟩ none sampleThreads crossReply).2 = .ok r ∧
      (Isolated sampleThreads r.2 "board" ↔
        ¬ ForeignThread samplePrimitives sampleThreads crossReply) := by
  obtain ⟨r,hok⟩ := toOption_isSome.mp (show (ingest samplePrimitives sampleProcessor
    ⟨4,[]⟩ none sampleThreads crossReply).2.toOption.isSome by decide +kernel)
  exact ⟨r,hok,writes_isolated_iff samplePrimitives sampleProcessor ⟨4,[]⟩ none sampleThreads
    crossReply hok⟩

theorem crossReply_not_isolated : (ingest samplePrimitives sampleProcessor ⟨4,[]⟩ none sampleThreads
        crossReply).2.toOption.isSome = true ∧
      ¬ Isolated sampleThreads (committed sampleThreads (ingest samplePrimitives sampleProcessor
        ⟨4,[]⟩ none sampleThreads crossReply).2) "board" := by
  refine ⟨by decide +kernel,fun h => ?_⟩
  have ht := h.threads "lobby" (by decide)
  revert ht
  decide +kernel

end Hokora.WriteFrames
