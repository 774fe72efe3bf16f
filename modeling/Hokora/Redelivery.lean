import Hokora.WriteFrames

/-!
# Delivering an envelope twice

One envelope ingested twice, the second time at any moment and with any limiter that lets it pass.
-/
namespace Hokora.Redelivery
open Constants Database KeyedTable MessageProcessor Permissions PyValue RateLimit Repositories
  WriteAuthorisation WriteFrames
open MessageRepo (getByHash softDelete)

/-- It succeeds, and rows, threads and channels stay as they are. -/
def Harmless (st : Store) (outcome : Py (Message × Store)) : Prop :=
  ∃ r, outcome = .ok r ∧ r.2.messages = st.messages ∧ r.2.threads = st.threads ∧
    r.2.channels = st.channels

structure SameGate (st st' : Store) : Prop where
  roles : st'.roles = st.roles
  assignments : st'.assignments = st.assignments
  overrides : st'.overrides = st.overrides
  blocked : ∀ identityHash, Ban.isBlocked st' identityHash = Ban.isBlocked st identityHash
  channel : ∀ {channelId : String} {c : Channel}, ChannelRepo.getById st channelId = some c →
    ∃ n, ChannelRepo.getById st' channelId = some { c with latestSeq := n }

variable {sender th : String} {channel' : Channel}

section
variable {prim : Primitives} {mp : Processor} {m m' : Moment} {lim lim' : Option RateLimiter}
  {st st' st'' : Store} {env env' : MessageEnvelope} {channel : Channel} {perms : Perms}
  {r : Message × Store}

lemma SameGate.refl (st : Store) : SameGate st st :=
  ⟨rfl,rfl,rfl,fun _ => rfl,fun {_ c} h => ⟨c.latestSeq,h⟩⟩

lemma SameGate.trans (h : SameGate st st') (h' : SameGate st' st'') : SameGate st st'' := by
  refine ⟨h'.roles.trans h.roles,h'.assignments.trans h.assignments,
    h'.overrides.trans h.overrides,fun i => (h'.blocked i).trans (h.blocked i),?_⟩
  intro channelId c hc
  obtain ⟨n,hn⟩ := h.channel hc
  obtain ⟨k,hk⟩ := h'.channel hn
  exact ⟨k,hk⟩

lemma sameGate_bumpSeq {ch : String} : SameGate st (ChannelRepo.bumpSeq st ch) := by
  refine ⟨rfl,rfl,rfl,fun _ => rfl,?_⟩
  intro k c hc
  rw [ChannelRepo.getById_bumpSeq,hc]
  split_ifs
  · exact ⟨c.latestSeq + 1,rfl⟩
  · exact ⟨c.latestSeq,rfl⟩

lemma isBlocked_congr {i : String}
    (h : IdentityRepo.isBlocked st' i = IdentityRepo.isBlocked st i) :
    Ban.isBlocked st' i = Ban.isBlocked st i := by
  unfold Ban.isBlocked
  rw [h]

lemma isBlocked_upsert (ih k : String) (pk : BigEndian.Bytes) (now : ℚ) :
    IdentityRepo.isBlocked (IdentityRepo.upsert st ih pk now) k = IdentityRepo.isBlocked st k := by
  unfold IdentityRepo.upsert
  split
  next identities hi =>
    have hg := Table.get?_insert? hi k
    have hf := Table.insert?_fresh hi
    simp only [IdentityRepo.isBlocked,IdentityRepo.getByHash,hg]
    split_ifs with hk
    · rw [← hk,hf]
    · rfl
  · have hg := Table.get?_update st.identities ih
      (fun i => { i with publicKey := some pk, lastSeen := now }) (fun _ => rfl) k
    simp only [IdentityRepo.isBlocked,IdentityRepo.getByHash,hg]
    split_ifs
    · cases st.identities.get? k <;> rfl
    · rfl

lemma sameGate_rememberSender {now : ℚ} : SameGate st (rememberSender st env now) := by
  have hb : ∀ i, Ban.isBlocked (rememberSender st env now) i = Ban.isBlocked st i := by
    intro i
    unfold rememberSender
    split
    · exact isBlocked_congr (isBlocked_upsert ..)
    · rfl
  obtain ⟨identities,heq⟩ := rememberSender_eq st env now
  rw [heq] at hb ⊢
  exact ⟨rfl,rfl,rfl,hb,fun {_ c} hc => ⟨c.latestSeq,hc⟩⟩

lemma SameGate.with_tables (h : SameGate st st') (messages : Table Message.msgHash)
    (threads : Table Thread.rootMsgHash) (auditLog : List AuditLog) :
    SameGate st { st' with messages := messages, threads := threads, auditLog := auditLog } :=
  ⟨h.roles,h.assignments,h.overrides,h.blocked,h.channel⟩

lemma route_sameGate (h : route prim mp m st env channel = .ok r) : SameGate st r.2 := by
  unfold route at h
  split_ifs at h
  · obtain ⟨_,_,_,_,_,-,-,-,-,-,-,-,-,-,hr⟩ := processEdit_ok h
    rw [hr]
    exact (SameGate.refl st).with_tables _ _ _
  · obtain ⟨_,_,_,-,-,-,hr⟩ := processDelete_store h
    rw [hr]
    exact (SameGate.refl st).with_tables _ _ _
  · obtain ⟨_,_,_,_,_,-,-,-,-,-,-,hr⟩ := processPin_store h
    rw [hr]
    exact sameGate_bumpSeq.with_tables _ _ _
  · obtain ⟨_,_,-,-,-,hr | ⟨_,hr⟩⟩ := processReaction_ok h
    · rw [hr]
      exact .refl st
    · rw [hr]
      exact (SameGate.refl st).with_tables _ _ _
  · obtain ⟨-,hr⟩ | ⟨_,_,st₁,_,t,-,hs,-,-,-,hr⟩ := storeMessage_stored h
    · rw [hr]
      exact .refl st
    rw [hr]
    refine .trans ?_ sameGate_rememberSender
    obtain ⟨threads,rfl⟩ | rfl := assignSeq_eq hs
    · exact (SameGate.refl st).with_tables _ _ _
    · exact sameGate_bumpSeq.with_tables _ _ _

lemma SameGate.getIdentityRoles (h : SameGate st st') (i : String)
    (ch : Option String) (strict : Bool) : RoleRepo.getIdentityRoles st' i ch strict =
      RoleRepo.getIdentityRoles st i ch strict := by
  unfold RoleRepo.getIdentityRoles
  rw [h.roles,h.assignments]

lemma SameGate.membershipGate (h : SameGate st st') (sender : String) (channel : Channel)
    (n : ℕ) : membershipGate mp st' sender { channel with latestSeq := n } =
      membershipGate mp st sender channel := by
  unfold MessageProcessor.membershipGate
  rw [h.getIdentityRoles]

lemma SameGate.getEffectivePermissions (h : SameGate st st') (rv : PermissionResolver)
    (sender : String) (channel : Channel) (n : ℕ) :
    getEffectivePermissions rv st' sender { channel with latestSeq := n } =
      getEffectivePermissions rv st sender channel := by
  unfold Permissions.getEffectivePermissions overrideBits RoleRepo.getChannelOverride
    RoleRepo.getByName
  rw [h.getIdentityRoles,h.roles,h.overrides]

def targetAuthor (st : Store) (env : MessageEnvelope) : Option (Option String) :=
  (env.target.bind (getByHash st)).map Message.senderHash

lemma typeGate_congr
    (h : env.type = msgDelete ∨ env.type = msgEdit → targetAuthor st' env = targetAuthor st env) :
    typeGate st' env perms = typeGate st env perms := by
  have hd : env.type = msgDelete → deleteGate st' env perms = deleteGate st env perms := by
    intro ht
    have ha := h (.inl ht)
    unfold targetAuthor at ha
    unfold deleteGate
    cases h₁ : env.target.bind (getByHash st') <;>
      cases h₂ : env.target.bind (getByHash st) <;> simp_all
  have he : env.type = msgEdit → editGate st' env perms = editGate st env perms := by
    intro ht
    have ha := h (.inr ht)
    unfold targetAuthor at ha
    unfold editGate
    cases h₁ : env.target.bind (getByHash st') <;>
      cases h₂ : env.target.bind (getByHash st) <;> simp_all
  unfold typeGate
  split_ifs with h₁ h₂ h₃ h₄ h₅ h₆ h₇
  all_goals first
    | rfl
    | exact hd h₆
    | exact he h₇

/-- The sender is within the limits, where limits are asked for. -/
def RateAllows (mp : Processor) (lim : Option RateLimiter) (sender : String) (channel : Channel)
    (now : ℚ) : Prop :=
  mp.permissionResolver ≠ none → (rateGate lim sender channel now).2 = .ok ()

lemma checkPermissions_again {n : ℕ} (hs : SameGate st st')
    (ha : env.type = msgDelete ∨ env.type = msgEdit → targetAuthor st' env = targetAuthor st env)
    (hra : RateAllows mp lim' env.senderHash channel m'.now)
    (h : (checkPermissions mp lim st env channel m.now).2 = .ok env') :
    (checkPermissions mp lim' st' env { channel with latestSeq := n } m'.now).2 = .ok env' := by
  cases hr : mp.permissionResolver with
  | none =>
    simp only [checkPermissions,hr] at h ⊢
    exact h
  | some resolver =>
    obtain ⟨hb,-,hac⟩ := (checkPermissions_ok hr).mp h
    obtain ⟨hm,ht,he⟩ := accessGate_ok.mp hac
    have hl : (rateGate lim' env.senderHash { channel with latestSeq := n } m'.now).2 =
        .ok () := hra (by simp [hr])
    refine (checkPermissions_ok hr).mpr ⟨(hs.blocked _).trans hb,hl,?_⟩
    refine accessGate_ok.mpr ⟨?_,?_,?_⟩
    · rw [hs.membershipGate]
      exact hm
    · rw [hs.getEffectivePermissions,typeGate_congr ha]
      exact ht
    · rw [hs.getEffectivePermissions]
      exact he

lemma storeMessage_again (h : storeMessage prim mp m st env channel = .ok r) :
    Harmless r.2 (storeMessage prim mp m' r.2 env channel') := by
  have hro : ∃ row, getByHash r.2 (env.computeHash prim) = some row := by
    obtain ⟨ho,hr⟩ | ⟨_,_,_,t,-,-,-,hi,-,hr⟩ := storeMessage_ok h
    · rw [hr]
      exact ⟨r.1,ho⟩
    unfold getByHash
    rw [hr,Table.get?_insert? hi]
    exact ⟨_,if_pos rfl⟩
  obtain ⟨row,hro⟩ := hro
  refine ⟨(row, r.2),?_,rfl,rfl,rfl⟩
  rw [storeMessage,hro]

def softDeleted (sender : String) (row : Message) : Message :=
  { row with deleted := true, deletedBy := some sender, body := none, mediaPath := none }

lemma softDeleted_msgHash (row : Message) : (softDeleted sender row).msgHash = row.msgHash := rfl

lemma softDelete_messages : (softDelete st th sender).messages =
      st.messages.update th (softDeleted sender) softDeleted_msgHash := rfl

variable {o : Message} {emoji : String}

lemma softDelete_fixed (h : getByHash st th = some (softDeleted sender o)) :
    (softDelete st th sender).messages = st.messages := by
  rw [softDelete_messages]
  refine Table.update_fixed _ fun q hq => ?_
  cases hq.symm.trans h
  rfl

lemma processDelete_of_target (ht : env.target = some th) (ho : getByHash st th = some o)
    (hch : o.channelId = env.channelId) : ∃ x entry, processDelete m st env =
      .ok (x, AuditLogRepo.log (softDelete st th env.senderHash) entry) := by
  rw [processDelete,requireTarget_ok.mpr ht,ok_bind,requireTargetInChannel_ok.mpr ⟨ho,hch⟩,ok_bind]
  exact ⟨_,_,rfl⟩

lemma processDelete_again (h : processDelete m st env = .ok r) :
    Harmless r.2 (processDelete m' r.2 env) := by
  obtain ⟨th,o,ht,ho,hch,hr⟩ := processDelete_ok h
  have hro := getByHash_update hr ho
  rw [if_pos rfl] at hro
  have hf : (softDelete r.2 th env.senderHash).messages = r.2.messages :=
    softDelete_fixed hro
  obtain ⟨x,entry,ha⟩ : ∃ x entry, processDelete m' r.2 env = .ok (x, AuditLogRepo.log
      (softDelete r.2 th env.senderHash) entry) :=
    processDelete_of_target ht hro hch
  exact ⟨_,ha,hf,rfl,rfl⟩

lemma lookup_setReaction_new {entry : Reaction}
    {reactions : List (String × Reaction)} (h : reactions.lookup emoji = none) :
    (setReaction emoji entry reactions).lookup emoji = some entry := by
  simp [setReaction,h,List.lookup_append]

lemma processReaction_listed {row : Message} {entry : Reaction} (ht : env.target = some th)
    (hro : getByHash st th = some row) (hch : row.channelId = env.channelId)
    (he : env.body.getD "" ≠ "") (hl : (env.body.getD "").length ≤ maxReactionLength)
    (hli : row.reactions.lookup (env.body.getD "") = some entry) :
    ∃ o, processReaction st env = .ok (o, st) := by
  have hr := requireTargetInChannel_ok.mpr ⟨hro,hch⟩
  rw [processReaction,requireTarget_ok.mpr ht,ok_bind,hr,ok_bind]
  simp only [he,if_false,Nat.not_lt.mpr hl,hli]
  split_ifs <;> exact ⟨_,rfl⟩

def reacted (emoji : String) (entry : Reaction) (row : Message) : Message :=
  { row with reactions := setReaction emoji entry row.reactions }

lemma reacted_msgHash {entry : Reaction} (row : Message) :
    (reacted emoji entry row).msgHash = row.msgHash := rfl

lemma processReaction_found (h : processReaction st env = .ok r) :
    ∃ th o row entry, env.target = some th ∧ getByHash st th = some o ∧
      o.channelId = env.channelId ∧ env.body.getD "" ≠ "" ∧
      (env.body.getD "").length ≤ maxReactionLength ∧
      getByHash r.2 th = some row ∧ row.channelId = env.channelId ∧
      row.reactions.lookup (env.body.getD "") = some entry := by
  obtain ⟨th,o,ht,ho,hch,h⟩ := target_ok h
  simp only at h
  split_ifs at h with he hle
  have hlen := Nat.le_of_not_lt hle
  cases hl : o.reactions.lookup (env.body.getD "") with
  | some entry =>
    rw [hl] at h
    simp only at h
    have hr : r.2 = st := by
      split_ifs at h <;> cases h <;> rfl
    exact ⟨th,o,o,entry,ht,ho,hch,he,hlen,
      by rw [hr]; exact ho,hch,hl⟩
  | none =>
    rw [hl] at h
    have hm : r.2.messages = st.messages.update th
        (reacted (env.body.getD "") (Reaction.add ⟨0,[]⟩ env.senderHash))
        reacted_msgHash := by
      cases h
      rfl
    have hro : getByHash r.2 th =
        some (reacted (env.body.getD "") (Reaction.add ⟨0,[]⟩ env.senderHash) o) := by
      rw [getByHash,hm,Table.get?_update,if_pos rfl]
      exact congrArg (Option.map _) ho
    exact ⟨th,o,_,_,ht,ho,hch,he,hlen,hro,hch,lookup_setReaction_new hl⟩

lemma processReaction_again (h : processReaction st env = .ok r) :
    Harmless r.2 (processReaction r.2 env) := by
  obtain ⟨th,-,row,entry,ht,-,-,he,hle,hr,hch,hl⟩ :=
    processReaction_found h
  obtain ⟨o,ho⟩ := processReaction_listed ht hr hch he hle hl
  exact ⟨(o, r.2),ho,rfl,rfl,rfl⟩

lemma processEdit_twice {r' : Message × Store} (h : processEdit prim mp m st env = .ok r) :
    processEdit prim mp m' r.2 env ≠ .ok r' := by
  intro h'
  obtain ⟨th,o,_,b,t,-,ho,-,-,-,-,hi,-,-,hr⟩ := processEdit_ok h
  obtain ⟨_,_,_,_,_,-,-,-,-,-,-,hi',-,-,-⟩ := processEdit_ok h'
  have hn : getByHash { st with messages := t } (env.computeHash prim) =
      some (editRow prim mp m env th b) := by
    rw [MessageRepo.getByHash_insert hi]
    exact if_pos rfl
  have ht := getByHash_update (congrArg Store.messages hr) hn
  have hf : getByHash r.2 (env.computeHash prim) = none := Table.insert?_fresh hi'
  rw [hf] at ht
  cases ht

lemma processPin_flag (h : processPin prim mp m st env channel = .ok r) :
    ∃ th o row, env.target = some th ∧ getByHash st th = some o ∧
      getByHash r.2 th = some row ∧ row.pinned = !o.pinned := by
  obtain ⟨th,o,seq,b,t,ht,ho,-,hi,-,hr⟩ := processPin_ok h
  have hp : getByHash (MessageRepo.setPinned st th (!o.pinned) m.now) th = _ :=
    getByHash_update rfl ho
  rw [if_pos rfl] at hp
  have hro : t.get? th = some _ := Table.get?_insert?_of_some hi hp
  rw [← hr] at hro
  exact ⟨th,o,_,ht,ho,hro,rfl⟩

lemma processPin_twice (h : processPin prim mp m st env channel = .ok r) :
    ¬ Harmless r.2 (processPin prim mp m' r.2 env channel') := by
  rintro ⟨r',h',hm,-,-⟩
  obtain ⟨th,-,row,ht,-,hr,-⟩ := processPin_flag h
  obtain ⟨targetHash',original',row',ht',ho',hr',hf'⟩ := processPin_flag h'
  cases ht.symm.trans ht'
  cases hr.symm.trans ho'
  have hs : getByHash r'.2 th = getByHash r.2 th := by
    unfold getByHash
    rw [hm]
  cases hr'.symm.trans (hs.trans hr)
  simp at hf'

lemma route_again_iff (h : route prim mp m st env channel = .ok r) :
    Harmless r.2 (route prim mp m' r.2 env channel') ↔ env.type ≠ msgEdit ∧ env.type ≠ msgPin := by
  unfold route at h ⊢
  split_ifs at h ⊢ with he hd hp hr
  · simp only [he,ne_eq,not_true_eq_false,false_and,iff_false]
    rintro ⟨r',h',-⟩
    exact processEdit_twice h h'
  · exact iff_of_true (processDelete_again h) ⟨he,by rw [hd]; decide⟩
  · simp only [hp,ne_eq,not_true_eq_false,and_false,iff_false]
    exact processPin_twice h
  · exact iff_of_true (processReaction_again h) ⟨he,hp⟩
  · exact iff_of_true (storeMessage_again h) ⟨he,hp⟩

lemma route_targetAuthor (h : route prim mp m st env channel = .ok r)
    (hty : env.type = msgDelete ∨ env.type = msgEdit) :
    targetAuthor r.2 env = targetAuthor st env := by
  have hf : ∃ th o, env.target = some th ∧ getByHash st th = some o := by
    rcases hty with ht | ht
    · rw [route,if_neg (by rw [ht]; decide),if_pos ht] at h
      obtain ⟨th,o,hta,ho,-,-⟩ := processDelete_ok h
      exact ⟨th,o,hta,ho⟩
    rw [route,if_pos ht] at h
    obtain ⟨th,o,_,_,_,hta,ho,-⟩ := processEdit_ok h
    exact ⟨th,o,hta,ho⟩
  obtain ⟨th,o,hta,ho⟩ := hf
  obtain ⟨row',hr',rfl | ⟨-,-,hr⟩⟩ := route_target h ho
  · simp [targetAuthor,hta,hr',ho]
  have hs : row'.senderHash = o.senderHash := by
    cases hr <;> rfl
  simp [targetAuthor,hta,hr',ho,hs]

end

/-- An envelope that was accepted and is delivered again, by a sender within the limits, is
harmless exactly when it is neither an edit nor a pin. -/
theorem redelivery_harmless_iff (prim : Primitives) (mp : Processor) (m m' : Moment)
    (lim lim' : Option RateLimiter) (st : Store) (env : MessageEnvelope) {r : Message × Store}
    (h : (ingest prim mp m lim st env).2 = .ok r)
    (hrate : ∀ channel, ChannelRepo.getById st env.channelId = some channel →
      RateAllows mp lim' env.senderHash channel m'.now) :
    Harmless r.2 (ingest prim mp m' lim' r.2 env).2 ↔ env.type ≠ msgEdit ∧ env.type ≠ msgPin := by
  obtain ⟨channel,env',hc,hsi,hp,hr⟩ := ingest_ok h
  have hs := route_sameGate hr
  obtain ⟨n,hn⟩ := hs.channel hc
  have hno := checkPermissions_normalised hp
  have ha : env.type = msgDelete ∨ env.type = msgEdit →
      targetAuthor r.2 (truncateDisplayName env) = targetAuthor st (truncateDisplayName env) := by
    intro ht
    obtain ⟨_,_,rfl⟩ := hno
    have hk := route_targetAuthor hr ht
    exact hk
  have hag : (checkPermissions mp lim' r.2 (truncateDisplayName env)
      { channel with latestSeq := n } m'.now).2 = .ok env' :=
    checkPermissions_again hs ha (hrate channel hc) hp
  rw [ingest_of_ok hn hsi hag]
  obtain ⟨_,_,rfl⟩ := hno
  exact route_again_iff hr

theorem ownEdit_harmless_iff :
    ∃ r, (ingest samplePrimitives sampleProcessor ⟨2,[]⟩ none sampleThreads ownEdit).2 = .ok r ∧
      (Harmless r.2 (ingest samplePrimitives sampleProcessor ⟨9,[]⟩ none r.2 ownEdit).2 ↔
        ownEdit.type ≠ msgEdit ∧ ownEdit.type ≠ msgPin) := by
  obtain ⟨r,hok⟩ := toOption_isSome.mp (show (ingest samplePrimitives sampleProcessor
    ⟨2,[]⟩ none sampleThreads ownEdit).2.toOption.isSome by decide +kernel)
  exact ⟨r,hok,redelivery_harmless_iff samplePrimitives sampleProcessor ⟨2,[]⟩ ⟨9,[]⟩ none none
    sampleThreads ownEdit hok fun _ _ _ => rfl⟩

def clockPrimitives : Primitives :=
  { samplePrimitives with floatStr := fun x => if x = .fin 2 then "2.0" else "9.0" }

def afterOnce (env : MessageEnvelope) : Store :=
  committed sampleThreads (ingest clockPrimitives sampleProcessor ⟨2,[]⟩ none sampleThreads env).2

def secondTime (env : MessageEnvelope) : Py (Message × Store) :=
  (ingest clockPrimitives sampleProcessor ⟨9,[]⟩ none (afterOnce env) env).2

def pinRoot : MessageEnvelope :=
  { channelId := "lobby", senderHash := "alice", timestamp := .fin 2, type := msgPin,
    replyTo := some "root" }

def pinnedIn (st : Store) : Option Bool := (getByHash st "root").map Message.pinned

theorem edit_and_pin_not_harmless :
    getByHash (afterOnce ownEdit) (ownEdit.computeHash clockPrimitives) ≠ none ∧
      ¬ Harmless (afterOnce ownEdit) (secondTime ownEdit) ∧
      pinnedIn (afterOnce pinRoot) = some true ∧
      ((secondTime pinRoot).toOption.bind fun r => pinnedIn r.2) = some false ∧
      ¬ Harmless (afterOnce pinRoot) (secondTime pinRoot) := by
  have hp : pinnedIn (afterOnce pinRoot) = some true := by decide +kernel
  have hu : ((secondTime pinRoot).toOption.bind fun r => pinnedIn r.2) = some false := by
    decide +kernel
  refine ⟨by decide +kernel,?_,hp,hu,?_⟩
  · rintro ⟨r,h,-⟩
    have hr : ¬ (secondTime ownEdit).toOption.isSome := by decide +kernel
    exact hr (toOption_isSome.mpr ⟨r,h⟩)
  rintro ⟨r,h,hm,-⟩
  rw [toOption_eq_some.mpr h,Option.bind_some,pinnedIn,getByHash,hm] at hu
  rw [pinnedIn,getByHash,hu] at hp
  cases hp

end Hokora.Redelivery
