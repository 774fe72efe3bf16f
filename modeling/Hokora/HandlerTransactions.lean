import Hokora.IngestionSpec
import Hokora.MirrorIngest
import Hokora.WriteTransactions

/-!
# The write paths as transactions

The handlers cut at every query and flush. Alone they do what the functions of the store do.
-/
namespace Hokora.HandlerTransactions
open BigEndian Constants Database KeyedTable MessageProcessor MirrorIngest Permissions
  PushReceive PyValue RateLimit Repositories SealedChannels SenderBinding WireRows
  WriteTransactions
open ChannelRepo (getById)
open MessageRepo (getByHash insert insert_ok softDelete update)
open Prog (bind_bind exec_bind exec_execute pure_eq)
open SequenceManager (insertThread nextSeq nextThreadSeq updateThread)

structure FtsEntry where
  msgHash : String
  channelId : String
  body : String
  deriving DecidableEq

structure Db where
  store : Store
  messagesFts : List FtsEntry := []

def indexed (m : Message) : List FtsEntry :=
  match m.body, m.encryptedBody with
  | some body, none => [⟨m.msgHash,m.channelId,body⟩]
  | _, _ => []

inductive Statement where
  | nextSeq (channelId : String)
  | insertMessage (m : Message)
  | updateMessage (msgHash : String) (f : Message → Message)
      (hf : ∀ m, (f m).msgHash = m.msgHash)
  | insertThread (t : Thread)
  | updateThread (rootHash : String) (f : Thread → Thread)
      (hf : ∀ t, (f t).rootMsgHash = t.rootMsgHash)
  | upsertIdentity (identityHash : String) (publicKey : Bytes) (now : ℚ)
  | logAudit (entry : AuditLog)

def perform : Statement → Db → Py (ℕ × Db)
  | .nextSeq channelId, db => do
      let (seq, st) ← nextSeq db.store channelId
      pure (seq, { db with store := st })
  | .insertMessage m, db => do
      let st ← insert db.store m
      pure (0, ⟨st,db.messagesFts ++ indexed m⟩)
  | .updateMessage msgHash f hf, db =>
    .ok (0, ⟨update db.store msgHash f hf,db.messagesFts ++
      ((getByHash db.store msgHash).map fun m => indexed (f m)).getD []⟩)
  | .insertThread t, db => do
      let st ← insertThread db.store t
      pure (0, { db with store := st })
  | .updateThread rootHash f hf, db =>
    .ok (0, { db with store := updateThread db.store rootHash f hf })
  | .upsertIdentity identityHash publicKey now, db =>
    .ok (0, { db with store := IdentityRepo.upsert db.store identityHash publicKey now })
  | .logAudit entry, db => .ok (0, { db with store := AuditLogRepo.log db.store entry })

abbrev Tx (A : Type) := Prog Db Statement ℕ PyError A

def select {A : Type} (q : Store → A) : Tx A := Prog.query fun db => q db.store

def require {A : Type} (q : Store → Py A) : Tx A := Prog.check fun db => q db.store

def execute (s : Statement) : Tx ℕ := Prog.execute s

def lift {A : Type} (x : Py A) : Tx A := Prog.lift x

/-- What a flush writes to a column: nothing if the new value equals the loaded one. -/
def written {A : Type} [DecidableEq A] (loaded new current : A) : A :=
  if new = loaded then current else new

lemma written_self {A : Type} [DecidableEq A] {loaded new : A} :
    written loaded new loaded = new := by
  unfold written
  split_ifs with h
  · exact h.symm
  · rfl

def effectivePermissionsProg (resolver : PermissionResolver) (identityHash : String)
    (channel : Channel) : Tx Perms :=
  if identityHash = resolver.nodeOwnerHash then pure permAll
  else do
    let roles ← select (RoleRepo.getIdentityRoles · identityHash (some channel.id))
    if roles.any fun r => r.name = roleChannelOwner then pure permAll
    else do
      let everyone ← select (RoleRepo.getByName · roleEveryone)
      let base := match everyone with
        | some r => r.permissions
        | none => 0
      let granted := roles.foldl (fun acc r => acc ||| r.permissions) base
      let bits ← select (overrideBits · channel.id roles)
      let perms := (granted ||| bits.1) &&& ~~~bits.2
      pure (if channel.accessMode = .writeRestricted && roles.isEmpty then
        perms &&& ~~~(permSendMessages ||| permSendMedia)
      else perms)

def accessProg (mp : Processor) (resolver : PermissionResolver) (env : MessageEnvelope)
    (channel : Channel) : Tx MessageEnvelope := do
  require (membershipGate mp · env.senderHash channel)
  let perms ← effectivePermissionsProg resolver env.senderHash channel
  require (typeGate · env perms)
  pure (stripMentions env perms)

def checkPermissionsProg (mp : Processor) (lim : Option RateLimiter) (env : MessageEnvelope)
    (channel : Channel) (now : ℚ) : Tx MessageEnvelope :=
  match mp.permissionResolver with
  | none => pure env
  | some resolver => do
      require (Ban.checkNotBlocked · env.senderHash)
      lift (rateGate lim env.senderHash channel now).2
      accessProg mp resolver env channel

def flushEdit (original : Message) (editHash : String) (b : StoredBody) (m : Message) : Message :=
  { m with
    editChain := written original.editChain (original.editChain ++ [editHash]) m.editChain
    body := written original.body b.body m.body
    encryptedBody := written original.encryptedBody b.encryptedBody m.encryptedBody
    encryptionNonce := written original.encryptionNonce b.encryptionNonce m.encryptionNonce
    encryptionEpoch := written original.encryptionEpoch b.encryptionEpoch m.encryptionEpoch }

def processEditProg (prim : Primitives) (mp : Processor) (m : Moment) (env : MessageEnvelope)
    (channel : Channel) : Tx Message := do
  let targetHash ← lift (requireTarget env "Edit")
  let original ← require (requireTargetInChannel · targetHash env.channelId)
  if original.senderHash ≠ some env.senderHash then
    .fail (permissionDenied "Only the author can edit a message")
  else do
    let found ← select (getById · env.channelId)
    match found with
    | none => .fail (messageError ("Channel " ++ env.channelId ++ " not found"))
    | some _ => do
        -- The row is there, and the object is the one that the ingestion loaded.
        let b ← lift (sealForOrigin prim.aesGcm channel env.body mp.sealedManager m.gcmNonce)
        let edit := editRow prim mp m env targetHash b
        let _ ← execute (.insertMessage edit)
        if maxEditChainLength ≤ original.editChain.length then
          .fail (messageError ("Edit chain limit (" ++ toString maxEditChainLength ++ ") reached"))
        else do
          let _ ← execute (.updateMessage targetHash (flushEdit original edit.msgHash b)
            fun _ => rfl)
          pure edit

def flushDelete (loaded : Message) (deletedBy : String) (m : Message) : Message :=
  { m with
    deleted := written loaded.deleted true m.deleted
    deletedBy := written loaded.deletedBy (some deletedBy) m.deletedBy
    body := written loaded.body none m.body
    mediaPath := written loaded.mediaPath none m.mediaPath }

def softDeleteProg (msgHash deletedBy : String) : Tx (Option Message) := do
  let found ← select (getByHash · msgHash)
  match found with
  | none => pure none
  | some loaded => do
      let _ ← execute (.updateMessage msgHash (flushDelete loaded deletedBy) fun _ => rfl)
      pure (some (flushDelete loaded deletedBy loaded))

def processDeleteProg (m : Moment) (env : MessageEnvelope) : Tx Message := do
  let targetHash ← lift (requireTarget env "Delete")
  let original ← require (requireTargetInChannel · targetHash env.channelId)
  let result ← softDeleteProg targetHash env.senderHash
  let _ ← execute (.logAudit
    { actor := env.senderHash, actionType := "message_delete", target := some targetHash,
      channelId := some env.channelId, timestamp := m.now })
  pure (result.getD original)

def flushPin (loaded : Message) (pinned : Bool) (now : ℚ) (m : Message) : Message :=
  { m with
    pinned := written loaded.pinned pinned m.pinned
    pinnedAt := written loaded.pinnedAt (if pinned then some now else none) m.pinnedAt }

def setPinnedProg (loaded : Message) (msgHash : String) (pinned : Bool) (now : ℚ) : Tx Unit := do
  let found ← select (getByHash · msgHash)
  match found with
  | none => pure ()
  | some _ => do
      let _ ← execute (.updateMessage msgHash (flushPin loaded pinned now) fun _ => rfl)
      pure ()

def processPinProg (prim : Primitives) (mp : Processor) (m : Moment) (env : MessageEnvelope)
    (channel : Channel) : Tx Message := do
  let targetHash ← lift (requireTarget env "Pin")
  let original ← require (requireTargetInChannel · targetHash env.channelId)
  let newPinned := !original.pinned
  setPinnedProg original targetHash newPinned m.now
  let seq ← execute (.nextSeq env.channelId)
  let b ← lift (sealForOrigin prim.aesGcm channel (some (pinText env newPinned)) mp.sealedManager
    m.gcmNonce)
  let notice := pinNotice prim mp m env seq b
  let _ ← execute (.insertMessage notice)
  pure notice

def flushReactions (loaded : Message) (emoji : String) (r : Reaction) (m : Message) : Message :=
  { m with reactions :=
    written loaded.reactions (setReaction emoji r loaded.reactions) m.reactions }

lemma flushReactions_self {m : Message} {emoji : String} {r : Reaction} :
    flushReactions m emoji r m = { m with reactions := setReaction emoji r m.reactions } := by
  simp [flushReactions,written_self]

def processReactionProg (env : MessageEnvelope) : Tx Message := do
  let targetHash ← lift (requireTarget env "Reaction")
  let original ← require (requireTargetInChannel · targetHash env.channelId)
  let emoji := env.body.getD ""
  if emoji = "" then .fail (messageError "Reaction requires emoji in body")
  else if maxReactionLength < emoji.length then
    .fail (messageError "Reaction emoji too long (max 32 characters)")
  else
    match original.reactions.lookup emoji with
    | some entry =>
      if env.senderHash ∈ entry.identities then pure original
      else pure (flushReactions original emoji (Reaction.add entry env.senderHash) original)
    | none => do
        let f := flushReactions original emoji (Reaction.add ⟨0,[]⟩ env.senderHash)
        let _ ← execute (.updateMessage targetHash f fun _ => rfl)
        pure (f original)

def nextThreadSeqProg (rootHash channelId : String) (now : ℚ) : Tx ℕ := do
  let thread ← select (·.threads.get? rootHash)
  match thread with
  | some loaded => do
      let _ ← execute (.updateThread rootHash
        (fun t => { t with latestThreadSeq := loaded.latestThreadSeq + 1 }) fun _ => rfl)
      pure (loaded.latestThreadSeq + 1)
  | none => do
      let _ ← execute (.insertThread
        { rootMsgHash := rootHash, channelId := channelId, latestThreadSeq := 1,
          lastActivity := now })
      pure 1

def flushReply (env : MessageEnvelope) (now : ℚ) (t : Thread) : Thread :=
  { t with
    replyCount := t.replyCount + 1
    lastActivity := now
    participantHashes :=
      if env.senderHash ∈ t.participantHashes then t.participantHashes
      else t.participantHashes ++ [env.senderHash] }

def updateThreadMetadataProg (env : MessageEnvelope) (rootHash : String) (now : ℚ) : Tx Unit := do
  let thread ← select (·.threads.get? rootHash)
  match thread with
  | some _ => do
      let _ ← execute (.updateThread rootHash (flushReply env now) fun _ => rfl)
      pure ()
  | none => do
      let _ ← execute (.insertThread
        { rootMsgHash := rootHash, channelId := env.channelId, replyCount := 1,
          latestThreadSeq := 0, lastActivity := now, participantHashes := [env.senderHash] })
      pure ()

def assignSeqProg (env : MessageEnvelope) (now : ℚ) : Tx (Option ℕ × Option ℕ) :=
  match threadRoot env with
  | some rootHash => do
      let threadSeq ← nextThreadSeqProg rootHash env.channelId now
      updateThreadMetadataProg env rootHash now
      pure (none, some threadSeq)
  | none => do
      let seq ← execute (.nextSeq env.channelId)
      pure (some seq, none)

def rememberSenderProg (env : MessageEnvelope) (now : ℚ) : Tx Unit :=
  match env.senderPublicKey with
  | some (b :: bs) => do
      let _ ← execute (.upsertIdentity env.senderHash (b :: bs) now)
      pure ()
  | _ => pure ()

def storeMessageProg (prim : Primitives) (mp : Processor) (m : Moment) (env : MessageEnvelope)
    (channel : Channel) : Tx Message := do
  let found ← select (getByHash · (env.computeHash prim))
  match found with
  | some existing => pure existing
  | none => do
      let (seq, threadSeq) ← assignSeqProg env m.now
      let b ← lift (sealForOrigin prim.aesGcm channel env.body mp.sealedManager m.gcmNonce)
      let row := messageRow prim mp m env seq threadSeq b
      let _ ← execute (.insertMessage row)
      rememberSenderProg env m.now
      pure row

def routeProg (prim : Primitives) (mp : Processor) (m : Moment) (env : MessageEnvelope)
    (channel : Channel) : Tx Message :=
  if env.type = msgEdit then processEditProg prim mp m env channel
  else if env.type = msgDelete then processDeleteProg m env
  else if env.type = msgPin then processPinProg prim mp m env channel
  else if env.type = msgReaction then processReactionProg env
  else storeMessageProg prim mp m env channel

def ingestProg (prim : Primitives) (mp : Processor) (m : Moment) (lim : Option RateLimiter)
    (env : MessageEnvelope) : Tx Message := do
  let found ← select (getById · env.channelId)
  match found with
  | none => .fail (messageError ("Channel " ++ env.channelId ++ " not found"))
  | some channel =>
    if maxMessageBodySize < (env.body.getD "").utf8ByteSize then
      .fail (messageError "Message body exceeds maximum size")
    else do
      let env ← checkPermissionsProg mp lim (truncateDisplayName env) channel m.now
      routeProg prim mp m env channel

def storeEntryProg (b : PushBatch) (now : ℚ) (d : MsgData) (content : WireBody) : Tx ℕ := do
  let seq ← execute (.nextSeq b.channelId)
  let displayName ← lift (shortName d.displayName)
  let row ← lift ((entryRow b d content displayName).bind now)
  let _ ← execute (.insertMessage { row with seq := some seq })
  pure seq

def pushEntryProg (sig : SignatureScheme) (b : PushBatch) (now : ℚ) (d : MsgData) :
    Tx Answer := do
  let found ← require (getByWireHash · d.msgHash)
  match found with
  | some _ => pure (.received d.seq)
  | none => do
      let verdict ← require (vetEntry sig b · d)
      match verdict with
      | none => pure (.rejected d.msgHash)
      | some content => do
          let seq ← storeEntryProg b now d content
          pure (.received (.int seq))

def pushEntriesProg (sig : SignatureScheme) (b : PushBatch) (now : ℚ) : List Val → Tx (List Answer)
  | [] => pure []
  | v :: vs => do
      let d ← lift (MsgData.ofVal v)
      let a ← pushEntryProg sig b now d
      let as ← pushEntriesProg sig b now vs
      pure (a :: as)

def openBatchProg (config : Option FederationConfig) (payload : Val)
    (channelId : Option String) : Tx (Val × PushBatch × List Val) := do
  let pushChannelId ← lift (payload.get "channel_id" (Val.ofStr? channelId))
  let messages ← lift (payload.get "messages" (.list []))
  let nodeIdentity ← lift (payload.get "node_identity" .none)
  if pushChannelId.truthy = false then .fail (syncError "No channel_id in push_messages")
  else do
    require (requireTrustedPeer · nodeIdentity)
    let key ← lift (bindText pushChannelId)
    let id ← lift (notNull key)
    let entries ← lift messages.iter
    let batch ← select (batchFor config · id nodeIdentity)
    pure (pushChannelId, batch, entries)

def pushProg (sig : SignatureScheme) (config : Option FederationConfig) (now : ℚ)
    (payload : Val) (channelId : Option String) : Tx PushAck := do
  let (pushChannelId, batch, entries) ← openBatchProg config payload channelId
  let answers ← pushEntriesProg sig batch now entries
  pure { channelId := pushChannelId
         received := answers.filterMap Answer.received?
         rejected := answers.filterMap Answer.rejected? }

def mirrorProg (sig : SignatureScheme) (requireSigned : Bool) (now : ℚ) (channelId : String)
    (msgData : Val) (peerHash : String) : Tx Unit := do
  let d ← lift (MsgData.ofVal msgData)
  let payloadOrigin ← lift (msgData.get "origin_node" .none)
  let pass ← lift (precheck sig requireSigned now d)
  if pass = false then pure ()
  else do
    let found ← require (getByWireHash · d.msgHash)
    match found with
    | some _ => pure ()
    | none => do
        let batch ← select (mirrorBatch requireSigned · channelId peerHash payloadOrigin)
        let verdict ← lift (mirrorContent batch.channelSealed d)
        match verdict with
        | none => pure ()
        | some content => do
            let _ ← storeEntryProg batch now d content
            pure ()

/-- The program, with nothing in between, ends as `x` says, whatever the index holds. -/
def Runs {A : Type} (p : Tx A) (st : Store) (x : Py (A × Store)) : Prop :=
  ∀ fts, (p.exec perform ⟨st,fts⟩).map (fun r => (r.1, r.2.store)) = x

namespace Runs
variable {A B : Type} {st : Store}

lemma done (a : A) : Runs (Prog.done a) st (.ok (a, st)) := fun _ => rfl

lemma fail (e : PyError) : Runs (Prog.fail e : Tx A) st (.error e) := fun _ => rfl

variable {k : A → Tx B} {x : Py (B × Store)} {q : Store → Py A}

lemma map_bind {C : Type} {p : Tx A} {x : Py C} {f : C → A × Store} {h : C → Py (B × Store)}
    (hp : Runs p st (x >>= fun c => .ok (f c)))
    (hk : ∀ c, x = .ok c → Runs (k (f c).1) (f c).2 (h c)) : Runs (p >>= k) st (x >>= h) := by
  intro fts
  rw [exec_bind]
  have hx := hp fts
  cases he : p.exec perform ⟨st,fts⟩ with
  | error e =>
    rw [he] at hx
    cases x with
    | error e' =>
      cases hx
      rfl
    | ok c => cases hx
  | ok r =>
    rw [he] at hx
    cases x with
    | error e' => cases hx
    | ok c =>
      have hfc : (r.1, r.2.store) = f c := Except.ok.inj hx
      have hr := hk c rfl
      rw [← hfc] at hr
      exact hr r.2.messagesFts

lemma bind {p : Tx A} {x : Py (A × Store)} {h : A × Store → Py (B × Store)} (hp : Runs p st x)
    (hk : ∀ a st', x = .ok (a, st') → Runs (k a) st' (h (a, st'))) :
    Runs (p >>= k) st (x >>= h) := by
  have hs : (x >>= fun c => .ok (id c)) = x := by cases x <;> rfl
  rw [← hs] at hp
  exact map_bind hp fun c hc => hk c.1 c.2 hc

lemma lift_bind {x : Py A} {h : A → Py (B × Store)} (hk : ∀ a, x = .ok a → Runs (k a) st (h a)) :
    Runs (lift x >>= k) st (x >>= h) := by
  intro fts
  cases x with
  | error e => rfl
  | ok a => exact hk a rfl fts

lemma require_bind {h : A → Py (B × Store)} (hk : ∀ a, q st = .ok a → Runs (k a) st (h a)) :
    Runs (require q >>= k) st (q st >>= h) :=
  lift_bind hk

lemma require_ok {a : A} (hq : q st = .ok a) (hk : Runs (k a) st x) :
    Runs (require q >>= k) st x := by
  intro fts
  rw [exec_bind,require,Prog.exec_check,hq]
  exact hk fts

lemma require_error {e : PyError} (hq : q st = .error e) :
    Runs (require q >>= k) st (.error e) := by
  intro fts
  rw [exec_bind,require,Prog.exec_check,hq]
  rfl

lemma select_bind {q : Store → A} (hk : Runs (k (q st)) st x) : Runs (select q >>= k) st x := hk

lemma nextSeq_bind {ch : String} {k : ℕ → Tx B} {h : ℕ × Store → Py (B × Store)}
    (hk : ∀ seq st', Runs (k seq) st' (h (seq, st'))) :
    Runs (execute (.nextSeq ch) >>= k) st (nextSeq st ch >>= h) := by
  refine bind (fun fts => ?_) fun seq st' _ => hk seq st'
  rw [execute,exec_execute,perform]
  cases nextSeq st ch <;> rfl

lemma insertMessage_bind {m : Message} {k : ℕ → Tx B} {h : Store → Py (B × Store)}
    (hk : ∀ st', insert st m = .ok st' → Runs (k 0) st' (h st')) :
    Runs (execute (.insertMessage m) >>= k) st (insert st m >>= h) := by
  intro fts
  rw [exec_bind,execute,exec_execute,perform]
  cases hi : insert st m with
  | error e => rfl
  | ok st' => exact hk st' hi _

lemma insertThread_bind {t : Thread} {k : ℕ → Tx B} {h : Store → Py (B × Store)}
    (hk : ∀ st', Runs (k 0) st' (h st')) :
    Runs (execute (.insertThread t) >>= k) st (insertThread st t >>= h) := by
  intro fts
  rw [exec_bind,execute,exec_execute,perform]
  cases insertThread st t with
  | error e => rfl
  | ok st' => exact hk st' _

lemma update_bind {s : Statement} (st' : Store) {k : ℕ → Tx B}
    (hs : ∀ fts, ∃ fts', perform s ⟨st,fts⟩ = .ok (0, ⟨st',fts'⟩)) (hk : Runs (k 0) st' x) :
    Runs (execute s >>= k) st x := by
  intro fts
  obtain ⟨fts',hp⟩ := hs fts
  rw [exec_bind,execute,exec_execute,hp]
  exact hk fts'

lemma flush_bind {hash : String} {f g : Message → Message}
    {hf : ∀ m, (f m).msgHash = m.msgHash} (hg : ∀ m, (g m).msgHash = m.msgHash) {k : ℕ → Tx B}
    (hs : ∀ m, getByHash st hash = some m → f m = g m) (hk : Runs (k 0) (update st hash g hg) x) :
    Runs (execute (.updateMessage hash f hf) >>= k) st x := by
  refine update_bind (update st hash f hf) (fun fts => ⟨_,rfl⟩) ?_
  have hu : update st hash f hf = update st hash g hg := by
    unfold update
    rw [Table.update_congr hs]
  rw [hu]
  exact hk

end Runs

variable (sig : SignatureScheme) (b : PushBatch) (config : Option FederationConfig)
  (prim : Primitives) (mp : Processor) (rv : PermissionResolver) (m : Moment)
  (lim : Option RateLimiter) (st : Store) (env : MessageEnvelope) (rootHash : String)
  (channel : Channel) (now : ℚ)

lemma runs_effectivePermissions {i : String} {channel : Channel} :
    Runs (effectivePermissionsProg rv i channel) st
      (.ok (getEffectivePermissions rv st i channel, st)) := by
  unfold effectivePermissionsProg getEffectivePermissions
  by_cases ho : i = rv.nodeOwnerHash
  · simp only [ho,if_true]
    exact .done _
  simp only [ho,if_false]
  apply Runs.select_bind
  cases (RoleRepo.getIdentityRoles st i (some channel.id)).any
      fun r => r.name = roleChannelOwner with
  | true => exact .done _
  | false => exact .select_bind (Runs.select_bind (Runs.done _))

lemma runs_access : Runs (accessProg mp rv env channel) st
      (accessGate mp rv st env channel >>= fun env' => .ok (env', st)) := by
  unfold accessProg accessGate
  simp only [bind_assoc,pure_bind]
  refine .require_bind fun _ _ => ?_
  refine .bind (runs_effectivePermissions rv st)
    (h := fun r => typeGate r.2 env r.1 >>= fun _ => .ok (stripMentions env r.1, r.2))
    fun perms st' hp => ?_
  cases hp
  exact .require_bind fun _ _ => Runs.done _

lemma runs_checkPermissions : Runs (checkPermissionsProg mp lim env channel now) st
      ((checkPermissions mp lim st env channel now).2 >>= fun env' => .ok (env', st)) := by
  unfold checkPermissionsProg checkPermissions
  cases mp.permissionResolver with
  | none => exact .done _
  | some rv =>
    cases hb : Ban.checkNotBlocked st env.senderHash with
    | error e => exact .require_error hb
    | ok u =>
      apply Runs.require_ok hb
      simp only [bind_assoc]
      refine .lift_bind fun _ _ => ?_
      exact runs_access mp rv st env channel

lemma runs_processEdit {st : Store} {channel : Channel}
    (hc : getById st env.channelId = some channel) :
    Runs (processEditProg prim mp m env channel) st (processEdit prim mp m st env) := by
  refine .lift_bind fun targetHash _ => ?_
  refine .require_bind fun o ho => ?_
  by_cases ha : o.senderHash ≠ some env.senderHash
  · rw [if_pos ha,if_pos ha]
    exact .fail _
  rw [if_neg ha,if_neg ha]
  apply Runs.select_bind
  simp only [hc]
  refine .lift_bind fun b _ => ?_
  refine .insertMessage_bind fun st' hi => ?_
  by_cases hl : maxEditChainLength ≤ o.editChain.length
  · rw [if_pos hl,if_pos hl]
    exact .fail _
  rw [if_neg hl,if_neg hl]
  -- The row of the target is still the loaded one.
  refine .flush_bind applyEdit_msgHash (fun row hr => ?_) (Runs.done _)
  obtain ⟨-,t,ht,rfl⟩ := insert_ok hi
  obtain ⟨hol,-⟩ := requireTargetInChannel_ok.mp ho
  have hk := Table.get?_insert?_of_some ht hol
  rw [getByHash,hk] at hr
  cases hr
  simp [flushEdit,applyEdit,written_self]

lemma runs_processDelete : Runs (processDeleteProg m env) st (processDelete m st env) := by
  refine .lift_bind fun th _ => ?_
  refine .require_bind fun o ho => ?_
  obtain ⟨hro,-⟩ := requireTargetInChannel_ok.mp ho
  unfold softDeleteProg
  rw [bind_bind]
  apply Runs.select_bind
  simp only [hro,bind_bind,pure_eq,Prog.done_bind]
  refine .flush_bind (g := fun m => { m with
    deleted := true, deletedBy := some env.senderHash, body := none, mediaPath := none })
    (fun _ => rfl) (fun row hl => ?_) ?_
  · rw [hro] at hl
    cases hl
    simp [flushDelete,written_self]
  refine .update_bind (AuditLogRepo.log _ _) (fun fts => ⟨_,rfl⟩) ?_
  have hr : (getByHash (softDelete st th env.senderHash) th).getD o =
      flushDelete o env.senderHash o := by
    rw [softDelete,update,getByHash,
      Table.get?_update _ _ _ (fun _ => by rfl),if_pos rfl,← getByHash,hro]
    simp [flushDelete,written_self]
  rw [hr]
  exact .done _

lemma runs_processPin :
    Runs (processPinProg prim mp m env channel) st (processPin prim mp m st env channel) := by
  refine .lift_bind fun targetHash _ => ?_
  refine .require_bind fun o ho => ?_
  obtain ⟨hr,-⟩ := requireTargetInChannel_ok.mp ho
  unfold setPinnedProg
  rw [bind_bind]
  apply Runs.select_bind
  simp only [hr,bind_bind,pure_eq,Prog.done_bind]
  refine .flush_bind (g := fun r => { r with
    pinned := !o.pinned, pinnedAt := if !o.pinned then some m.now else none })
    (fun _ => rfl) (fun row hl => ?_) ?_
  · rw [hr] at hl
    cases hl
    simp [flushPin,written_self]
  refine .nextSeq_bind fun seq st' => ?_
  refine .lift_bind fun b _ => ?_
  exact .insertMessage_bind fun _ _ => Runs.done _

lemma runs_processReaction : Runs (processReactionProg env) st (processReaction st env) := by
  refine .lift_bind fun targetHash _ => ?_
  refine .require_bind fun og ho => ?_
  obtain ⟨hr,-⟩ := requireTargetInChannel_ok.mp ho
  by_cases he : env.body.getD "" = ""
  · rw [if_pos he,if_pos he]
    exact .fail _
  rw [if_neg he,if_neg he]
  by_cases hl : maxReactionLength < (env.body.getD "").length
  · rw [if_pos hl,if_pos hl]
    exact .fail _
  rw [if_neg hl,if_neg hl]
  cases og.reactions.lookup (env.body.getD "") with
  | some entry =>
    simp only
    by_cases hd : env.senderHash ∈ entry.identities
    · rw [if_pos hd,if_pos hd]
      exact .done _
    · rw [if_neg hd,if_neg hd,flushReactions_self]
      exact .done _
  | none =>
    simp only [flushReactions_self]
    refine .flush_bind (g := fun o => { o with
      reactions := setReaction (env.body.getD "") (Reaction.add ⟨0,[]⟩ env.senderHash)
        o.reactions }) (fun _ => rfl) (fun row hlo => ?_) (Runs.done _)
    rw [hr] at hlo
    cases hlo
    exact flushReactions_self

lemma runs_nextThreadSeq {ch : String} {now : ℚ} : Runs (nextThreadSeqProg rootHash ch now) st
      (nextThreadSeq st rootHash ch now) := by
  unfold nextThreadSeqProg nextThreadSeq
  apply Runs.select_bind
  cases hth : st.threads.get? rootHash with
  | none => exact .insertThread_bind fun _ => Runs.done _
  | some loaded =>
    have hs : updateThread st rootHash
          (fun t => { t with latestThreadSeq := loaded.latestThreadSeq + 1 }) (fun _ => rfl) =
        updateThread st rootHash
          (fun t => { t with latestThreadSeq := t.latestThreadSeq + 1 }) (fun _ => rfl) := by
      unfold updateThread
      rw [Table.update_congr]
      intro t ht
      rw [hth] at ht
      cases ht
      rfl
    simp only [← hs]
    exact .update_bind (updateThread st rootHash _ _) (fun fts => ⟨_,rfl⟩) (Runs.done _)

lemma runs_updateThreadMetadata : Runs (updateThreadMetadataProg env rootHash now) st
      (updateThreadMetadata st env rootHash now >>= fun st' => .ok ((), st')) := by
  unfold updateThreadMetadataProg updateThreadMetadata
  apply Runs.select_bind
  cases st.threads.get? rootHash with
  | none => exact .insertThread_bind fun _ => Runs.done _
  | some t =>
    exact .update_bind (updateThread st rootHash _ _) (fun fts => ⟨_,rfl⟩) (Runs.done _)

lemma runs_assignSeq : Runs (assignSeqProg env now) st
      (assignSeq st env now >>= fun r => .ok ((r.1, r.2.1), r.2.2)) := by
  unfold assignSeqProg assignSeq
  cases threadRoot env with
  | none =>
    simp only [bind_assoc]
    exact .nextSeq_bind fun _ _ => Runs.done _
  | some rootHash =>
    simp only [bind_assoc]
    refine .bind (runs_nextThreadSeq st rootHash) fun threadSeq st' _ => ?_
    exact .map_bind (runs_updateThreadMetadata st' env rootHash now) fun _ _ => Runs.done _

lemma runs_rememberSender :
    Runs (rememberSenderProg env now) st (.ok ((), rememberSender st env now)) := by
  unfold rememberSenderProg rememberSender
  match env.senderPublicKey with
  | some (b :: bs) =>
    exact .update_bind (IdentityRepo.upsert _ _ _ _) (fun fts => ⟨_,rfl⟩) (Runs.done _)
  | some [] => exact .done _
  | none => exact .done _

lemma runs_storeMessage :
    Runs (storeMessageProg prim mp m env channel) st (storeMessage prim mp m st env channel) := by
  unfold storeMessageProg storeMessage
  apply Runs.select_bind
  cases getByHash st (env.computeHash prim) with
  | some existing => exact .done _
  | none =>
    refine .map_bind (runs_assignSeq st env m.now) fun r _ => ?_
    refine .lift_bind fun b _ => ?_
    refine .insertMessage_bind fun st₂ _ => ?_
    exact .bind (h := fun x => .ok (messageRow prim mp m env r.1 r.2.1 b, x.2))
      (runs_rememberSender st₂ env m.now) fun _ _ _ => Runs.done _

lemma runs_route {st : Store} {channel : Channel} (hc : getById st env.channelId = some channel) :
    Runs (routeProg prim mp m env channel) st (route prim mp m st env channel) := by
  unfold routeProg route
  split_ifs
  · exact runs_processEdit prim mp m env hc
  · exact runs_processDelete m st env
  · exact runs_processPin prim mp m st env channel
  · exact runs_processReaction st env
  · exact runs_storeMessage prim mp m st env channel

lemma runs_storeEntry {st : Store} {d : MsgData} {content : WireBody} :
    Runs (storeEntryProg b now d content) st (storeEntry b now st d content) := by
  unfold storeEntryProg storeEntry addRow
  refine .nextSeq_bind fun seq st' => ?_
  refine .lift_bind fun name _ => ?_
  simp only [bind_assoc]
  refine .lift_bind fun row _ => ?_
  exact .insertMessage_bind fun _ _ => Runs.done _

lemma runs_pushEntry (st : Store) (d : MsgData) :
    Runs (pushEntryProg sig b now d) st (pushEntry sig b now st d) := by
  refine .require_bind fun found _ => ?_
  cases found with
  | some row => exact .done _
  | none =>
    refine .require_bind fun verdict _ => ?_
    cases verdict with
    | none => exact .done _
    | some content => exact .bind (runs_storeEntry b now) fun _ _ _ => Runs.done _

lemma runs_pushEntries (st : Store) (entries : List Val) :
    Runs (pushEntriesProg sig b now entries) st (pushEntries sig b now st entries) := by
  induction entries generalizing st with
  | nil => exact .done _
  | cons v vs ih =>
    refine .lift_bind fun d _ => ?_
    refine .bind (runs_pushEntry sig b now st d) fun a st₁ _ => ?_
    exact .bind (ih st₁) fun _ _ _ => Runs.done _

lemma runs_openBatch {p : Val} {ch : Option String} : Runs (openBatchProg config p ch) st
      (openBatch config st p ch >>= fun r => .ok (r, st)) := by
  unfold openBatchProg openBatch
  simp only [bind_assoc]
  refine .lift_bind fun pushChannelId _ => ?_
  refine .lift_bind fun messages _ => ?_
  refine .lift_bind fun nodeIdentity _ => ?_
  split_ifs
  · exact .fail _
  simp only [bind_assoc]
  refine .require_bind fun _ _ => ?_
  refine .lift_bind fun key _ => ?_
  refine .lift_bind fun id _ => ?_
  refine .lift_bind fun entries _ => ?_
  exact .select_bind (Runs.done _)

/-- The same of a pushed batch. -/
theorem exec_push {L : Type} {st : Store} {p : Val} {ch rq : Option String} {link : Option L} :
    Runs (pushProg sig config now p ch) st (handlePushMessages sig config now st p ch rq link) := by
  refine .map_bind (runs_openBatch config st) fun r _ => ?_
  exact .bind (runs_pushEntries sig r.2.1 now st r.2.2) fun _ _ _ => Runs.done _

lemma exec_mirror (rs : Bool) (now : ℚ) (st : Store) (ch : String) (md : Val) (ph : String) :
    Runs (mirrorProg sig rs now ch md ph) st (MirrorIngest.ingestTx sig rs now st ch md ph >>=
        fun st' => .ok ((), st')) := by
  unfold mirrorProg MirrorIngest.ingestTx
  simp only [bind_assoc]
  refine .lift_bind fun d _ => ?_
  refine .lift_bind fun payloadOrigin _ => ?_
  refine .lift_bind fun pass _ => ?_
  cases pass with
  | false => exact .done _
  | true =>
    simp only [Bool.true_eq_false,if_false,bind_assoc]
    refine .require_bind fun found _ => ?_
    cases found with
    | some row => exact .done _
    | none =>
      simp only [bind_assoc]
      apply Runs.select_bind
      refine .lift_bind fun verdict _ => ?_
      cases verdict with
      | none => exact .done _
      | some content =>
        simp only [bind_assoc]
        exact .bind (runs_storeEntry _ now) fun _ _ _ => Runs.done _

end Hokora.HandlerTransactions
