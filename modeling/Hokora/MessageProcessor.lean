import Hokora.Permissions
import Hokora.RateLimit
import Hokora.SealedChannels

/-!
# Local message ingestion

The checks and the six kinds of envelope. Hashes and ciphers are parameters; metrics are left out.
-/
namespace Hokora.MessageProcessor
open BigEndian Constants Database Permissions PyValue RateLimit Repositories SealedChannels
open MessageRepo (getByHash insert setPinned softDelete update)

structure MessageEnvelope where
  channelId : String
  senderHash : String
  timestamp : FloatVal
  type : ℤ := msgText
  body : Option String := none
  mediaPath : Option String := none
  replyTo : Option String := none
  ttl : Option ℤ := none
  lxmfSignature : Option Bytes := none
  lxmfSignedPart : Option Bytes := none
  senderPublicKey : Option Bytes := none
  displayName : Option String := none
  mentions : List String := []
  reactions : List (String × Reaction) := []

structure Primitives where
  sha256Hex : String → String
  floatStr : FloatVal → String
  aesGcm : AesGcmEncrypt

structure Processor where
  permissionResolver : Option PermissionResolver
  nodeIdentityHash : Option String
  sealedManager : Option SealedChannelManager

structure Moment where
  now : ℚ
  gcmNonce : Bytes

def messageError (text : String) : PyError := .hokora .messageError text
def permissionDenied (text : String) : PyError := .hokora .permissionDenied text

def MessageEnvelope.hashText (prim : Primitives) (env : MessageEnvelope) : String :=
  env.channelId ++ ":" ++ env.senderHash ++ ":" ++ prim.floatStr env.timestamp ++ ":" ++
    toString env.type ++ ":" ++ env.body.getD "" ++ ":" ++ env.replyTo.getD ""

def MessageEnvelope.computeHash (prim : Primitives) (env : MessageEnvelope) : String :=
  prim.sha256Hex (env.hashText prim)

def MessageEnvelope.target (env : MessageEnvelope) : Option String :=
  env.replyTo.filter fun t => t ≠ ""

def rateGate (lim : Option RateLimiter) (sender : String) (channel : Channel) (now : ℚ) :
    Option RateLimiter × Py Unit :=
  match lim with
  | none => (none, .ok ())
  | some lim =>
    let r := lim.checkRateLimit sender now
    match r.2 with
    | .error e => (some r.1, .error e)
    | .ok () =>
      let q := r.1.checkSlowmode sender channel.id channel.slowmode now
      (some q.1, q.2)

def membershipGate (mp : Processor) (st : Store) (sender : String) (channel : Channel) : Py Unit :=
  if channel.accessMode = .privateAccess || channel.sealed then
    if some sender ≠ mp.nodeIdentityHash &&
        (RoleRepo.getIdentityRoles st sender (some channel.id) true).isEmpty then
      .error (permissionDenied "Not a member of this channel")
    else .ok ()
  else .ok ()

def requirePerm (perms flag : Perms) (name : String) : Py Unit :=
  if perms.has flag then .ok ()
  else .error (permissionDenied ("Missing " ++ name ++ " permission"))

def deleteGate (st : Store) (env : MessageEnvelope) (perms : Perms) : Py Unit :=
  match env.target.bind (getByHash st) with
  | none => .ok ()
  | some target =>
    if target.senderHash = some env.senderHash then requirePerm perms permDeleteOwn "DELETE_OWN"
    else requirePerm perms permDeleteOthers "DELETE_OTHERS"

def editGate (st : Store) (env : MessageEnvelope) (perms : Perms) : Py Unit := do
  requirePerm perms permEditOwn "EDIT_OWN"
  match env.target.bind (getByHash st) with
  | none => .ok ()
  | some target =>
    if target.senderHash = some env.senderHash then .ok ()
    else .error (permissionDenied "Only the author can edit a message")

def typeGate (st : Store) (env : MessageEnvelope) (perms : Perms) : Py Unit :=
  if env.type = msgText then requirePerm perms permSendMessages "SEND_MESSAGES"
  else if env.type = msgMedia then do
    requirePerm perms permSendMessages "SEND_MESSAGES"
    requirePerm perms permSendMedia "SEND_MEDIA"
  else if env.type = msgThreadReply then requirePerm perms permCreateThreads "CREATE_THREADS"
  else if env.type = msgReaction then requirePerm perms permAddReactions "ADD_REACTIONS"
  else if env.type = msgPin then requirePerm perms permPinMessages "PIN_MESSAGES"
  else if env.type = msgDelete then deleteGate st env perms
  else if env.type = msgEdit then editGate st env perms
  else .ok ()

def stripMentions (env : MessageEnvelope) (perms : Perms) : MessageEnvelope :=
  if perms.has permUseMentions = false then { env with mentions := [] }
  else if perms.has permMentionEveryone then env
  else { env with mentions := env.mentions.filter fun m => m ≠ "@everyone" }

def accessGate (mp : Processor) (resolver : PermissionResolver) (st : Store)
    (env : MessageEnvelope) (channel : Channel) : Py MessageEnvelope := do
  membershipGate mp st env.senderHash channel
  let perms := getEffectivePermissions resolver st env.senderHash channel
  typeGate st env perms
  pure (stripMentions env perms)

def checkPermissions (mp : Processor) (lim : Option RateLimiter) (st : Store)
    (env : MessageEnvelope) (channel : Channel) (now : ℚ) :
    Option RateLimiter × Py MessageEnvelope :=
  match mp.permissionResolver with
  | none => (lim, .ok env)
  | some resolver =>
    match Ban.checkNotBlocked st env.senderHash with
    | .error e => (lim, .error e)
    | .ok () =>
      let r := rateGate lim env.senderHash channel now
      (r.1, do
        r.2
        accessGate mp resolver st env channel)

/-! Handlers for the types that change existing rows. -/

def requireTargetInChannel (st : Store) (targetHash channelId : String) : Py Message :=
  match getByHash st targetHash with
  | none => .error (messageError ("Target message " ++ targetHash ++ " not found"))
  | some original =>
    if original.channelId = channelId then .ok original
    else .error (messageError "Target message does not belong to this channel")

def requireTarget (env : MessageEnvelope) (kind : String) : Py String :=
  match env.target with
  | some t => .ok t
  | none => .error (messageError (kind ++ " requires reply_to (target message hash)"))

def editRow (prim : Primitives) (mp : Processor) (m : Moment) (env : MessageEnvelope)
    (targetHash : String) (b : StoredBody) : Message :=
  { msgHash := env.computeHash prim, channelId := env.channelId,
    senderHash := some env.senderHash, timestamp := env.timestamp, type := env.type,
    body := b.body, encryptedBody := b.encryptedBody, encryptionNonce := b.encryptionNonce,
    encryptionEpoch := b.encryptionEpoch, replyTo := some targetHash, receivedAt := m.now,
    originNode := mp.nodeIdentityHash }

def applyEdit (editHash : String) (b : StoredBody) (original : Message) : Message :=
  { original with
    editChain := original.editChain ++ [editHash]
    body := b.body
    encryptedBody := b.encryptedBody
    encryptionNonce := b.encryptionNonce
    encryptionEpoch := b.encryptionEpoch }

lemma applyEdit_msgHash {editHash : String} {b : StoredBody} (o : Message) :
    (applyEdit editHash b o).msgHash = o.msgHash := rfl

def processEdit (prim : Primitives) (mp : Processor) (m : Moment) (st : Store)
    (env : MessageEnvelope) : Py (Message × Store) := do
  let targetHash ← requireTarget env "Edit"
  let original ← requireTargetInChannel st targetHash env.channelId
  if original.senderHash ≠ some env.senderHash then
    .error (permissionDenied "Only the author can edit a message")
  else match ChannelRepo.getById st env.channelId with
  | none => .error (messageError ("Channel " ++ env.channelId ++ " not found"))
  | some channel => do
      let b ← sealForOrigin prim.aesGcm channel env.body mp.sealedManager m.gcmNonce
      let edit := editRow prim mp m env targetHash b
      let st' ← insert st edit
      if maxEditChainLength ≤ original.editChain.length then
        .error (messageError ("Edit chain limit (" ++ toString maxEditChainLength ++ ") reached"))
      else
        pure (edit, update st' targetHash (applyEdit edit.msgHash b) applyEdit_msgHash)

def processDelete (m : Moment) (st : Store) (env : MessageEnvelope) : Py (Message × Store) := do
  let targetHash ← requireTarget env "Delete"
  let original ← requireTargetInChannel st targetHash env.channelId
  let st' := softDelete st targetHash env.senderHash
  pure ((getByHash st' targetHash).getD original, AuditLogRepo.log st'
      { actor := env.senderHash, actionType := "message_delete", target := some targetHash,
        channelId := some env.channelId, timestamp := m.now })

def pinNotice (prim : Primitives) (mp : Processor) (m : Moment) (env : MessageEnvelope)
    (seq : ℕ) (b : StoredBody) : Message :=
  { msgHash := prim.sha256Hex (env.channelId ++ ":pin_system:" ++ env.senderHash ++ ":" ++
      prim.floatStr (.fin m.now)),
    channelId := env.channelId, senderHash := some env.senderHash, seq := some seq,
    timestamp := .fin m.now, type := msgSystem, body := b.body,
    encryptedBody := b.encryptedBody, encryptionNonce := b.encryptionNonce,
    encryptionEpoch := b.encryptionEpoch, receivedAt := m.now,
    originNode := mp.nodeIdentityHash }

def pinText (env : MessageEnvelope) (pinned : Bool) : String :=
  take8 env.senderHash ++ " " ++ (if pinned then "pinned" else "unpinned") ++ " a message"

def processPin (prim : Primitives) (mp : Processor) (m : Moment) (st : Store)
    (env : MessageEnvelope) (channel : Channel) : Py (Message × Store) := do
  let targetHash ← requireTarget env "Pin"
  let original ← requireTargetInChannel st targetHash env.channelId
  let newPinned := !original.pinned
  let st₁ := setPinned st targetHash newPinned m.now
  let (seq, st₂) ← SequenceManager.nextSeq st₁ env.channelId
  let b ← sealForOrigin prim.aesGcm channel (some (pinText env newPinned)) mp.sealedManager
    m.gcmNonce
  let notice := pinNotice prim mp m env seq b
  let st₃ ← insert st₂ notice
  pure (notice, st₃)

def Reaction.add (r : Reaction) (sender : String) : Reaction :=
  ⟨r.count + 1,(r.identities ++ [sender]).take maxReactionsPerMessage⟩

def setReaction (emoji : String) (r : Reaction) (rs : List (String × Reaction)) :
    List (String × Reaction) :=
  if (rs.lookup emoji).isSome then rs.map fun e => if e.1 = emoji then (emoji, r) else e
  else rs ++ [(emoji, r)]

/-- In a session that has the target's row loaded already, or loads it here: SQLAlchemy compares the
changed dictionary with the one it loaded, and the two share the entry of an emoji that has one. -/
def processReaction (st : Store) (env : MessageEnvelope) : Py (Message × Store) := do
  let targetHash ← requireTarget env "Reaction"
  let original ← requireTargetInChannel st targetHash env.channelId
  let emoji := env.body.getD ""
  if emoji = "" then .error (messageError "Reaction requires emoji in body")
  else if maxReactionLength < emoji.length then
    .error (messageError "Reaction emoji too long (max 32 characters)")
  else
    let withEntry (r : Reaction) (o : Message) : Message :=
      { o with reactions := setReaction emoji r o.reactions }
    match original.reactions.lookup emoji with
    | some entry =>
      if env.senderHash ∈ entry.identities then pure (original, st)
      else
        -- The shared entry hides the change from the mapper: no UPDATE.
        pure (withEntry (Reaction.add entry env.senderHash) original, st)
    | none =>
      let f := withEntry (Reaction.add ⟨0,[]⟩ env.senderHash)
      pure (f original, update st targetHash f fun _ => rfl)

def updateThreadMetadata (st : Store) (env : MessageEnvelope) (rootHash : String) (now : ℚ) :
    Py Store :=
  match st.threads.get? rootHash with
  | some _ =>
    .ok (SequenceManager.updateThread st rootHash (fun t => { t with
        replyCount := t.replyCount + 1
        lastActivity := now
        participantHashes :=
          if env.senderHash ∈ t.participantHashes then t.participantHashes
          else t.participantHashes ++ [env.senderHash] })
      fun _ => rfl)
  | none =>
    SequenceManager.insertThread st
      { rootMsgHash := rootHash, channelId := env.channelId, replyCount := 1,
        latestThreadSeq := 0, lastActivity := now, participantHashes := [env.senderHash] }

def threadRoot (env : MessageEnvelope) : Option String :=
  if env.type = msgThreadReply then env.target else none

def assignSeq (st : Store) (env : MessageEnvelope) (now : ℚ) : Py (Option ℕ × Option ℕ × Store) :=
  match threadRoot env with
  | some rootHash => do
      let (threadSeq, st₁) ← SequenceManager.nextThreadSeq st rootHash env.channelId now
      let st₂ ← updateThreadMetadata st₁ env rootHash now
      pure (none, some threadSeq, st₂)
  | none => do
      let (seq, st₁) ← SequenceManager.nextSeq st env.channelId
      pure (some seq, none, st₁)

def messageRow (prim : Primitives) (mp : Processor) (m : Moment) (env : MessageEnvelope)
    (seq threadSeq : Option ℕ) (b : StoredBody) : Message :=
  { msgHash := env.computeHash prim, channelId := env.channelId,
    senderHash := some env.senderHash, seq := seq, threadSeq := threadSeq,
    timestamp := env.timestamp, type := env.type, body := b.body,
    encryptedBody := b.encryptedBody, encryptionNonce := b.encryptionNonce,
    encryptionEpoch := b.encryptionEpoch, mediaPath := env.mediaPath, replyTo := env.replyTo,
    ttl := env.ttl, receivedAt := m.now, lxmfSignature := env.lxmfSignature,
    lxmfSignedPart := env.lxmfSignedPart, displayName := env.displayName,
    mentions := env.mentions, reactions := env.reactions, originNode := mp.nodeIdentityHash }

def rememberSender (st : Store) (env : MessageEnvelope) (now : ℚ) : Store :=
  match env.senderPublicKey with
  | some (b :: bs) => IdentityRepo.upsert st env.senderHash (b :: bs) now
  | _ => st

def storeMessage (prim : Primitives) (mp : Processor) (m : Moment) (st : Store)
    (env : MessageEnvelope) (channel : Channel) : Py (Message × Store) :=
  match getByHash st (env.computeHash prim) with
  | some existing => .ok (existing, st)
  | none => do
      let (seq, threadSeq, st₁) ← assignSeq st env m.now
      let b ← sealForOrigin prim.aesGcm channel env.body mp.sealedManager m.gcmNonce
      let row := messageRow prim mp m env seq threadSeq b
      let st₂ ← insert st₁ row
      pure (row, rememberSender st₂ env m.now)

def route (prim : Primitives) (mp : Processor) (m : Moment) (st : Store)
    (env : MessageEnvelope) (channel : Channel) : Py (Message × Store) :=
  if env.type = msgEdit then processEdit prim mp m st env
  else if env.type = msgDelete then processDelete m st env
  else if env.type = msgPin then processPin prim mp m st env channel
  else if env.type = msgReaction then processReaction st env
  else storeMessage prim mp m st env channel

def truncateDisplayName (env : MessageEnvelope) : MessageEnvelope :=
  { env with displayName := env.displayName.map fun n =>
      String.ofList (n.toList.take maxDisplayNameLength) }

/-- The limiter is left charged also where the envelope is refused. -/
def ingest (prim : Primitives) (mp : Processor) (m : Moment) (lim : Option RateLimiter)
    (st : Store) (env : MessageEnvelope) : Option RateLimiter × Py (Message × Store) :=
  match ChannelRepo.getById st env.channelId with
  | none => (lim, .error (messageError ("Channel " ++ env.channelId ++ " not found")))
  | some channel =>
    if maxMessageBodySize < (env.body.getD "").utf8ByteSize then
      (lim, .error (messageError "Message body exceeds maximum size"))
    else
      let r := checkPermissions mp lim st (truncateDisplayName env) channel m.now
      (r.1, do
        let env ← r.2
        route prim mp m st env channel)

end Hokora.MessageProcessor
