import Hokora.Invites
import Hokora.KeyRotation

/-!
# Distribution of group keys to members

Role commands, the queue, invites and requests as ways to a key. Which identities can be recalled is
given.
-/
namespace Hokora.KeyDistribution
open BigEndian Database GroupKeys Invites KeyRotation KeyedTable Memberships PushReceive PyValue
  RateLimit ReadHandlers Repositories SealedChannels TransitionRuns

def maxPendingDistributionRetries : ℕ := 5

inductive Outcome where
  | distributed (row : SealedKey) (envelope : Envelope)
  | deferred
  | failed

def distributeSealedKeyToIdentity (cipher : IdentityCipher) (node : String) (rows : List SealedKey)
    (channelId identityHash : String) (known : Bool) (ephemeral : Bytes) (now : ℚ) : Outcome :=
  match (latestKey rows channelId node).bind (openRow cipher) with
  | none => .failed
  | some info =>
    if known then .distributed (keyRow cipher identityHash info ephemeral now)
      ⟨channelId,info.epoch,info.key,identityHash⟩
    else .deferred

def enqueue (pending : List PendingSealedDistribution) (channelId identityHash roleId : String) :
    List PendingSealedDistribution :=
  if pending.any fun e => e.channelId = channelId && e.identityHash = identityHash &&
      e.roleId = roleId then pending
  else pending ++ [{ id := (pending.map PendingSealedDistribution.id).foldr max 0 + 1,
                     channelId := channelId, identityHash := identityHash, roleId := roleId }]

structure RoleAssign where
  roleName : String
  identityHash : String
  channelId : Option String := none
  known : Bool
  ephemeral : Bytes := []
  now : ℚ

def keyForMember (cipher : IdentityCipher) (node : String) (n : KeyNode) (call : RoleAssign)
    (roleId channelId : String) : Option KeyNode :=
  match keyRows n.db.sealedKeys channelId call.identityHash with
  | [] =>
    match distributeSealedKeyToIdentity cipher node n.db.sealedKeys channelId call.identityHash
      call.known call.ephemeral call.now with
    | .distributed row envelope => some (n.addKey row envelope)
    | .deferred =>
      some (n.withPending (enqueue n.db.pending channelId call.identityHash roleId))
    | .failed => some n
  | [_] => some n
  | _ => none

def assignRoleCommand (cipher : IdentityCipher) (node : String) (n : KeyNode) (call : RoleAssign) :
    Option KeyNode :=
  match RoleRepo.getByName n.db.store call.roleName with
  | none => some n
  | some role =>
    match assignRole (touch n.db.store call.identityHash call.now) role.id call.identityHash
      call.channelId with
    | .error _ => none
    | .ok st =>
      match call.channelId with
      | none => some (n.withStore st)
      | some c =>
        if isSealed st c then
          keyForMember cipher node (n.withStore st) call role.id c
        else some (n.withStore st)

structure Drain where
  identityHash : String
  known : ℕ → Bool
  ephemeral : ℕ → Bytes := fun _ => []
  now : ℚ

def evict (n : KeyNode) (entryId : ℕ) : KeyNode :=
  n.withPending (n.db.pending.filter fun e => e.id ≠ entryId)

def retried (e : PendingSealedDistribution) : PendingSealedDistribution :=
  { e with retryCount := e.retryCount + 1 }

def incrementRetry (n : KeyNode) (entryId : ℕ) : KeyNode :=
  n.withPending (n.db.pending.map fun e => if e.id = entryId then retried e else e)

def stillAssigned (st : Store) (identityHash : String) (entry : PendingSealedDistribution) : Bool :=
  st.assignments.any fun a => a.roleId = entry.roleId && a.identityHash = identityHash &&
    a.channelId = some entry.channelId

def drainEntry (cipher : IdentityCipher) (node : String) (call : Drain) (n : KeyNode)
    (entry : PendingSealedDistribution) : KeyNode :=
  if maxPendingDistributionRetries ≤ entry.retryCount then n
  else if stillAssigned n.db.store call.identityHash entry then
    match distributeSealedKeyToIdentity cipher node n.db.sealedKeys entry.channelId
      call.identityHash (call.known entry.id) (call.ephemeral entry.id) call.now with
    | .distributed row envelope => evict (n.addKey row envelope) entry.id
    | .deferred => incrementRetry n entry.id
    | .failed => incrementRetry n entry.id
  else evict n entry.id

def drainPendingSealedDistributions (cipher : IdentityCipher) (node : String) (call : Drain)
    (n : KeyNode) : KeyNode :=
  run (drainEntry cipher node call) n
    (n.db.pending.filter fun e => e.identityHash = call.identityHash)

structure Removal where
  roleId : String
  identityHash : String
  channelId : Option String := none
  rotates : Bool
  distributes : Bool
  key : Bytes
  recalled : String → Bool

def remainingHashes (st : Store) (channelId identityHash : String) : List String :=
  (st.assignments.filter fun a =>
    a.channelId = some channelId && a.identityHash ≠ identityHash).map RoleAssignment.identityHash

def rotateForRemaining (n : KeyNode) (call : Removal) (channelId : String) : KeyNode :=
  if call.distributes then
    let r := rotateAndDistribute call.recalled n.ring channelId call.key
      (remainingHashes n.db.store channelId call.identityHash)
    { n with ring := r.1, sent := n.sent ++ r.2.toOption.getD [] }
  else { n with ring := rotateKey n.ring channelId call.key }

def removeRole (n : KeyNode) (call : Removal) : KeyNode :=
  let a : RoleAssignment := ⟨call.roleId,call.identityHash,present call.channelId⟩
  if n.db.store.assignments.any fun b => decide (b = a) then
    let n' := n.withStore { n.db.store with assignments := n.db.store.assignments.erase a }
    match present call.channelId with
    | none => n'
    | some c =>
      if call.rotates && isSealed n'.db.store c then rotateForRemaining n' call c else n'
  else n

structure SealedKeyResponse where
  channelId : String
  epoch : Option ℤ
  encryptedKeyBlob : Option Bytes
  deriving DecidableEq

def limitKeyRequests (limiter : Option RateLimiter) (requester : String) (now : ℚ) :
    Option RateLimiter × Py Unit :=
  match limiter with
  | none => (none, .ok ())
  | some lim =>
    let r := lim.checkRateLimit requester now
    (some r.1, match r.2 with
      | .ok () => .ok ()
      | .error e => .error (syncError ("Rate limited: " ++ e.text)))

def serveSealedKey (db : KeyStore) (chId requester : String) : Py SealedKeyResponse :=
  if (RoleRepo.getIdentityRoles db.store requester (some chId) true).isEmpty then
    .error (permissionDenied "Not a member of this channel")
  else
    match latestKey db.sealedKeys chId requester with
    | none => .error (syncError "No sealed key available for this member")
    | some row => .ok ⟨chId,some row.epoch,some row.encryptedKeyBlob⟩

def handleRequestSealedKey (ctx : SyncContext) (limiter : Option RateLimiter) (db : KeyStore)
    (requested channelId requesterHash : Option String) (now : ℚ) :
    Option RateLimiter × Py SealedKeyResponse :=
  match requireChannelId requested channelId "No channel_id for request_sealed_key",
      present requesterHash with
  | .error e, _ => (limiter, .error e)
  | .ok _, none => (limiter, .error (syncError "Authentication required for sealed key request"))
  | .ok chId, some requester =>
    if (ctx.channels.get? chId).any fun ch => !ch.sealed then
      (limiter, .ok ⟨chId,none,none⟩)
    else
      match limitKeyRequests limiter requester now with
      | (limiter', .error e) => (limiter', .error e)
      | (limiter', .ok ()) => (limiter', serveSealedKey db chId requester)

lemma handleRequestSealedKey_ok {ctx : SyncContext} {limiter limiter' : Option RateLimiter}
    {db : KeyStore} {requested c : Option String} {rq : String} {now : ℚ}
    {resp : SealedKeyResponse}
    (h : handleRequestSealedKey ctx limiter db requested c (some rq) now =
      (limiter', .ok resp)) : present (requested.or c) = some resp.channelId ∧
      ((∃ ch, ctx.channels.get? resp.channelId = some ch ∧ ch.sealed = false ∧
          resp.encryptedKeyBlob = none) ∨
        RoleRepo.getIdentityRoles db.store rq (some resp.channelId) true ≠ [] ∧
          ∃ row, latestKey db.sealedKeys resp.channelId rq = some row ∧
            resp.epoch = some row.epoch ∧ resp.encryptedKeyBlob = some row.encryptedKeyBlob) := by
  unfold handleRequestSealedKey at h
  split at h
  · cases (Prod.ext_iff.mp h).2
  · cases (Prod.ext_iff.mp h).2
  next chId requester' hid hp =>
    obtain ⟨hso,-⟩ := present_eq_some.mp hp
    obtain rfl := Option.some.inj hso
    have hn := requireChannelId_ok hid
    split_ifs at h with hc
    · cases h
      rw [Option.any_eq_true] at hc
      obtain ⟨ch,hch,hf⟩ := hc
      exact ⟨hn,.inl ⟨ch,hch,by simpa using hf,rfl⟩⟩
    split at h
    · cases (Prod.ext_iff.mp h).2
    have hs := (Prod.ext_iff.mp h).2
    simp only [serveSealedKey] at hs
    split_ifs at hs with hr
    have hm : RoleRepo.getIdentityRoles db.store rq (some chId) true ≠ [] :=
      fun hni => hr (List.isEmpty_iff.mpr hni)
    cases hro : latestKey db.sealedKeys chId rq with
    | none =>
      simp only [hro] at hs
      cases hs
    | some row =>
      simp only [hro] at hs
      cases hs
      exact ⟨hn,.inr ⟨hm,row,hro,rfl,rfl⟩⟩

structure RedeemRequest where
  token : Option String
  requesterHash : Option String
  linkIdentity : Option String
  ephemeral : Bytes := []
  now : ℚ

structure RedeemResponse where
  channelId : Option String
  identityHash : String
  sealedKeyEpoch : Option ℤ

structure MemberNode where
  node : KeyNode
  invites : Table Invite.tokenHash := .empty
  manager : InviteManager := {}

def invitedKey (ctx : SyncContext) (n : KeyNode) (invite : Invite) : Option KeyInfo :=
  (present invite.channelId).bind fun c =>
    if (ctx.channels.get? c).any Channel.sealed then currentKey n.ring c else none

def addInvitedKey (cipher : IdentityCipher) (ctx : SyncContext) (n : KeyNode) (invite : Invite)
    (req : RedeemRequest) (requester : String) : KeyNode × Option ℤ :=
  match invitedKey ctx n invite, req.linkIdentity with
  | some info, some peer =>
    (n.addKey
      { channelId := info.channelId, epoch := info.epoch,
        encryptedKeyBlob := cipher.encrypt peer req.ephemeral info.key,
        identityHash := requester, createdAt := req.now }
      ⟨info.channelId,info.epoch,info.key,peer⟩, some info.epoch)
  | _, _ => (n, none)

def handleRedeemInvite (cipher : IdentityCipher) (sha256Hex : String → String) (ctx : SyncContext)
    (s : MemberNode) (req : RedeemRequest) : MemberNode × Py RedeemResponse :=
  match (present req.requesterHash).or req.linkIdentity, present req.token with
  | none, _ => (s, .error (syncError "Authentication required to redeem an invite"))
  | some _, none => (s, .error (syncError "No token provided for redeem_invite"))
  | some requester, some token =>
    match s.manager.redeemInvite sha256Hex ⟨s.node.db,s.invites⟩ token requester req.now with
    | (mgr, .error (.inviteError text)) =>
      ({ s with manager := mgr }, .error (syncError ("Invite redemption failed: " ++ text)))
    | (mgr, .error (.raised e)) =>
      ({ s with manager := mgr }, .error (if e = .hokora .rateLimitExceeded e.text then
            syncError ("Rate limited: " ++ e.text)
          else e))
    | (mgr, .ok (invite, r)) =>
      let added := addInvitedKey cipher ctx { s.node with db := r.db } invite req requester
      ({ node := added.1, invites := r.invites, manager := mgr },
        .ok ⟨invite.channelId,requester,added.2⟩)

lemma distributed_inv {cipher : IdentityCipher} {node ch i : String}
    {rows : List SealedKey} {known : Bool} {eph : Bytes} {now : ℚ} {row : SealedKey}
    {envelope : Envelope}
    (h : distributeSealedKeyToIdentity cipher node rows ch i known eph now =
      .distributed row envelope) :
    ∃ info, (latestKey rows ch node).bind (openRow cipher) = some info ∧
      row = keyRow cipher i info eph now ∧
      envelope = ⟨ch,info.epoch,info.key,i⟩ := by
  unfold distributeSealedKeyToIdentity at h
  split at h
  · cases h
  next info hi =>
    split_ifs at h
    cases h
    exact ⟨info,hi,rfl,rfl⟩

lemma assignRoleCommand_inv {cipher : IdentityCipher} {node : String} {n n' : KeyNode}
    {call : RoleAssign} (h : assignRoleCommand cipher node n call = some n') :
    n'.ring = n.ring ∧ (n'.db.sealedKeys = n.db.sealedKeys ∧ n'.sent = n.sent ∨
      ∃ c info, call.channelId = some c ∧
        (latestKey n.db.sealedKeys c node).bind (openRow cipher) = some info ∧
        n'.db.sealedKeys = n.db.sealedKeys ++
          [keyRow cipher call.identityHash info call.ephemeral call.now] ∧
        n'.sent = n.sent ++ [⟨c,info.epoch,info.key,call.identityHash⟩]) := by
  unfold assignRoleCommand at h
  split at h
  · cases h
    exact ⟨rfl,.inl ⟨rfl,rfl⟩⟩
  split at h
  · cases h
  split at h
  · cases h
    exact ⟨rfl,.inl ⟨rfl,rfl⟩⟩
  next c hc =>
    split_ifs at h
    · unfold keyForMember at h
      split at h
      · split at h
        next row envelope ho =>
          obtain ⟨info,hi,rfl,rfl⟩ := distributed_inv ho
          cases h
          exact ⟨rfl,.inr ⟨c,info,hc,hi,rfl,rfl⟩⟩
        · cases h
          exact ⟨rfl,.inl ⟨rfl,rfl⟩⟩
        · cases h
          exact ⟨rfl,.inl ⟨rfl,rfl⟩⟩
      · cases h
        exact ⟨rfl,.inl ⟨rfl,rfl⟩⟩
      · cases h
    · cases h
      exact ⟨rfl,.inl ⟨rfl,rfl⟩⟩

end Hokora.KeyDistribution
