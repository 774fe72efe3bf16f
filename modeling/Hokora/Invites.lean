import Hokora.IngestionSpec
import Hokora.Memberships

/-!
# Invites

Blocks, limits and redemption. The digest of a token is a parameter.
-/
namespace Hokora.Invites
open Database KeyedTable Memberships PyValue Repositories
open RoleRepo (getByName getIdentityRoles inScope)

def inviteRateLimitWindow : ℚ := 600
def inviteRateLimitMax : ℕ := 5
def inviteFailureBlockThreshold : ℕ := 3
def inviteFailureBlockDuration : ℚ := 3600
def maxInviteRateEntries : ℕ := 10000
def roleMember : String := "member"

structure Invite where
  tokenHash : String
  channelId : Option String := none
  createdBy : String
  maxUses : ℤ := 1
  uses : ℤ := 0
  usedBy : List String := []
  usedAt : List ℚ := []
  expiresAt : Option ℚ := none
  revoked : Bool := false

structure Attempts where
  identity : String
  times : List ℚ := []

structure BlockEntry where
  identity : String
  deadline : ℚ

structure InviteManager where
  redemptionAttempts : Table Attempts.identity := .empty
  failureAttempts : Table Attempts.identity := .empty
  blockedUntil : Table BlockEntry.identity := .empty

inductive RedeemError where
  | inviteError (text : String)
  | raised (e : PyError)
  deriving DecidableEq

def rateLimitExceeded (text : String) : RedeemError := .raised (.hokora .rateLimitExceeded text)

def Attempts.stale (maxAge now : ℚ) (a : Attempts) : Bool := a.times.all fun t => maxAge < now - t

def InviteManager.cleanupStale (mgr : InviteManager) (maxAge now : ℚ) : InviteManager where
  redemptionAttempts := mgr.redemptionAttempts.select fun a => !a.stale maxAge now
  failureAttempts := mgr.failureAttempts.select fun a => !a.stale maxAge now
  blockedUntil := mgr.blockedUntil.select fun b => !(b.deadline < now)

def recent (now : ℚ) (times : List ℚ) : List ℚ :=
  times.filter fun t => now - t < inviteRateLimitWindow

def timesOf (t : Table Attempts.identity) (identityHash : String) : List ℚ :=
  ((t.get? identityHash).map Attempts.times).getD []

def InviteManager.checkRedeemBlock (mgr : InviteManager) (identityHash : String) (now : ℚ) :
    Except RedeemError Unit :=
  let deadline := ((mgr.blockedUntil.get? identityHash).map BlockEntry.deadline).getD 0
  if now < deadline then
    .error (rateLimitExceeded ("Blocked for " ++ toString ⌊deadline - now⌋ ++
      "s due to too many failed attempts"))
  else .ok ()

def withAttempt (now : ℚ) (a : Attempts) : Attempts := { a with times := a.times ++ [now] }

def InviteManager.checkRateLimit (mgr : InviteManager) (identityHash : String) (now : ℚ) :
    InviteManager × Except RedeemError Unit :=
  let attempts := recent now (timesOf mgr.redemptionAttempts identityHash)
  let mgr₁ := { mgr with
    redemptionAttempts := mgr.redemptionAttempts.set ⟨identityHash,attempts⟩ }
  if inviteRateLimitMax ≤ attempts.length then
    (mgr₁, .error (rateLimitExceeded "Too many redemption attempts"))
  else
    let mgr₂ := if maxInviteRateEntries ≤ mgr₁.redemptionAttempts.rows.length
      then mgr₁.cleanupStale 600 now else mgr₁
    if maxInviteRateEntries ≤ mgr₂.redemptionAttempts.rows.length then
      (mgr₂, .error (rateLimitExceeded "Too many tracked invite identities"))
    else
      ({ mgr₂ with redemptionAttempts :=
          mgr₂.redemptionAttempts.update identityHash (withAttempt now) fun _ => rfl }, .ok ())

def InviteManager.recordFailure (mgr : InviteManager) (identityHash : String) (now : ℚ) :
    InviteManager :=
  let failures := recent now (timesOf mgr.failureAttempts identityHash) ++ [now]
  let mgr₁ := if maxInviteRateEntries ≤ mgr.failureAttempts.rows.length
    then mgr.cleanupStale 600 now else mgr
  { mgr₁ with
    failureAttempts := mgr₁.failureAttempts.set ⟨identityHash,failures⟩
    blockedUntil := if inviteFailureBlockThreshold ≤ failures.length
      then mgr₁.blockedUntil.set ⟨identityHash,now + inviteFailureBlockDuration⟩
      else mgr₁.blockedUntil }

def bareToken (rawToken : String) : String :=
  String.ofList (rawToken.toList.takeWhile fun ch => ch ≠ ':')

def refusal (now : ℚ) (invite : Invite) : Option String :=
  if invite.revoked then some "Invite has been revoked"
  else if invite.expiresAt.any fun t => t ≠ 0 && t < now then some "Invite has expired"
  else if 0 < invite.maxUses && invite.maxUses ≤ invite.uses then
    some "Invite has reached max uses"
  else none

def redeemed (identityHash : String) (now : ℚ) (invite : Invite) : Invite :=
  { invite with
    uses := invite.uses + 1
    usedBy := invite.usedBy ++ [identityHash]
    usedAt := invite.usedAt ++ [now] }

def assignMember (st : Store) (identityHash : String) (channelId : Option String) : Py Store :=
  match getByName st roleMember with
  | none => .ok st
  | some role =>
    if (getIdentityRoles st identityHash channelId).any fun r => r.id = role.id then
      .ok st
    else assignRole st role.id identityHash channelId

structure InviteStore where
  db : GroupKeys.KeyStore
  invites : Table Invite.tokenHash := .empty

def acceptInvite (s : InviteStore) (invite : Invite) (identityHash : String) (now : ℚ) :
    Except RedeemError (Invite × InviteStore) :=
  match assignMember (touch s.db.store identityHash now) identityHash invite.channelId with
  | .error e => .error (.raised e)
  | .ok st =>
    .ok (redeemed identityHash now invite,
      { db := { s.db with store := st }
        invites := s.invites.update invite.tokenHash (redeemed identityHash now) fun _ => rfl })

def InviteManager.redeemToken (sha256Hex : String → String) (mgr : InviteManager) (s : InviteStore)
    (rawToken identityHash : String) (now : ℚ) :
    InviteManager × Except RedeemError (Invite × InviteStore) :=
  match s.invites.get? (sha256Hex (bareToken rawToken)) with
  | none => (mgr.recordFailure identityHash now, .error (.inviteError "Invalid invite token"))
  | some invite =>
    match refusal now invite with
    | some text => (mgr.recordFailure identityHash now, .error (.inviteError text))
    | none => (mgr, acceptInvite s invite identityHash now)

def InviteManager.redeemInvite (sha256Hex : String → String) (mgr : InviteManager) (s : InviteStore)
    (rawToken identityHash : String) (now : ℚ) :
    InviteManager × Except RedeemError (Invite × InviteStore) :=
  match Ban.checkNotBlocked s.db.store identityHash, mgr.checkRedeemBlock identityHash now with
  | .error e, _ => (mgr, .error (.raised e))
  | .ok (), .error e => (mgr, .error e)
  | .ok (), .ok () =>
    match mgr.checkRateLimit identityHash now with
    | (mgr', .error e) => (mgr', .error e)
    | (mgr', .ok ()) => mgr'.redeemToken sha256Hex s rawToken identityHash now

lemma redeemInvite_ok {sha256Hex : String → String} {mgr mgr' : InviteManager}
    {s s' : InviteStore} {rawToken i : String} {now : ℚ} {invite : Invite}
    (h : mgr.redeemInvite sha256Hex s rawToken i now = (mgr', .ok (invite, s'))) :
    Ban.isBlocked s.db.store i = false ∧
      ∃ found st, s.invites.get? (sha256Hex (bareToken rawToken)) = some found ∧
        invite = redeemed i now found ∧
        assignMember (touch s.db.store i now) i found.channelId = .ok st ∧
        s'.db = { s.db with store := st } := by
  unfold InviteManager.redeemInvite at h
  cases hba : Ban.checkNotBlocked s.db.store i with
  | error e =>
    simp only [hba] at h
    cases (Prod.ext_iff.mp h).2
  | ok u =>
    have hfr := Ban.checkNotBlocked_ok.mp hba
    refine ⟨hfr,?_⟩
    simp only [hba] at h
    cases hb : mgr.checkRedeemBlock i now with
    | error e =>
      simp only [hb] at h
      cases (Prod.ext_iff.mp h).2
    | ok u =>
      simp only [hb] at h
      rcases hr : mgr.checkRateLimit i now with ⟨mgr₁,outcome⟩
      simp only [hr] at h
      cases outcome with
      | error e => cases (Prod.ext_iff.mp h).2
      | ok u =>
        simp only at h
        unfold InviteManager.redeemToken at h
        split at h
        · cases (Prod.ext_iff.mp h).2
        next found hf =>
          split at h
          · cases (Prod.ext_iff.mp h).2
          have ha := (Prod.ext_iff.mp h).2
          simp only [acceptInvite] at ha
          split at ha
          · cases ha
          next st hst =>
            cases ha
            exact ⟨found,st,hf,rfl,hst,rfl⟩

/-! The question whether the member role is assigned already is asked in the scope that includes
the roles for the whole node. The membership gates ask for a role on the channel itself. -/

section Membership
variable {st st' : Store} {identityHash c : String} {role : Role}

lemma membershipGate_of_role {mp : MessageProcessor.Processor} {channel : Channel}
    (h : getIdentityRoles st identityHash (some channel.id) true ≠ []) :
    MessageProcessor.membershipGate mp st identityHash channel = .ok () := by
  have hr : (getIdentityRoles st identityHash (some channel.id) true).isEmpty = false := by
    rwa [List.isEmpty_eq_false_iff]
  simp [MessageProcessor.membershipGate,hr]

@[simp] lemma getIdentityRoles_touch {now : ℚ} {k : String} {scope : Option String}
    {strict : Bool} :
    getIdentityRoles (touch st k now) identityHash scope strict =
      getIdentityRoles st identityHash scope strict := by
  unfold touch upsertRow
  split <;> rfl

@[simp] lemma getByName_touch {now : ℚ} {k name : String} :
    getByName (touch st k now) name = getByName st name := by
  unfold touch upsertRow
  split <;> rfl

lemma getIdentityRoles_assignRole (hro : st.roles.get? role.id = some role)
    (h : assignRole st role.id identityHash (some c) = .ok st') :
    getIdentityRoles st' identityHash (some c) true ≠ [] := by
  simp only [assignRole,reduceCtorEq,if_false] at h
  split_ifs at h with hd hr
  cases h
  simp only [resolves,Option.all_some,Bool.and_eq_true] at hr
  obtain ⟨channel,hch⟩ := Option.isSome_iff_exists.mp hr.2
  have hk : channel.id = c := Table.get?_key hch
  have hc : c ≠ "" := hk ▸ channel.id_ne
  refine List.ne_nil_of_mem (RoleRepo.mem_getIdentityRoles.mpr
    ⟨⟨role.id,identityHash,some c⟩,by simp,rfl,?_,hro⟩)
  simp [inScope,hc]

/-- After a redemption for a channel the identity is a member of the channel exactly when it was
one before or had the member role in neither scope. -/
theorem redemption_grants_membership_iff {sha256Hex : String → String} {mgr mgr' : InviteManager}
    {s s' : InviteStore} {rawToken : String} {now : ℚ} {invite : Invite}
    (hrole : getByName s.db.store roleMember = some role)
    (h : mgr.redeemInvite sha256Hex s rawToken identityHash now = (mgr', .ok (invite, s')))
    (hc : invite.channelId = some c) :
    (getIdentityRoles s'.db.store identityHash (some c) true ≠ [] ↔
        getIdentityRoles s.db.store identityHash (some c) true ≠ [] ∨
          ∀ r ∈ getIdentityRoles s.db.store identityHash (some c), r.id ≠ role.id) ∧
      (getIdentityRoles s'.db.store identityHash (some c) true ≠ [] → ∀ mp channel, channel.id = c →
          MessageProcessor.membershipGate mp s'.db.store identityHash channel = .ok ()) := by
  obtain ⟨-,found,st,-,rfl,ha,hdb⟩ := redeemInvite_ok h
  have hf : found.channelId = some c := hc
  refine ⟨?_,fun hm mp channel hid => membershipGate_of_role (hid ▸ hm)⟩
  rw [hdb]
  rw [hf,assignMember,getByName_touch,hrole] at ha
  simp only [getIdentityRoles_touch] at ha
  split_ifs at ha with hh
  · -- The role is there already: nothing is written.
    cases ha
    have hn : ¬∀ r ∈ getIdentityRoles s.db.store identityHash (some c), r.id ≠ role.id := by
      simpa using hh
    simp [hn]
  have hfr : ∀ r ∈ getIdentityRoles s.db.store identityHash (some c), r.id ≠ role.id := by
    simpa using hh
  have hg : (touch s.db.store identityHash now).roles.get? role.id = some role := by
    have hr : (touch s.db.store identityHash now).roles = s.db.store.roles := by
      unfold touch upsertRow
      split <;> rfl
    rw [hr]
    exact Table.get?_of_mem (List.mem_of_find?_eq_some hrole)
  exact iff_of_true (getIdentityRoles_assignRole hg ha) (.inr hfr)

def invited (assignments : List RoleAssignment) : InviteStore where
  db := { store := {
    channels := .singleton { id := "club", accessMode := .privateAccess }
    roles := .singleton ⟨"r",roleMember,0⟩
    assignments := assignments } }
  invites := .singleton { tokenHash := "t", channelId := some "club", createdBy := "alice" }

theorem newcomer_becomes_member : ∃ mgr' invite s',
    InviteManager.redeemInvite id {} (invited []) "t" "bob" 1 = (mgr', .ok (invite, s')) ∧
      getIdentityRoles s'.db.store "bob" (some "club") true ≠ [] := by
  obtain ⟨mgr',invite,s',h,hc⟩ : ∃ mgr' invite s', InviteManager.redeemInvite id {} (invited [])
      "t" "bob" 1 = (mgr', .ok (invite, s')) ∧ invite.channelId = some "club" :=
    ⟨_,_,_,rfl,rfl⟩
  exact ⟨mgr',invite,s',h,(redemption_grants_membership_iff rfl h hc).1.mpr
    (.inr fun r hr => absurd hr List.not_mem_nil)⟩

theorem nodeMember_gains_nothing : ∃ mgr' invite s',
    InviteManager.redeemInvite id {} (invited [⟨"r","bob",none⟩]) "t" "bob" 1 =
        (mgr', .ok (invite, s')) ∧ invite.channelId = some "club" ∧ invite.uses = 1 ∧
      getIdentityRoles s'.db.store "bob" (some "club") true = [] :=
  ⟨_,_,_,rfl,rfl,rfl,rfl⟩

end Membership

end Hokora.Invites
