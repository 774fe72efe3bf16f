import Hokora.GroupKeys

/-!
# Identities, role assignments and bans

A ban sets a flag and drops the queued keys; it removes no role.
-/
namespace Hokora.Memberships
open Database GroupKeys KeyedTable PyValue ReadHandlers Repositories
open IdentityRepo (getByHash isBlocked)

def seen (now : ℚ) (i : Identity) : Identity := { i with lastSeen := now }

def setBlocked (blocked : Bool) (i : Identity) : Identity := { i with blocked := blocked }

def upsertRow (st : Store) (identityHash : String) (f : Identity → Identity)
    (hf : ∀ i, (f i).hash = i.hash) (now : ℚ) : Store :=
  match st.identities.insert? (seen now (f { hash := identityHash })) with
  | some identities => { st with identities := identities }
  | none =>
    { st with identities := st.identities.update identityHash (fun i => seen now (f i)) hf }

def touch (st : Store) (identityHash : String) (now : ℚ) : Store :=
  upsertRow st identityHash id (fun _ => rfl) now

lemma getByHash_upsertRow (st : Store) (ih : String) (f : Identity → Identity)
    (hf : ∀ i, (f i).hash = i.hash) (now : ℚ) (k : String) :
    getByHash (upsertRow st ih f hf now) k =
      if k = ih then
        some (seen now (f ((getByHash st k).getD { hash := ih })))
      else getByHash st k := by
  have hke : (seen now (f { hash := ih })).hash = ih := hf _
  unfold upsertRow
  split
  next identities h =>
    have hg : getByHash { st with identities := identities } k =
        if (seen now (f { hash := ih })).hash = k then
          some (seen now (f { hash := ih }))
        else getByHash st k := Table.get?_insert? h k
    rw [hg,hke]
    by_cases hk : k = ih
    · have hn : getByHash st k = none := by
        rw [hk,← hke]
        exact Table.insert?_fresh h
      rw [if_pos hk.symm,if_pos hk,hn]
      rfl
    · rw [if_neg (Ne.symm hk),if_neg hk]
  next h =>
    have hg : (st.identities.update ih (fun i => seen now (f i)) hf).get? k =
        if k = ih then
          (getByHash st k).map fun i => seen now (f i)
        else getByHash st k :=
      Table.get?_update st.identities ih (fun i => seen now (f i)) hf k
    refine Eq.trans hg ?_
    split_ifs with hk
    · have hm := Table.insert?_eq_none.mp h
      rw [hke,← hk] at hm
      obtain ⟨i,hi⟩ := Option.isSome_iff_exists.mp hm
      have hi' : getByHash st k = some i := hi
      rw [hi']
      rfl
    · rfl

def resolves (st : Store) (a : RoleAssignment) : Bool :=
  (st.roles.get? a.roleId).isSome && (getByHash st a.identityHash).isSome &&
    a.channelId.all fun c => (ChannelRepo.getById st c).isSome

def assignRole (st : Store) (roleId identityHash : String) (channelId : Option String) : Py Store :=
  let a : RoleAssignment := ⟨roleId,identityHash,channelId⟩
  if st.assignments.any fun b => decide (b = a) then
    if channelId = none then .ok st else .error .integrityError
  else if resolves st a then .ok { st with assignments := st.assignments ++ [a] }
  else .error .integrityError

structure BanResult where
  target : String
  alreadyBlocked : Bool
  sealedChannels : List String
  pendingDropped : ℕ

def banned (db : KeyStore) (target actor : String) (now : ℚ) : KeyStore :=
  { db with
    store := AuditLogRepo.log (upsertRow db.store target (setBlocked true) (fun _ => rfl) now)
      { actor := actor, actionType := "identity_ban", target := some target, timestamp := now }
    pending := db.pending.filter fun e => e.identityHash ≠ target }

def ban (nodeOwnerHash : Option String) (db : KeyStore) (target actor : String) (now : ℚ) :
    Except String (BanResult × KeyStore) :=
  if target = "" then .error "Target identity hash is required"
  else if present nodeOwnerHash = some target then
    .error "Refusing to ban the node-owner identity"
  else
    let member (ch : Channel) := db.store.assignments.any fun a =>
      a.identityHash = target && a.channelId = some ch.id
    let queued := db.pending.filter fun e => e.identityHash = target
    .ok ({ target := target
           alreadyBlocked := isBlocked db.store target
           sealedChannels := ((GroupKeys.sealedChannels db.store).filter member).map Channel.id
           pendingDropped := queued.length },
      banned db target actor now)

variable {nodeOwnerHash : Option String} {db db' : KeyStore} {target actor : String}
  {result : BanResult}

lemma ban_ok {now : ℚ} (h : ban nodeOwnerHash db target actor now = .ok (result, db')) :
    target ≠ "" ∧ present nodeOwnerHash ≠ some target ∧ db' = banned db target actor now := by
  unfold ban at h
  split_ifs at h with ht ho
  cases h
  exact ⟨ht,ho,rfl⟩

lemma isBlocked_ban {now : ℚ} (h : ban nodeOwnerHash db target actor now = .ok (result, db')) :
    Ban.isBlocked db'.store target = true := by
  obtain ⟨ht,-,rfl⟩ := ban_ok h
  have hg := getByHash_upsertRow db.store target (setBlocked true) (fun _ => rfl) now target
  rw [if_pos rfl] at hg
  -- The audit log is written to another table.
  have hb : isBlocked (upsertRow db.store target (setBlocked true)
      (fun _ => rfl) now) target = true := by
    unfold isBlocked
    rw [hg]
    rfl
  unfold Ban.isBlocked
  rw [if_neg ht]
  exact hb

end Hokora.Memberships
