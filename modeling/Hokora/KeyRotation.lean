import Hokora.GroupKeys

/-!
# Rotation of group keys

By schedule and by command. Both store a row for the node only; the schedule also sends the key to
the members.
-/
namespace Hokora.KeyRotation
open BigEndian Database GroupKeys KeyedTable PyValue ReadHandlers Repositories SealedChannels
  TransitionRuns
open ChannelRepo (getById)

def sealedKeyRotationDays : ℕ := 30

structure Envelope where
  channelId : String
  epoch : ℤ
  key : Bytes
  identityHash : String
  deriving DecidableEq

def Envelope.info (e : Envelope) : KeyInfo := ⟨e.channelId,e.key,e.epoch⟩

structure KeyNode where
  db : KeyStore
  ring : Keyring := {}
  sent : List Envelope := []

def KeyNode.keys (n : KeyNode) : KeyState := ⟨n.db.sealedKeys,n.ring⟩

def KeyNode.withKeys (n : KeyNode) (keys : KeyState) : KeyNode :=
  { n with db := { n.db with sealedKeys := keys.rows }, ring := keys.ring }

def KeyNode.withStore (n : KeyNode) (st : Store) : KeyNode :=
  { n with db := { n.db with store := st } }

def KeyNode.withPending (n : KeyNode) (pending : List PendingSealedDistribution) : KeyNode :=
  { n with db := { n.db with pending := pending } }

def KeyNode.addKey (n : KeyNode) (row : SealedKey) (envelope : Envelope) : KeyNode :=
  { n with
    db := { n.db with sealedKeys := n.db.sealedKeys ++ [row] }
    sent := n.sent ++ [envelope] }

def distributeKey (recalled : String → Bool) (ring : Keyring) (channelId : String)
    (memberHashes : List String) : Py (List Envelope) :=
  match currentKey ring channelId with
  | none => .error (.hokora .sealedChannelError ("No key for channel " ++ channelId))
  | some info =>
    .ok ((memberHashes.filter recalled).map fun member => ⟨channelId,info.epoch,info.key,member⟩)

def rotateAndDistribute (recalled : String → Bool) (ring : Keyring) (channelId : String)
    (key : Bytes)
    (memberHashes : List String) : Keyring × Py (List Envelope) :=
  let ring' := rotateKey ring channelId key
  (ring', distributeKey recalled ring' channelId memberHashes)

def getChannelMemberHashes (st : Store) (channelId : String) : List String :=
  ((st.assignments.filter fun a => a.channelId = some channelId).map
    RoleAssignment.identityHash).dedup

def rotationDue (rows : List SealedKey) (now : ℚ) (channelId : String) : Bool :=
  !(channelRows rows channelId).isEmpty &&
    (channelRows rows channelId).all fun r => r.createdAt < now - sealedKeyRotationDays * 86400

structure Maintenance where
  draw : String → Draw
  recalled : String → Bool
  router : String → Bool
  now : ℚ

def rotates (st : Store) (call : Maintenance) (rows : List SealedKey) (channelId : String) : Bool :=
  rotationDue rows call.now channelId && !(getChannelMemberHashes st channelId).isEmpty &&
    call.router channelId

structure Rotation where
  keys : KeyState
  sent : List Envelope

def rotateStale (cipher : IdentityCipher) (node : String) (st : Store) (call : Maintenance)
    (s : Rotation) (channel : Channel) : Rotation :=
  if rotates st call s.keys.rows channel.id then
    let draw := call.draw channel.id
    let r := rotateAndDistribute call.recalled s.keys.ring channel.id draw.key
      (getChannelMemberHashes st channel.id)
    { keys := persistCurrent cipher node { s.keys with ring := r.1 } channel.id draw.ephemeral
        call.now
      sent := s.sent ++ r.2.toOption.getD [] }
  else s

def checkSealedKeyRotation (cipher : IdentityCipher) (node : String) (call : Maintenance)
    (n : KeyNode) : KeyNode :=
  let r := run (rotateStale cipher node n.db.store call) ⟨n.keys,n.sent⟩ (sealedChannels n.db.store)
  { n.withKeys r.keys with sent := r.sent }

def withSealed (sealed : Bool) (channel : Channel) : Channel := { channel with sealed := sealed }

def setSealed (st : Store) (channelId : String) (sealed : Bool) : Store :=
  { st with channels := st.channels.update channelId (withSealed sealed) fun _ => rfl }

def rotateChannelKey (cipher : IdentityCipher) (node : String) (db : KeyStore) (channelId : String)
    (draw : Draw) (now : ℚ) : KeyStore :=
  if isSealed db.store channelId then
    let ring := loadKeys cipher node db {}
    if (ring.current.getKey channelId).getD [] = [] then db
    else { db with sealedKeys :=
      (rotateAndPersist cipher node ⟨db.sealedKeys,ring⟩ channelId draw now).rows }
  else db

def provisionSealedKey (cipher : IdentityCipher) (node : String) (rows : List SealedKey)
    (channelId : String) (draw : Draw) (now : ℚ) : List SealedKey :=
  (persistCurrent cipher node ⟨rows,generateKey {} channelId draw.key⟩ channelId draw.ephemeral
    now).rows

def sealChannel (cipher : IdentityCipher) (node : String) (db : KeyStore) (channelId : String)
    (draw : Option Draw) (now : ℚ) : KeyStore :=
  match getById db.store channelId with
  | none => db
  | some _ =>
    { db with
      store := setSealed db.store channelId true
      sealedKeys := draw.elim db.sealedKeys fun d =>
        provisionSealedKey cipher node db.sealedKeys channelId d now }

def unsealChannel (db : KeyStore) (channelId : String) : KeyStore :=
  match getById db.store channelId with
  | none => db
  | some _ =>
    { db with
      store := setSealed db.store channelId false
      sealedKeys := db.sealedKeys.filter fun r => r.channelId ≠ channelId }

lemma isSealed_setSealed {st : Store} {channelId : String} {ch : Channel}
    (hch : getById st channelId = some ch) {sealed : Bool} {c : String} :
    isSealed (setSealed st channelId sealed) c =
      if c = channelId then sealed else isSealed st c := by
  have hg : getById (setSealed st channelId sealed) c =
      if c = channelId then (getById st c).map (withSealed sealed)
      else getById st c :=
    Table.get?_update st.channels channelId (withSealed sealed) (fun _ => rfl) c
  unfold isSealed
  rw [hg]
  split_ifs with hc
  · subst hc
    rw [hch]
    rfl
  · rfl

variable (cipher : IdentityCipher) (node : String) (st : Store) (call : Maintenance)
  (rows : List SealedKey)

lemma rotationDue_channelRows {now : ℚ} {ch : String} :
    rotationDue (channelRows rows ch) now ch = rotationDue rows now ch := by
  have hr : channelRows (channelRows rows ch) ch = channelRows rows ch := by
    unfold channelRows
    simp
  unfold rotationDue
  rw [hr]

lemma rotates_channelRows {ch : String} :
    rotates st call (channelRows rows ch) ch = rotates st call rows ch := by
  unfold rotates
  rw [rotationDue_channelRows]

lemma rotateAndDistribute_eq {recalled : String → Bool} {ring : Keyring} {ch : String}
    {key : Bytes} {memberHashes : List String} :
    rotateAndDistribute recalled ring ch key memberHashes =
      (rotateKey ring ch key, .ok ((memberHashes.filter recalled).map fun member =>
        ⟨ch,getEpoch ring ch + 1,key,member⟩)) := by
  unfold rotateAndDistribute distributeKey
  simp [currentKey_rotateKey]

def rotatedView (cipher : IdentityCipher) (node : String) (c : String) (draw : Draw) (now : ℚ)
    (v : ChannelView) : ChannelView :=
  let info : KeyInfo := ⟨c,draw.key,(v.current.map KeyInfo.epoch).getD 0 + 1⟩
  ⟨some info,v.current.elim v.history fun old => retained (v.history ++ [old]),
    v.rows ++ [keyRow cipher node info draw.ephemeral now]⟩

lemma rotateStale_view (s : Rotation) (channel : Channel) (c : String) :
    (rotateStale cipher node st call s channel).keys.view c =
      if channel.id = c ∧ rotates st call (s.keys.view c).rows c = true then
        rotatedView cipher node c (call.draw c) call.now (s.keys.view c)
      else s.keys.view c := by
  have hr : rotates st call (s.keys.view c).rows c = rotates st call s.keys.rows c :=
    rotates_channelRows st call s.keys.rows
  rw [hr]
  unfold rotateStale
  by_cases hd : rotates st call s.keys.rows channel.id = true
  · rw [if_pos hd]
    simp only [rotateAndDistribute_eq]
    have hv := rotateAndPersist_view cipher node s.keys channel.id (call.draw channel.id) call.now c
    unfold rotateAndPersist at hv
    rw [hv]
    by_cases hc : channel.id = c
    · subst hc
      rw [if_pos rfl,if_pos ⟨rfl,hd⟩]
      rfl
    · rw [if_neg hc,if_neg fun h => hc h.1]
  · rw [if_neg hd,if_neg]
    rintro ⟨rfl,h⟩
    exact hd h

lemma checkSealedKeyRotation_view (n : KeyNode) (c : String) :
    (checkSealedKeyRotation cipher node call n).keys.view c =
      if isSealed n.db.store c = true ∧ rotates n.db.store call (n.keys.view c).rows c = true then
        rotatedView cipher node c (call.draw c) call.now (n.keys.view c)
      else n.keys.view c := by
  have ho : ∀ (s : Rotation) (k : Channel), k.id ≠ c →
      (rotateStale cipher node n.db.store call s k).keys.view c = s.keys.view c := by
    intro s k hk
    rw [rotateStale_view,if_neg fun h => hk h.1]
  by_cases hf : isSealed n.db.store c = true
  · obtain ⟨ch,hch,rfl⟩ := isSealed_iff.mp hf
    refine run_sealedChannels (fun s : Rotation => s.keys.view ch.id) hch ho ?_
    intro t ht
    have hr : t.keys.view ch.id = n.keys.view ch.id := ht
    rw [rotateStale_view,hr]
    simp [hf]
  · rw [if_neg fun h => hf h.1]
    exact run_unsealed (fun s : Rotation => s.keys.view c) (not_isSealed hf) ho ⟨n.keys,n.sent⟩

lemma rotateChannelKey_rows (db : KeyStore) (c : String) (draw : Draw) (now : ℚ) :
    rotateChannelKey cipher node db c draw now = db ∨ ∃ info, isSealed db.store c = true ∧
        (latestKey db.sealedKeys c node).bind (openRow cipher) = some info ∧
        rotateChannelKey cipher node db c draw now = { db with
          sealedKeys := db.sealedKeys ++
            [keyRow cipher node ⟨c,draw.key,info.epoch + 1⟩ draw.ephemeral now] } := by
  unfold rotateChannelKey
  by_cases hf : isSealed db.store c = true
  · obtain ⟨ch,hch,rfl⟩ := isSealed_iff.mp hf
    have hc : currentKey (loadKeys cipher node db {}) ch.id =
        (latestKey db.sealedKeys ch.id node).bind (openRow cipher) := by
      rw [loadKeys_current cipher node hch]
      exact Option.or_none
    simp only
    split_ifs with hk
    · exact .inl rfl
    cases hr : (latestKey db.sealedKeys ch.id node).bind (openRow cipher) with
    | none =>
      rw [hr] at hc
      have hg : (loadKeys cipher node db {}).current.keys.get? ch.id = none := hc
      rw [SealedChannelManager.getKey,hg] at hk
      exact absurd rfl hk
    | some info =>
      rw [hr] at hc
      refine .inr ⟨info,hf,rfl,?_⟩
      rw [rotateAndPersist_rows,getEpoch_of_current hc]
  · rw [if_neg hf]
    exact .inl rfl

lemma provisionSealedKey_rows {ch : String} {draw : Draw} {now : ℚ} :
    provisionSealedKey cipher node rows ch draw now =
      rows ++ [keyRow cipher node ⟨ch,draw.key,1⟩ draw.ephemeral now] := by
  have hc : currentKey (generateKey {} ch draw.key) ch = some ⟨ch,draw.key,1⟩ := by
    rw [generateKey,currentKey_setCurrent,if_pos rfl]
    rfl
  simp [provisionSealedKey,persistCurrent,persistKey,hc]

end Hokora.KeyRotation
