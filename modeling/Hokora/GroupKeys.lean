import Hokora.ReadHandlers
import Hokora.TransitionRuns

/-!
# Group keys and their rows

The keys in memory and their encrypted rows. The cipher of an identity is a parameter.
-/
namespace Hokora.GroupKeys
open BigEndian Database KeyedTable List PyValue ReadHandlers Repositories SealedChannels
  TransitionRuns

def maxPreviousKeys : ℕ := 5

structure IdentityCipher where
  encrypt : String → Bytes → Bytes → Bytes
  decrypt : String → Bytes → Option Bytes

/-- An identity decrypts what was encrypted to it. -/
def IdentityCipher.Correct (cipher : IdentityCipher) : Prop :=
  ∀ identity ephemeral key,
    cipher.decrypt identity (cipher.encrypt identity ephemeral key) = some key

structure SealedKey where
  channelId : String
  epoch : ℤ
  encryptedKeyBlob : Bytes
  identityHash : String
  createdAt : ℚ

structure PendingSealedDistribution where
  id : ℕ
  channelId : String
  identityHash : String
  roleId : String
  retryCount : ℕ := 0

structure KeyStore where
  store : Store
  sealedKeys : List SealedKey := []
  pending : List PendingSealedDistribution := []

structure Draw where
  key : Bytes
  ephemeral : Bytes := []

def currentKey (ring : Keyring) (channelId : String) : Option KeyInfo :=
  ring.current.keys.get? channelId

def getEpoch (ring : Keyring) (channelId : String) : ℤ :=
  ((currentKey ring channelId).map KeyInfo.epoch).getD 0

def history (ring : Keyring) (channelId : String) : List KeyInfo :=
  ring.previousKeys.filter fun k => k.channelId = channelId

def setCurrent (ring : Keyring) (info : KeyInfo) : Keyring :=
  { ring with current := ⟨ring.current.keys.set info⟩ }

def setHistory (ring : Keyring) (channelId : String) (keys : List KeyInfo) : Keyring :=
  { ring with previousKeys := (ring.previousKeys.filter fun k => k.channelId ≠ channelId) ++ keys }

def generateKey (ring : Keyring) (channelId : String) (key : Bytes) : Keyring :=
  setCurrent ring ⟨channelId,key,getEpoch ring channelId + 1⟩

def retained (keys : List KeyInfo) : List KeyInfo := keys.drop (keys.length - maxPreviousKeys)

def rotateKey (ring : Keyring) (channelId : String) (key : Bytes) : Keyring :=
  let kept := match currentKey ring channelId with
    | none => ring
    | some info => setHistory ring channelId (retained (history ring channelId ++ [info]))
  generateKey kept channelId key

def epochGe (a b : SealedKey) : Prop := b.epoch ≤ a.epoch

instance : DecidableRel epochGe := fun _ _ => inferInstanceAs (Decidable (_ ≤ _))

instance : Std.Total epochGe := ⟨fun _ _ => Int.le_total _ _⟩

instance : IsTrans SealedKey epochGe := ⟨fun _ _ _ h h' => Int.le_trans h' h⟩

def keyRows (rows : List SealedKey) (channelId identityHash : String) : List SealedKey :=
  (rows.filter fun r =>
    r.channelId = channelId && r.identityHash = identityHash).reverse.insertionSort epochGe

def latestKey (rows : List SealedKey) (channelId identityHash : String) : Option SealedKey :=
  (keyRows rows channelId identityHash).head?

def keyRow (cipher : IdentityCipher) (identityHash : String) (info : KeyInfo) (ephemeral : Bytes)
    (now : ℚ) : SealedKey :=
  { channelId := info.channelId, epoch := info.epoch,
    encryptedKeyBlob := cipher.encrypt identityHash ephemeral info.key,
    identityHash := identityHash, createdAt := now }

def persistKey (cipher : IdentityCipher) (node : String) (rows : List SealedKey) (ring : Keyring)
    (channelId : String) (ephemeral : Bytes) (now : ℚ) : Py (List SealedKey) :=
  match currentKey ring channelId with
  | none => .error (.hokora .sealedChannelError ("No key for channel " ++ channelId))
  | some info => .ok (rows ++ [keyRow cipher node info ephemeral now])

def sealedChannels (st : Store) : List Channel := st.channels.rows.filter Channel.sealed

def isSealed (st : Store) (channelId : String) : Bool :=
  (ChannelRepo.getById st channelId).any Channel.sealed

def openRow (cipher : IdentityCipher) (r : SealedKey) : Option KeyInfo :=
  (cipher.decrypt r.identityHash r.encryptedKeyBlob).map fun key => ⟨r.channelId,key,r.epoch⟩

def loadExistingKey (cipher : IdentityCipher) (node : String) (rows : List SealedKey)
    (ring : Keyring) (channel : Channel) : Keyring :=
  match (latestKey rows channel.id node).bind (openRow cipher) with
  | none => ring
  | some info => setCurrent ring info

def loadExistingKeys (cipher : IdentityCipher) (node : String) (db : KeyStore) (ring : Keyring) :
    Keyring :=
  run (loadExistingKey cipher node db.sealedKeys) ring (sealedChannels db.store)

def loadKey (cipher : IdentityCipher) (node : String) (rows : List SealedKey) (ring : Keyring)
    (channel : Channel) : Keyring :=
  match (keyRows rows channel.id node).take (maxPreviousKeys + 1) with
  | [] => ring
  | latest :: older =>
    match openRow cipher latest with
    | none => ring
    | some info =>
      let keys := older.reverse.filterMap (openRow cipher)
      if keys = [] then setCurrent ring info
      else setHistory (setCurrent ring info) channel.id keys

def loadKeys (cipher : IdentityCipher) (node : String) (db : KeyStore) (ring : Keyring) : Keyring :=
  run (loadKey cipher node db.sealedKeys) ring (sealedChannels db.store)

structure KeyState where
  rows : List SealedKey
  ring : Keyring

def persistCurrent (cipher : IdentityCipher) (node : String) (s : KeyState) (channelId : String)
    (ephemeral : Bytes) (now : ℚ) : KeyState :=
  match persistKey cipher node s.rows s.ring channelId ephemeral now with
  | .ok rows => { s with rows := rows }
  | .error _ => s

def rotateAndPersist (cipher : IdentityCipher) (node : String) (s : KeyState) (channelId : String)
    (draw : Draw) (now : ℚ) : KeyState :=
  persistCurrent cipher node { s with ring := rotateKey s.ring channelId draw.key } channelId
    draw.ephemeral now

def bootstrapMissingKey (cipher : IdentityCipher) (node : String) (draw : String → Draw) (now : ℚ)
    (s : KeyState) (channel : Channel) : KeyState :=
  match currentKey s.ring channel.id with
  | some _ => s
  | none =>
    persistCurrent cipher node
      { s with ring := generateKey s.ring channel.id (draw channel.id).key } channel.id
      (draw channel.id).ephemeral now

def startKeys (cipher : IdentityCipher) (node : String) (draw : String → Draw) (now : ℚ)
    (db : KeyStore) : KeyState :=
  run (bootstrapMissingKey cipher node draw now)
    ⟨db.sealedKeys,loadExistingKeys cipher node db {}⟩ (sealedChannels db.store)

variable {cipher : IdentityCipher} {db : KeyStore} {ring : Keyring} {r : SealedKey}
  {st : Store} {c i : String} {rows : List SealedKey} {info : KeyInfo} {channel : Channel}

section Rows
variable {ch : String}

lemma currentKey_channel
    (h : currentKey ring ch = some info) : info.channelId = ch := Table.get?_key h

@[simp] lemma currentKey_setCurrent : currentKey (setCurrent ring info) ch =
      if info.channelId = ch then some info else currentKey ring ch :=
  Table.get?_set _ _ _

@[simp] lemma currentKey_setHistory {k : String}
    {keys : List KeyInfo} : currentKey (setHistory ring ch keys) k = currentKey ring k := rfl

@[simp] lemma history_setCurrent : history (setCurrent ring info) ch = history ring ch := rfl

lemma history_channel {k : KeyInfo} (h : k ∈ history ring ch) : k.channelId = ch := by
  simpa using (mem_filter.mp h).2

lemma history_setHistory {keys : List KeyInfo} (hke : ∀ k ∈ keys, k.channelId = ch) :
    history (setHistory ring ch keys) c =
      if c = ch then keys else history ring c := by
  unfold history setHistory
  rw [filter_append,filter_filter]
  split_ifs with hc
  · subst hc
    have hn : (ring.previousKeys.filter fun k =>
        decide (k.channelId = c) && decide (k.channelId ≠ c)) = [] := by
      simp
    have hall : (keys.filter fun k => decide (k.channelId = c)) = keys := by
      rw [filter_eq_self]
      intro k hk
      simpa using hke k hk
    rw [hn,hall,nil_append]
  have hs : (ring.previousKeys.filter fun k =>
      decide (k.channelId = c) && decide (k.channelId ≠ ch)) =
      ring.previousKeys.filter fun k => k.channelId = c := by
    apply filter_congr
    intro k _
    by_cases hk : k.channelId = c
    · simp [hk,hc]
    · simp [hk]
  have hn : (keys.filter fun k => decide (k.channelId = c)) = [] := by
    rw [filter_eq_nil_iff]
    intro k hk
    have := hke k hk
    simp [this,Ne.symm hc]
  rw [hs,hn,append_nil]

lemma getEpoch_of_current (h : currentKey ring ch = some info) : getEpoch ring ch = info.epoch := by
  rw [getEpoch,h]
  rfl

lemma retained_subset {keys : List KeyInfo} {k : KeyInfo} (h : k ∈ retained keys) : k ∈ keys :=
  mem_of_mem_drop h

lemma currentKey_rotateKey {key : Bytes} : currentKey (rotateKey ring ch key) c =
      if ch = c then some ⟨ch,key,getEpoch ring ch + 1⟩
      else currentKey ring c := by
  unfold rotateKey generateKey
  cases hc : currentKey ring ch with
  | none => simp
  | some info =>
    simp [getEpoch]

lemma history_rotateKey {key : Bytes} : history (rotateKey ring ch key) c =
      if c = ch then
        match currentKey ring ch with
        | none => history ring c
        | some info => retained (history ring c ++ [info])
      else history ring c := by
  unfold rotateKey generateKey
  rw [history_setCurrent]
  cases hc : currentKey ring ch with
  | none => simp
  | some info =>
    have hke : ∀ k ∈ retained (history ring ch ++ [info]), k.channelId = ch := by
      intro k hk
      rcases mem_append.mp (retained_subset hk) with ho | hn
      · exact history_channel ho
      · rw [mem_singleton.mp hn]
        exact currentKey_channel hc
    rw [history_setHistory hke]
    split_ifs with h
    · subst h
      rfl
    · rfl

lemma mem_keyRows : r ∈ keyRows rows ch i ↔ r ∈ rows ∧ r.channelId = ch ∧ r.identityHash = i := by
  unfold keyRows
  rw [mem_insertionSort,mem_reverse,mem_filter,Bool.and_eq_true,
    decide_eq_true_eq,decide_eq_true_eq]

lemma keyRows_append_other (h : ¬ (r.channelId = ch ∧ r.identityHash = i)) :
    keyRows (rows ++ [r]) ch i = keyRows rows ch i := by
  have hn : ([r].filter fun r => decide (r.channelId = ch) &&
      decide (r.identityHash = i)) = [] := by
    rw [filter_eq_nil_iff]
    intro q hq
    rw [mem_singleton.mp hq]
    simpa using h
  unfold keyRows
  rw [filter_append,hn,append_nil]

lemma keyRows_append_top (hc : r.channelId = ch) (hi : r.identityHash = i)
    (ht : ∀ q ∈ keyRows rows ch i, q.epoch ≤ r.epoch) :
    keyRows (rows ++ [r]) ch i = r :: keyRows rows ch i := by
  have ho : ([r].filter fun r => decide (r.channelId = ch) &&
      decide (r.identityHash = i)) = [r] := by
    simp [hc,hi]
  have hs : keyRows (rows ++ [r]) ch i = List.orderedInsert epochGe r (keyRows rows ch i) := by
    unfold keyRows
    rw [filter_append,ho,reverse_append]
    rfl
  rw [hs]
  cases hr : keyRows rows ch i with
  | nil => rfl
  | cons q qs =>
    have hq : q.epoch ≤ r.epoch := ht q (by rw [hr]; exact mem_cons_self)
    exact orderedInsert_cons_of_le epochGe qs hq

lemma latestKey_mem
    (h : latestKey rows ch i = some r) : r ∈ rows ∧ r.channelId = ch ∧ r.identityHash = i :=
  mem_keyRows.mp (mem_of_head? h)

lemma latestKey_top {q : SealedKey} (h : latestKey rows ch i = some r)
    (hq : q ∈ keyRows rows ch i) : q.epoch ≤ r.epoch := by
  have hs : (keyRows rows ch i).Pairwise epochGe :=
    pairwise_insertionSort epochGe _
  obtain ⟨rest,hr⟩ := List.head?_eq_some_iff.mp h
  rw [hr] at hq hs
  rcases mem_cons.mp hq with rfl | hq
  · exact Int.le_refl _
  · exact rel_of_pairwise_cons hs hq

def channelRows (rows : List SealedKey) (channelId : String) : List SealedKey :=
  rows.filter fun r => r.channelId = channelId

lemma keyRows_channelRows {i : String} : keyRows (channelRows rows ch) ch i =
      keyRows rows ch i := by
  unfold keyRows channelRows
  rw [filter_filter]
  congr 2
  apply filter_congr
  intro r _
  by_cases hr : r.channelId = ch
  · simp [hr]
  · simp [hr]

lemma latestKey_append_keyRow {node : String}
    (ht : ∀ q ∈ keyRows rows info.channelId node, q.epoch ≤ info.epoch) (cipher : IdentityCipher)
    (eph : Bytes) (now : ℚ) :
    latestKey (rows ++ [keyRow cipher node info eph now]) info.channelId node =
      some (keyRow cipher node info eph now) := by
  have hf : keyRows (rows ++ [keyRow cipher node info eph now]) info.channelId node =
      keyRow cipher node info eph now :: keyRows rows info.channelId node :=
    keyRows_append_top rfl rfl ht
  rw [latestKey,hf]
  rfl

end Rows

variable {ch : Channel}

lemma latestKey_channelRows (rows : List SealedKey) (ch i : String) :
    latestKey (channelRows rows ch) ch i = latestKey rows ch i :=
  congrArg List.head? keyRows_channelRows

lemma sealedChannels_nodup {st : Store} : (sealedChannels st).Nodup :=
  (List.Nodup.of_map _ st.channels.keyed).filter _

lemma sealedChannels_id_ne {k : Channel} (hk : k ∈ sealedChannels st)
    (hch : ch ∈ sealedChannels st) (hne : k ≠ ch) : k.id ≠ ch.id := by
  intro hid
  exact hne (inj_on_of_nodup_map st.channels.keyed (mem_filter.mp hk).1 (mem_filter.mp hch).1 hid)

lemma isSealed_iff : isSealed st c = true ↔ ∃ ch ∈ sealedChannels st, ch.id = c := by
  unfold isSealed sealedChannels ChannelRepo.getById
  rw [Option.any_eq_true]
  constructor
  · rintro ⟨ch,hg,hf⟩
    exact ⟨ch,mem_filter.mpr ⟨Table.get?_mem hg,hf⟩,Table.get?_key hg⟩
  rintro ⟨ch,hch,rfl⟩
  obtain ⟨hm,hf⟩ := mem_filter.mp hch
  exact ⟨ch,Table.get?_of_mem hm,hf⟩

lemma not_isSealed (h : isSealed st c ≠ true) : ∀ ch ∈ sealedChannels st, ch.id ≠ c :=
  fun ch hch hid => h (isSealed_iff.mpr ⟨ch,hch,hid⟩)

lemma run_sealedChannels {S V : Type} {step : S → Channel → S} (read : S → V)
    (hch : ch ∈ sealedChannels st)
    (ho : ∀ s (k : Channel), k.id ≠ ch.id → read (step s k) = read s) {v : V} {s : S}
    (how : ∀ t, read t = read s → read (step t ch) = v) :
    read (run step s (sealedChannels st)) = v := by
  refine run_read_once (I := fun _ => True) (Q := fun x => x = v) read (fun _ _ _ => trivial)
    sealedChannels_nodup hch ?_ trivial fun t _ ht => how t ht
  intro t _ k hk hne
  exact ho t k (sealedChannels_id_ne hk hch hne)

lemma run_unsealed {S V : Type} {step : S → Channel → S} (read : S → V)
    (hn : ∀ ch ∈ sealedChannels st, ch.id ≠ c)
    (ho : ∀ s (k : Channel), k.id ≠ c → read (step s k) = read s) (s : S) :
    read (run step s (sealedChannels st)) = read s :=
  run_read_kept (I := fun _ => True) read (fun _ _ _ => trivial)
    (fun t _ k hk => ho t k (hn k hk)) trivial

lemma openRow_channel (h : openRow cipher r = some info) :
    info.channelId = r.channelId ∧ info.epoch = r.epoch := by
  obtain ⟨key,-,rfl⟩ := Option.map_eq_some_iff.mp h
  exact ⟨rfl,rfl⟩

lemma latestKey_opened {ch : String} (h : (latestKey rows ch i).bind (openRow cipher) = some info) :
    info.channelId = ch := by
  obtain ⟨r,hr,ho⟩ := Option.bind_eq_some_iff.mp h
  exact (openRow_channel ho).1.trans (latestKey_mem hr).2.1

lemma openRow_keyRow (hc : cipher.Correct) (node : String) (info : KeyInfo)
    (eph : Bytes) (now : ℚ) :
    openRow cipher (keyRow cipher node info eph now) = some info := by
  unfold openRow keyRow
  rw [hc]
  rfl

variable (cipher) (node : String) (draw : String → Draw) (now : ℚ) (s : KeyState)

lemma loadExistingKey_current : currentKey (loadExistingKey cipher node rows ring channel) c =
      if channel.id = c then
        ((latestKey rows c node).bind (openRow cipher)).or (currentKey ring c)
      else currentKey ring c := by
  unfold loadExistingKey
  cases hro : (latestKey rows channel.id node).bind (openRow cipher) with
  | none =>
    split_ifs with hc
    · rw [← hc,hro]
      rfl
    · rfl
  | some info =>
    obtain ⟨r,hr,ho⟩ := Option.bind_eq_some_iff.mp hro
    have hid : info.channelId = channel.id :=
      (openRow_channel ho).1.trans (latestKey_mem hr).2.1
    rw [currentKey_setCurrent,hid]
    split_ifs with hc
    · rw [← hc,hro]
      rfl
    · rfl

lemma loadExistingKeys_current (hch : ch ∈ sealedChannels db.store) :
    currentKey (loadExistingKeys cipher node db ring) ch.id =
      ((latestKey db.sealedKeys ch.id node).bind (openRow cipher)).or (currentKey ring ch.id) := by
  refine run_sealedChannels (fun r => currentKey r ch.id) hch ?_ ?_
  · intro r k hk
    rw [loadExistingKey_current,if_neg hk]
  · intro r hr
    rw [loadExistingKey_current,if_pos rfl,hr]

lemma loadExistingKeys_current_unsealed
    (hc : ∀ ch ∈ sealedChannels db.store, ch.id ≠ c) (ring : Keyring) :
    currentKey (loadExistingKeys cipher node db ring) c = currentKey ring c := by
  refine run_unsealed (fun r => currentKey r c) hc ?_ ring
  intro r k hk
  rw [loadExistingKey_current,if_neg hk]

lemma loadKey_current : currentKey (loadKey cipher node rows ring channel) c =
      if channel.id = c then
        ((latestKey rows c node).bind (openRow cipher)).or (currentKey ring c)
      else currentKey ring c := by
  rw [← loadExistingKey_current]
  unfold loadKey loadExistingKey latestKey
  cases hr : keyRows rows channel.id node with
  | nil => rfl
  | cons latest rest =>
    simp only [take_succ_cons,List.head?_cons,Option.bind_some]
    cases openRow cipher latest with
    | none => rfl
    | some info =>
      simp only
      split_ifs
      · rfl
      · rw [currentKey_setHistory]

lemma loadKeys_current (hch : ch ∈ sealedChannels db.store) :
    currentKey (loadKeys cipher node db ring) ch.id =
      ((latestKey db.sealedKeys ch.id node).bind (openRow cipher)).or (currentKey ring ch.id) := by
  refine run_sealedChannels (fun r => currentKey r ch.id) hch ?_ ?_
  · intro r k hk
    rw [loadKey_current,if_neg hk]
  · intro r hr
    rw [loadKey_current,if_pos rfl,hr]

lemma loadExistingKey_history : history (loadExistingKey cipher node rows ring channel) c =
    history ring c := by
  unfold loadExistingKey
  split
  · rfl
  · rw [history_setCurrent]

lemma channelRows_append {r : SealedKey} {ch : String} : channelRows (rows ++ [r]) ch =
      if r.channelId = ch then channelRows rows ch ++ [r]
      else channelRows rows ch := by
  unfold channelRows
  split_ifs with h
  · simp [h]
  · simp [h]

structure ChannelView where
  current : Option KeyInfo
  history : List KeyInfo
  rows : List SealedKey

def KeyState.view (s : KeyState) (channelId : String) : ChannelView :=
  ⟨currentKey s.ring channelId,history s.ring channelId,channelRows s.rows channelId⟩

lemma persistCurrent_view {s : KeyState} {ch : String}
    (h : currentKey s.ring ch = some info) {cipher : IdentityCipher} {node : String}
    {eph : Bytes} {now : ℚ} :
    (persistCurrent cipher node s ch eph now).view c =
      if ch = c then
        { s.view c with rows := (s.view c).rows ++ [keyRow cipher node info eph now] }
      else s.view c := by
  have hid : (keyRow cipher node info eph now).channelId = ch := currentKey_channel h
  simp only [persistCurrent,persistKey,h,KeyState.view,channelRows_append,hid]
  split_ifs <;> rfl

lemma rotateAndPersist_rows {ch : String} {draw : Draw} {now : ℚ} :
    (rotateAndPersist cipher node s ch draw now).rows = s.rows ++
      [keyRow cipher node ⟨ch,draw.key,getEpoch s.ring ch + 1⟩ draw.ephemeral now] := by
  simp [rotateAndPersist,persistCurrent,persistKey,currentKey_rotateKey]

lemma rotateAndPersist_view (ch : String) (draw : Draw) (now : ℚ) (c : String) :
    (rotateAndPersist cipher node s ch draw now).view c =
      if ch = c then
        let info : KeyInfo := ⟨c,draw.key,getEpoch s.ring c + 1⟩
        ⟨some info,(s.view c).current.elim (s.view c).history fun old =>
            retained ((s.view c).history ++ [old]),
          (s.view c).rows ++ [keyRow cipher node info draw.ephemeral now]⟩
      else s.view c := by
  have hn : currentKey (rotateKey s.ring ch draw.key) ch =
      some ⟨ch,draw.key,getEpoch s.ring ch + 1⟩ := by
    rw [currentKey_rotateKey,if_pos rfl]
  unfold rotateAndPersist
  rw [persistCurrent_view hn]
  by_cases hc : ch = c
  · subst hc
    simp only [KeyState.view,hn,history_rotateKey,if_true]
    cases currentKey s.ring ch <;> rfl
  · simp [KeyState.view,currentKey_rotateKey,history_rotateKey,if_neg hc,if_neg (Ne.symm hc)]

lemma bootstrapMissingKey_view : (bootstrapMissingKey cipher node draw now s channel).view c =
      if channel.id = c ∧ currentKey s.ring c = none then
        { s.view c with
          current := some ⟨c,(draw c).key,1⟩
          rows := (s.view c).rows ++
            [keyRow cipher node ⟨c,(draw c).key,1⟩ (draw c).ephemeral now] }
      else s.view c := by
  unfold bootstrapMissingKey
  cases hcu : currentKey s.ring channel.id with
  | some info =>
    rw [if_neg]
    rintro ⟨rfl,hn⟩
    rw [hcu] at hn
    cases hn
  | none =>
    have he : getEpoch s.ring channel.id = 0 := by
      rw [getEpoch,hcu]
      rfl
    have hg : ∀ k, currentKey (generateKey s.ring channel.id (draw channel.id).key) k =
        if channel.id = k then some ⟨channel.id,(draw channel.id).key,1⟩
        else currentKey s.ring k := by
      intro k
      rw [generateKey,currentKey_setCurrent,he]
      rfl
    rw [persistCurrent_view (by rw [hg,if_pos rfl])]
    by_cases hc : channel.id = c
    · subst hc
      rw [if_pos rfl,if_pos ⟨rfl,hcu⟩]
      simp only [KeyState.view,hg,if_true]
      rfl
    · rw [if_neg hc,if_neg fun h => hc h.1]
      simp only [KeyState.view,hg,if_neg hc]
      rfl

lemma loadExistingKeys_history {db : KeyStore} :
    history (loadExistingKeys cipher node db ring) c = history ring c :=
  run_invariant (I := fun r => history r c = history ring c)
    (fun _ _ h => (loadExistingKey_history cipher node).trans h)
    rfl _

lemma startKeys_loaded (hch : ch ∈ sealedChannels db.store) :
    (KeyState.mk db.sealedKeys (loadExistingKeys cipher node db {})).view ch.id =
      ⟨(latestKey db.sealedKeys ch.id node).bind (openRow cipher),[],
        channelRows db.sealedKeys ch.id⟩ := by
  have hn : currentKey ({} : Keyring) ch.id = none := rfl
  simp only [KeyState.view,loadExistingKeys_current cipher node hch,loadExistingKeys_history,
    hn,Option.or_none]
  rfl

lemma startKeys_view (hch : ch ∈ sealedChannels db.store) :
    (startKeys cipher node draw now db).view ch.id =
      match (latestKey db.sealedKeys ch.id node).bind (openRow cipher) with
      | some info => ⟨some info,[],channelRows db.sealedKeys ch.id⟩
      | none => ⟨some ⟨ch.id,(draw ch.id).key,1⟩,[],channelRows db.sealedKeys ch.id ++
          [keyRow cipher node ⟨ch.id,(draw ch.id).key,1⟩ (draw ch.id).ephemeral now]⟩ := by
  refine run_sealedChannels (fun s : KeyState => s.view ch.id) hch ?_ ?_
  · intro s k hk
    rw [bootstrapMissingKey_view,if_neg fun h => hk h.1]
  intro s hs
  rw [startKeys_loaded cipher node hch] at hs
  have hc : currentKey s.ring ch.id = (latestKey db.sealedKeys ch.id node).bind (openRow cipher) :=
    congrArg ChannelView.current hs
  rw [bootstrapMissingKey_view,hc,hs]
  cases (latestKey db.sealedKeys ch.id node).bind (openRow cipher) with
  | some info => simp
  | none => simp

lemma startKeys_view_unsealed (hc : ∀ ch ∈ sealedChannels db.store, ch.id ≠ c) :
    (startKeys cipher node draw now db).view c = ⟨none,[],channelRows db.sealedKeys c⟩ := by
  have hl : currentKey (loadExistingKeys cipher node db {}) c = none :=
    loadExistingKeys_current_unsealed cipher node hc {}
  refine (run_unsealed (fun s : KeyState => s.view c) hc ?_ _).trans ?_
  · intro s k hk
    rw [bootstrapMissingKey_view,if_neg fun h => hk h.1]
  · simp only [KeyState.view,hl,loadExistingKeys_history]
    rfl

def secrets : Channel := { id := "secrets", sealed := true }

def secretsStore : Store := { channels := .singleton secrets }

def tagEncrypt : AesGcmEncrypt := fun key _ plaintext _ => key ++ plaintext

def tagPrimitives : ReadPrimitives :=
  { aesGcmDecrypt := fun key _ ciphertext _ =>
      if key.isPrefixOf ciphertext then some (ciphertext.drop key.length) else none
    decodeUtf8 := fun _ => some "text" }

lemma tagPrimitives_decrypt (key nonce pt aad : Bytes) :
    tagPrimitives.aesGcmDecrypt key nonce (tagEncrypt key nonce pt aad) aad =
      some pt := by
  simp [tagPrimitives,tagEncrypt]

def openCipher : IdentityCipher := ⟨fun _ _ key => key,fun _ blob => some blob⟩

lemma openCipher_correct : openCipher.Correct := fun _ _ _ => rfl

end Hokora.GroupKeys
