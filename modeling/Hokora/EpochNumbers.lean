import Hokora.KeyRotation

/-!
# Epoch numbers as names of keys

Commands, restarts and maintenance in any order. A channel that is sealed again starts at epoch one.
-/
namespace Hokora.EpochNumbers
open BigEndian Database GroupKeys KeyRotation KeyedTable List ReadHandlers Repositories
  SealedChannels TransitionRuns

inductive KeyCommand where
  | sealChannel (channelId : String) (draw : Option Draw) (now : ℚ)
  | unsealChannel (channelId : String)
  | rotateChannelKey (channelId : String) (draw : Draw) (now : ℚ)
  | restart (draw : String → Draw) (now : ℚ)
  | maintenance (call : Maintenance)
  | write (channelId : String) (plaintext nonce : Bytes)

def act (cipher : IdentityCipher) (node : String) (n : KeyNode) : KeyCommand → KeyNode
  | .sealChannel channelId draw now =>
    { n with db := sealChannel cipher node n.db channelId draw now }
  | .unsealChannel channelId => { n with db := unsealChannel n.db channelId }
  | .rotateChannelKey channelId draw now =>
    { n with db := rotateChannelKey cipher node n.db channelId draw now }
  | .restart draw now => n.withKeys (startKeys cipher node draw now n.db)
  | .maintenance call => checkSealedKeyRotation cipher node call n
  | .write _ _ _ => n

def nodeKeys (cipher : IdentityCipher) (node : String) (rows : List SealedKey) : List KeyInfo :=
  (rows.filter fun r => r.identityHash = node).filterMap (openRow cipher)

def usedKeys (aes : AesGcmEncrypt) (n : KeyNode) : KeyCommand → List KeyInfo
  | .write channelId plaintext nonce =>
    match n.ring.current.encrypt aes channelId plaintext nonce with
    | .ok (_, _, epoch) => [⟨channelId,(n.ring.current.getKey channelId).getD [],epoch⟩]
    | .error _ => []
  | _ => []

structure History where
  node : KeyNode
  persisted : List KeyInfo := []
  used : List KeyInfo := []

def step (aes : AesGcmEncrypt) (cipher : IdentityCipher) (node : String) (s : History)
    (e : KeyCommand) : History :=
  let n := act cipher node s.node e
  { node := n
    persisted := s.persisted ++ nodeKeys cipher node n.db.sealedKeys
    used := s.used ++ usedKeys aes s.node e }

/-- A channel and a number name one key, in the table and in the message rows. -/
def Identified (s : History) : Prop :=
  ∀ a ∈ s.persisted ++ s.used, ∀ b ∈ s.persisted,
    a.channelId = b.channelId → a.epoch = b.epoch → a.key = b.key

instance (s : History) : Decidable (Identified s) :=
  inferInstanceAs (Decidable (∀ a ∈ _, ∀ b ∈ _, _ → _ → _))

/-- A channel is sealed only if it never had a key, and the scheduled rotation finds the daemon
with the latest key of each channel whose turn it is. -/
def InOrder (node : String) (s : History) : KeyCommand → Prop
  | .sealChannel channelId _ _ => ∀ k ∈ s.persisted, k.channelId ≠ channelId
  | .maintenance call =>
    ∀ ch ∈ sealedChannels s.node.db.store,
      rotates s.node.db.store call s.node.db.sealedKeys ch.id = true →
        ∀ r ∈ keyRows s.node.db.sealedKeys ch.id node, r.epoch ≤ getEpoch s.node.ring ch.id
  | _ => True

instance (node : String) (s : History) : (e : KeyCommand) → Decidable (InOrder node s e)
  | .sealChannel _ _ _ => inferInstanceAs (Decidable (∀ k ∈ _, _))
  | .maintenance _ => inferInstanceAs (Decidable (∀ ch ∈ _, _ → ∀ r ∈ _, _))
  | .unsealChannel _ | .rotateChannelKey _ _ _ | .restart _ _ | .write _ _ _ => isTrue trivial

section
variable {cipher : IdentityCipher} {node : String} {flagged : Bool} {c : String}
  {P : Set KeyInfo} {v : ChannelView}

def opened (cipher : IdentityCipher) (node c : String) (rows : List SealedKey) : Set KeyInfo :=
  {k | ∃ r ∈ keyRows rows c node, openRow cipher r = some k}

structure Numbered (cipher : IdentityCipher) (node : String) (flagged : Bool) (c : String)
    (P : Set KeyInfo) (v : ChannelView) : Prop where
  unique : ∀ a ∈ P, ∀ b ∈ P, a.epoch = b.epoch → a = b
  opens : ∀ r ∈ keyRows v.rows c node, ∃ k ∈ P, openRow cipher r = some k
  latest : flagged = true → ∀ k ∈ P, ∃ r, latestKey v.rows c node = some r ∧ k.epoch ≤ r.epoch
  memory : ∀ info, v.current = some info → info ∈ P

/-- A step leaves the channel with more keys, all of which are now in the table. -/
def Extends (cipher : IdentityCipher) (node : String) (flagged : Bool) (c : String)
    (P : Set KeyInfo) (v : ChannelView) : Prop :=
  ∃ P', P ⊆ P' ∧ P' ⊆ P ∪ opened cipher node c v.rows ∧ Numbered cipher node flagged c P' v

lemma Numbered.extends (h : Numbered cipher node flagged c P v) :
    Extends cipher node flagged c P v :=
  ⟨P,Set.Subset.rfl,Set.subset_union_left,h⟩

lemma Extends.recorded (h : Extends cipher node flagged c P v) :
    Numbered cipher node flagged c (P ∪ opened cipher node c v.rows) v := by
  obtain ⟨P',hP,hP',hn⟩ := h
  have hop : opened cipher node c v.rows ⊆ P' := by
    rintro k ⟨r,hr,hk⟩
    obtain ⟨k',hk',ho⟩ := hn.opens r hr
    rw [hk] at ho
    exact Option.some.inj ho ▸ hk'
  have heq : P' = P ∪ opened cipher node c v.rows :=
    Set.Subset.antisymm hP' (Set.union_subset hP hop)
  exact heq ▸ hn

lemma Numbered.insert (hc : cipher.Correct) (h : Numbered cipher node flagged c P v)
    {info : KeyInfo} (hid : info.channelId = c) (hn : ∀ k ∈ P, k.epoch < info.epoch)
    (flagged' : Bool) {current : Option KeyInfo}
    (hcu : ∀ k, current = some k → k = info ∨ k ∈ P) (history : List KeyInfo) (eph : Bytes)
    (now : ℚ) : Extends cipher node flagged' c P
      ⟨current,history,v.rows ++ [keyRow cipher node info eph now]⟩ := by
  subst hid
  have ht : ∀ q ∈ keyRows v.rows info.channelId node, q.epoch ≤ info.epoch := by
    intro q hq
    obtain ⟨k,hk,ho⟩ := h.opens q hq
    have := hn k hk
    rw [(openRow_channel ho).2] at this
    exact this.le
  have hro : keyRows (v.rows ++ [keyRow cipher node info eph now]) info.channelId node =
      keyRow cipher node info eph now :: keyRows v.rows info.channelId node :=
    keyRows_append_top rfl rfl ht
  have ho := openRow_keyRow hc node info eph now
  refine ⟨Insert.insert info P,Set.subset_insert _ _,?_,?_,?_,?_,?_⟩
  · rintro k (rfl | hk)
    · refine .inr ⟨keyRow cipher node k eph now,?_,ho⟩
      rw [hro]
      exact mem_cons_self
    · exact .inl hk
  · rintro a (rfl | ha) b (rfl | hb) he
    · rfl
    · exact absurd he (hn b hb).ne'
    · exact absurd he (hn a ha).ne
    · exact h.unique a ha b hb he
  · intro r hr
    rw [hro] at hr
    rcases mem_cons.mp hr with rfl | hr
    · exact ⟨info,Set.mem_insert _ _,ho⟩
    · obtain ⟨k,hk,hr⟩ := h.opens r hr
      exact ⟨k,Set.mem_insert_of_mem _ hk,hr⟩
  · intro _ k hk
    refine ⟨_,latestKey_append_keyRow ht cipher eph now,?_⟩
    rcases hk with rfl | hk
    · exact Int.le_refl _
    · exact (hn k hk).le
  · intro k hk
    exact hcu k hk

lemma Numbered.le_latest (h : Numbered cipher node true c P v) {info : KeyInfo}
    (hro : (latestKey v.rows c node).bind (openRow cipher) = some info) :
    info ∈ P ∧ ∀ k ∈ P, k.epoch ≤ info.epoch := by
  obtain ⟨r,hr,ho⟩ := Option.bind_eq_some_iff.mp hro
  constructor
  · obtain ⟨k,hk,hk'⟩ := h.opens r (mem_of_head? hr)
    rw [ho] at hk'
    exact Option.some.inj hk' ▸ hk
  intro k hk
  obtain ⟨r',hr',hle⟩ := h.latest rfl k hk
  rw [hr] at hr'
  obtain rfl := Option.some.inj hr'
  rwa [(openRow_channel ho).2]

lemma Numbered.eq_empty (h : Numbered cipher node true c P v)
    (hro : (latestKey v.rows c node).bind (openRow cipher) = none) : ∀ k, k ∉ P := by
  intro k hk
  obtain ⟨r,hr,-⟩ := h.latest rfl k hk
  obtain ⟨k',-,ho⟩ := h.opens r (mem_of_head? hr)
  rw [hr,Option.bind_some,ho] at hro
  cases hro

lemma Numbered.start (hc : cipher.Correct) (h : Numbered cipher node true c P v)
    (draw : Draw) (now : ℚ) : Extends cipher node true c P
      (match (latestKey v.rows c node).bind (openRow cipher) with
      | some info => ⟨some info,[],v.rows⟩
      | none => ⟨some ⟨c,draw.key,1⟩,[],
          v.rows ++ [keyRow cipher node ⟨c,draw.key,1⟩ draw.ephemeral now]⟩) := by
  cases hr : (latestKey v.rows c node).bind (openRow cipher) with
  | some info =>
    refine Numbered.extends ⟨h.unique,h.opens,h.latest,?_⟩
    intro k hk
    exact Option.some.inj hk ▸ (h.le_latest hr).1
  | none =>
    refine h.insert hc rfl (fun k hk => absurd hk (h.eq_empty hr k)) true ?_ [] _ now
    intro k hk
    exact .inl (Option.some.inj hk).symm

lemma Numbered.rotate (hc : cipher.Correct) (h : Numbered cipher node true c P v)
    (hh : ∀ r ∈ keyRows v.rows c node, r.epoch ≤ (v.current.map KeyInfo.epoch).getD 0)
    (draw : Draw) (now : ℚ) :
    Extends cipher node true c P (rotatedView cipher node c draw now v) := by
  refine h.insert hc rfl ?_ true ?_ _ draw.ephemeral now
  · intro k hk
    obtain ⟨r,hr,hle⟩ := h.latest rfl k hk
    exact Int.lt_add_one_of_le (hle.trans (hh r (mem_of_head? hr)))
  · intro k hk
    exact .inl (Option.some.inj hk).symm

end

section
variable {aes : AesGcmEncrypt} {cipher : IdentityCipher} {node : String}

def everOf (s : History) (c : String) : Set KeyInfo := {k | k ∈ s.persisted ∧ k.channelId = c}

structure Sound (cipher : IdentityCipher) (node : String) (s : History) : Prop where
  used : ∀ u ∈ s.used, u ∈ s.persisted
  channels : ∀ c, Numbered cipher node (isSealed s.node.db.store c) c (everOf s c)
    (s.node.keys.view c)

lemma sound_start {st : Store} : Sound cipher node { node := { db := { store := st } } } := by
  refine ⟨fun u hu => absurd hu not_mem_nil,fun c => ⟨?_,?_,?_,?_⟩⟩
  · rintro a ⟨ha,-⟩
    cases ha
  · intro r hr
    cases hr
  · rintro - k ⟨hk,-⟩
    cases hk
  · intro info hi
    cases hi

variable {s : History} {n : KeyNode} {c : String}

lemma Sound.identified (h : Sound cipher node s) : Identified s := by
  intro a ha b hb hc he
  have hm : a ∈ s.persisted := (mem_append.mp ha).elim id (h.used a)
  rw [(h.channels b.channelId).unique a ⟨hm,hc⟩ b ⟨hb,rfl⟩ he]

lemma mem_nodeKeys {rows : List SealedKey} {k : KeyInfo} :
    (k ∈ nodeKeys cipher node rows ∧ k.channelId = c) ↔
      k ∈ opened cipher node c (channelRows rows c) := by
  unfold nodeKeys opened
  rw [keyRows_channelRows]
  constructor
  · rintro ⟨hk,rfl⟩
    obtain ⟨r,hr,ho⟩ := mem_filterMap.mp hk
    obtain ⟨hro,hn⟩ := mem_filter.mp hr
    exact ⟨r,mem_keyRows.mpr ⟨hro,(openRow_channel ho).1.symm,of_decide_eq_true hn⟩,ho⟩
  rintro ⟨r,hr,ho⟩
  obtain ⟨hro,hc,hn⟩ := mem_keyRows.mp hr
  refine ⟨mem_filterMap.mpr ⟨r,mem_filter.mpr ⟨hro,?_⟩,ho⟩,?_⟩
  · exact decide_eq_true hn
  · exact (openRow_channel ho).1.trans hc

lemma everOf_step {e : KeyCommand} : everOf (step aes cipher node s e) c = everOf s c ∪
      opened cipher node c ((act cipher node s.node e).keys.view c).rows := by
  ext k
  have hn : (k ∈ nodeKeys cipher node (act cipher node s.node e).db.sealedKeys ∧
      k.channelId = c) ↔ k ∈ opened cipher node c ((act cipher node s.node e).keys.view c).rows :=
    mem_nodeKeys
  constructor
  · rintro ⟨hk,hc⟩
    rcases mem_append.mp hk with ho | ha
    · exact .inl ⟨ho,hc⟩
    · exact .inr (hn.mp ⟨ha,hc⟩)
  rintro (⟨hk,hc⟩ | hk)
  · exact ⟨mem_append_left _ hk,hc⟩
  · obtain ⟨ha,hc⟩ := hn.mpr hk
    exact ⟨mem_append_right _ ha,hc⟩

lemma Sound.untouched (h : Sound cipher node s)
    (hf : isSealed n.db.store c = isSealed s.node.db.store c)
    (hv : n.keys.view c = s.node.keys.view c) :
    Extends cipher node (isSealed n.db.store c) c (everOf s c) (n.keys.view c) := by
  rw [hf,hv]
  exact (h.channels c).extends

lemma view_append {n' : KeyNode} {r : SealedKey} {ch : String}
    (hid : r.channelId = ch) (hr : n'.ring = n.ring)
    (hro : n'.db.sealedKeys = n.db.sealedKeys ++ [r]) (c : String) : n'.keys.view c =
      if ch = c then ⟨currentKey n.ring c,history n.ring c,(n.keys.view c).rows ++ [r]⟩
      else n.keys.view c := by
  simp only [KeyNode.keys,KeyState.view,hr,hro,channelRows_append,hid]
  split_ifs <;> rfl

lemma extends_seal (hci : cipher.Correct) (h : Sound cipher node s) {channelId : String}
    {draw : Option Draw} {now : ℚ} (hok : InOrder node s (.sealChannel channelId draw now))
    (c : String) :
    let n := act cipher node s.node (.sealChannel channelId draw now)
    Extends cipher node (isSealed n.db.store c) c (everOf s c) (n.keys.view c) := by
  intro n
  cases hch : ChannelRepo.getById s.node.db.store channelId with
  | none =>
    have hs : n = s.node := by
      simp [n,act,sealChannel,hch]
    rw [hs]
    exact (h.channels c).extends
  | some ch =>
    have hdb : n.db = { s.node.db with
        store := setSealed s.node.db.store channelId true
        sealedKeys := draw.elim s.node.db.sealedKeys fun d =>
          provisionSealedKey cipher node s.node.db.sealedKeys channelId d now } := by
      simp [n,act,sealChannel,hch]
    have hf : isSealed n.db.store c =
        if c = channelId then true else isSealed s.node.db.store c := by
      rw [hdb]
      exact isSealed_setSealed hch
    have he : c = channelId → ∀ k, k ∉ everOf s c := by
      rintro rfl k ⟨hk,hc⟩
      exact hok k hk hc
    cases draw with
    | none =>
      have hv : n.keys.view c = s.node.keys.view c := by
        rw [KeyNode.keys,hdb]
        rfl
      by_cases hc : c = channelId
      · rw [hv]
        have hn := h.channels c
        exact Numbered.extends ⟨hn.unique,hn.opens,fun _ k hk => absurd hk (he hc k),hn.memory⟩
      · exact h.untouched (by rw [hf,if_neg hc]) hv
    | some d =>
      have hr : n.db.sealedKeys = s.node.db.sealedKeys ++
          [keyRow cipher node ⟨channelId,d.key,1⟩ d.ephemeral now] := by
        rw [hdb]
        exact provisionSealedKey_rows cipher node _
      have hri : n.ring = s.node.ring := rfl
      have hid : (keyRow cipher node ⟨channelId,d.key,1⟩ d.ephemeral now).channelId =
        channelId := rfl
      have hv := view_append hid hri hr c
      by_cases hc : c = channelId
      · subst hc
        rw [hv,if_pos rfl]
        refine (h.channels c).insert hci rfl (fun k hk => absurd hk (he rfl k)) _ ?_ _ _ now
        intro k hk
        exact .inr ((h.channels c).memory k hk)
      · refine h.untouched (by rw [hf,if_neg hc]) ?_
        rw [hv]
        exact if_neg (Ne.symm hc)

lemma extends_unseal (h : Sound cipher node s) {channelId : String} :
    let n := act cipher node s.node (.unsealChannel channelId)
    Extends cipher node (isSealed n.db.store c) c (everOf s c) (n.keys.view c) := by
  intro n
  cases hch : ChannelRepo.getById s.node.db.store channelId with
  | none =>
    have hs : n = s.node := by
      simp [n,act,unsealChannel,hch]
    rw [hs]
    exact (h.channels c).extends
  | some ch =>
    have hdb : n.db = { s.node.db with
        store := setSealed s.node.db.store channelId false
        sealedKeys := s.node.db.sealedKeys.filter fun r => r.channelId ≠ channelId } := by
      simp [n,act,unsealChannel,hch]
    have hf : isSealed n.db.store c =
        if c = channelId then false else isSealed s.node.db.store c := by
      rw [hdb]
      exact isSealed_setSealed hch
    have hro : (n.keys.view c).rows =
        if c = channelId then [] else (s.node.keys.view c).rows := by
      rw [KeyNode.keys,hdb]
      show ((s.node.db.sealedKeys.filter fun r => decide (r.channelId ≠ channelId)).filter
        fun r => decide (r.channelId = c)) = _
      rw [filter_filter]
      split_ifs with hc
      · subst hc
        rw [filter_eq_nil_iff]
        intro r _
        simp
      apply filter_congr
      intro r _
      by_cases hr : r.channelId = c
      · simp [hr,hc]
      · simp [hr]
    by_cases hc : c = channelId
    · rw [if_pos hc] at hf hro
      refine Numbered.extends ⟨(h.channels c).unique,?_,?_,(h.channels c).memory⟩
      · intro r hr
        rw [hro] at hr
        cases hr
      rw [hf]
      intro hfa
      cases hfa
    · rw [if_neg hc] at hf hro
      refine h.untouched hf ?_
      have hcu : (n.keys.view c) = ⟨currentKey s.node.ring c,history s.node.ring c,
          (n.keys.view c).rows⟩ := rfl
      rw [hcu,hro]
      rfl

lemma extends_rotateChannelKey (hci : cipher.Correct) (h : Sound cipher node s)
    (ch : String) (draw : Draw) (now : ℚ) (c : String) :
    let n := act cipher node s.node (.rotateChannelKey ch draw now)
    Extends cipher node (isSealed n.db.store c) c (everOf s c) (n.keys.view c) := by
  intro n
  rcases rotateChannelKey_rows cipher node s.node.db ch draw now with
    hsa | ⟨info,hf,hro,hdb⟩
  · have hn : n = s.node := by
      simp [n,act,hsa]
    rw [hn]
    exact (h.channels c).extends
  have hr : n.db.sealedKeys = s.node.db.sealedKeys ++
      [keyRow cipher node ⟨ch,draw.key,info.epoch + 1⟩ draw.ephemeral now] := by
    simp [n,act,hdb]
  have hri : n.ring = s.node.ring := rfl
  have hid : (keyRow cipher node ⟨ch,draw.key,info.epoch + 1⟩ draw.ephemeral
    now).channelId = ch := rfl
  have hv := view_append hid hri hr c
  have hs : n.db.store = s.node.db.store := by
    simp [n,act,hdb]
  by_cases hc : ch = c
  · subst hc
    rw [hv,hs,if_pos rfl]
    have hnu := h.channels ch
    rw [hf] at hnu
    rw [← latestKey_channelRows] at hro
    refine hnu.insert hci rfl ?_ _ (fun k hk => .inr (hnu.memory k hk)) _ _ now
    intro k hk
    exact Int.lt_add_one_of_le ((hnu.le_latest hro).2 k hk)
  · refine h.untouched (by rw [hs]) ?_
    rw [hv]
    exact if_neg hc

lemma extends_restart (hc : cipher.Correct) (h : Sound cipher node s)
    (draw : String → Draw) (now : ℚ) (c : String) :
    let n := act cipher node s.node (.restart draw now)
    Extends cipher node (isSealed n.db.store c) c (everOf s c) (n.keys.view c) := by
  intro n
  have hn := h.channels c
  have hs : isSealed n.db.store c = isSealed s.node.db.store c := rfl
  rw [hs]
  by_cases hf : isSealed s.node.db.store c = true
  · obtain ⟨ch,hch,rfl⟩ := isSealed_iff.mp hf
    have hv : n.keys.view ch.id = _ := startKeys_view cipher node draw now hch
    rw [hf] at hn ⊢
    rw [hv,← latestKey_channelRows]
    exact hn.start hc (draw ch.id) now
  have hv : n.keys.view c = _ :=
    startKeys_view_unsealed cipher node draw now (not_isSealed hf)
  rw [hv]
  refine Numbered.extends ⟨hn.unique,hn.opens,hn.latest,?_⟩
  intro k hk
  cases hk

lemma extends_maintenance (hc : cipher.Correct) (h : Sound cipher node s)
    {call : Maintenance} (hok : InOrder node s (.maintenance call)) :
    let n := act cipher node s.node (.maintenance call)
    Extends cipher node (isSealed n.db.store c) c (everOf s c) (n.keys.view c) := by
  intro n
  have hv : n.keys.view c = _ := checkSealedKeyRotation_view cipher node call s.node c
  have hs : isSealed n.db.store c = isSealed s.node.db.store c := rfl
  by_cases ht : isSealed s.node.db.store c = true ∧
      rotates s.node.db.store call (s.node.keys.view c).rows c = true
  · rw [hv,if_pos ht,hs]
    obtain ⟨hf,hd⟩ := ht
    have hn := h.channels c
    rw [hf] at hn ⊢
    obtain ⟨ch,hch,rfl⟩ := isSealed_iff.mp hf
    refine hn.rotate hc ?_ _ _
    intro r hr
    have hr' : r ∈ keyRows s.node.db.sealedKeys ch.id node := by
      rw [← keyRows_channelRows]
      exact hr
    refine hok ch hch ?_ r hr'
    rw [← rotates_channelRows]
    exact hd
  · exact h.untouched hs (hv.trans (if_neg ht))

lemma usedKeys_current {e : KeyCommand} {u : KeyInfo} (h : u ∈ usedKeys aes n e) :
    currentKey n.ring u.channelId = some u := by
  cases e with
  | write channelId plaintext nonce =>
    unfold usedKeys SealedChannelManager.encrypt SealedChannelManager.getKey at h
    cases hc : n.ring.current.keys.get? channelId with
    | none =>
      simp only [hc] at h
      cases h
    | some info =>
      simp only [hc,Option.map_some,Option.getD_some,mem_singleton] at h
      have hid : info.channelId = channelId := Table.get?_key hc
      rw [h]
      subst hid
      exact hc
  | sealChannel _ _ _ => cases h
  | unsealChannel _ => cases h
  | rotateChannelKey _ _ _ => cases h
  | restart _ _ => cases h
  | maintenance _ => cases h

lemma sound_step (hc : cipher.Correct) (s : History) (e : KeyCommand)
    (h : Sound cipher node s) (hok : InOrder node s e) :
    Sound cipher node (step aes cipher node s e) := by
  refine ⟨?_,?_⟩
  · intro u hu
    refine mem_append_left _ ?_
    rcases mem_append.mp hu with ho | hn
    · exact h.used u ho
    · exact ((h.channels u.channelId).memory u (usedKeys_current hn)).1
  intro c
  rw [everOf_step]
  apply Extends.recorded
  cases e with
  | sealChannel channelId draw now => exact extends_seal hc h hok c
  | unsealChannel channelId => exact extends_unseal h
  | rotateChannelKey channelId draw now =>
    exact extends_rotateChannelKey hc h channelId draw now c
  | restart draw now => exact extends_restart hc h draw now c
  | maintenance call => exact extends_maintenance hc h hok
  | write channelId plaintext nonce => exact (h.channels c).extends

/-- In a run in which no channel is sealed a second time, and the scheduled rotation always finds
the daemon with the latest keys, a channel and a number name one key. -/
theorem epoch_numbers_identify (hcipher : cipher.Correct) (st : Store) {ls : List KeyCommand}
    (h : Guarded (step aes cipher node) (InOrder node) { node := { db := { store := st } } } ls) :
    Identified (run (step aes cipher node) { node := { db := { store := st } } } ls) :=
  (Guarded.invariant (sound_step hcipher) sound_start h).identified

end

def boardStore : Store where
  channels := .singleton { id := "board" }
  assignments := [{ roleId := "r", identityHash := "alice", channelId := some "board" }]

def boardStart : History := { node := { db := { store := boardStore } } }

def maintenanceAt (key : Bytes) (now : ℚ) : Maintenance :=
  { draw := fun _ => ⟨key,[]⟩, recalled := fun _ => true, router := fun _ => true, now := now }

def orderlyRun : List KeyCommand :=
  [.sealChannel "board" (some ⟨[1],[]⟩) 0, .restart (fun _ => ⟨[9],[]⟩) 1,
    .write "board" [42] [0], .rotateChannelKey "board" ⟨[2],[]⟩ 2,
    .restart (fun _ => ⟨[9],[]⟩) 3, .maintenance (maintenanceAt [3] 2678500),
    .write "board" [43] [0]]

theorem orderlyRun_identified :
    (run (step tagEncrypt openCipher "node") boardStart orderlyRun).used =
        [⟨"board",[1],1⟩, ⟨"board",[3],3⟩] ∧
      Identified (run (step tagEncrypt openCipher "node") boardStart orderlyRun) :=
  ⟨by decide +kernel,epoch_numbers_identify openCipher_correct boardStore (by decide +kernel)⟩

theorem sealed_again : ¬ Identified (run (step tagEncrypt openCipher "node") boardStart
      [.sealChannel "board" (some ⟨[1],[]⟩) 0, .restart (fun _ => ⟨[9],[]⟩) 1,
        .write "board" [42] [0], .unsealChannel "board",
        .sealChannel "board" (some ⟨[2],[]⟩) 2]) := by
  decide +kernel

example : ¬ Identified (run (step tagEncrypt openCipher "node") boardStart
      [.sealChannel "board" (some ⟨[1],[]⟩) 0, .restart (fun _ => ⟨[9],[]⟩) 1,
        .rotateChannelKey "board" ⟨[2],[]⟩ 2, .maintenance (maintenanceAt [3] 2678500)]) := by
  decide +kernel

end Hokora.EpochNumbers
