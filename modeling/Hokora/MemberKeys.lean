import Hokora.KeyDistribution

/-!
# The key that a member is served

Sequences of joins, invites and rotations, and the key that a member then asks for.
-/
namespace Hokora.MemberKeys
open BigEndian Database GroupKeys Invites KeyDistribution KeyRotation KeyedTable List Memberships
  ReadHandlers SealedChannels TransitionRuns

inductive MemberEvent where
  | assignRole (call : RoleAssign)
  | redeem (ctx : SyncContext) (token linkIdentity : Option String) (ephemeral : Bytes) (now : ℚ)
  | maintenance (call : Maintenance)
  | rotateChannelKey (channelId : String) (draw : Draw) (now : ℚ)

structure Network where
  cipher : IdentityCipher
  node : String
  sha256Hex : String → String

def step (w : Network) (s : MemberNode) : MemberEvent → MemberNode
  | .assignRole call =>
    { s with node := (assignRoleCommand w.cipher w.node s.node call).getD s.node }
  | .redeem ctx token linkIdentity ephemeral now =>
    (handleRedeemInvite w.cipher w.sha256Hex ctx s
      { token := token, requesterHash := linkIdentity, linkIdentity := linkIdentity,
        ephemeral := ephemeral, now := now }).1
  | .maintenance call => { s with node := checkSealedKeyRotation w.cipher w.node call s.node }
  | .rotateChannelKey channelId draw now =>
    { s with node := { s.node with
        db := rotateChannelKey w.cipher w.node s.node.db channelId draw now } }

def start (w : Network) (draw : String → Draw) (now : ℚ) (st : Store)
    (invites : Table Invite.tokenHash) : MemberNode :=
  { node := (KeyNode.mk { store := st } {} []).withKeys
      (startKeys w.cipher w.node draw now { store := st })
    invites := invites }

def latestOpened (w : Network) (rows : List SealedKey) (c : String) : Option KeyInfo :=
  (latestKey rows c w.node).bind (openRow w.cipher)

/-- Whoever is served a key of a sealed channel is served the node's latest one. -/
def ServesCurrent (w : Network) (db : KeyStore) : Prop :=
  ∀ ctx limiter requested channelId requester now limiter' resp,
    handleRequestSealedKey ctx limiter db requested channelId (some requester) now =
      (limiter', .ok resp) →
    ((ctx.channels.get? resp.channelId).all Channel.sealed) →
    ∃ info, latestOpened w db.sealedKeys resp.channelId = some info ∧ resp.epoch = some info.epoch ∧
      resp.encryptedKeyBlob.bind (w.cipher.decrypt requester) = some info.key

def NodeOnly (w : Network) (rows : List SealedKey) (c : String) : Prop :=
  ∀ q ∈ rows, q.channelId = c → q.identityHash = w.node

/-- A key is rotated only while no member has a row for the channel. The scheduled rotation and a
redemption find the daemon with the latest key of the channel. -/
def InStep (w : Network) (s : MemberNode) : MemberEvent → Prop
  | .assignRole _ => True
  | .redeem ctx token _ _ _ =>
    ∀ invite ∈ s.invites.get? (w.sha256Hex (bareToken (token.getD ""))),
      ∀ info ∈ invitedKey ctx s.node invite,
        latestOpened w s.node.db.sealedKeys info.channelId = some info
  | .maintenance call =>
    ∀ ch ∈ sealedChannels s.node.db.store,
      rotates s.node.db.store call s.node.db.sealedKeys ch.id = true →
        NodeOnly w s.node.db.sealedKeys ch.id ∧
          ∀ r ∈ keyRows s.node.db.sealedKeys ch.id w.node, r.epoch ≤ getEpoch s.node.ring ch.id
  | .rotateChannelKey channelId _ _ => NodeOnly w s.node.db.sealedKeys channelId

instance (w : Network) (rows : List SealedKey) (c : String) : Decidable (NodeOnly w rows c) :=
  inferInstanceAs (Decidable (∀ q ∈ _, _ → _))

instance (w : Network) (s : MemberNode) : (e : MemberEvent) → Decidable (InStep w s e)
  | .assignRole _ => isTrue trivial
  | .redeem _ _ _ _ _ => inferInstanceAs (Decidable (∀ invite ∈ _, ∀ info ∈ _, _))
  | .maintenance _ => inferInstanceAs (Decidable (∀ ch ∈ _, _ → _))
  | .rotateChannelKey channelId _ _ =>
    inferInstanceAs (Decidable (NodeOnly w s.node.db.sealedKeys channelId))

variable {w : Network} {rows : List SealedKey} {c : String}

structure Current (w : Network) (c : String) (rows : List SealedKey) : Prop where
  opens : ∀ r ∈ keyRows rows c w.node, ∃ info, openRow w.cipher r = some info
  members : ∀ q ∈ rows, q.channelId = c → q.identityHash ≠ w.node →
    ∃ info, latestOpened w rows c = some info ∧ q.epoch = info.epoch ∧
      w.cipher.decrypt q.identityHash q.encryptedKeyBlob = some info.key

lemma Current.of_channelRows {rows' : List SealedKey} (h : Current w c rows)
    (hr : channelRows rows' c = channelRows rows c) : Current w c rows' := by
  have hk : keyRows rows' c w.node = keyRows rows c w.node := by
    rw [← keyRows_channelRows,hr,keyRows_channelRows]
  have hl : latestOpened w rows' c = latestOpened w rows c := by
    unfold latestOpened latestKey
    rw [hk]
  constructor
  · rw [hk]
    exact h.opens
  intro q hq hc ho
  have hm : q ∈ channelRows rows' c := mem_filter.mpr ⟨hq,decide_eq_true hc⟩
  rw [hr] at hm
  rw [hl]
  exact h.members q (mem_filter.mp hm).1 hc ho

lemma Current.add (hci : w.cipher.Correct) (h : Current w c rows) {info : KeyInfo}
    (hl : latestOpened w rows info.channelId = some info) (i : String) (eph : Bytes) (now : ℚ) :
    Current w c (rows ++ [keyRow w.cipher i info eph now]) := by
  by_cases hc : info.channelId = c
  · subst hc
    have hop := openRow_keyRow hci i info eph now
    have hne : ∀ q ∈ rows ++ [keyRow w.cipher i info eph now],
        q.channelId = info.channelId → q.identityHash ≠ w.node →
        q.epoch = info.epoch ∧
          w.cipher.decrypt q.identityHash q.encryptedKeyBlob = some info.key := by
      intro q hq hqc ho
      rcases mem_append.mp hq with hol | ha
      · obtain ⟨info',hi',hq⟩ := h.members q hol hqc ho
        rw [hl] at hi'
        exact Option.some.inj hi' ▸ hq
      · rw [mem_singleton.mp ha]
        exact ⟨rfl,hci i eph info.key⟩
    by_cases hn : i = w.node
    · -- the node gets a second row with the number of its latest one
      subst hn
      have ht : ∀ q ∈ keyRows rows info.channelId w.node, q.epoch ≤ info.epoch := by
        intro q hq
        obtain ⟨r,hr,hr'⟩ := Option.bind_eq_some_iff.mp hl
        rw [(openRow_channel hr').2]
        exact latestKey_top hr hq
      have hro : keyRows (rows ++ [keyRow w.cipher w.node info eph now]) info.channelId
          w.node = keyRow w.cipher w.node info eph now ::
            keyRows rows info.channelId w.node := keyRows_append_top rfl rfl ht
      constructor
      · intro r hr
        rw [hro] at hr
        rcases mem_cons.mp hr with rfl | hr
        · exact ⟨info,hop⟩
        · exact h.opens r hr
      · intro q hq hqc ho
        refine ⟨info,?_,hne q hq hqc ho⟩
        rw [latestOpened,latestKey_append_keyRow ht]
        exact hop
    · have hk : keyRows (rows ++ [keyRow w.cipher i info eph now])
          info.channelId w.node = keyRows rows info.channelId w.node :=
        keyRows_append_other fun hrow => hn hrow.2
      constructor
      · rw [hk]
        exact h.opens
      intro q hq hqc ho
      refine ⟨info,?_,hne q hq hqc ho⟩
      unfold latestOpened latestKey
      rw [hk]
      exact hl
  · refine h.of_channelRows ?_
    rw [channelRows_append,if_neg]
    exact hc

lemma Current.rotate (hc : w.cipher.Correct) (h : Current w c rows)
    (hn : NodeOnly w rows c) {info : KeyInfo} (hid : info.channelId = c)
    (ht : ∀ r ∈ keyRows rows c w.node, r.epoch ≤ info.epoch) (eph : Bytes) (now : ℚ) :
    Current w c (rows ++ [keyRow w.cipher w.node info eph now]) := by
  have hro : keyRows (rows ++ [keyRow w.cipher w.node info eph now]) c w.node =
      keyRow w.cipher w.node info eph now :: keyRows rows c w.node :=
    keyRows_append_top hid rfl ht
  constructor
  · intro r hr
    rw [hro] at hr
    rcases mem_cons.mp hr with rfl | hr
    · exact ⟨info,openRow_keyRow hc w.node info eph now⟩
    · exact h.opens r hr
  intro q hq hqc ho
  rcases mem_append.mp hq with hol | ha
  · exact absurd (hn q hol hqc) ho
  · rw [mem_singleton.mp ha] at ho
    exact absurd rfl ho

lemma current_nil (w : Network) (c : String) : Current w c [] :=
  ⟨fun _ hr => absurd hr not_mem_nil,fun _ hq => absurd hq not_mem_nil⟩

lemma servesCurrent_of_current {db : KeyStore} (h : ∀ c, Current w c db.sealedKeys) :
    ServesCurrent w db := by
  intro ctx limiter requested channelId rq now limiter' resp hok hs
  rcases (handleRequestSealedKey_ok hok).2 with ⟨ch,hch,hf,-⟩ | ⟨-,row,hr,he,hb⟩
  · rw [hch] at hs
    have : ch.sealed = true := hs
    rw [hf] at this
    cases this
  obtain ⟨hm,hc,hid⟩ := latestKey_mem hr
  rw [he,hb,Option.bind_some]
  by_cases hn : rq = w.node
  · subst hn
    obtain ⟨info,hi⟩ := (h resp.channelId).opens row (mem_of_head? hr)
    refine ⟨info,?_,congrArg some (openRow_channel hi).2.symm,?_⟩
    · rw [latestOpened,hr]
      exact hi
    obtain ⟨key,hk,rfl⟩ := Option.map_eq_some_iff.mp hi
    rw [← hid]
    exact hk
  · obtain ⟨info,hi,hq,hk⟩ := (h resp.channelId).members row hm hc (hid ▸ hn)
    exact ⟨info,hi,congrArg some hq,hid ▸ hk⟩

lemma redeem_rows (cipher : IdentityCipher) (sha256Hex : String → String) (ctx : SyncContext)
    (s : MemberNode) (token linkIdentity : Option String) (eph : Bytes) (now : ℚ) :
    let s' := (handleRedeemInvite cipher sha256Hex ctx s ⟨token,linkIdentity,linkIdentity,
      eph,now⟩).1
    s'.node.db.sealedKeys = s.node.db.sealedKeys ∨
      ∃ invite info peer, s.invites.get? (sha256Hex (bareToken (token.getD ""))) = some invite ∧
        invitedKey ctx s.node invite = some info ∧
        s'.node.db.sealedKeys = s.node.db.sealedKeys ++ [keyRow cipher peer info eph now] := by
  unfold handleRedeemInvite
  split
  · exact .inl rfl
  · exact .inl rfl
  next rq tok hre hto =>
    obtain ⟨ht,-⟩ := present_eq_some.mp hto
    split
    · exact .inl rfl
    · exact .inl rfl
    next mgr invite r hok =>
      obtain ⟨-,found,st,hf,rfl,-,hdb⟩ := redeemInvite_ok hok
      have hr : r.db.sealedKeys = s.node.db.sealedKeys := by rw [hdb]
      unfold addInvitedKey
      split
      next info peer hi hp =>
        right
        have hs : rq = peer := by
          have hl : linkIdentity = some peer := hp
          rw [hl] at hre
          unfold present at hre
          by_cases he : peer = ""
          · simpa [Option.filter,he] using hre.symm
          · simpa [Option.filter,he] using hre.symm
        refine ⟨found,info,peer,?_,hi,?_⟩
        · have : token = some tok := ht
          rw [this]
          exact hf
        show r.db.sealedKeys ++ _ = _
        rw [hr,hs]
        rfl
      · exact .inl hr

lemma current_step (hci : w.cipher.Correct) (s : MemberNode) (e : MemberEvent)
    (h : ∀ c, Current w c s.node.db.sealedKeys) (hok : InStep w s e) (c : String) :
    Current w c (step w s e).node.db.sealedKeys := by
  cases e with
  | assignRole call =>
    cases hn : assignRoleCommand w.cipher w.node s.node call with
    | none =>
      simp only [step,hn]
      exact h c
    | some n' =>
      simp only [step,hn,Option.getD_some]
      rcases (assignRoleCommand_inv hn).2 with ⟨hro,-⟩ | ⟨k,info,-,hl,hro,-⟩
      · rw [hro]
        exact h c
      rw [hro]
      have hk : info.channelId = k := latestKey_opened hl
      exact (h c).add hci (hk ▸ hl) _ _ _
  | redeem ctx token linkIdentity eph now =>
    rcases redeem_rows w.cipher w.sha256Hex ctx s token linkIdentity eph now with
      hro | ⟨invite,info,peer,hi,hin,hro⟩
    · rw [step,hro]
      exact h c
    · rw [step,hro]
      exact (h c).add hci (hok invite hi info hin) _ _ _
  | maintenance call =>
    have hv := checkSealedKeyRotation_view w.cipher w.node call s.node c
    by_cases ht : isSealed s.node.db.store c = true ∧
        rotates s.node.db.store call (s.node.keys.view c).rows c = true
    · rw [if_pos ht] at hv
      obtain ⟨ch,hch,rfl⟩ := isSealed_iff.mp ht.1
      have hd : rotates s.node.db.store call s.node.db.sealedKeys ch.id = true := by
        rw [← rotates_channelRows]
        exact ht.2
      obtain ⟨hno,hto⟩ := hok ch hch hd
      let info : KeyInfo := ⟨ch.id,(call.draw ch.id).key,getEpoch s.node.ring ch.id + 1⟩
      have hrot : Current w ch.id (s.node.db.sealedKeys ++
          [keyRow w.cipher w.node info (call.draw ch.id).ephemeral call.now]) :=
        (h ch.id).rotate hci hno rfl (fun r hr => Int.le_add_one (hto r hr)) _ _
      refine hrot.of_channelRows ?_
      rw [channelRows_append,if_pos]
      · exact congrArg ChannelView.rows hv
      · rfl
    · rw [if_neg ht] at hv
      exact (h c).of_channelRows (congrArg ChannelView.rows hv)
  | rotateChannelKey channelId draw now =>
    rcases rotateChannelKey_rows w.cipher w.node s.node.db channelId draw now with
      hs | ⟨info,-,hrow,hdb⟩
    · simp only [step,hs]
      exact h c
    simp only [step,hdb]
    by_cases hc : channelId = c
    · subst hc
      refine (h channelId).rotate hci hok rfl ?_ _ _
      intro q hq
      obtain ⟨r,hr,ho⟩ := Option.bind_eq_some_iff.mp hrow
      have hle := latestKey_top hr hq
      rw [← (openRow_channel ho).2] at hle
      exact Int.le_add_one hle
    · refine (h c).of_channelRows ?_
      rw [channelRows_append,if_neg]
      exact hc

lemma current_start (hc : w.cipher.Correct) {draw : String → Draw} {now : ℚ} {st : Store}
    {invites : Table Invite.tokenHash} (c : String) :
    Current w c (start w draw now st invites).node.db.sealedKeys := by
  let db : KeyStore := { store := st }
  by_cases hf : isSealed st c = true
  · obtain ⟨ch,hch,rfl⟩ := isSealed_iff.mp hf
    have hv : (startKeys w.cipher w.node draw now db).view ch.id = _ :=
      startKeys_view w.cipher w.node draw now hch
    let info : KeyInfo := ⟨ch.id,(draw ch.id).key,1⟩
    have hfi : Current w ch.id ([] ++ [keyRow w.cipher w.node info (draw ch.id).ephemeral now]) :=
      (current_nil w ch.id).rotate hc (fun q hq => absurd hq not_mem_nil) rfl
        (fun r hr => absurd hr not_mem_nil) _ _
    refine hfi.of_channelRows ?_
    rw [channelRows_append,if_pos]
    · exact congrArg ChannelView.rows hv
    · rfl
  · have hv : (startKeys w.cipher w.node draw now db).view c = _ :=
      startKeys_view_unsealed w.cipher w.node draw now (not_isSealed hf)
    exact (current_nil w c).of_channelRows (congrArg ChannelView.rows hv)

/-- In a run in which keys are rotated only while no member has one, and the daemon has the latest
key whenever it rotates or hands one out, whoever is served a key is served the latest one. -/
theorem members_served_current (hcipher : w.cipher.Correct) (draw : String → Draw) (now : ℚ)
    (st : Store) (invites : Table Invite.tokenHash) {ls : List MemberEvent}
    (h : Guarded (step w) (InStep w) (start w draw now st invites) ls) :
    ServesCurrent w (run (step w) (start w draw now st invites) ls).node.db :=
  servesCurrent_of_current (Guarded.invariant
    (I := fun s : MemberNode => ∀ c, Current w c s.node.db.sealedKeys)
    (fun s e hs hok => current_step hcipher s e hs hok)
    (current_start hcipher) h)

def sampleNetwork : Network := ⟨openCipher,"node",id⟩

def secretsMembers : Store :=
  { secretsStore with roles := .singleton { id := "m", name := roleMember } }

def secretsInvites : Table Invite.tokenHash :=
  .singleton { tokenHash := "t", channelId := some "secrets", createdBy := "node" }

def sampleContext : SyncContext := { channels := .singleton secrets }

def secretsStart : MemberNode :=
  start sampleNetwork (fun _ => ⟨[1],[]⟩) 0 secretsMembers secretsInvites

def aliceAssigned : MemberEvent :=
  .assignRole
    { roleName := roleMember, identityHash := "alice", channelId := some "secrets",
      known := true, now := 3 }

def bobInvited : MemberEvent := .redeem sampleContext (some "t") (some "bob") [] 4

def requested (s : MemberNode) (requester : String) : Option SealedKeyResponse :=
  (handleRequestSealedKey sampleContext none s.node.db (some "secrets") none (some requester)
    5).2.toOption

theorem first_member_served : requested (run (step sampleNetwork) secretsStart
        [.rotateChannelKey "secrets" ⟨[2],[]⟩ 2, aliceAssigned]) "alice" =
        some ⟨"secrets",some 2,some [2]⟩ ∧
      ServesCurrent sampleNetwork (run (step sampleNetwork) secretsStart
        [.rotateChannelKey "secrets" ⟨[2],[]⟩ 2, aliceAssigned]).node.db :=
  ⟨by decide +kernel,members_served_current openCipher_correct _ _ _ _ (by decide +kernel)⟩

theorem member_served_old_key : requested (run (step sampleNetwork) secretsStart
        [aliceAssigned, .rotateChannelKey "secrets" ⟨[2],[]⟩ 4]) "alice" =
        some ⟨"secrets",some 1,some [1]⟩ ∧
      latestOpened sampleNetwork (run (step sampleNetwork) secretsStart
        [aliceAssigned, .rotateChannelKey "secrets" ⟨[2],[]⟩ 4]).node.db.sealedKeys "secrets" =
        some ⟨"secrets",[2],2⟩ := by
  decide +kernel

example : requested (run (step sampleNetwork) secretsStart
        [.rotateChannelKey "secrets" ⟨[2],[]⟩ 2, bobInvited]) "bob" =
      some ⟨"secrets",some 1,some [1]⟩ := by
  decide +kernel

end Hokora.MemberKeys
