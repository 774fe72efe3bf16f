import Mathlib.Data.List.Dedup
import Hokora.KeyDistribution

/-!
# Group keys after a ban

Maintenance, role commands and the queue in any order. A ban removes no role.
-/
namespace Hokora.KeysAfterBan
open BigEndian Database GroupKeys Invites KeyDistribution KeyRotation KeyedTable Memberships
  ReadHandlers SealedChannels TransitionRuns
open List

inductive KeyEvent where
  | maintenance (call : Maintenance)
  | removeRole (call : Removal)
  | assignRole (call : RoleAssign)
  | drain (call : Drain)

def act (cipher : IdentityCipher) (node : String) (n : KeyNode) : KeyEvent → KeyNode
  | .maintenance call => checkSealedKeyRotation cipher node call n
  | .removeRole call => removeRole n call
  | .assignRole call => (assignRoleCommand cipher node n call).getD n
  | .drain call => drainPendingSealedDistributions cipher node call n

def newKeys (before after : Keyring) : List KeyInfo :=
  after.current.keys.rows.filter fun k => currentKey before k.channelId ≠ some k

structure Watch where
  node : KeyNode
  generated : List KeyInfo := []
  fresh : List Envelope := []

def step (cipher : IdentityCipher) (node : String) (s : Watch) (e : KeyEvent) : Watch :=
  let n := act cipher node s.node e
  let generated := s.generated ++ newKeys s.node.ring n.ring
  { node := n
    generated := generated
    fresh := s.fresh ++ (n.sent.drop s.node.sent.length).filter fun x =>
      generated.any fun k => decide (k = x.info) }

/-- The node's latest key of the channel was generated since the ban. -/
def LatestIsNew (cipher : IdentityCipher) (node : String) (s : Watch) (channelId : String) : Prop :=
  ∃ k ∈ s.generated, (latestKey s.node.db.sealedKeys channelId node).bind (openRow cipher) = some k

/-- The identity `h` is no recipient of a rotation, and it is given a channel's latest key only if
that key is older than the ban. -/
def Spares (cipher : IdentityCipher) (node h : String) (s : Watch) : KeyEvent → Prop
  | .maintenance call =>
    call.recalled h = true → ∀ ch ∈ sealedChannels s.node.db.store,
      rotates s.node.db.store call s.node.db.sealedKeys ch.id = true →
        h ∉ getChannelMemberHashes s.node.db.store ch.id
  | .removeRole call =>
    call.recalled h = true → call.identityHash ≠ h →
      ∀ c ∈ call.channelId, isSealed s.node.db.store c = true →
        h ∉ getChannelMemberHashes s.node.db.store c
  | .assignRole call =>
    call.identityHash = h → ∀ c ∈ call.channelId, ¬ LatestIsNew cipher node s c
  | .drain call =>
    call.identityHash = h → ∀ entry ∈ s.node.db.pending, entry.identityHash = h →
      ¬ LatestIsNew cipher node s entry.channelId

instance (cipher : IdentityCipher) (node : String) (s : Watch) (c : String) :
    Decidable (LatestIsNew cipher node s c) :=
  inferInstanceAs (Decidable (∃ k ∈ _, _))

instance (cipher : IdentityCipher) (node h : String) (s : Watch) :
    (e : KeyEvent) → Decidable (Spares cipher node h s e)
  | .maintenance _ => inferInstanceAs (Decidable (_ → ∀ ch ∈ _, _ → _))
  | .removeRole _ => inferInstanceAs (Decidable (_ → _ → ∀ c ∈ _, _ → _))
  | .assignRole _ => inferInstanceAs (Decidable (_ → ∀ c ∈ _, _))
  | .drain _ => inferInstanceAs (Decidable (_ → ∀ entry ∈ _, _ → _))

def Sends (P : Envelope → Prop) (n n' : KeyNode) : Prop :=
  ∃ added, n'.sent = n.sent ++ added ∧ ∀ x ∈ added, P x

variable {n : KeyNode}

lemma Sends.nothing {P : Envelope → Prop} {n' : KeyNode} (h : n'.sent = n.sent) : Sends P n n' :=
  ⟨[],by rw [h,append_nil],fun _ hx => absurd hx not_mem_nil⟩

variable {cipher : IdentityCipher} {node : String} {st : Store} {s : Rotation} {e : KeyEvent}

lemma rotateStale_sent {call : Maintenance} {ch : Channel} :
    ∃ added, (rotateStale cipher node st call s ch).sent = s.sent ++ added ∧
      ∀ x ∈ added, rotates st call s.keys.rows ch.id = true ∧ call.recalled x.identityHash = true ∧
        x.identityHash ∈ getChannelMemberHashes st ch.id := by
  unfold rotateStale
  split_ifs with hd
  · simp only [rotateAndDistribute_eq]
    refine ⟨_,rfl,?_⟩
    intro x hx
    obtain ⟨member,hm,rfl⟩ := mem_map.mp hx
    obtain ⟨hme,hr⟩ := mem_filter.mp hm
    exact ⟨hd,hr,hme⟩
  · exact ⟨[],(append_nil _).symm,fun x hx => absurd hx not_mem_nil⟩

lemma rotates_kept {call : Maintenance} {k ch : Channel} (hne : k.id ≠ ch.id) :
    rotates st call (rotateStale cipher node st call s k).keys.rows ch.id =
      rotates st call s.keys.rows ch.id := by
  have hv := rotateStale_view cipher node st call s k ch.id
  rw [if_neg fun h => hne h.1] at hv
  have hr : channelRows (rotateStale cipher node st call s k).keys.rows ch.id =
      channelRows s.keys.rows ch.id := congrArg ChannelView.rows hv
  rw [← rotates_channelRows,hr,rotates_channelRows]

variable {cipher : IdentityCipher} {h : String} {s : Watch}

lemma maintenance_sends {call : Maintenance}
    (hok : Spares cipher node h s (.maintenance call)) : Sends (fun x => x.identityHash ≠ h) s.node
      (checkSealedKeyRotation cipher node call s.node) := by
  let st := s.node.db.store
  let turn (r : Rotation) (ch : Channel) : Prop := rotates st call r.keys.rows ch.id = true →
    call.recalled h = true → h ∉ getChannelMemberHashes st ch.id
  have hg : Guarded (rotateStale cipher node st call) turn ⟨s.node.keys,s.node.sent⟩
      (sealedChannels st) := by
    refine Guarded.of_forall sealedChannels_nodup ?_ ?_
    · intro r k hk ch hch hne ht hd
      rw [rotates_kept (sealedChannels_id_ne hk hch hne)] at hd
      exact ht hd
    · intro ch hch hd hr
      exact hok hr ch hch hd
  refine Guarded.invariant (I := fun r : Rotation => ∃ added, r.sent = s.node.sent ++ added ∧
    ∀ x ∈ added, x.identityHash ≠ h) ?_ ⟨[],(append_nil _).symm,?_⟩ hg
  · rintro r ch ⟨added,hs,ha⟩ ht
    obtain ⟨more,hmo,hp⟩ := rotateStale_sent
    refine ⟨added ++ more,by rw [hmo,hs,append_assoc],?_⟩
    intro x hx
    rcases mem_append.mp hx with ho | hn
    · exact ha x ho
    rintro rfl
    obtain ⟨hd,hr,hm⟩ := hp x hn
    exact ht hd hr hm
  · intro x hx
    cases hx

lemma mem_remainingHashes {c i : String} (hm : h ∈ remainingHashes st c i) :
    h ≠ i ∧ h ∈ getChannelMemberHashes st c := by
  obtain ⟨a,ha,rfl⟩ := mem_map.mp hm
  obtain ⟨hm,hc⟩ := mem_filter.mp ha
  rw [Bool.and_eq_true,decide_eq_true_eq,decide_eq_true_eq] at hc
  refine ⟨hc.2,mem_dedup.mpr (mem_map_of_mem ?_)⟩
  exact mem_filter.mpr ⟨hm,decide_eq_true hc.1⟩

lemma removeRole_sends {call : Removal} (hok : Spares cipher node h s (.removeRole call)) :
    Sends (fun x => x.identityHash ≠ h) s.node (removeRole s.node call) := by
  unfold removeRole
  simp only
  split_ifs
  · split
    · exact .nothing rfl
    next c hc =>
      split_ifs with hr
      · unfold rotateForRemaining
        split_ifs
        · simp only [rotateAndDistribute_eq]
          refine ⟨_,rfl,?_⟩
          rintro x hx rfl
          obtain ⟨member,hm,rfl⟩ := mem_map.mp hx
          obtain ⟨hme,hre⟩ := mem_filter.mp hm
          obtain ⟨hne,hin⟩ := mem_remainingHashes hme
          rw [Bool.and_eq_true] at hr
          refine hok hre (Ne.symm hne) c (present_eq_some.mp hc).1 hr.2 ?_
          -- the assignments that remain were there before
          refine mem_dedup.mpr ?_
          obtain ⟨a,ha,rfl⟩ := mem_map.mp (mem_dedup.mp hin)
          obtain ⟨ha,hco⟩ := mem_filter.mp ha
          exact mem_map_of_mem (mem_filter.mpr ⟨mem_of_mem_erase ha,hco⟩)
        · exact .nothing rfl
      · exact .nothing rfl
  · exact .nothing rfl

lemma newKeys_self {ring : Keyring} : newKeys ring ring = [] := by
  unfold newKeys
  rw [filter_eq_nil_iff]
  intro k hk
  have hg : currentKey ring k.channelId = some k := Table.get?_of_mem hk
  simpa using hg

lemma drainEntry_inv {call : Drain} {entry : PendingSealedDistribution} :
    (drainEntry cipher node call n entry).ring = n.ring ∧
      ((drainEntry cipher node call n entry).db.sealedKeys = n.db.sealedKeys ∧
        (drainEntry cipher node call n entry).sent = n.sent ∨
      ∃ info, (latestKey n.db.sealedKeys entry.channelId node).bind (openRow cipher) = some info ∧
        (drainEntry cipher node call n entry).db.sealedKeys = n.db.sealedKeys ++
          [keyRow cipher call.identityHash info (call.ephemeral entry.id) call.now] ∧
        (drainEntry cipher node call n entry).sent = n.sent ++
          [⟨entry.channelId,info.epoch,info.key,call.identityHash⟩]) := by
  unfold drainEntry
  split_ifs
  · exact ⟨rfl,.inl ⟨rfl,rfl⟩⟩
  · split
    next row envelope ho =>
      obtain ⟨info,hi,rfl,rfl⟩ := distributed_inv ho
      exact ⟨rfl,.inr ⟨info,hi,rfl,rfl⟩⟩
    · exact ⟨rfl,.inl ⟨rfl,rfl⟩⟩
    · exact ⟨rfl,.inl ⟨rfl,rfl⟩⟩
  · exact ⟨rfl,.inl ⟨rfl,rfl⟩⟩

/-- The envelope is for the identity of the drain, and for another identity than the node it answers
a pending request with the node's latest key. -/
def Drained (cipher : IdentityCipher) (node : String) (call : Drain) (n : KeyNode)
    (x : Envelope) : Prop :=
  x.identityHash = call.identityHash ∧ (call.identityHash ≠ node →
    ∃ entry ∈ n.db.pending, entry.identityHash = call.identityHash ∧ entry.channelId = x.channelId ∧
      (latestKey n.db.sealedKeys x.channelId node).bind (openRow cipher) = some x.info)

lemma drain_sends {call : Drain} :
    (drainPendingSealedDistributions cipher node call n).ring = n.ring ∧
      Sends (Drained cipher node call n) n
        (drainPendingSealedDistributions cipher node call n) := by
  -- the rows that the drain adds are not the node's, so its latest keys stay the same
  let I (m : KeyNode) : Prop := m.ring = n.ring ∧ (call.identityHash ≠ node →
    ∀ c, latestKey m.db.sealedKeys c node = latestKey n.db.sealedKeys c node) ∧
      Sends (Drained cipher node call n) n m
  suffices hru : I (drainPendingSealedDistributions cipher node call n) from ⟨hru.1,hru.2.2⟩
  refine run_invariant_mem ?_ ⟨rfl,fun _ _ => rfl,.nothing rfl⟩
  · rintro m entry he ⟨hri,hl,added,hs,ha⟩
    obtain ⟨hp,hid⟩ := mem_filter.mp he
    obtain ⟨hr',⟨hr,hsa⟩ | ⟨info,hi,hr,hn⟩⟩ :=
      drainEntry_inv
    · exact ⟨hr'.trans hri,by rwa [hr],added,hsa.trans hs,ha⟩
    have hc : info.channelId = entry.channelId := latestKey_opened hi
    refine ⟨hr'.trans hri,?_,added ++ _,by rw [hn,hs,append_assoc],?_⟩
    · intro hne c
      rw [hr,← hl hne c]
      unfold latestKey
      rw [keyRows_append_other fun hro => hne hro.2]
    intro x hx
    rcases mem_append.mp hx with ho | hla
    · exact ha x ho
    rw [mem_singleton.mp hla]
    refine ⟨rfl,fun hne => ⟨entry,hp,of_decide_eq_true hid,rfl,?_⟩⟩
    rw [← hl hne entry.channelId,hi]
    exact congrArg some (by rw [Envelope.info,← hc])

/-- No key that was generated since the ban was encrypted to the identity. -/
def Unexposed (h : String) (s : Watch) : Prop := ∀ x ∈ s.fresh, x.identityHash ≠ h

instance (h : String) (s : Watch) : Decidable (Unexposed h s) :=
  inferInstanceAs (Decidable (∀ x ∈ _, _))

lemma unexposed_of_sends (hs : Unexposed h s)
    (hse : Sends (fun x => x.identityHash = h → x.info ∉ (step cipher node s e).generated)
    s.node (act cipher node s.node e)) : Unexposed h (step cipher node s e) := by
  obtain ⟨added,hsen,ha⟩ := hse
  intro x hx hid
  rcases mem_append.mp hx with ho | hn
  · exact hs x ho hid
  rw [hsen,drop_left] at hn
  obtain ⟨hm,hg⟩ := mem_filter.mp hn
  obtain ⟨k,hk,hi⟩ := any_eq_true.mp hg
  rw [of_decide_eq_true hi] at hk
  exact ha x hm hid hk

lemma generated_of_ring (h : (act cipher node s.node e).ring = s.node.ring) :
    (step cipher node s e).generated = s.generated := by
  show s.generated ++ newKeys s.node.ring (act cipher node s.node e).ring = _
  rw [h,newKeys_self,append_nil]

lemma unexposed_step (hno : h ≠ node) (s : Watch) (e : KeyEvent)
    (hs : Unexposed h s) (hok : Spares cipher node h s e) : Unexposed h (step cipher node s e) := by
  apply unexposed_of_sends hs
  cases e with
  | maintenance call =>
    obtain ⟨added,hse,ha⟩ := maintenance_sends hok
    exact ⟨added,hse,fun x hx hid => absurd hid (ha x hx)⟩
  | removeRole call =>
    obtain ⟨added,hse,ha⟩ := removeRole_sends hok
    exact ⟨added,hse,fun x hx hid => absurd hid (ha x hx)⟩
  | assignRole call =>
    cases hn : assignRoleCommand cipher node s.node call with
    | none =>
      refine .nothing ?_
      simp [act,hn]
    | some n' =>
      have hac : act cipher node s.node (.assignRole call) = n' := by
        simp [act,hn]
      obtain ⟨hr,⟨-,hsa⟩ | ⟨c,info,hc,hl,-,hse⟩⟩ := assignRoleCommand_inv hn
      · refine .nothing ?_
        rw [hac,hsa]
      refine ⟨_,hac ▸ hse,?_⟩
      intro x hx hid
      rw [mem_singleton.mp hx] at hid ⊢
      have hch : info.channelId = c := latestKey_opened hl
      have hi : Envelope.info ⟨c,info.epoch,info.key,call.identityHash⟩ = info := by
        rw [Envelope.info,← hch]
      rw [generated_of_ring (hac ▸ hr),hi]
      exact fun hg => hok hid c hc ⟨info,hg,hl⟩
  | drain call =>
    obtain ⟨hr,added,hse,ha⟩ := drain_sends
    refine ⟨added,hse,?_⟩
    intro x hx hid
    obtain ⟨hto,hf⟩ := ha x hx
    have hca : call.identityHash = h := hto.symm.trans hid
    obtain ⟨entry,he,hei,hc,hl⟩ := hf (hca ▸ hno)
    have hsa : (step cipher node s (.drain call)).generated = s.generated :=
      generated_of_ring hr
    rw [hsa]
    intro hg
    refine hok hca entry he (hei.trans hca) ⟨x.info,hg,?_⟩
    rw [hc]
    exact hl

/-- After a ban, in a run whose steps spare the identity, no key that was generated since the ban
is encrypted to it. -/
theorem no_new_key_after_ban {cipher : IdentityCipher} {node h actor : String} {now : ℚ}
    {n : KeyNode} {result : BanResult} {db' : KeyStore}
    (hban : ban (some node) n.db h actor now = .ok (result, db')) {ls : List KeyEvent}
    (hg : Guarded (step cipher node) (Spares cipher node h) { node := { n with db := db' } } ls) :
    Unexposed h (run (step cipher node) { node := { n with db := db' } } ls) := by
  obtain ⟨he,ho,-⟩ := ban_ok hban
  have hn : h ≠ node := by
    rintro rfl
    exact ho (present_eq_some.mpr ⟨rfl,he⟩)
  exact Guarded.invariant (unexposed_step hn) (fun x hx => absurd hx not_mem_nil) hg

def sampleRow (key : Bytes) (epoch : ℤ) : SealedKey :=
  keyRow openCipher "node" ⟨"secrets",key,epoch⟩ [] 0

def secretsNode (members : List String) : KeyNode where
  db :=
    { store := { secretsStore with
        roles := .singleton { id := "m", name := roleMember }
        assignments := members.map fun h => ⟨"m",h,some "secrets"⟩ }
      sealedKeys := [sampleRow [1] 1] }
  ring := setCurrent {} ⟨"secrets",[1],1⟩

def banned (n : KeyNode) (h : String) : KeyStore :=
  ((ban (some "node") n.db h "node" 1).toOption.map Prod.snd).getD n.db

lemma banned_ok (hok : (ban (some "node") n.db h "node" 1).toOption.isSome = true) :
    ∃ result, ban (some "node") n.db h "node" 1 = .ok (result, banned n h) := by
  unfold banned
  cases hb : ban (some "node") n.db h "node" 1 with
  | error e =>
    rw [hb] at hok
    cases hok
  | ok r => exact ⟨r.1,rfl⟩

def thirtyOneDays : Maintenance :=
  { draw := fun _ => ⟨[2],[]⟩, recalled := fun _ => true, router := fun _ => true, now := 2678500 }

def afterBan (members : List String) (ls : List KeyEvent) : Watch :=
  run (step openCipher "node")
    { node := { secretsNode members with db := banned (secretsNode members) "eve" } } ls

theorem banned_stranger_unexposed :
    (afterBan ["alice"] [.maintenance thirtyOneDays]).fresh = [⟨"secrets",2,[2],"alice"⟩] ∧
      Unexposed "eve" (afterBan ["alice"] [.maintenance thirtyOneDays]) := by
  refine ⟨by decide +kernel,?_⟩
  obtain ⟨result,hb⟩ := banned_ok (n := secretsNode ["alice"]) (h := "eve") (by decide +kernel)
  exact no_new_key_after_ban hb (by decide +kernel)

def eveAssigned : KeyEvent :=
  .assignRole
    { roleName := roleMember, identityHash := "eve", channelId := some "secrets",
      known := true, now := 2678600 }

theorem banned_identity_gets_new_key :
    ¬ Unexposed "eve" (afterBan ["alice", "eve"] [.maintenance thirtyOneDays]) ∧
      ¬ Unexposed "eve" (afterBan ["alice"] [.maintenance thirtyOneDays, eveAssigned]) := by
  decide +kernel

end Hokora.KeysAfterBan
