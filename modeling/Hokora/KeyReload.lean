import Hokora.GroupKeys
import Hokora.Windows

/-!
# Keys in memory and in the table

Keys are made and rotated from an empty table on; then a memory is filled from the rows.
-/
namespace Hokora.KeyReload
open Database GroupKeys List ReadHandlers SealedChannels TransitionRuns

inductive KeyCall where
  | generate (channelId : String) (draw : Draw) (now : ℚ)
  | rotate (channelId : String) (draw : Draw) (now : ℚ)

def KeyCall.perform (cipher : IdentityCipher) (node : String) (s : KeyState) : KeyCall → KeyState
  | .generate channelId draw now =>
    persistCurrent cipher node { s with ring := generateKey s.ring channelId draw.key } channelId
      draw.ephemeral now
  | .rotate channelId draw now => rotateAndPersist cipher node s channelId draw now

def FirstKey (s : KeyState) : KeyCall → Prop
  | .generate channelId _ _ => currentKey s.ring channelId = none
  | .rotate .. => True

/-- `ks` are all keys of a channel, the newest first: the rows hold them all, and the memory holds
the first as the current key and the next ones as the previous keys. -/
structure Holds (cipher : IdentityCipher) (node c : String) (v : ChannelView) (ks : List KeyInfo) :
    Prop where
  rows : (keyRows v.rows c node).map (openRow cipher) = ks.map some
  current : v.current = ks.head?
  history : v.history = retained ks.tail.reverse
  newest : ∀ q ∈ keyRows v.rows c node, q.epoch ≤ (v.current.map KeyInfo.epoch).getD 0

variable {cipher : IdentityCipher} {node c ch : String} {s : KeyState} {ks : List KeyInfo}
  {rows : List SealedKey} {ring : Keyring} {draw : Draw} {now : ℚ}

lemma Holds.rotate (hcor : cipher.Correct) (h : Holds cipher node c (s.view c) ks) :
    ∃ ks', Holds cipher node c ((rotateAndPersist cipher node s ch draw now).view c) ks' := by
  rw [rotateAndPersist_view]
  split_ifs
  · let info : KeyInfo := ⟨c,draw.key,getEpoch s.ring c + 1⟩
    have hle : ∀ q ∈ keyRows (s.view c).rows c node, q.epoch ≤ info.epoch := fun q hq =>
      (h.newest q hq).trans (Int.le_add_one le_rfl)
    have htop : keyRows ((s.view c).rows ++ [keyRow cipher node info draw.ephemeral now]) c node =
        keyRow cipher node info draw.ephemeral now :: keyRows (s.view c).rows c node :=
      keyRows_append_top rfl rfl hle
    refine ⟨info :: ks,(congrArg (List.map (openRow cipher)) htop).trans ?_,rfl,?_,fun q hq => ?_⟩
    · rw [map_cons,openRow_keyRow hcor,h.rows]
      rfl
    · rw [h.current,h.history]
      cases ks with
      | nil => rfl
      | cons k ks =>
        rw [tail_cons,tail_cons,reverse_cons]
        exact Windows.keepNewest_concat
    · rcases mem_cons.mp (htop ▸ hq) with rfl | hq
      · exact le_rfl
      · exact hle q hq
  · exact ⟨ks,h⟩

lemma generate_eq_rotate (h : currentKey s.ring ch = none) :
    KeyCall.perform cipher node s (.generate ch draw now) =
      rotateAndPersist cipher node s ch draw now := by
  simp only [KeyCall.perform,rotateAndPersist,rotateKey,h]

lemma run_holds {calls : List KeyCall} (hcor : cipher.Correct)
    (h : Guarded (KeyCall.perform cipher node) FirstKey ⟨[],{}⟩ calls) :
    ∃ ks, Holds cipher node c ((run (KeyCall.perform cipher node) ⟨[],{}⟩ calls).view c) ks := by
  refine Guarded.invariant (I := fun s => ∃ ks, Holds cipher node c (s.view c) ks) ?_
    ⟨[],rfl,rfl,rfl,fun q hq => (not_mem_nil hq).elim⟩ h
  rintro s (⟨ch,draw,now⟩ | ⟨ch,draw,now⟩) ⟨ks,hs⟩ hok
  · rw [generate_eq_rotate hok]
    exact hs.rotate hcor
  · exact hs.rotate hcor

lemma opened_channel {k : KeyInfo} (h : (keyRows rows c node).map (openRow cipher) = ks.map some)
    (hk : k ∈ ks) : k.channelId = c := by
  have hm : some k ∈ (keyRows rows c node).map (openRow cipher) := h ▸ mem_map_of_mem hk
  obtain ⟨r,hr,ho⟩ := mem_map.mp hm
  exact (openRow_channel ho).1.trans (mem_keyRows.mp hr).2.1

lemma loadKey_history {channel : Channel}
    (h : (keyRows rows channel.id node).map (openRow cipher) = ks.map some) :
    history (loadKey cipher node rows ring channel) c =
      if channel.id = c ∧ retained ks.tail.reverse ≠ [] then retained ks.tail.reverse
      else history ring c := by
  unfold loadKey
  cases ks with
  | nil =>
    rw [map_eq_nil_iff.mp h]
    exact (if_neg fun h => h.2 rfl).symm
  | cons info rest =>
    obtain ⟨r,rs,hrs,ho,hre⟩ := map_eq_cons_iff.mp h
    have hf : (rs.take maxPreviousKeys).reverse.filterMap (openRow cipher) =
        retained rest.reverse := by
      have hm : (rs.take maxPreviousKeys).reverse.map (openRow cipher) =
          (rest.take maxPreviousKeys).reverse.map some := by
        rw [map_reverse,map_take,hre,← map_take,← map_reverse]
      rw [← Function.id_comp (openRow cipher),← filterMap_map,hm,filterMap_map,
        retained,length_reverse,← reverse_take]
      exact filterMap_some
    have hke : ∀ k ∈ retained rest.reverse, k.channelId = channel.id := fun k hk =>
      opened_channel h (mem_cons_of_mem _ (mem_reverse.mp (retained_subset hk)))
    simp only [hrs,take_succ_cons,ho,hf]
    by_cases he : retained rest.reverse = []
    · rw [if_pos he,if_neg fun h => h.2 he,history_setCurrent]
    rw [if_neg he,history_setHistory hke]
    by_cases hc : c = channel.id
    · rw [if_pos hc,if_pos ⟨hc.symm,he⟩,tail_cons]
    · rw [if_neg hc,if_neg fun h => hc h.1.symm,history_setCurrent]

/-- A fresh manager that loads the table has the keys of the one that wrote it. -/
theorem reload_agrees {calls : List KeyCall} (hcor : cipher.Correct)
    (h : Guarded (KeyCall.perform cipher node) FirstKey ⟨[],{}⟩ calls) (st : Store)
    (hc : isSealed st c = true) :
    let s := run (KeyCall.perform cipher node) ⟨[],{}⟩ calls
    let loaded := loadKeys cipher node ⟨st,s.rows,[]⟩ {}
    currentKey loaded c = currentKey s.ring c ∧ history loaded c = history s.ring c := by
  intro s loaded
  obtain ⟨ch,hch,rfl⟩ := isSealed_iff.mp hc
  have hopen : ∀ k, ∃ ks, Holds cipher node k (s.view k) ks ∧
      (keyRows s.rows k node).map (openRow cipher) = ks.map some := by
    intro k
    obtain ⟨ks,hk⟩ := run_holds (c := k) hcor h
    exact ⟨ks,hk,keyRows_channelRows ▸ hk.rows⟩
  obtain ⟨ks,hk,hrows⟩ := hopen ch.id
  constructor
  · have hl : (latestKey s.rows ch.id node).bind (openRow cipher) = ks.head? := by
      cases ks with
      | nil => rw [latestKey,map_eq_nil_iff.mp hrows]; rfl
      | cons info rest =>
        obtain ⟨r,rs,hrs,ho,-⟩ := map_eq_cons_iff.mp hrows
        rw [latestKey,hrs]
        exact ho
    rw [loadKeys_current cipher node hch,hl]
    exact (Option.or_none ..).trans hk.current.symm
  · refine (run_sealedChannels (fun r => history r ch.id) hch (fun r k hne => ?_)
      fun r hr => ?_).trans
      hk.history.symm
    · obtain ⟨ks,-,hks⟩ := hopen k.id
      rw [loadKey_history hks,if_neg fun h => hne h.1]
    rw [loadKey_history hrows]
    split_ifs with he
    · rfl
    · exact hr.trans (not_not.mp fun hn => he ⟨rfl,hn⟩).symm

def twoKeys : List KeyCall := [.generate "secrets" ⟨[1],[]⟩ 0, .rotate "secrets" ⟨[2],[]⟩ 1]

theorem twoKeys_reloaded : history (loadKeys openCipher "node"
    ⟨secretsStore,(run (KeyCall.perform openCipher "node") ⟨[],{}⟩ twoKeys).rows,[]⟩ {})
      "secrets" = [⟨"secrets",[1],1⟩] :=
  (@reload_agrees openCipher "node" "secrets" twoKeys openCipher_correct ⟨rfl,trivial,trivial⟩
    secretsStore (by decide)).2

end Hokora.KeyReload
