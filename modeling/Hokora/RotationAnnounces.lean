import Mathlib.Algebra.Order.Ring.Rat
import Hokora.BigEndian
import Hokora.KeyedTable
import Hokora.TransitionRuns

/-!
# Announces of key rotations

Announces in any order and number. Only the hashes are compared, no time is kept.
-/
namespace Hokora.RotationAnnounces
open BigEndian KeyedTable TransitionRuns

structure Rotation where
  channelId : String
  oldHash : String
  newHash : String
  timestamp : ℚ := 0
  gracePeriod : ℤ := 48 * 3600
deriving DecidableEq

structure Announce where
  payload : Rotation
  payloadBytes : Bytes
  oldSignature : Bytes
  newSignature : Bytes

structure Channel where
  id : String
  identityHash : Option String
  rotationOldHash : Option String := none
  rotationGraceEnd : Option ℚ := none

def verifyRotation («recall» : String → Option Bytes) (validate : Bytes → Bytes → Bytes → Bool)
    (a : Announce) : Option Rotation :=
  match «recall» a.payload.oldHash, «recall» a.payload.newHash with
  | some old, some new =>
    if validate old a.oldSignature a.payloadBytes && validate new a.newSignature a.payloadBytes then
      some a.payload
    else none
  | _, _ => none

def applyRotation (channels : Table Channel.id) (p : Rotation) (now : ℚ) : Table Channel.id :=
  if p.channelId = "" ∨ p.oldHash = "" ∨ p.newHash = "" then channels
  else if now + 300 < p.timestamp ∨ p.timestamp < now - 30 * 86400 then channels
  else match channels.get? p.channelId with
    | none => channels
    | some ch =>
      if ch.identityHash ≠ some p.oldHash ∨ ch.identityHash = some p.newHash then channels
      else channels.set { ch with
        rotationOldHash := some p.oldHash
        rotationGraceEnd := some (now + p.gracePeriod)
        identityHash := some p.newHash }

structure Delivery where
  announce : Announce
  «recall» : String → Option Bytes
  now : ℚ

variable (validate : Bytes → Bytes → Bytes → Bool)

def step (channels : Table Channel.id) (d : Delivery) : Table Channel.id :=
  match verifyRotation d.recall validate d.announce with
  | none => channels
  | some p => applyRotation channels p d.now

def identityOf (channels : Table Channel.id) (c : String) : Option String :=
  (channels.get? c).bind Channel.identityHash

/-- The announces that change the identity of the channel, in the order of the deliveries. -/
def applied (c : String) : Table Channel.id → List Delivery → List Rotation
  | _, [] => []
  | channels, d :: ds =>
    let rest := applied c (step validate channels d) ds
    if identityOf (step validate channels d) c = identityOf channels c then rest
    else d.announce.payload :: rest

variable {validate} {channels : Table Channel.id} {c : String} {d : Delivery} {ds : List Delivery}

lemma step_cases : identityOf (step validate channels d) c = identityOf channels c ∨
    d.announce.payload.channelId = c ∧ identityOf channels c = some d.announce.payload.oldHash ∧
      identityOf (step validate channels d) c = some d.announce.payload.newHash := by
  unfold step verifyRotation
  split
  · exact .inl rfl
  next p hp =>
    obtain rfl : d.announce.payload = p := by
      split at hp
      · split_ifs at hp
        exact Option.some.inj hp
      · cases hp
    unfold applyRotation
    split_ifs
    · exact .inl rfl
    · exact .inl rfl
    cases hg : channels.get? d.announce.payload.channelId with
    | none => exact .inl rfl
    | some ch =>
      have hk := Table.get?_key hg
      simp only
      split_ifs with ho
      · exact .inl rfl
      obtain ⟨hold,-⟩ := not_or.mp ho
      simp only [identityOf,Table.get?_set,hk]
      by_cases hc : d.announce.payload.channelId = c
      · subst hc
        exact .inr ⟨rfl,by rw [hg]; exact not_not.mp hold,by rw [if_pos rfl]; rfl⟩
      · exact .inl (by rw [if_neg hc])

/-- What installs a key is older than what rotates away from it: no rotation comes back to a key. -/
def Chained (c : String) (ds : List Delivery) : Prop :=
  ∀ a ∈ ds, ∀ b ∈ ds, a.announce.payload.channelId = c → b.announce.payload.channelId = c →
    a.announce.payload.newHash = b.announce.payload.oldHash →
      a.announce.payload.timestamp < b.announce.payload.timestamp

/-- Each announce is applied at most once, and after `q` none installs the identity of an announce
older than `q` again. -/
def AppliedOnce (ps : List Rotation) : Prop :=
  ps.Nodup ∧ ∀ pre q r post, ps = pre ++ q :: r :: post →
    ∀ p ∈ pre, p.timestamp < q.timestamp → r.newHash ≠ p.newHash

lemma Chained.tail (h : Chained c (d :: ds)) : Chained c ds :=
  fun a ha b hb => h a (.tail _ ha) b (.tail _ hb)

lemma applied_mem {p : Rotation} (h : p ∈ applied validate c channels ds) :
    ∃ a ∈ ds, a.announce.payload = p ∧ p.channelId = c := by
  induction ds generalizing channels with
  | nil => cases h
  | cons d ds ih =>
    rw [applied] at h
    split_ifs at h with hs
    · obtain ⟨a,ha,hp⟩ := ih h
      exact ⟨a,.tail _ ha,hp⟩
    rcases List.mem_cons.mp h with rfl | h
    · exact ⟨d,.head _,rfl,(step_cases.resolve_left hs).1⟩
    · obtain ⟨a,ha,hp⟩ := ih h
      exact ⟨a,.tail _ ha,hp⟩

-- what is applied next rotates away from the present identity, installed at `t`
lemma applied_later {t : ℚ} (hch : Chained c ds) (h : ∀ b ∈ ds, b.announce.payload.channelId = c →
    identityOf channels c = some b.announce.payload.oldHash → t < b.announce.payload.timestamp) :
    ∀ p ∈ applied validate c channels ds, t < p.timestamp := by
  induction ds generalizing channels t with
  | nil => exact nofun
  | cons d ds ih =>
    rw [applied]
    split_ifs with hs
    · exact ih hch.tail fun b hb hc ho => h b (.tail _ hb) hc (hs ▸ ho)
    obtain ⟨hc,hold,hnew⟩ := step_cases.resolve_left hs
    have ht := h d (.head _) hc hold
    intro p hp
    rcases List.mem_cons.mp hp with rfl | hp
    · exact ht
    · refine ht.trans (ih hch.tail (fun b hb hbc ho => ?_) p hp)
      exact hch d (.head _) b (.tail _ hb) hc hbc (Option.some.inj (hnew.symm.trans ho))

lemma applied_ne (hch : Chained c ds) :
    ∀ q ∈ applied validate c channels ds, identityOf channels c ≠ some q.newHash := by
  induction ds generalizing channels with
  | nil => exact nofun
  | cons d ds ih =>
    rw [applied]
    split_ifs with hs
    · exact hs ▸ ih hch.tail
    obtain ⟨hc,hold,hnew⟩ := step_cases.resolve_left hs
    intro q hq he
    rcases List.mem_cons.mp hq with rfl | hq
    · exact hs (hnew.trans he.symm)
    have ht := applied_later hch.tail (fun b hb hbc ho =>
      hch d (.head _) b (.tail _ hb) hc hbc (Option.some.inj (hnew.symm.trans ho))) q hq
    obtain ⟨a,ha,rfl,hac⟩ := applied_mem hq
    exact ht.asymm (hch a (.tail _ ha) d (.head _) hac hc (Option.some.inj (he.symm.trans hold)))

lemma applied_pairwise (hch : Chained c ds) :
    (applied validate c channels ds).Pairwise fun p q => p.newHash ≠ q.newHash := by
  induction ds generalizing channels with
  | nil => exact .nil
  | cons d ds ih =>
    rw [applied]
    split_ifs with hs
    · exact ih hch.tail
    obtain ⟨-,-,hnew⟩ := step_cases.resolve_left hs
    refine .cons (fun q hq he => ?_) (ih hch.tail)
    exact applied_ne hch.tail q hq (hnew.trans (congrArg some he))

/-- Where no rotation comes back to a key, announces that arrive in any order and any number of
times are each applied at most once. -/
theorem rotations_applied_once (hch : Chained c ds) :
    AppliedOnce (applied validate c channels ds) := by
  have hp := @applied_pairwise validate channels c ds hch
  refine ⟨hp.imp fun h he => h (congrArg _ he),fun pre q r post hps p hpre _ he => ?_⟩
  rw [hps] at hp
  exact (List.pairwise_append.mp hp).2.2 p hpre r (.tail _ (.head _)) he.symm

def sampleRotation (old new : String) (t : ℚ) : Rotation :=
  { channelId := "c", oldHash := old, newHash := new, timestamp := t }

def sampleDelivery (p : Rotation) : Delivery := ⟨⟨p,[],[],[]⟩,fun _ => some [],9⟩

def sampleChannels : Table Channel.id := .singleton ⟨"c",some "a",none,none⟩

theorem two_rotations_once : AppliedOnce (applied (fun _ _ _ => true) "c" sampleChannels
      ([sampleRotation "a" "b" 1, sampleRotation "b" "d" 2].map sampleDelivery)) :=
  rotations_applied_once (by simp [Chained,sampleDelivery,sampleRotation,one_lt_two])

theorem rotation_replayed : ¬AppliedOnce (applied (fun _ _ _ => true) "c" sampleChannels
      ([sampleRotation "a" "b" 1, sampleRotation "b" "a" 2, sampleRotation "a" "b" 1].map
        sampleDelivery)) :=
  fun h => absurd h.1 (by decide +kernel)

end Hokora.RotationAnnounces
