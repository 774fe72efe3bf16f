import Hokora.IngestionSpec
import Mathlib.Data.Finset.Card

/-!
# Counting and storing reactions

Reactions to one message. `processReaction` returns the object of the session and the store, which
differ once the emoji has an entry: the entry is then changed in place, and the session writes
nothing. A run keeps the object (one session for all envelopes) or the store (a session for each
envelope, as the node runs it).
-/
namespace Hokora.Reactions
open Constants Database KeyedTable List MessageProcessor PyValue Repositories
open MessageRepo (getByHash update)

def entry (m : Message) (emoji : String) : Reaction := (m.reactions.lookup emoji).getD ⟨0,[]⟩

def react (r : Reaction) (sender : String) : Reaction :=
  if sender ∈ r.identities then r else Reaction.add r sender

def inSession (r : Message × Store) : Store := { r.2 with messages := r.2.messages.set r.1 }

def ownSession (r : Message × Store) : Store := r.2

def reactAll (keep : Message × Store → Store) (st : Store) : List MessageEnvelope → Py Store
  | [] => .ok st
  | env :: envs => do
      let r ← processReaction st env
      reactAll keep (keep r) envs

def senders (emoji : String) (envs : List MessageEnvelope) : List String :=
  (envs.filter fun env => env.body.getD "" = emoji).map (·.senderHash)

def unlisted (xs : List String) : List String :=
  xs.filter fun s => !(xs.eraseDups.take maxReactionsPerMessage).contains s

variable {st st' : Store} {env : MessageEnvelope} {envs : List MessageEnvelope}
  {row original : Message} {r : Message × Store} {h emoji : String} {xs : List String}

lemma lookup_setReaction {reactions : List (String × Reaction)} {e : String} {r : Reaction} :
    (setReaction emoji r reactions).lookup e =
      if e = emoji then some r else reactions.lookup e := lookup_assign

lemma processReaction_spec (hp : processReaction st env = .ok r) :
    ∃ h original, env.target = some h ∧ getByHash st h = some original ∧
      r.1.msgHash = h ∧ r.1.channelId = original.channelId ∧
      (∀ e, r.1.reactions.lookup e = if e = env.body.getD "" then
        some (react (entry original e) env.senderHash) else original.reactions.lookup e) ∧
      getByHash r.2 h =
        some (if (original.reactions.lookup (env.body.getD "")).isSome then original else r.1) := by
  obtain ⟨h,original,ht,ho,-,hp⟩ := target_ok hp
  have hk : original.msgHash = h := Table.get?_key ho
  refine ⟨h,original,ht,ho,?_⟩
  simp only at hp
  split_ifs at hp
  split at hp
  next en hen =>
    have hent : entry original (env.body.getD "") = en := by rw [entry,hen,Option.getD_some]
    rw [hen,Option.isSome_some,if_pos rfl]
    split_ifs at hp with hm <;> cases hp
    · refine ⟨hk,rfl,fun e => ?_,ho⟩
      split_ifs with he
      · rw [he,react,hent,if_pos hm,hen]
      · rfl
    refine ⟨hk,rfl,fun e => ?_,ho⟩
    rw [lookup_setReaction]
    split_ifs with he
    · rw [he,react,hent,if_neg hm]
    · rfl
  next hen =>
    have hent : entry original (env.body.getD "") = ⟨0,[]⟩ := by rw [entry,hen,Option.getD_none]
    rw [hen,Option.isSome_none,if_neg Bool.false_ne_true]
    cases hp
    refine ⟨hk,rfl,fun e => ?_,?_⟩
    · rw [lookup_setReaction]
      split_ifs with he
      · rw [he,react,hent,if_neg not_mem_nil]
      · rfl
    · unfold getByHash update at *
      rw [Table.get?_update,if_pos rfl,ho]
      rfl

lemma target_of_replyTo (hr : env.replyTo = some h) {k : String} (ht : env.target = some k) :
    k = h := by
  rw [MessageEnvelope.target,hr] at ht
  exact (Option.some.inj (Option.filter_eq_some_iff.mp ht).1).symm

lemma reactAll_inSession (hro : getByHash st h = some row)
    (ht : ∀ env ∈ envs, env.replyTo = some h) (hru : reactAll inSession st envs = .ok st') :
    ∃ row', getByHash st' h = some row' ∧
      ∀ e, entry row' e = (senders e envs).foldl react (entry row e) := by
  induction envs generalizing st row with
  | nil =>
    cases hru
    exact ⟨row,hro,fun _ => rfl⟩
  | cons env envs ih =>
    obtain ⟨r,hr,hru⟩ := bind_ok hru
    obtain ⟨k,original,hk,ho,hh,-,hlo,-⟩ := processReaction_spec hr
    cases target_of_replyTo (ht env mem_cons_self) hk
    cases ho.symm.trans hro
    have hn : getByHash (inSession r) h = some r.1 := by
      rw [getByHash,inSession,Table.get?_set,if_pos hh]
    obtain ⟨row',hr',hf⟩ := ih hn (fun e he => ht e (mem_cons_of_mem _ he)) hru
    refine ⟨row',hr',fun e => ?_⟩
    rw [hf,entry,hlo,senders,senders,filter_cons]
    by_cases he : env.body.getD "" = e
    · simp [he]
    · simp [he,Ne.symm he,entry]

/-- With a session for each envelope only the first reaction with an emoji is written. -/
lemma reactAll_ownSession (hro : getByHash st h = some row)
    (ht : ∀ env ∈ envs, env.replyTo = some h) (hru : reactAll ownSession st envs = .ok st') :
    ∃ row', getByHash st' h = some row' ∧ ∀ e, row'.reactions.lookup e =
      (row.reactions.lookup e).or ((senders e envs).head?.map fun s => ⟨1,[s]⟩) := by
  induction envs generalizing st row with
  | nil =>
    cases hru
    exact ⟨row,hro,fun _ => by simp [senders]⟩
  | cons env envs ih =>
    obtain ⟨r,hr,hru⟩ := bind_ok hru
    obtain ⟨k,original,hk,ho,-,-,hlo,hs⟩ := processReaction_spec hr
    cases target_of_replyTo (ht env mem_cons_self) hk
    cases ho.symm.trans hro
    obtain ⟨row',hr',hf⟩ := ih hs (fun e he => ht e (mem_cons_of_mem _ he)) hru
    refine ⟨row',hr',fun e => ?_⟩
    rw [hf,senders,senders,filter_cons]
    by_cases he : env.body.getD "" = e
    · cases hle : row.reactions.lookup e with
      | none => simp [he,hle,hlo,entry,react,Reaction.add,maxReactionsPerMessage]
      | some en => simp [he,hle]
    · split_ifs <;> simp_all [Ne.symm he]

lemma eraseDups_concat (xs : List String) (x : String) :
    (xs ++ [x]).eraseDups = if x ∈ xs then xs.eraseDups else xs.eraseDups ++ [x] := by
  rw [eraseDups_append]
  split_ifs with hx <;> simp [List.removeAll,hx,eraseDups_cons]

lemma nodup_eraseDups : xs.eraseDups.Nodup := by
  induction xs using List.reverseRecOn with
  | nil => exact nodup_nil
  | append_singleton xs x ih =>
    rw [eraseDups_concat]
    split_ifs with hx
    · exact ih
    rw [nodup_append]
    refine ⟨ih,nodup_singleton x,?_⟩
    rintro a ha b hb rfl
    exact hx (mem_eraseDups.mp (mem_singleton.mp hb ▸ ha))

lemma unlisted_of_short (h : xs.eraseDups.length ≤ maxReactionsPerMessage) : unlisted xs = [] := by
  rw [unlisted,take_of_length_le h,filter_eq_nil_iff]
  intro s hs
  simpa using hs

lemma foldl_react : xs.foldl react ⟨0,[]⟩ =
    ⟨(xs.eraseDups.take maxReactionsPerMessage).length + (unlisted xs).length,
      xs.eraseDups.take maxReactionsPerMessage⟩ := by
  induction xs using List.reverseRecOn with
  | nil => rfl
  | append_singleton xs x ih =>
    rw [foldl_append,ih]
    simp only [foldl_cons,foldl_nil,react]
    by_cases hx : x ∈ xs
    · have hs : (xs ++ [x]).eraseDups = xs.eraseDups := by rw [eraseDups_concat,if_pos hx]
      by_cases hl : x ∈ xs.eraseDups.take maxReactionsPerMessage
      · rw [if_pos hl,hs,unlisted,unlisted,hs,filter_append]
        simp [hl]
      have hf : maxReactionsPerMessage ≤ (xs.eraseDups.take maxReactionsPerMessage).length := by
        by_contra hsh
        rw [length_take] at hsh
        exact hl (by rwa [take_of_length_le (by omega),mem_eraseDups])
      rw [if_neg hl,Reaction.add,take_append_of_le_length hf,take_take,
        Nat.min_self,hs,unlisted,unlisted,hs,filter_append]
      simp [hl,Nat.add_assoc]
    have hl : x ∉ xs.eraseDups.take maxReactionsPerMessage := fun hm =>
      hx (mem_eraseDups.mp (mem_of_mem_take hm))
    have hmo : (xs ++ [x]).eraseDups = xs.eraseDups ++ [x] := by rw [eraseDups_concat,if_neg hx]
    rw [if_neg hl,Reaction.add]
    by_cases hf : maxReactionsPerMessage ≤ xs.eraseDups.length
    · have ht : (xs.eraseDups ++ [x]).take maxReactionsPerMessage =
          xs.eraseDups.take maxReactionsPerMessage := take_append_of_le_length hf
      have hle : maxReactionsPerMessage ≤ (xs.eraseDups.take maxReactionsPerMessage).length := by
        rw [length_take]
        omega
      rw [take_append_of_le_length hle,take_take,Nat.min_self,hmo,unlisted,
        unlisted,hmo,ht,filter_append]
      simp [hl,Nat.add_assoc]
    have hle : (xs ++ [x]).eraseDups.length ≤ maxReactionsPerMessage := by
      rw [hmo,length_append,length_singleton]
      omega
    rw [unlisted_of_short hle,unlisted_of_short (by omega),hmo,
      take_of_length_le (by omega : xs.eraseDups.length ≤ maxReactionsPerMessage)]
    rw [hmo] at hle
    rw [take_of_length_le hle]
    simp

lemma card_eq_listed_add_unlisted : xs.toFinset.card =
    (xs.eraseDups.take maxReactionsPerMessage).length + (unlisted xs).toFinset.card := by
  have hn : (xs.eraseDups.take maxReactionsPerMessage).Nodup :=
    nodup_eraseDups.sublist (take_sublist _ _)
  rw [← toFinset_card_of_nodup hn,← Finset.card_union_of_disjoint]
  · congr 1
    ext s
    have hsu : s ∈ xs.eraseDups.take maxReactionsPerMessage → s ∈ xs := fun hs =>
      mem_eraseDups.mp (mem_of_mem_take hs)
    by_cases hl : s ∈ xs.eraseDups.take maxReactionsPerMessage
    · simp [hl,hsu hl]
    · simp [unlisted,hl]
  · rw [Finset.disjoint_left]
    intro s hs hu
    simp [unlisted] at hs hu
    exact hu.2 hs

lemma count_eq_card_iff :
    (xs.foldl react ⟨0,[]⟩).count = xs.toFinset.card ↔ (unlisted xs).Nodup := by
  rw [foldl_react,card_eq_listed_add_unlisted]
  constructor
  · intro heq
    have hl : (unlisted xs).toFinset.card = (unlisted xs).length := (Nat.add_left_cancel heq).symm
    exact Multiset.toFinset_card_eq_card_iff_nodup.mp hl
  · intro hn
    rw [toFinset_card_of_nodup hn]

lemma first_eq_card_iff : (((xs.head?.map fun s => (⟨1,[s]⟩ : Reaction)).getD ⟨0,[]⟩).count =
    xs.toFinset.card) ↔ xs.toFinset.card ≤ 1 := by
  cases xs with
  | nil => simp
  | cons x xs =>
    have hp : 0 < (x :: xs).toFinset.card := Finset.card_pos.mpr ⟨x,by simp⟩
    simp only [List.head?_cons,Option.map_some,Option.getD_some]
    omega

/-- The counts are right in one session exactly when, for each emoji, no identity beyond those on
the list reacts twice, and in sessions of their own exactly when at most one identity reacts. -/
theorem reaction_counts_iff (hrow : getByHash st h = some row)
    (hnone : row.reactions = []) (ht : ∀ env ∈ envs, env.replyTo = some h) :
    (∀ st', reactAll inSession st envs = .ok st' → ∃ row', getByHash st' h = some row' ∧
      ((∀ emoji, (entry row' emoji).count = (senders emoji envs).toFinset.card) ↔
        ∀ emoji, (unlisted (senders emoji envs)).Nodup)) ∧
    ∀ st', reactAll ownSession st envs = .ok st' → ∃ row', getByHash st' h = some row' ∧
      ((∀ emoji, (entry row' emoji).count = (senders emoji envs).toFinset.card) ↔
        ∀ emoji, (senders emoji envs).toFinset.card ≤ 1) := by
  constructor
  · intro st' hrun
    obtain ⟨row',hr',hf⟩ := reactAll_inSession hrow ht hrun
    refine ⟨row',hr',forall_congr' fun emoji => ?_⟩
    have hs : entry row emoji = ⟨0,[]⟩ := by rw [entry,hnone]; rfl
    rw [hf,hs,count_eq_card_iff]
  · intro st' hrun
    obtain ⟨row',hr',hf⟩ := reactAll_ownSession hrow ht hrun
    refine ⟨row',hr',forall_congr' fun emoji => ?_⟩
    rw [entry,hf,hnone,lookup_nil,Option.none_or,first_eq_card_iff]

lemma senders_of_body (ht : ∀ env ∈ envs, env.body = some emoji) :
    senders emoji envs = envs.map (·.senderHash) := by
  rw [senders,filter_eq_self.mpr]
  intro env he
  rw [ht env he]
  exact decide_eq_true rfl

/-- All reactions with one emoji are on the stored list exactly when they were there before,
or when there is at most one and it is the first with this emoji. -/
theorem reactions_persist_iff (hrow : getByHash st h = some row)
    (ht : ∀ env ∈ envs, env.replyTo = some h ∧ env.body = some emoji)
    (hdistinct : (envs.map (·.senderHash)).Nodup) (hrun : reactAll ownSession st envs = .ok st') :
    ∃ row', getByHash st' h = some row' ∧
      ((∀ env ∈ envs, env.senderHash ∈ (entry row' emoji).identities) ↔
        (∀ env ∈ envs, env.senderHash ∈ (entry row emoji).identities) ∨
          (row.reactions.lookup emoji = none ∧ envs.length ≤ 1)) := by
  obtain ⟨row',hr',hf⟩ := reactAll_ownSession hrow (fun env he => (ht env he).1) hrun
  refine ⟨row',hr',?_⟩
  rw [entry,hf,entry,senders_of_body fun env he => (ht env he).2]
  cases row.reactions.lookup emoji with
  | some en => simp
  | none =>
    cases envs with
    | nil => simp
    | cons env envs =>
      cases envs with
      | nil => simp
      | cons second rest =>
        simp only [map_cons,nodup_cons,mem_cons,not_or] at hdistinct
        have hse : second.senderHash ∉ [env.senderHash] := by simpa using Ne.symm hdistinct.1.1
        constructor
        · intro hall
          exact absurd (hall second (by simp)) hse
        rintro (hall | ⟨-,hle⟩)
        · exact absurd (hall env mem_cons_self) not_mem_nil
        · simp at hle

def thumbsUp (sender : String) : MessageEnvelope where
  channelId := "c"
  senderHash := sender
  timestamp := .fin 0
  type := msgReaction
  body := some "+1"
  replyTo := some "m"

def message : Message := { msgHash := "m", channelId := "c", timestamp := .fin 0, type := msgText }

def oneMessage : Store where
  channels := .singleton { id := "c" }
  messages := .singleton message

lemma oneMessage_row : getByHash oneMessage "m" = some message := rfl

lemma thumbsUp_target (xs : List String) :
    ∀ env ∈ xs.map thumbsUp, env.replyTo = some "m" ∧ env.body = some "+1" := by
  simp [thumbsUp]

lemma thumbsUp_accepted (hr : getByHash st "m" = some row)
    (hch : row.channelId = "c") {s : String} : ∃ r, processReaction st (thumbsUp s) = .ok r := by
  have ho : requireTargetInChannel st "m" "c" = .ok row := requireTargetInChannel_ok.mpr ⟨hr,hch⟩
  have ht : requireTarget (thumbsUp s) "Reaction" = .ok "m" := rfl
  have hb : (thumbsUp s).body.getD "" = "+1" := rfl
  unfold processReaction
  rw [ht,ok_bind,show (thumbsUp s).channelId = "c" from rfl,ho,ok_bind]
  simp only [hb]
  rw [if_neg (by decide),if_neg (by decide)]
  split
  · split_ifs <;> exact ⟨_,rfl⟩
  · exact ⟨_,rfl⟩

lemma reactAll_thumbsUp {keep : Message × Store → Store}
    (hke : ∀ r row, getByHash r.2 "m" = some row → row.channelId = "c" →
      r.1.msgHash = "m" → r.1.channelId = "c" →
      ∃ row', getByHash (keep r) "m" = some row' ∧ row'.channelId = "c")
    (hro : getByHash st "m" = some row) (hch : row.channelId = "c") :
    ∃ st', reactAll keep st (xs.map thumbsUp) = .ok st' := by
  induction xs generalizing st row with
  | nil => exact ⟨st,rfl⟩
  | cons s xs ih =>
    obtain ⟨r,hr⟩ := thumbsUp_accepted hro hch
    obtain ⟨k,original,hk,ho,hh,hch',-,hs⟩ := processReaction_spec hr
    cases target_of_replyTo rfl hk
    cases ho.symm.trans hro
    obtain ⟨row',hr',hch''⟩ := hke r _ hs (by split_ifs <;> simp [hch',hch]) hh (hch'.trans hch)
    obtain ⟨st',hst'⟩ := ih hr' hch''
    exact ⟨st',by rw [map_cons,reactAll,hr,ok_bind,hst']⟩

lemma oneMessage_inSession : ∃ st', reactAll inSession oneMessage (xs.map thumbsUp) = .ok st' := by
  refine reactAll_thumbsUp ?_ oneMessage_row rfl
  intro r _ _ _ hh hch
  exact ⟨r.1,by rw [getByHash,inSession,Table.get?_set,if_pos hh],hch⟩

lemma senders_thumbsUp : senders emoji (xs.map thumbsUp) = if emoji = "+1" then xs else [] := by
  have hb : ∀ s, (thumbsUp s).body.getD "" = "+1" := fun _ => rfl
  by_cases he : emoji = "+1"
  · simp [senders,filter_map,Function.comp_def,he,thumbsUp]
  · simp [senders,filter_map,Function.comp_def,hb,he,Ne.symm he]

theorem twoIdentities_counted : ∃ st' row',
    reactAll inSession oneMessage (["a", "b", "a"].map thumbsUp) = .ok st' ∧
      getByHash st' "m" = some row' ∧ (entry row' "+1").count = 2 := by
  obtain ⟨st',hr⟩ := oneMessage_inSession
  obtain ⟨row',hr',hi⟩ := (reaction_counts_iff oneMessage_row rfl
    (fun env he => (thumbsUp_target _ env he).1)).1 st' hr
  refine ⟨st',row',hr,hr',(hi.mpr ?_ "+1").trans ?_⟩
  · intro emoji
    rw [senders_thumbsUp,unlisted_of_short (by split_ifs <;> decide)]
    exact nodup_nil
  · decide

def crowd : List String := "abcdefghijklmnopqrstu".toList.map (String.singleton ·) ++ ["u"]

theorem crowd_counted_again :
    (∃ st' row', reactAll inSession oneMessage (crowd.map thumbsUp) = .ok st' ∧
      getByHash st' "m" = some row' ∧ (entry row' "+1").count = 22 ∧
      (senders "+1" (crowd.map thumbsUp)).toFinset.card = 21) ∧
    ∃ st' row', reactAll ownSession oneMessage (["a", "b"].map thumbsUp) = .ok st' ∧
      getByHash st' "m" = some row' ∧ (entry row' "+1").count = 1 ∧
      (senders "+1" (["a", "b"].map thumbsUp)).toFinset.card = 2 := by
  constructor
  · obtain ⟨st',hr⟩ := oneMessage_inSession
    obtain ⟨row',hr',hf⟩ := reactAll_inSession oneMessage_row
      (fun env he => (thumbsUp_target _ env he).1) hr
    refine ⟨st',row',hr,hr',?_,?_⟩
    · rw [hf,senders_thumbsUp]
      decide
    · decide
  · refine ⟨_,_,rfl,rfl,?_,?_⟩ <;> decide

lemma oneMessage_ownSession : ∃ st', reactAll ownSession oneMessage (xs.map thumbsUp) = .ok st' :=
  reactAll_thumbsUp (fun _ row hr hch _ _ => ⟨row,hr,hch⟩) oneMessage_row rfl

theorem firstReaction_persists : ∃ st' row',
    reactAll ownSession oneMessage (["a"].map thumbsUp) = .ok st' ∧
      getByHash st' "m" = some row' ∧ "a" ∈ (entry row' "+1").identities := by
  obtain ⟨st',hr⟩ := oneMessage_ownSession
  obtain ⟨row',hr',hi⟩ := reactions_persist_iff oneMessage_row (thumbsUp_target ["a"]) (by simp) hr
  exact ⟨st',row',hr,hr',hi.mpr (.inr ⟨rfl,Nat.le_refl 1⟩) (thumbsUp "a") (by simp)⟩

theorem secondReaction_lost : ∃ st' row',
    reactAll ownSession oneMessage (["a", "b"].map thumbsUp) = .ok st' ∧
      getByHash st' "m" = some row' ∧ "b" ∉ (entry row' "+1").identities := by
  refine ⟨_,_,rfl,rfl,?_⟩
  decide

end Hokora.Reactions
