import Hokora.Reactions
import Hokora.TransitionRuns
import Hokora.WriteFrames

/-!
# The records of a thread

Replies that are committed or rolled back, and the row that counts them.
-/
namespace Hokora.ThreadReplies
open Constants Database KeyedTable List MessageProcessor PyValue RateLimit Repositories
  TransitionRuns
open Reactions (eraseDups_concat)
open WriteAuthorisation (samplePrimitives sampleProcessor)
open WriteFrames (crossReply get?_updateThread insertThread_ok rememberSender_eq sampleThreads)

def reply (root : String) (m : Message) : Option (ℕ × String) :=
  if m.replyTo = some root then m.threadSeq.map fun n => (n, m.senderHash.getD "") else none

def replies (st : Store) (root : String) : List (ℕ × String) :=
  st.messages.rows.filterMap (reply root)

structure Booked (st : Store) (root : String) : Prop where
  numbers : (replies st root).map Prod.fst = List.range' 1 (replies st root).length
  unopened : st.threads.get? root = none → replies st root = []
  opened : ∀ t, st.threads.get? root = some t →
    t.latestThreadSeq = (replies st root).length ∧ t.replyCount = (replies st root).length ∧
      t.participantHashes = ((replies st root).map Prod.snd).eraseDups

structure Transaction where
  processor : Processor
  moment : Moment
  limiter : Option RateLimiter := none
  envelope : MessageEnvelope
  commit : Bool := true

def step (prim : Primitives) (st : Store) (tx : Transaction) : Store :=
  if tx.commit then
    committed st (ingest prim tx.processor tx.moment tx.limiter st tx.envelope).2
  else st

variable {prim : Primitives} {mp : Processor} {m : Moment} {lim : Option RateLimiter}
  {st st' : Store} {env : MessageEnvelope} {channel : Channel} {root k : String} {now : ℚ}
  {row : Message}

lemma Booked.congr (h : Booked st root) (hm : replies st' root = replies st root)
    (ht : st'.threads.get? root = st.threads.get? root) : Booked st' root := by
  refine ⟨?_,?_,?_⟩
  · rw [hm]
    exact h.numbers
  · rw [hm,ht]
    exact h.unopened
  · rw [hm,ht]
    exact h.opened

lemma replies_update {hash : String} {f : Message → Message}
    (hf : ∀ q, (f q).msgHash = q.msgHash) (hk : ∀ q, reply root (f q) = reply root q) :
    replies (MessageRepo.update st hash f hf) root = replies st root := by
  rw [replies,replies,MessageRepo.update,Table.update_rows,filterMap_map]
  congr 1
  funext q
  simp only [Function.comp_apply]
  split_ifs
  · exact hk q
  · rfl

variable {t : Table Message.msgHash} {seq threadSeq : Option ℕ} {r : Message × Store}

lemma replies_insert (h : st.messages.insert? row = some t) :
    replies { st with messages := t } root = replies st root ++ (reply root row).toList := by
  rw [replies,Table.insert?_rows h,filterMap_append]
  cases hr : reply root row <;> simp [hr,replies]

lemma replies_insert_unnumbered (h : st.messages.insert? row = some t)
    (hr : row.threadSeq = none) : replies { st with messages := t } root = replies st root := by
  have hn : reply root row = none := by simp [reply,hr]
  rw [replies_insert h,hn,Option.toList_none,append_nil]

structure Counted (old : Option Thread) (sender : String) (t : Thread) : Prop where
  latest : t.latestThreadSeq = (old.map Thread.latestThreadSeq).getD 0 + 1
  count : t.replyCount = (old.map Thread.replyCount).getD 0 + 1
  participants : t.participantHashes =
    if sender ∈ (old.map Thread.participantHashes).getD [] then
      (old.map Thread.participantHashes).getD []
    else (old.map Thread.participantHashes).getD [] ++ [sender]

lemma get?_updateThread_ne {f : Thread → Thread} {hf : ∀ t, (f t).rootMsgHash = t.rootMsgHash}
    (hk : k ≠ root) :
    (SequenceManager.updateThread st root f hf).threads.get? k = st.threads.get? k :=
  Table.get?_update_ne hf hk

lemma nextThreadSeq_row {ch : String} {n : ℕ}
    (h : SequenceManager.nextThreadSeq st root ch now = .ok (n, st')) :
    ∃ t, st'.threads.get? root = some t ∧ n = t.latestThreadSeq ∧
      (t.latestThreadSeq = ((st.threads.get? root).map Thread.latestThreadSeq).getD 0 + 1 ∧
        t.replyCount = ((st.threads.get? root).map Thread.replyCount).getD 0 ∧
        t.participantHashes = ((st.threads.get? root).map Thread.participantHashes).getD []) ∧
      ∀ k, k ≠ root → st'.threads.get? k = st.threads.get? k := by
  unfold SequenceManager.nextThreadSeq at h
  split at h
  next old ho =>
    cases h
    refine ⟨_,get?_updateThread ho,rfl,?_,fun k hk => get?_updateThread_ne hk⟩
    rw [ho]
    exact ⟨rfl,rfl,rfl⟩
  next hn =>
    obtain ⟨st₁,hi,h⟩ := bind_ok h
    cases h
    obtain ⟨threads,ht,rfl⟩ := insertThread_ok hi
    refine ⟨_,(Table.get?_insert? ht root).trans (if_pos rfl),rfl,?_,fun k hk => ?_⟩
    · rw [hn]
      exact ⟨rfl,rfl,rfl⟩
    · exact (Table.get?_insert? ht k).trans (if_neg (Ne.symm hk))

lemma assignSeq_main (hr : threadRoot env = none)
    (h : assignSeq st env now = .ok (seq, threadSeq, st')) :
    threadSeq = none ∧ st'.threads = st.threads := by
  unfold assignSeq at h
  rw [hr] at h
  obtain ⟨⟨n,st₁⟩,hn,h⟩ := bind_ok h
  obtain ⟨c,-,-,rfl⟩ := ChannelRepo.incrementSeq_ok.mp hn
  cases h
  exact ⟨rfl,rfl⟩

lemma assignSeq_reply (hr : threadRoot env = some root)
    (h : assignSeq st env now = .ok (seq, threadSeq, st')) :
    ∃ t, st'.threads.get? root = some t ∧ threadSeq = some t.latestThreadSeq ∧
      Counted (st.threads.get? root) env.senderHash t ∧
      ∀ k, k ≠ root → st'.threads.get? k = st.threads.get? k := by
  unfold assignSeq at h
  rw [hr] at h
  obtain ⟨⟨n,st₁⟩,hne,h⟩ := bind_ok h
  obtain ⟨st₂,hm,h⟩ := bind_ok h
  cases h
  obtain ⟨t₁,ht₁,hn,hc,hothers₁⟩ := nextThreadSeq_row hne
  rw [updateThreadMetadata,ht₁] at hm
  cases hm
  refine ⟨_,get?_updateThread ht₁,?_,?_,fun k hk => ?_⟩
  · rw [hn]
  · refine ⟨hc.1,?_,?_⟩
    · exact congrArg (· + 1) hc.2.1
    · rw [← hc.2.2]
  · exact (get?_updateThread_ne hk).trans (hothers₁ k hk)

lemma replyTo_of_threadRoot (h : threadRoot env = some root) : env.replyTo = some root := by
  unfold threadRoot MessageEnvelope.target at h
  split_ifs at h
  exact (Option.filter_eq_some_iff.mp h).1

lemma Booked.reply {t : Thread} (h : Booked st root)
    (hr : replies st' root = replies st root ++ [(t.latestThreadSeq, env.senderHash)])
    (ht : st'.threads.get? root = some t)
    (hc : Counted (st.threads.get? root) env.senderHash t) : Booked st' root := by
  -- The thread before the reply, as far as it was there.
  have ho : ((st.threads.get? root).map Thread.latestThreadSeq).getD 0 = (replies st root).length ∧
      ((st.threads.get? root).map Thread.replyCount).getD 0 = (replies st root).length ∧
      ((st.threads.get? root).map Thread.participantHashes).getD [] =
        ((replies st root).map Prod.snd).eraseDups := by
    cases hg : st.threads.get? root with
    | none =>
      rw [h.unopened hg]
      exact ⟨rfl,rfl,rfl⟩
    | some q => exact h.opened q hg
  have hl := hc.latest
  have hco := hc.count
  have hp := hc.participants
  rw [ho.1] at hl
  rw [ho.2.1] at hco
  rw [ho.2.2] at hp
  refine ⟨?_,fun hn => ?_,fun q hq => ?_⟩
  · rw [hr,map_append,h.numbers,length_append,length_singleton, List.range'_concat,hl]
    simp [Nat.add_comm]
  · rw [ht] at hn
    cases hn
  rw [ht] at hq
  cases hq
  rw [hr,length_append,length_singleton,map_append,map_singleton, eraseDups_concat]
  refine ⟨hl,hco,?_⟩
  rw [hp]
  simp only [mem_eraseDups]

lemma storeMessage_booked (hst : ∀ root, Booked st root)
    (h : storeMessage prim mp m st env channel = .ok r) : Booked r.2 root := by
  obtain ⟨-,hr⟩ | ⟨seq,threadSeq,st₁,b,t,-,hse,-,hi,-,hr⟩ := storeMessage_stored h
  · rw [hr]
    exact hst root
  obtain ⟨identities,hrem⟩ := rememberSender_eq { st₁ with messages := t } env m.now
  rw [hr,hrem]
  have hre : replies { st₁ with messages := t, identities := identities } root =
      replies st root ++ (reply root (messageRow prim mp m env seq threadSeq b)).toList :=
    replies_insert hi
  cases hro : threadRoot env with
  | none =>
    obtain ⟨hn,ht⟩ := assignSeq_main hro hse
    refine (hst root).congr ?_ (congrArg (Table.get? · root) ht)
    have hno : reply root (messageRow prim mp m env seq threadSeq b) = none := by
      simp [reply,messageRow,hn]
    rw [hre,hno,Option.toList_none,append_nil]
  | some root' =>
    have hrep := replyTo_of_threadRoot hro
    obtain ⟨thread,hth,hn,hc,ho⟩ := assignSeq_reply hro hse
    by_cases hs : root = root'
    · subst hs
      refine (hst root).reply ?_ hth hc
      have hreply : reply root (messageRow prim mp m env seq threadSeq b) =
          some (thread.latestThreadSeq, env.senderHash) := by
        simp [reply,messageRow,hrep,hn]
      rw [hre,hreply,Option.toList_some]
    · refine (hst root).congr ?_ (ho root hs)
      have hno : reply root (messageRow prim mp m env seq threadSeq b) = none := by
        simp [reply,messageRow,hrep,Ne.symm hs]
      rw [hre,hno,Option.toList_none,append_nil]

lemma route_booked (hst : ∀ root, Booked st root)
    (h : route prim mp m st env channel = .ok r) : Booked r.2 root := by
  unfold route at h
  split_ifs at h
  · obtain ⟨_,_,_,b,t,-,-,-,-,-,-,hi,-,-,hr⟩ := processEdit_ok h
    rw [hr]
    refine (hst root).congr (.trans ?_ (replies_insert_unnumbered hi rfl)) rfl
    exact replies_update (fun _ => by rfl) fun _ => by rfl
  · obtain ⟨_,_,_,-,-,-,hr⟩ := processDelete_store h
    rw [hr]
    exact (hst root).congr (replies_update (fun _ => by rfl) fun _ => by rfl) rfl
  · obtain ⟨th,o,_,_,t,-,-,-,-,hi,-,hr⟩ := processPin_store h
    rw [hr]
    refine (hst root).congr ?_ rfl
    have hp : replies (MessageRepo.setPinned st th (!o.pinned) m.now) root =
        replies st root := replies_update (fun _ => by rfl) fun _ => by rfl
    exact (replies_insert_unnumbered hi rfl).trans hp
  · obtain ⟨_,_,-,-,-,hr | ⟨_,hr⟩⟩ := processReaction_ok h
    · rw [hr]
      exact hst root
    · rw [hr]
      exact (hst root).congr (replies_update (fun _ => by rfl) fun _ => by rfl) rfl
  · exact storeMessage_booked hst h

lemma step_booked {tx : Transaction} (hst : ∀ root, Booked st root) :
    Booked (step prim st tx) root := by
  unfold step
  split_ifs
  · cases h : (ingest prim tx.processor tx.moment tx.limiter st tx.envelope).2 with
    | error e => exact hst root
    | ok r =>
      obtain ⟨_,_,-,-,-,hr⟩ := ingest_ok h
      exact route_booked hst hr
  · exact hst root

lemma booked_of_fresh (hth : st.threads = .empty)
    (hr : ∀ q ∈ st.messages.rows, q.threadSeq = none) (root : String) : Booked st root := by
  have hn : replies st root = [] := by
    refine filterMap_eq_nil_iff.mpr fun q hq => ?_
    simp [reply,hr q hq]
  refine ⟨by rw [hn]; rfl,fun _ => hn,fun t ht => ?_⟩
  rw [hth] at ht
  cases ht

/-- From a store without threads, whatever is ingested: the replies to every root are numbered from
1 without a gap, and the thread's row has their number and authors. -/
theorem threads_booked (prim : Primitives) (hthreads : st.threads = .empty)
    (hrows : ∀ q ∈ st.messages.rows, q.threadSeq = none) (txs : List Transaction) (root : String) :
    Booked (run (step prim) st txs) root :=
  run_invariant (I := fun st => ∀ root, Booked st root) (fun _ _ h _ => step_booked h)
    (booked_of_fresh hthreads hrows) txs root

def answered (sender body : String) (commit : Bool) : Transaction where
  processor := sampleProcessor
  moment := ⟨4,[]⟩
  envelope := { crossReply with senderHash := sender, body := some body }
  commit := commit

theorem answers_booked :
    let st := run (step samplePrimitives) { sampleThreads with threads := .empty }
      [answered "carol" "who?" true, answered "bob" "me" false, answered "bob" "me" true,
        answered "bob" "me" true, answered "carol" "fine" true]
    Booked st "root" ∧ replies st "root" = [(1, "carol"), (2, "bob"), (3, "carol")] := by
  exact ⟨threads_booked samplePrimitives rfl (by decide) _ "root",by decide +kernel⟩

end Hokora.ThreadReplies
