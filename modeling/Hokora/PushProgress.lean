import Hokora.PushedContent

/-!
# Progress of the pusher

One lossless round, and rounds until nothing is left.
-/
namespace Hokora.PushProgress
open Constants Database FederatedAcceptance KeyedTable List MessageProcessor PushDelivery
  PushReceive PushedContent Pusher PyValue Repositories SenderBinding TransitionRuns WireRows
open FederationPusher (handlePushAck maxReceived maxSeq page pushPending)
open Message (msgHash seq)
open MessageRepo (getByHash getHistory mem_getHistory seqLe)

structure Round where
  env : PushEnv
  now : ℚ

/-- The link is up and sending does not raise. -/
def Round.Lossless (r : Round) : Prop := r.env.linked = true ∧ r.env.sends = true

structure Ends where
  pusher : FederationPusher
  receiver : Store

def round (w : Setting) (sender : Store) (e : Ends) (r : Round) : Ends :=
  let out := e.pusher.pushPending r.env sender
  match out.2.1 with
  | none => { e with pusher := out.1 }
  | some payload =>
    match receive w e.receiver payload r.now with
    | .error _ => { e with pusher := out.1 }
    | .ok (ack, st) =>
      match out.1.handlePushAck (ackVal ack) with
      | .ok p => ⟨p,st⟩
      | .error _ => ⟨out.1,st⟩

def Backlog (sender : Store) (channelId : String) (cursor : ℤ) : Prop :=
  ∃ m ∈ sender.channelMessages channelId, ∃ q : ℕ, m.seq = some q ∧ cursor < q

def entries (sender : Store) (e : Ends) (r : Round) : List Val :=
  (e.pusher.toPush sender).map (attachKeys r.env e.pusher.nodeIdentityHash)

def payload (sender : Store) (e : Ends) (r : Round) : Val :=
  pushPayload e.pusher.channelId e.pusher.nodeIdentityHash (entries sender e r)

/-- The peer knows an entry already, or the numbers that it gives to the new ones end above
the cursor. -/
def Answered (w : Setting) (sender : Store) (e : Ends) (r : Round) : Prop :=
  (∃ m ∈ e.pusher.toPush sender, (getByHash e.receiver m.msgHash).isSome) ∨
    0 < newCount w e.receiver (payload sender e r) ∧
      e.pusher.pushCursor < (latestSeq e.receiver e.pusher.channelId +
        newCount w e.receiver (payload sender e r) : ℕ)

/-- The peer takes the request and no entry raises. -/
def Handled (w : Setting) (sender : Store) (e : Ends) (r : Round) : Prop :=
  e.pusher.channelId ≠ "" ∧
    requireTrustedPeer e.receiver (.str e.pusher.nodeIdentityHash) = .ok () ∧
    Unexceptional w.sig (batchFor w.config e.receiver e.pusher.channelId
      (.str e.pusher.nodeIdentityHash)) r.now e.receiver [] (entries sender e r)

/-- The page holds nothing for the peer, or the push fits into a frame, the peer handles it
and answers it. -/
def Productive (w : Setting) (sender : Store) (e : Ends) (r : Round) : Prop :=
  e.pusher.toPush sender = [] ∨
    r.env.packedSize (payload sender e r) ≤ maxFrameSize ∧ Handled w sender e r ∧
      Answered w sender e r

variable {v : Val}

section Receiver
variable {sig : SignatureScheme} {b : PushBatch} {now : ℚ} {st st' : Store} {env : PushEnv}
  {node : String} {a : Answer} {as : List Answer} {ms : List Message} {m q : Message}

lemma effect_other (h : EntryEffect sig b st (pushedData env m) a st') {k : String}
    (hk : k ≠ m.msgHash) : getByHash st' k = getByHash st k := by
  cases h with
  | duplicate => rfl
  | refused => rfl
  | stored _ _ _ hh _ _ _ hi =>
    have hke : some m.msgHash = some _ := Except.ok.inj hh
    have hg := Table.get?_insert? hi k
    rw [← Option.some.inj hke,if_neg hk.symm] at hg
    exact hg

lemma storable_attachKeys :
    storable sig b st (attachKeys env node m) = admissible sig b st (pushedData env m) := by
  unfold storable
  rw [attachKeys_data]

lemma effect_storable_eq (h : EntryEffect sig b st (pushedData env m) a st')
    (hq : q.msgHash ≠ m.msgHash) :
    storable sig b st' (attachKeys env node q) = storable sig b st (attachKeys env node q) := by
  have hf : getByWireHash st' (pushedData env q).msgHash =
      getByWireHash st (pushedData env q).msgHash :=
    congrArg Except.ok (effect_other h hq)
  rw [storable_attachKeys,storable_attachKeys]
  unfold admissible
  rw [hf,vetEntry_congr h.identities]

lemma effect_answer (h : EntryEffect sig b st (pushedData env m) a st') : a = .received v ↔
      (getByHash st m.msgHash).isSome ∧ v = natVal? m.seq ∨
        v = .int (latestSeq st' b.channelId : ℕ) ∧
          latestSeq st b.channelId < latestSeq st' b.channelId := by
  cases h with
  | @duplicate row hf =>
    have hr : getByHash st m.msgHash = some row := Except.ok.inj hf
    simp [hr,pushedData,eq_comm]
  | refused hf =>
    have hr : getByHash st m.msgHash = none := Except.ok.inj hf
    simp [hr]
  | @stored content c row t hf _ hc =>
    have hr : getByHash st m.msgHash = none := Except.ok.inj hf
    have hb : latestSeq { ChannelRepo.bumpSeq st b.channelId with messages := t }
        b.channelId = c.latestSeq + 1 := latestSeq_bumpSeq hc
    simp [hr,hb,latestSeq_eq hc,eq_comm]

lemma ne_head_of_nodup (h : ((m :: ms).map msgHash).Nodup) (hq : q ∈ ms) :
    q.msgHash ≠ m.msgHash := by
  rw [map_cons,nodup_cons] at h
  intro he
  exact h.1 (he ▸ mem_map_of_mem hq)

lemma pushEntries_counter (hn : (ms.map msgHash).Nodup)
    (h : pushEntries sig b now st (ms.map (attachKeys env node)) = .ok (as, st')) :
    latestSeq st' b.channelId = latestSeq st b.channelId +
      ((ms.map (attachKeys env node)).filter (storable sig b st)).length := by
  induction ms generalizing st as with
  | nil =>
    cases h
    rfl
  | cons m ms ih =>
    obtain ⟨a,st₁,as',he,hr,-⟩ := pushEntries_attached h
    have ht := ih (nodup_cons.mp hn).2 hr
    have hh := effect_latestSeq he
    have hf : (ms.map (attachKeys env node)).filter (storable sig b st₁) =
        (ms.map (attachKeys env node)).filter (storable sig b st) := by
      apply filter_congr
      intro v hv
      obtain ⟨q,hq,rfl⟩ := mem_map.mp hv
      exact effect_storable_eq he (ne_head_of_nodup hn hq)
    rw [ht,hf,hh,map_cons,filter_cons,storable_attachKeys]
    split_ifs with ha
    · rw [length_cons]
      omega
    · rfl

lemma pushEntries_received (hn : (ms.map msgHash).Nodup)
    (h : pushEntries sig b now st (ms.map (attachKeys env node)) = .ok (as, st')) :
    Answer.received v ∈ as ↔ (∃ m ∈ ms, (getByHash st m.msgHash).isSome ∧ v = natVal? m.seq) ∨
        ∃ k : ℕ, v = .int k ∧ latestSeq st b.channelId < k ∧ k ≤ latestSeq st' b.channelId := by
  induction ms generalizing st as with
  | nil =>
    cases h
    simp only [not_mem_nil,false_and,exists_false,false_or,false_iff,not_exists]
    intro k hk
    omega
  | cons m ms ih =>
    obtain ⟨a,st₁,as',he,hr,rfl⟩ := pushEntries_attached h
    -- The head takes at most one number, and the tail only later ones.
    have hh := effect_latestSeq he
    have hle : latestSeq st₁ b.channelId ≤ latestSeq st' b.channelId :=
      (pushEntries_encoded hr).1
    have ho : latestSeq st b.channelId ≤ latestSeq st₁ b.channelId ∧
        latestSeq st₁ b.channelId ≤ latestSeq st b.channelId + 1 := by
      rw [hh]
      split_ifs <;> omega
    have hkn : ∀ q ∈ ms, (getByHash st₁ q.msgHash).isSome = (getByHash st q.msgHash).isSome := by
      intro q hq
      rw [effect_other he (ne_head_of_nodup hn hq)]
    rw [mem_cons,eq_comm,effect_answer he,ih (nodup_cons.mp hn).2 hr]
    constructor
    · rintro ((⟨hs,hv⟩ | ⟨rfl,hlt⟩) | (⟨q,hq,hs,hv⟩ | ⟨k,rfl,hlt,hk⟩))
      · exact .inl ⟨m,mem_cons_self,hs,hv⟩
      · exact .inr ⟨_,rfl,hlt,hle⟩
      · exact .inl ⟨q,mem_cons_of_mem m hq,hkn q hq ▸ hs,hv⟩
      · exact .inr ⟨k,rfl,by omega,hk⟩
    rintro (⟨q,hq,hs,hv⟩ | ⟨k,rfl,hlt,hk⟩)
    · rcases mem_cons.mp hq with rfl | hq
      · exact .inl (.inl ⟨hs,hv⟩)
      · exact .inr (.inl ⟨q,hq,(hkn q hq).symm ▸ hs,hv⟩)
    by_cases hf : k ≤ latestSeq st₁ b.channelId
    · have hk₁ : k = latestSeq st₁ b.channelId := by omega
      exact .inl (.inr ⟨by rw [hk₁],by omega⟩)
    · exact .inr (.inr ⟨k,rfl,by omega,hk⟩)

end Receiver

variable {vs : List Val} {st : Store}

lemma maxReceived_bound {n : ℤ} (h : maxReceived vs = .ok n) :
    ∀ v ∈ vs, ∀ i, v.int? = some i → i ≤ n := by
  fun_induction maxReceived vs generalizing n with
  | case1 => cases h
  | case2 v j hj =>
    cases h
    intro u hu i hi
    rw [mem_singleton.mp hu,hj] at hi
    cases hi
    exact le_refl _
  | case3 => cases h
  | case4 v vs hne ih =>
    obtain ⟨rest,hr,h⟩ := bind_ok h
    split at h
    next j hj =>
      cases h
      intro u hu i hi
      rcases mem_cons.mp hu with rfl | hu
      · rw [hj] at hi
        cases hi
        exact le_max_left _ _
      · exact le_trans (ih hr u hu i hi) (le_max_right _ _)
    · cases h

lemma maxReceived_ints (hne : vs ≠ []) (hin : ∀ v ∈ vs, ∃ i, v.int? = some i) :
    ∃ n, maxReceived vs = .ok n := by
  induction vs with
  | nil => exact absurd rfl hne
  | cons v vs ih =>
    obtain ⟨i,hi⟩ := hin v mem_cons_self
    cases vs with
    | nil => exact ⟨i,by simp [maxReceived,hi]⟩
    | cons u us =>
      obtain ⟨n,hn⟩ := ih (by simp) fun x hx => hin x (mem_cons_of_mem v hx)
      exact ⟨max i n,by simp [maxReceived,hn,hi]⟩

lemma handlePushAck_raises (p : FederationPusher) {ack : PushAck}
    (hin : ∀ v ∈ ack.received, ∃ i, v.int? = some i) :
    ∃ p', p.handlePushAck (ackVal ack) = .ok p' ∧ (p.pushCursor < p'.pushCursor ↔
        ∃ v ∈ ack.received, ∃ i, v.int? = some i ∧ p.pushCursor < i) := by
  have hg : (ackVal ack).get "received" (.list []) = .ok (.list ack.received) := rfl
  have hit : (Val.list ack.received).iter = .ok ack.received := rfl
  unfold handlePushAck
  rw [hg,ok_bind,hit]
  by_cases he : ack.received = []
  · exact ⟨p,by simp [he,Val.truthy,pure,Except.pure],by simp [he]⟩
  have ht : (Val.list ack.received).truthy = true := by
    simpa [Val.truthy] using he
  obtain ⟨n,hn⟩ := maxReceived_ints he hin
  obtain ⟨v,hv,hvn⟩ := maxReceived_mem hn
  have hb := maxReceived_bound hn
  rw [ht]
  simp only [Bool.true_eq_false,if_false,ok_bind,hn]
  by_cases hlt : p.pushCursor < n
  · exact ⟨_,if_pos hlt,iff_of_true hlt ⟨v,hv,n,hvn,hlt⟩⟩
  refine ⟨_,if_neg hlt,iff_of_false (lt_irrefl _) ?_⟩
  rintro ⟨u,hu,i,hi,hl⟩
  exact hlt (lt_of_lt_of_le hl (hb u hu i hi))

variable {p : FederationPusher}

lemma handlePushAck_mono {p' : FederationPusher} {data : Val} (h : p.handlePushAck data = .ok p') :
    p'.channelId = p.channelId ∧ p.pushCursor ≤ p'.pushCursor := by
  obtain ⟨received,-,h⟩ := bind_ok h
  split at h
  · cases h
    exact ⟨rfl,le_refl _⟩
  obtain ⟨vs,-,h⟩ := bind_ok h
  obtain ⟨newest,-,h⟩ := bind_ok h
  split at h
  next hlt =>
    cases h
    exact ⟨rfl,hlt.le⟩
  · cases h
    exact ⟨rfl,le_refl _⟩

lemma page_nodup : ((p.page st).map msgHash).Nodup := by
  have hr : ((st.channelMessages p.channelId).filter
      (fun m => m.seq.any fun q : ℕ => p.pushCursor < q)).Sublist st.messages.rows :=
    filter_sublist.trans filter_sublist
  have hs := ((perm_insertionSort seqLe _).map msgHash).nodup_iff.mpr
    (st.messages.keyed.sublist (hr.map msgHash))
  exact hs.sublist ((take_sublist _ _).map msgHash)

lemma toPush_nodup : ((p.toPush st).map msgHash).Nodup :=
  page_nodup.sublist (filter_sublist.map msgHash)

lemma toPush_seq {m : Message} (hm : m ∈ p.toPush st) :
    ∃ q : ℕ, m.seq = some q ∧ p.pushCursor < q :=
  (mem_getHistory (mem_filter.mp hm).1).2

lemma lt_maxSeq_page (h : Backlog st p.channelId p.pushCursor) :
    p.pushCursor < maxSeq p.pushCursor (p.page st) := by
  obtain ⟨m,hm,q,hq,hlt⟩ := h
  have hme : m ∈ ((st.channelMessages p.channelId).filter
      (fun m => m.seq.any fun q : ℕ => p.pushCursor < q)).insertionSort seqLe := by
    rw [mem_insertionSort,mem_filter]
    exact ⟨hm,by simpa [hq] using hlt⟩
  cases hl : ((st.channelMessages p.channelId).filter
      (fun m => m.seq.any fun q : ℕ => p.pushCursor < q)).insertionSort seqLe with
  | nil =>
    rw [hl] at hme
    cases hme
  | cons x xs =>
    have hx : x ∈ p.page st := by
      unfold page getHistory
      rw [hl]
      exact mem_cons_self
    obtain ⟨-,k,hk,hltk⟩ := mem_getHistory hx
    exact lt_of_lt_of_le hltk (le_maxSeq hx hk)

section Rounds
variable {w : Setting} {sender : Store} {e : Ends} {r : Round}

lemma pushPending_lossless (hl : r.Lossless) (hne : e.pusher.toPush sender ≠ []) :
    e.pusher.pushPending r.env sender =
      if maxFrameSize < r.env.packedSize (payload sender e r) then
        (e.pusher.fail r.env, none, false)
      else ({ e.pusher with consecutiveFailures := 0 }, some (payload sender e r), true) := by
  obtain ⟨hli,hs⟩ := hl
  simp only [pushPending,hli,hs,hne,Bool.true_eq_false,if_false]
  rfl

lemma handled_iff :
    Handled w sender e r ↔ ∃ a, receive w e.receiver (payload sender e r) r.now = .ok a := by
  constructor
  · rintro ⟨hc,ht,hr⟩
    obtain ⟨⟨as,st'⟩,hp⟩ := (pushEntries_succeeds_iff (.refl _ _)).mpr hr
    exact ⟨(_, st'),receive_pushPayload.mpr ⟨hc,ht,as,hp,rfl⟩⟩
  rintro ⟨⟨ack,st'⟩,h⟩
  obtain ⟨hc,ht,as,hp,-⟩ := receive_pushPayload.mp h
  exact ⟨hc,ht,(pushEntries_succeeds_iff (.refl _ _)).mp ⟨_,hp⟩⟩

variable {ack : PushAck} {st' : Store}

lemma receive_latestSeq (h : receive w e.receiver (payload sender e r) r.now = .ok (ack, st')) :
    latestSeq st' e.pusher.channelId = latestSeq e.receiver e.pusher.channelId +
      newCount w e.receiver (payload sender e r) := by
  obtain ⟨hc,ht,as,hp,-⟩ := receive_pushPayload.mp h
  have ho : openBatch w.config e.receiver (payload sender e r) none =
      .ok (.str e.pusher.channelId, batchFor w.config e.receiver e.pusher.channelId
        (.str e.pusher.nodeIdentityHash), entries sender e r) :=
    openBatch_pushPayload.mpr ⟨hc,ht,rfl⟩
  unfold newCount
  rw [ho]
  exact pushEntries_counter toPush_nodup hp

lemma mem_ack_received (h : receive w e.receiver (payload sender e r) r.now = .ok (ack, st')) :
    v ∈ ack.received ↔ (∃ m ∈ e.pusher.toPush sender, (getByHash e.receiver m.msgHash).isSome ∧
          v = natVal? m.seq) ∨ ∃ k : ℕ, v = .int k ∧ latestSeq e.receiver e.pusher.channelId < k ∧
          k ≤ latestSeq st' e.pusher.channelId := by
  obtain ⟨-,-,as,hp,rfl⟩ := receive_pushPayload.mp h
  exact mem_received.trans (pushEntries_received toPush_nodup hp)

lemma ack_received_int (h : receive w e.receiver (payload sender e r) r.now = .ok (ack, st'))
    (hv : v ∈ ack.received) : ∃ i, v.int? = some i := by
  rcases (mem_ack_received h).mp hv with ⟨m,hm,-,rfl⟩ | ⟨k,rfl,-,-⟩
  · obtain ⟨q,hq,-⟩ := toPush_seq hm
    exact ⟨q,by rw [hq]; rfl⟩
  · exact ⟨k,rfl⟩

lemma answered_iff (h : receive w e.receiver (payload sender e r) r.now = .ok (ack, st')) :
    (∃ v ∈ ack.received, ∃ i, v.int? = some i ∧ e.pusher.pushCursor < i) ↔
      Answered w sender e r := by
  have hl := receive_latestSeq h
  constructor
  · rintro ⟨v,hv,i,hi,hlt⟩
    rcases (mem_ack_received h).mp hv with ⟨m,hm,hs,-⟩ | ⟨k,rfl,hlo,hh⟩
    · exact .inl ⟨m,hm,hs⟩
    · cases hi
      exact .inr ⟨by omega,by omega⟩
  rintro (⟨m,hm,hs⟩ | ⟨hp,hlt⟩)
  · obtain ⟨q,hq,hlt⟩ := toPush_seq hm
    have hme : Val.int q ∈ ack.received :=
      (mem_ack_received h).mpr (.inl ⟨m,hm,hs,by rw [hq]; rfl⟩)
    exact ⟨_,hme,q,rfl,hlt⟩
  -- The last of the new numbers.
  have hme : Val.int (latestSeq st' e.pusher.channelId : ℕ) ∈ ack.received :=
    (mem_ack_received h).mpr (.inr ⟨_,rfl,by omega,le_refl _⟩)
  exact ⟨_,hme,_,rfl,by rwa [hl]⟩

lemma round_raises_iff (hl : r.Lossless)
    (hb : Backlog sender e.pusher.channelId e.pusher.pushCursor) :
    e.pusher.pushCursor < (round w sender e r).pusher.pushCursor ↔ Productive w sender e r := by
  unfold Productive
  by_cases he : e.pusher.toPush sender = []
  · refine iff_of_true ?_ (.inl he)
    have hm : (round w sender e r).pusher.pushCursor =
        maxSeq e.pusher.pushCursor (e.pusher.page sender) := by
      simp [round,pushPending,hl.1,he]
    rw [hm]
    exact lt_maxSeq_page hb
  simp only [he,false_or]
  have hp := pushPending_lossless hl he
  by_cases hs : maxFrameSize < r.env.packedSize (payload sender e r)
  · rw [if_pos hs] at hp
    refine iff_of_false ?_ fun h => absurd h.1 (Nat.not_le.mpr hs)
    simp only [round,hp]
    exact lt_irrefl _
  rw [if_neg hs] at hp
  simp only [round,hp,Nat.le_of_not_lt hs,true_and]
  cases hr : receive w e.receiver (payload sender e r) r.now with
  | error x =>
    refine iff_of_false (lt_irrefl _) ?_
    rintro ⟨hh,-⟩
    obtain ⟨a,ha⟩ := handled_iff.mp hh
    rw [hr] at ha
    cases ha
  | ok a =>
    obtain ⟨p',hac,hra⟩ :=
      handlePushAck_raises { e.pusher with consecutiveFailures := 0 }
        fun v hv => ack_received_int hr hv
    simp only [hac,handled_iff.mpr ⟨a,hr⟩,true_and]
    exact hra.trans (answered_iff hr)

lemma round_mono : (round w sender e r).pusher.channelId = e.pusher.channelId ∧
      e.pusher.pushCursor ≤ (round w sender e r).pusher.pushCursor := by
  obtain ⟨hch,-⟩ := pushPending_ids
  have hcu : e.pusher.pushCursor ≤ (e.pusher.pushPending r.env sender).1.pushCursor := by
    rcases pushPending_cases e.pusher r.env sender with ⟨hc,-⟩ | ⟨-,-,hc,-⟩ | ⟨-,hc,-⟩
    · exact hc.ge
    · rw [hc]
      exact le_maxSeq_base _ _
    · exact hc.ge
  unfold round
  simp only
  split
  · exact ⟨hch,hcu⟩
  split
  · exact ⟨hch,hcu⟩
  split
  next ha =>
    obtain ⟨hc,hle⟩ := handlePushAck_mono ha
    exact ⟨hc.trans hch,hcu.trans hle⟩
  · exact ⟨hch,hcu⟩

end Rounds

/-- A round without loss, productive as long as there is something to push. -/
def Clear (w : Setting) (sender : Store) (e : Ends) (r : Round) : Prop :=
  r.Lossless ∧ (Backlog sender e.pusher.channelId e.pusher.pushCursor → Productive w sender e r)

/-- A lossless round with a backlog raises the cursor exactly when it is productive; when all rounds
are, the backlog is gone after finitely many. -/
theorem push_progress_iff (w : Setting) (sender : Store) (e : Ends)
    (hseq : Sequenced sender e.pusher.channelId) :
    (∀ r : Round, r.Lossless → Backlog sender e.pusher.channelId e.pusher.pushCursor →
      (e.pusher.pushCursor < (round w sender e r).pusher.pushCursor ↔ Productive w sender e r)) ∧
    ∀ rs : List Round, Guarded (round w sender) (Clear w sender) e rs →
      (latestSeq sender e.pusher.channelId : ℤ) ≤ e.pusher.pushCursor + rs.length →
        ¬ Backlog sender e.pusher.channelId (run (round w sender) e rs).pusher.pushCursor := by
  refine ⟨fun r => round_raises_iff,fun rs hr hl => ?_⟩
  refine hr.exhausts (I := fun x : Ends => x.pusher.channelId = e.pusher.channelId)
    (f := fun x : Ends => x.pusher.pushCursor) (W := Backlog sender e.pusher.channelId) ?_ ?_ ?_
    rfl hl
  · intro x r hx hc
    obtain ⟨hch,hle⟩ := round_mono
    refine ⟨hch.trans hx,hle,fun hw => ?_⟩
    rw [← hx] at hw
    exact (round_raises_iff hc.1 hw).mpr (hc.2 hw)
  · rintro a b hab ⟨m,hm,q,hq,hlt⟩
    exact ⟨m,hm,q,hq,lt_of_le_of_lt hab hlt⟩
  · rintro c ⟨m,hm,q,hq,hlt⟩
    have hb := (hseq.bounds m hm q hq).2
    omega

def quietRound : Round := ⟨{},1000⟩

def shortSender : Store :=
  { channels := .singleton { id := "general", latestSeq := 1 }
    messages := .singleton (sampleMessage 1) }

def shortEnds : Ends := ⟨(sampleNetwork 0).pusher,(sampleNetwork 0).receiver⟩

lemma shortSender_sequenced : Sequenced shortSender "general" := by
  constructor
  · have hb : ∀ m ∈ shortSender.channelMessages "general", ∀ q ∈ m.seq, 1 ≤ q ∧ q ≤ 1 := by
      decide
    exact hb
  intro m hm m' hm' q hq hq'
  have hn : ((shortSender.channelMessages "general").map seq).Nodup := by decide
  exact inj_on_of_nodup_map hn hm hm' (hq.trans hq'.symm)

lemma shortSender_backlog : Backlog shortSender "general" 0 :=
  ⟨sampleMessage 1,by decide,1,rfl,by decide⟩

theorem shortRound_progress : Productive sampleSetting shortSender shortEnds quietRound ∧
      ¬ Backlog shortSender "general"
        (run (round sampleSetting shortSender) shortEnds [quietRound]).pusher.pushCursor := by
  have h := push_progress_iff sampleSetting shortSender shortEnds shortSender_sequenced
  have hr : shortEnds.pusher.pushCursor <
      (round sampleSetting shortSender shortEnds quietRound).pusher.pushCursor := by
    decide +kernel
  have hp := (h.1 quietRound ⟨rfl,rfl⟩ shortSender_backlog).mp hr
  exact ⟨hp,h.2 [quietRound] ⟨⟨⟨rfl,rfl⟩,fun _ => hp⟩,trivial⟩ (by decide)⟩

/-! A signed post and the notice of its pin. The peer has the post; the notice is numbered
like any message, but nobody signed it. -/

def noticeProcessor : Processor :=
  { permissionResolver := none, nodeIdentityHash := some "node", sealedManager := none }

def noticePost : MessageEnvelope :=
  { channelId := "general", senderHash := sampleHash, timestamp := .fin 1000, body := some "hello"
    lxmfSignature := some [1, 2, 3], lxmfSignedPart := some [1, 2, 3] }

def noticePin : MessageEnvelope :=
  { noticePost with
    type := msgPin, body := none, replyTo := some (noticePost.computeHash vaultPrimitives) }

def noticeStart : Store :=
  { channels := .singleton { id := "general" } }

def noticePosted : Store :=
  committed noticeStart
    (ingest vaultPrimitives noticeProcessor ⟨1000,[]⟩ none noticeStart noticePost).2

def noticeSender : Store :=
  committed noticePosted
    (ingest vaultPrimitives noticeProcessor ⟨1001,[]⟩ none noticePosted noticePin).2

def noticeRow : Message :=
  pinNotice vaultPrimitives noticeProcessor ⟨1001,[]⟩ noticePin 2
    { body := some (pinText noticePin true) }

def noticeEnds : Ends :=
  { pusher := { peerIdentityHash := "peer", channelId := "general", nodeIdentityHash := "node"
                pushCursor := 1 }
    receiver := { noticePosted with
      peers := .singleton { identityHash := "node", federationTrusted := true } } }

def keyedRound : Round := ⟨vaultEnv,1000⟩

theorem noticeRound_stalls :
    keyedRound.Lossless ∧ Backlog noticeSender "general" noticeEnds.pusher.pushCursor ∧
      ¬ noticeEnds.pusher.pushCursor <
        (round vaultSetting noticeSender noticeEnds keyedRound).pusher.pushCursor := by
  refine ⟨⟨rfl,rfl⟩,⟨noticeRow,by decide +kernel,2,rfl,by decide⟩,by decide +kernel⟩

end Hokora.PushProgress
