import Hokora.CumulativeAck
import Hokora.Pusher
import Hokora.TransitionRuns

/-!
# Delivery of pushed messages

Sender, receiver and frames that are lost, delayed or repeated; both nodes go on writing.
-/
namespace Hokora.PushDelivery
open Constants CumulativeAck Database KeyedTable PushReceive Pusher PyValue Repositories
  SenderBinding TransitionRuns WireRows
open ChannelRepo (bumpSeq getById)
open FederationPusher (maxSeq pushPending)
open List
open MessageRepo (getByHash getHistory insert insert_ok mem_getHistory seqLe)

structure PushFrame where
  messages : List Message
  payload : Val

structure Network where
  sender : Store
  receiver : Store
  pusher : FederationPusher
  pushes : List PushFrame := []
  acks : List PushAck := []
  dropped : List String := []

structure Setting where
  sig : SignatureScheme
  config : Option FederationConfig

inductive Event where
  | push (env : PushEnv)
  | deliver (i : ℕ) (now : ℚ)
  | acknowledge (i : ℕ)
  | senderPosts (row : Message)
  | receiverPosts (row : Message)

def post (st : Store) (channelId : String) (row : Message) : Py Store := do
  let (seq, st₁) ← SequenceManager.nextSeq st channelId
  insert st₁ { row with channelId := channelId, seq := some seq }

def postOr (st : Store) (channelId : String) (row : Message) : Store :=
  match post st channelId row with
  | .ok st' => st'
  | .error _ => st

namespace Network

def channelId (n : Network) : String := n.pusher.channelId

def history (n : Network) : List Message := n.sender.channelMessages n.channelId

end Network

def receive (w : Setting) (st : Store) (payload : Val) (now : ℚ) : Py (PushAck × Store) :=
  handlePushMessages w.sig w.config now st payload none none (none : Option Unit)

def step (w : Setting) (n : Network) : Event → Network
  | .push env =>
    let r := n.pusher.pushPending env n.sender
    { n with
      pusher := r.1
      pushes := n.pushes ++ (r.2.1.map fun payload =>
        ⟨n.pusher.toPush n.sender,payload⟩).toList
      dropped := n.dropped ++ if env.linked then
          ((n.pusher.page n.sender).filter fun m =>
            filtered n.sender n.pusher.peerIdentityHash m).map Message.msgHash
        else [] }
  | .deliver i now =>
    match n.pushes[i]? with
    | none => n
    | some f =>
      match receive w n.receiver f.payload now with
      | .ok (ack, st) => { n with receiver := st, acks := n.acks ++ [ack] }
      | .error _ => n
  | .acknowledge i =>
    match n.acks[i]? with
    | none => n
    | some ack =>
      match n.pusher.handlePushAck (ackVal ack) with
      | .ok p => { n with pusher := p }
      | .error _ => n
  | .senderPosts row => { n with sender := postOr n.sender n.channelId row }
  | .receiverPosts row => { n with receiver := postOr n.receiver n.channelId row }

/-- The message was left out on purpose, is stored by the receiver, or was rejected in an
acknowledgement. -/
def Settled (n : Network) (m : Message) : Prop :=
  m.msgHash ∈ n.dropped ∨ (getByHash n.receiver m.msgHash).isSome ∨
    ∃ ack ∈ n.acks, Val.str m.msgHash ∈ ack.rejected

/-- What the cursor promises. -/
def AtLeastOnce (n : Network) : Prop :=
  SettledUpTo (fun m => m ∈ n.history) Message.seq (Settled n) n.pusher.pushCursor

def latestSeq (st : Store) (channelId : String) : ℕ :=
  ((getById st channelId).map Channel.latestSeq).getD 0

def storable (sig : SignatureScheme) (b : PushBatch) (st : Store) (v : Val) : Bool :=
  match MsgData.ofVal v with
  | .ok d => admissible sig b st d
  | .error _ => false

def newCount (w : Setting) (st : Store) (payload : Val) : ℕ :=
  match openBatch w.config st payload none with
  | .ok (_, b, entries) => (entries.filter (storable w.sig b st)).length
  | .error _ => 0

/-- The counters are comparable at a delivery: nothing in the push is new to the receiver,
or numbering what is new ends at most at the largest number in the push. -/
def CountersAgree (w : Setting) (n : Network) : Event → Prop
  | .deliver i _ =>
    match n.pushes[i]? with
    | none => True
    | some f =>
      newCount w n.receiver f.payload = 0 ∨
        ((latestSeq n.receiver n.channelId + newCount w n.receiver f.payload : ℕ) : ℤ) ≤
          maxSeq 0 f.messages
  | _ => True

instance (w : Setting) (n : Network) (e : Event) : Decidable (CountersAgree w n e) := by
  cases e with
  | deliver i now =>
    unfold CountersAgree
    simp only
    split <;> infer_instance
  | _ => exact inferInstanceAs (Decidable True)

structure Sequenced (st : Store) (channelId : String) : Prop where
  bounds : ∀ m ∈ st.channelMessages channelId, ∀ q, m.seq = some q →
    1 ≤ q ∧ q ≤ latestSeq st channelId
  distinct : ∀ m ∈ st.channelMessages channelId, ∀ m' ∈ st.channelMessages channelId, ∀ q,
    m.seq = some q → m'.seq = some q → m = m'

structure Initial (n : Network) : Prop where
  sequenced : Sequenced n.sender n.channelId
  cursor : n.pusher.pushCursor = 0
  pushes : n.pushes = []
  acks : n.acks = []

variable {m : Message} {n : Network} {ack : PushAck} {env : PushEnv} {f : PushFrame} {w : Setting}
  {st : Store} {i q : ℕ} {now : ℚ} {ch : String}

lemma latestSeq_bumpSeq {c : Channel} (hc : getById st ch = some c) :
    latestSeq (bumpSeq st ch) ch = c.latestSeq + 1 := by
  unfold latestSeq
  rw [ChannelRepo.getById_bumpSeq,if_pos rfl,hc]
  rfl

lemma latestSeq_eq {c : Channel} (hc : getById st ch = some c) : latestSeq st ch = c.latestSeq := by
  unfold latestSeq
  rw [hc]
  rfl

variable {ms : List Message}

section Receiver
variable {sig : SignatureScheme} {b : PushBatch} {now : ℚ} {st st' : Store} {a : Answer}
  {as : List Answer} {d : MsgData}

lemma effect_number (h : EntryEffect sig b st d a st') :
    latestSeq st b.channelId ≤ latestSeq st' b.channelId ∧
      ∀ v, a = .received v → v = d.seq ∨ ∃ k : ℕ, v = .int k ∧
        latestSeq st b.channelId < k ∧ k ≤ latestSeq st' b.channelId := by
  cases h with
  | duplicate => exact ⟨le_refl _,fun v hv => .inl (by cases hv; rfl)⟩
  | refused => exact ⟨le_refl _,fun v hv => by cases hv⟩
  | @stored content c row t _ _ hc =>
    have hb : latestSeq { bumpSeq st b.channelId with messages := t }
        b.channelId = c.latestSeq + 1 := latestSeq_bumpSeq hc
    rw [hb,latestSeq_eq hc]
    refine ⟨Nat.le_succ _,fun v hv => .inr ⟨c.latestSeq + 1,?_,Nat.lt_succ_self _,le_refl _⟩⟩
    cases hv
    rfl

lemma effect_latestSeq (h : EntryEffect sig b st d a st') : latestSeq st' b.channelId =
      latestSeq st b.channelId + if admissible sig b st d then 1 else 0 := by
  cases h with
  | duplicate hf =>
    have hn : admissible sig b st d = false := by simp [admissible,hf]
    simp [hn]
  | refused hf hv =>
    have hn : admissible sig b st d = false := by simp [admissible,hf,hv]
    simp [hn]
  | @stored content c row t hf hv hc =>
    have hb : latestSeq { bumpSeq st b.channelId with messages := t }
        b.channelId = c.latestSeq + 1 := latestSeq_bumpSeq hc
    have ha : admissible sig b st d = true := by simp [admissible,hf,hv]
    rw [hb,latestSeq_eq hc,if_pos ha]

lemma effect_storable (h : EntryEffect sig b st d a st') {v : Val}
    (hv : storable sig b st' v = true) : storable sig b st v = true := by
  unfold storable at hv ⊢
  split at hv
  next e he =>
    obtain ⟨hf,content,hve⟩ := admissible_iff.mp hv
    obtain ⟨key,hk,hge⟩ := bind_ok hf
    refine admissible_iff.mpr ⟨?_,content,by rwa [← vetEntry_congr h.identities]⟩
    unfold getByWireHash
    rw [hk,ok_bind]
    cases key with
    | none => rfl
    | some k =>
      cases hr : getByHash st k with
      | none => simp [hr,pure,Except.pure]
      | some row =>
        -- A row of the start is still there, so the hash was not new later.
        obtain ⟨row',hr'⟩ := Option.isSome_iff_exists.mp
          (h.kept (Option.isSome_iff_exists.mpr ⟨row,hr⟩))
        rw [Option.bind_some,hr'] at hge
        cases hge
  · cases hv

variable {vs : List Val} {msgHash node : String}

lemma pushEntries_latestSeq (h : pushEntries sig b now st vs = .ok (as, st')) :
    latestSeq st' b.channelId ≤
      latestSeq st b.channelId + (vs.filter (storable sig b st)).length := by
  induction vs generalizing st as with
  | nil =>
    cases h
    exact Nat.le_add_right _ _
  | cons v vs ih =>
    obtain ⟨d,a,st₁,as',hd,hen,hr,rfl⟩ := pushEntries_cons.mp h
    have he := pushEntry_effect hen
    have hh := effect_latestSeq he
    have ht := ih hr
    have hm : (vs.filter (storable sig b st₁)).length ≤ (vs.filter (storable sig b st)).length :=
      (monotone_filter_right vs fun w hw => effect_storable he hw).length_le
    have hv : storable sig b st v = admissible sig b st d := by
      unfold storable
      rw [hd]
    rw [filter_cons,hv]
    split_ifs at hh ⊢ with ha
    · rw [length_cons]
      omega
    · omega

lemma effect_answered (h : EntryEffect sig b st d a st') (hd : d.msgHash = .str msgHash) :
    (getByHash st' msgHash).isSome ∨ a = .rejected (.str msgHash) := by
  cases h with
  | duplicate hf =>
    rw [hd] at hf
    have hge : getByHash st msgHash = some _ := Except.ok.inj hf
    exact .inl (Option.isSome_iff_exists.mpr ⟨_,hge⟩)
  | refused => exact .inr (by rw [hd])
  | stored _ _ _ hh _ _ _ hi =>
    rw [hd] at hh
    have hk : some msgHash = some _ := Except.ok.inj hh
    cases hk
    exact .inl (Option.isSome_iff_exists.mpr ⟨_,(Table.get?_insert? hi _).trans (if_pos rfl)⟩)

lemma pushEntries_kept (h : pushEntries sig b now st vs = .ok (as, st'))
    (hs : (getByHash st msgHash).isSome) : (getByHash st' msgHash).isSome :=
  pushEntries_rel (R := fun s s' => (getByHash s msgHash).isSome → (getByHash s' msgHash).isSome)
    (fun _ => id) (fun h₁ h₂ h => h₂ (h₁ h)) (fun he => (pushEntry_effect he).kept) h hs

lemma pushEntries_attached
    (h : pushEntries sig b now st ((m :: ms).map (attachKeys env node)) = .ok (as, st')) :
    ∃ a st₁ as', EntryEffect sig b st (pushedData env m) a st₁ ∧
      pushEntries sig b now st₁ (ms.map (attachKeys env node)) = .ok (as', st') ∧
      as = a :: as' := by
  obtain ⟨d,a,st₁,as',hd,he,hr,has⟩ := pushEntries_cons.mp h
  cases hd.symm.trans attachKeys_data
  exact ⟨a,st₁,as',pushEntry_effect he,hr,has⟩

lemma pushEntries_encoded
    (h : pushEntries sig b now st (ms.map (attachKeys env node)) = .ok (as, st')) :
    latestSeq st b.channelId ≤ latestSeq st' b.channelId ∧
      (∀ m ∈ ms, (getByHash st' m.msgHash).isSome ∨ Answer.rejected (.str m.msgHash) ∈ as) ∧
      ∀ v, Answer.received v ∈ as → (∃ m ∈ ms, v = natVal? m.seq) ∨ ∃ k : ℕ, v = .int k ∧
        latestSeq st b.channelId < k ∧ k ≤ latestSeq st' b.channelId := by
  induction ms generalizing st as with
  | nil =>
    cases h
    exact ⟨le_refl _,by simp,by simp⟩
  | cons m ms ih =>
    obtain ⟨a,st₁,as',he,hr,rfl⟩ := pushEntries_attached h
    obtain ⟨hle,hnu⟩ := effect_number he
    obtain ⟨hle',hse,hn⟩ := ih hr
    refine ⟨hle.trans hle',?_,?_⟩
    · intro q hq
      rcases mem_cons.mp hq with rfl | hq
      · rcases effect_answered he rfl with hs | rfl
        · exact .inl (pushEntries_kept hr hs)
        · exact .inr mem_cons_self
      · exact (hse q hq).imp_right (mem_cons_of_mem a)
    intro v hv
    rcases mem_cons.mp hv with hv | hv
    · rcases hnu v hv.symm with rfl | ⟨k,rfl,hlt,hk⟩
      · exact .inl ⟨m,mem_cons_self,rfl⟩
      · exact .inr ⟨k,rfl,hlt,hk.trans hle'⟩
    rcases hn v hv with ⟨q,hq,rfl⟩ | ⟨k,rfl,hlt,hk⟩
    · exact .inl ⟨q,mem_cons_of_mem m hq,rfl⟩
    · exact .inr ⟨k,rfl,hle.trans_lt hlt,hk⟩

end Receiver

lemma le_maxSeq_base (base : ℤ) (ms : List Message) : base ≤ maxSeq base ms := by
  unfold maxSeq
  induction ms generalizing base with
  | nil => exact le_refl _
  | cons m ms ih =>
    rw [foldl_cons]
    refine le_trans ?_ (ih _)
    split_ifs <;> omega

lemma le_maxSeq {base : ℤ} (hm : m ∈ ms) (hq : m.seq = some q) : (q : ℤ) ≤ maxSeq base ms := by
  unfold maxSeq
  induction ms generalizing base with
  | nil => cases hm
  | cons k ms ih =>
    rw [foldl_cons]
    rcases mem_cons.mp hm with rfl | hm
    · refine le_trans ?_ (le_maxSeq_base _ ms)
      rw [hq,Option.getD_some]
      split_ifs <;> omega
    · exact ih hm

lemma maxSeq_attained (base : ℤ) (ms : List Message) : maxSeq base ms = base ∨
      ∃ m ∈ ms, maxSeq base ms = (m.seq.getD 0 : ℕ) := by
  unfold maxSeq
  induction ms generalizing base with
  | nil => exact .inl rfl
  | cons k ms ih =>
    rw [foldl_cons]
    rcases ih (if base < (k.seq.getD 0 : ℕ) then (k.seq.getD 0 : ℕ) else base) with h | ⟨m,hm,h⟩
    · rw [h]
      split_ifs
      · exact .inr ⟨k,mem_cons_self,rfl⟩
      · exact .inl rfl
    · exact .inr ⟨m,mem_cons_of_mem k hm,h⟩

lemma getHistory_complete (hs : Sequenced st ch) {sinceSeq : ℤ}
    {limit : ℕ} {h : Message} {k : ℕ} (hm : m ∈ st.channelMessages ch)
    (hq : m.seq = some q) (hlt : sinceSeq < q)
    (hh : h ∈ getHistory st ch sinceSeq limit) (hk : h.seq = some k)
    (hqk : q ≤ k) : m ∈ getHistory st ch sinceSeq limit := by
  by_contra hn
  have hme : m ∈ ((st.channelMessages ch).filter
      (fun m => m.seq.any fun q : ℕ => sinceSeq < q)).insertionSort seqLe := by
    rw [mem_insertionSort,mem_filter]
    exact ⟨hm,by simpa [hq] using hlt⟩
  have hle : seqLe h m :=
    rel_of_not_mem_take (pairwise_insertionSort seqLe _) hme hn hh
  have hkq : k ≤ q := by simpa [seqLe,hq,hk] using hle
  obtain rfl : k = q := le_antisymm hkq hqk
  have heq := hs.distinct h (mem_getHistory hh).1 m hm k hk hq
  exact hn (heq ▸ hh)

variable {row : Message} {msgHash : String}

lemma post_ok {st' : Store} (h : post st ch row = .ok st') : ∃ c t, getById st ch = some c ∧
      st.messages.insert? { row with
        channelId := ch
        seq := some (c.latestSeq + 1) } = some t ∧
      st' = { bumpSeq st ch with messages := t } := by
  obtain ⟨⟨n,st₁⟩,hs,h⟩ := bind_ok h
  obtain ⟨c,hc,rfl,rfl⟩ := ChannelRepo.incrementSeq_ok.mp hs
  obtain ⟨-,t,ht,rfl⟩ := insert_ok h
  exact ⟨c,t,hc,ht,rfl⟩

lemma postOr_cases : postOr st ch row = st ∨ ∃ c t, getById st ch = some c ∧
        st.messages.insert? { row with
          channelId := ch
          seq := some (c.latestSeq + 1) } = some t ∧
        postOr st ch row = { bumpSeq st ch with messages := t } := by
  unfold postOr
  cases h : post st ch row with
  | error e => exact .inl rfl
  | ok st' =>
    obtain ⟨c,t,hc,ht,rfl⟩ := post_ok h
    exact .inr ⟨c,t,hc,ht,rfl⟩

lemma postOr_kept (hs : (getByHash st msgHash).isSome) :
    (getByHash (postOr st ch row) msgHash).isSome := by
  rcases postOr_cases with h | ⟨c,t,-,ht,h⟩
  · rwa [h]
  obtain ⟨r,hr⟩ := Option.isSome_iff_exists.mp hs
  rw [h]
  exact Option.isSome_iff_exists.mpr ⟨r,Table.get?_insert?_of_some ht hr⟩

lemma postOr_history (st : Store) (ch : String) (row : Message) :
    (postOr st ch row).channelMessages ch = st.channelMessages ch ∧
        latestSeq (postOr st ch row) ch = latestSeq st ch ∨
      ∃ r : Message, r.seq = some (latestSeq st ch + 1) ∧
        (postOr st ch row).channelMessages ch = st.channelMessages ch ++ [r] ∧
        latestSeq (postOr st ch row) ch = latestSeq st ch + 1 := by
  rcases postOr_cases with h | ⟨c,t,hc,ht,h⟩
  · rw [h]
    exact .inl ⟨rfl,rfl⟩
  refine .inr ⟨{ row with
    channelId := ch
    seq := some (c.latestSeq + 1) },by rw [latestSeq_eq hc],?_,?_⟩
  · rw [h]
    simp [Store.channelMessages,Table.insert?_rows ht]
  · rw [h,latestSeq_eq hc]
    exact latestSeq_bumpSeq hc

lemma Sequenced.postOr (hs : Sequenced st ch) (row : Message) :
    Sequenced (postOr st ch row) ch := by
  rcases postOr_history st ch row with ⟨hro,hl⟩ | ⟨r,hr,hro,hl⟩
  · exact ⟨by rw [hro,hl]; exact hs.bounds,by rw [hro]; exact hs.distinct⟩
  constructor
  · rw [hro,hl]
    intro m hm q hq
    rcases mem_append.mp hm with ho | hn
    · have := hs.bounds m ho q hq
      omega
    rw [mem_singleton.mp hn,hr] at hq
    cases hq
    omega
  rw [hro]
  intro m hm m' hm' q hq hq'
  rcases mem_append.mp hm with ho | hn <;>
    rcases mem_append.mp hm' with ho' | hn'
  · exact hs.distinct m ho m' ho' q hq hq'
  · rw [mem_singleton.mp hn',hr] at hq'
    cases hq'
    have := hs.bounds m ho _ hq
    omega
  · rw [mem_singleton.mp hn,hr] at hq
    cases hq
    have := hs.bounds m' ho' _ hq'
    omega
  · rw [mem_singleton.mp hn,mem_singleton.mp hn']

structure Known (n : Network) (s : ℤ) : Prop where
  bound : s ≤ latestSeq n.sender n.channelId
  settled : SettledUpTo (fun m => m ∈ n.history) Message.seq (Settled n) s

structure FrameOk (n : Network) (f : PushFrame) : Prop where
  payload : ∃ env, f.payload = pushPayload n.channelId n.pusher.nodeIdentityHash
    (f.messages.map (attachKeys env n.pusher.nodeIdentityHash))
  rows : ∀ m ∈ f.messages, m ∈ n.history
  gapless : ∃ base, Known n base ∧ ∀ m ∈ n.history, ∀ q, m.seq = some q → base < (q : ℤ) →
    (q : ℤ) ≤ maxSeq 0 f.messages → m.msgHash ∈ n.dropped ∨ m ∈ f.messages

lemma Known.of_le {s t : ℤ} (h : Known n s) (hts : t ≤ s) : Known n t :=
  ⟨hts.trans h.bound,h.settled.of_le hts⟩

lemma FrameOk.top_le (hf : FrameOk n f) (hs : Sequenced n.sender n.channelId) :
    maxSeq 0 f.messages ≤ latestSeq n.sender n.channelId := by
  rcases maxSeq_attained 0 f.messages with h | ⟨m,hm,h⟩
  · rw [h]
    exact Int.natCast_nonneg _
  rw [h]
  cases hq : m.seq with
  | none => simp
  | some q => exact_mod_cast (hs.bounds m (hf.rows m hm) q hq).2

structure Inv (n : Network) : Prop where
  sequenced : Sequenced n.sender n.channelId
  cursor : Known n n.pusher.pushCursor
  frames : ∀ f ∈ n.pushes, FrameOk n f
  numbers : ∀ ack ∈ n.acks, ∀ v ∈ ack.received, ∀ k, v.int? = some k → Known n k

structure Grows (n n' : Network) : Prop where
  channel : n'.channelId = n.channelId
  node : n'.pusher.nodeIdentityHash = n.pusher.nodeIdentityHash
  latest : latestSeq n.sender n.channelId ≤ latestSeq n'.sender n'.channelId
  kept : ∀ m ∈ n.history, m ∈ n'.history
  fresh : ∀ m ∈ n'.history, m ∈ n.history ∨
    ∃ q : ℕ, m.seq = some q ∧ latestSeq n.sender n.channelId < q
  dropped : ∀ h ∈ n.dropped, h ∈ n'.dropped
  stored : ∀ h, (getByHash n.receiver h).isSome → (getByHash n'.receiver h).isSome
  acks : ∀ a ∈ n.acks, a ∈ n'.acks

section Monotone
variable {n n' : Network} (hg : Grows n n')
include hg

lemma Grows.settled (h : Settled n m) : Settled n' m := by
  rcases h with h | h | ⟨a,ha,h⟩
  · exact .inl (hg.dropped _ h)
  · exact .inr (.inl (hg.stored _ h))
  · exact .inr (.inr ⟨a,hg.acks a ha,h⟩)

lemma Grows.known {s : ℤ} (h : Known n s) : Known n' s := by
  refine ⟨h.bound.trans (by exact_mod_cast hg.latest),h.settled.mono ?_ fun _ => hg.settled⟩
  intro m hm
  refine (hg.fresh m hm).imp_right ?_
  rintro ⟨q,hq,hlt⟩
  exact ⟨q,hq,lt_of_le_of_lt h.bound (by exact_mod_cast hlt)⟩

lemma Grows.frameOk (hs : Sequenced n.sender n.channelId) (h : FrameOk n f) : FrameOk n' f := by
  obtain ⟨env,hp⟩ := h.payload
  obtain ⟨base,hb,hga⟩ := h.gapless
  refine ⟨⟨env,?_⟩,fun m hm => hg.kept m (h.rows m hm),base,hg.known hb,?_⟩
  · rw [hg.channel,hg.node]
    exact hp
  intro m hm q hq hlt hle
  rcases hg.fresh m hm with ho | ⟨q',hq',hn⟩
  · exact (hga m ho q hq hlt hle).imp_left (hg.dropped _)
  -- A newer message is above every number of the frame.
  have ht := h.top_le hs
  rw [hq] at hq'
  cases hq'
  omega

end Monotone

lemma pushPending_ids {p : FederationPusher} : (p.pushPending env st).1.channelId = p.channelId ∧
      (p.pushPending env st).1.nodeIdentityHash = p.nodeIdentityHash := by
  unfold pushPending
  simp only
  split_ifs <;> exact ⟨rfl,rfl⟩

lemma Grows.of_same_sender {n' : Network} (hs : n'.sender = n.sender)
    (hc : n'.channelId = n.channelId) (hn : n'.pusher.nodeIdentityHash = n.pusher.nodeIdentityHash)
    (hd : ∀ h ∈ n.dropped, h ∈ n'.dropped) (hst : ∀ h, (getByHash n.receiver h).isSome →
      (getByHash n'.receiver h).isSome) (ha : ∀ a ∈ n.acks, a ∈ n'.acks) :
    Grows n n' := by
  have hh : n'.history = n.history := by
    unfold Network.history
    rw [hs,hc]
  exact ⟨hc,hn,by rw [hs,hc],by simp [hh],fun m hm => .inl (hh ▸ hm),hd,hst,ha⟩

lemma receive_kept {st' : Store} {p : Val} (h : receive w st p now = .ok (ack, st'))
    (hs : (getByHash st msgHash).isSome) :
    (getByHash st' msgHash).isSome := by
  obtain ⟨⟨c,b,entries⟩,-,h⟩ := bind_ok h
  obtain ⟨⟨as,st₁⟩,hp,h⟩ := bind_ok h
  cases h
  exact pushEntries_kept hp hs

lemma step_grows (w : Setting) (n : Network) (e : Event) : Grows n (step w n e) := by
  cases e with
  | push env =>
    obtain ⟨hc,hn⟩ := pushPending_ids
    exact .of_same_sender rfl hc hn (fun h hh => mem_append_left _ hh) (fun _ h => h) (fun _ h => h)
  | deliver i now =>
    simp only [step]
    split
    · exact .of_same_sender rfl rfl rfl (fun _ h => h) (fun _ h => h) (fun _ h => h)
    split
    next hr =>
      exact .of_same_sender rfl rfl rfl (fun _ h => h) (fun _ h => receive_kept hr h)
        (fun _ h => mem_append_left _ h)
    · exact .of_same_sender rfl rfl rfl (fun _ h => h) (fun _ h => h) (fun _ h => h)
  | acknowledge i =>
    simp only [step]
    split
    · exact .of_same_sender rfl rfl rfl (fun _ h => h) (fun _ h => h) (fun _ h => h)
    split
    next hp =>
      rcases handlePushAck_cursor hp with rfl | ⟨v,-,k,-,rfl⟩
      · exact .of_same_sender rfl rfl rfl (fun _ h => h) (fun _ h => h) (fun _ h => h)
      · exact .of_same_sender rfl rfl rfl (fun _ h => h) (fun _ h => h) (fun _ h => h)
    · exact .of_same_sender rfl rfl rfl (fun _ h => h) (fun _ h => h) (fun _ h => h)
  | senderPosts row =>
    rcases postOr_history n.sender n.channelId row with ⟨hro,hl⟩ | ⟨r,hr,hro,hl⟩
    · have hhi : (step w n (.senderPosts row)).history = n.history := hro
      exact ⟨rfl,rfl,hl.ge,fun m hm => hhi ▸ hm,fun m hm => .inl (hhi ▸ hm),
        fun _ h => h,fun _ h => h,fun _ h => h⟩
    have hhi : (step w n (.senderPosts row)).history = n.history ++ [r] := hro
    refine ⟨rfl,rfl,?_,?_,?_,fun _ h => h,fun _ h => h,fun _ h => h⟩
    · exact le_of_le_of_eq (Nat.le_succ _) hl.symm
    · intro m hm
      rw [hhi]
      exact mem_append_left _ hm
    intro m hm
    rw [hhi,mem_append,mem_singleton] at hm
    refine hm.imp_right ?_
    rintro rfl
    exact ⟨_,hr,Nat.lt_succ_self _⟩
  | receiverPosts row =>
    exact .of_same_sender rfl rfl rfl (fun _ h => h) (fun _ h => postOr_kept h) (fun _ h => h)

lemma page_gapless (hs : Sequenced n.sender n.channelId)
    (hms : ∀ m ∈ ms, m ∈ n.pusher.page n.sender) (hm : m ∈ n.history) (hq : m.seq = some q)
    {base : ℤ} (hb : base < q) (hlt : n.pusher.pushCursor < q) (hle : (q : ℤ) ≤ maxSeq base ms) :
    m ∈ n.pusher.page n.sender := by
  rcases maxSeq_attained base ms with h | ⟨k,hk,h⟩
  · omega
  obtain ⟨-,r,hr,-⟩ := mem_getHistory (hms k hk)
  rw [h,hr,Option.getD_some] at hle
  exact getHistory_complete hs hm hq hlt (hms k hk) hr (by exact_mod_cast hle)

lemma page_cases (hl : env.linked = true) (hm : m ∈ n.pusher.page n.sender) :
    m ∈ n.pusher.toPush n.sender ∨ m.msgHash ∈ (step w n (.push env)).dropped := by
  by_cases hf : filtered n.sender n.pusher.peerIdentityHash m = true
  · refine .inr (mem_append_right _ ?_)
    rw [if_pos hl]
    exact mem_map_of_mem (mem_filter.mpr ⟨hm,hf⟩)
  · exact .inl (mem_filter.mpr ⟨hm,by simpa using hf⟩)

lemma toPush_page (hm : m ∈ n.pusher.toPush n.sender) :
    m ∈ n.pusher.page n.sender := (mem_filter.mp hm).1

lemma pushPending_cases (p : FederationPusher) (env : PushEnv) (st : Store) :
    ((p.pushPending env st).1.pushCursor = p.pushCursor ∧ (p.pushPending env st).2.1 = none) ∨
      (env.linked = true ∧ p.toPush st = [] ∧ (p.pushPending env st).1.pushCursor =
          maxSeq p.pushCursor (p.page st) ∧ (p.pushPending env st).2.1 = none) ∨
      (env.linked = true ∧ (p.pushPending env st).1.pushCursor = p.pushCursor ∧
        (p.pushPending env st).2.1 = some (pushPayload p.channelId p.nodeIdentityHash
          ((p.toPush st).map (attachKeys env p.nodeIdentityHash)))) := by
  unfold pushPending
  simp only
  split_ifs with hl he hs hse
  · exact .inl ⟨rfl,rfl⟩
  · exact .inr (.inl ⟨by simpa using hl,he,rfl,rfl⟩)
  · exact .inl ⟨rfl,rfl⟩
  · exact .inl ⟨rfl,rfl⟩
  · exact .inr (.inr ⟨by simpa using hl,rfl,rfl⟩)

lemma mem_push_frames (hf : f ∈ (step w n (.push env)).pushes) :
    f ∈ n.pushes ∨ f.messages = n.pusher.toPush n.sender ∧
      (n.pusher.pushPending env n.sender).2.1 = some f.payload := by
  refine (mem_append.mp hf).imp_right fun hn => ?_
  rw [Option.mem_toList,Option.map_eq_some_iff] at hn
  obtain ⟨payload,hp,rfl⟩ := hn
  exact ⟨rfl,hp⟩

lemma push_empty_known (hi : Inv n) (hl : env.linked = true) (he : n.pusher.toPush n.sender = []) :
    Known (step w n (.push env)) (maxSeq n.pusher.pushCursor (n.pusher.page n.sender)) := by
  have hg := step_grows w n (.push env)
  constructor
  · rcases maxSeq_attained n.pusher.pushCursor (n.pusher.page n.sender) with h | ⟨m,hm,h⟩
    · rw [h]
      exact (hg.known hi.cursor).bound
    obtain ⟨hr,q,hq,-⟩ := mem_getHistory hm
    have hle := (hi.sequenced.bounds m hr q hq).2.trans hg.latest
    rw [h,hq,Option.getD_some]
    exact_mod_cast hle
  refine (hg.known hi.cursor).settled.extend ?_
  intro m hm q hq hlt hle
  have ho : m ∈ n.history := by
    unfold Network.history at hm
    rwa [hg.channel] at hm
  have hp := page_gapless hi.sequenced (fun _ h => h) ho hq hlt hlt hle
  rcases page_cases (w := w) hl hp with h | h
  · rw [he] at h
    cases h
  · exact .inl h

lemma push_frameOk (hi : Inv n) (hl : env.linked = true)
    (hm : f.messages = n.pusher.toPush n.sender)
    (hp : f.payload = pushPayload n.pusher.channelId n.pusher.nodeIdentityHash
      ((n.pusher.toPush n.sender).map (attachKeys env n.pusher.nodeIdentityHash))) :
    FrameOk (step w n (.push env)) f := by
  have hg := step_grows w n (.push env)
  have hh : (step w n (.push env)).history = n.history := by
    unfold Network.history
    rw [hg.channel]
    rfl
  refine ⟨⟨env,?_⟩,?_,n.pusher.pushCursor,hg.known hi.cursor,?_⟩
  · rw [hg.channel,hg.node,hp,hm]
    rfl
  · intro m hme
    rw [hm] at hme
    rw [hh]
    exact (mem_getHistory (toPush_page hme)).1
  intro m hme q hq hlt hle
  rw [hh] at hme
  rw [hm] at hle
  have hpo : (0 : ℤ) < q := by exact_mod_cast (hi.sequenced.bounds m hme q hq).1
  have hpa := page_gapless hi.sequenced (fun _ => toPush_page) hme hq hpo hlt hle
  rw [hm]
  exact (page_cases hl hpa).symm

lemma push_inv (hi : Inv n) : Inv (step w n (.push env)) := by
  have hg := step_grows w n (.push env)
  refine ⟨?_,?_,?_,?_⟩
  · rw [hg.channel]
    exact hi.sequenced
  · change Known _ (n.pusher.pushPending env n.sender).1.pushCursor
    rcases pushPending_cases n.pusher env n.sender with ⟨hc,-⟩ | ⟨hl,he,hc,-⟩ | ⟨-,hc,-⟩
    · rw [hc]
      exact hg.known hi.cursor
    · rw [hc]
      exact push_empty_known hi hl he
    · rw [hc]
      exact hg.known hi.cursor
  · intro f hf
    rcases mem_push_frames hf with ho | ⟨hm,hp⟩
    · exact hg.frameOk hi.sequenced (hi.frames f ho)
    rcases pushPending_cases n.pusher env n.sender with ⟨-,hs⟩ | ⟨-,-,-,hs⟩ | ⟨hl,-,hs⟩
    · exact absurd (hs.symm.trans hp) (by simp)
    · exact absurd (hs.symm.trans hp) (by simp)
    · exact push_frameOk hi hl hm (Option.some.inj (hp.symm.trans hs))
  · exact fun ack ha v hv k hk => hg.known (hi.numbers ack ha v hv k hk)

lemma receive_frame (hf : FrameOk n f) (hr : receive w n.receiver f.payload now = .ok (ack, st)) :
    latestSeq st n.channelId ≤ latestSeq n.receiver n.channelId + newCount w n.receiver f.payload ∧
      (∀ m ∈ f.messages, (getByHash st m.msgHash).isSome ∨ Val.str m.msgHash ∈ ack.rejected) ∧
      ∀ v ∈ ack.received, (∃ m ∈ f.messages, v = natVal? m.seq) ∨ ∃ k : ℕ, v = .int k ∧
        latestSeq n.receiver n.channelId < k ∧ k ≤ latestSeq st n.channelId := by
  obtain ⟨env,hp⟩ := hf.payload
  unfold receive at hr
  unfold newCount
  rw [hp] at hr ⊢
  obtain ⟨opened,ho,hr⟩ := bind_ok hr
  rw [ho]
  obtain ⟨-,-,rfl⟩ := openBatch_pushPayload.mp ho
  obtain ⟨⟨as,st'⟩,hpu,hr⟩ := bind_ok hr
  cases hr
  obtain ⟨-,hs,hn⟩ := pushEntries_encoded hpu
  refine ⟨pushEntries_latestSeq hpu,fun m hm => (hs m hm).imp_right fun h => ?_,fun v hv => ?_⟩
  · exact mem_filterMap.mpr ⟨_,h,rfl⟩
  · exact hn v (mem_received.mp hv)

lemma deliver_known (hi : Inv n) (hf : n.pushes[i]? = some f)
    (hr : receive w n.receiver f.payload now = .ok (ack, st)) :
    Known { n with receiver := st, acks := n.acks ++ [ack] } (maxSeq 0 f.messages) := by
  have hg : Grows n { n with receiver := st, acks := n.acks ++ [ack] } :=
    .of_same_sender rfl rfl rfl (fun _ h => h) (fun _ h => receive_kept hr h)
      (fun _ h => mem_append_left _ h)
  have hfr := hi.frames f (mem_of_getElem? hf)
  obtain ⟨base,hb,hga⟩ := hfr.gapless
  refine ⟨hfr.top_le hi.sequenced,(hg.known hb).settled.extend ?_⟩
  intro m hm q hq hlt hle
  rcases hga m hm q hq hlt hle with hd | hme
  · exact .inl hd
  rcases (receive_frame hfr hr).2.1 m hme with hs | hre
  · exact .inr (.inl hs)
  · exact .inr (.inr ⟨ack,mem_append_right _ (mem_singleton_self ack),hre⟩)

lemma deliver_number_le (hi : Inv n) (hok : CountersAgree w n (.deliver i now))
    (hf : n.pushes[i]? = some f) (hr : receive w n.receiver f.payload now = .ok (ack, st))
    {v : Val} (hv : v ∈ ack.received) {k : ℤ} (hk : v.int? = some k) :
    k ≤ maxSeq 0 f.messages := by
  have ha : newCount w n.receiver f.payload = 0 ∨
      ((latestSeq n.receiver n.channelId + newCount w n.receiver f.payload : ℕ) : ℤ) ≤
        maxSeq 0 f.messages := by
    simpa only [CountersAgree,hf] using hok
  obtain ⟨hc,-,hn⟩ := receive_frame (hi.frames f (mem_of_getElem? hf)) hr
  rcases hn v hv with ⟨m,hm,rfl⟩ | ⟨j,rfl,hlt,hle⟩
  · cases hq : m.seq with
    | none =>
      rw [hq] at hk
      cases hk
    | some q =>
      rw [hq] at hk
      cases hk
      exact le_maxSeq hm hq
  · cases hk
    rcases ha with hz | ht
    · omega
    · omega

lemma deliver_inv (hi : Inv n) (hok : CountersAgree w n (.deliver i now)) :
    Inv (step w n (.deliver i now)) := by
  simp only [step]
  split
  · exact hi
  next f hf =>
    split
    next ack st hr =>
      have hg : Grows n { n with receiver := st, acks := n.acks ++ [ack] } :=
        .of_same_sender rfl rfl rfl (fun _ h => h) (fun _ h => receive_kept hr h)
          (fun _ h => mem_append_left _ h)
      refine ⟨hi.sequenced,hg.known hi.cursor,
        fun g hgm => hg.frameOk hi.sequenced (hi.frames g hgm),?_⟩
      intro a ha v hv k hk
      rcases mem_append.mp ha with ho | hn
      · exact hg.known (hi.numbers a ho v hv k hk)
      · cases mem_singleton.mp hn
        exact (deliver_known hi hf hr).of_le (deliver_number_le hi hok hf hr hv hk)
    · exact hi

lemma acknowledge_inv (hi : Inv n) : Inv (step w n (.acknowledge i)) := by
  have hg := step_grows w n (.acknowledge i)
  simp only [step] at hg ⊢
  split
  · exact hi
  next ack hac =>
    simp only [hac] at hg
    split
    next p hp =>
      simp only [hp] at hg
      refine ⟨?_,?_,fun f hf => hg.frameOk hi.sequenced (hi.frames f hf),
        fun a ha v hv k hk => hg.known (hi.numbers a ha v hv k hk)⟩
      · rw [hg.channel]
        exact hi.sequenced
      rcases handlePushAck_cursor hp with rfl | ⟨v,hv,k,hk,rfl⟩
      · exact hi.cursor
      · exact hg.known (hi.numbers ack (mem_of_getElem? hac) v hv k hk)
    · exact hi

lemma step_inv (hi : Inv n) {e : Event} (hok : CountersAgree w n e) : Inv (step w n e) := by
  cases e with
  | push env => exact push_inv hi
  | deliver i now => exact deliver_inv hi hok
  | acknowledge i => exact acknowledge_inv hi
  | senderPosts row =>
    have hg := step_grows w n (.senderPosts row)
    exact ⟨hi.sequenced.postOr row,hg.known hi.cursor,
      fun f hf => hg.frameOk hi.sequenced (hi.frames f hf),
      fun a ha v hv k hk => hg.known (hi.numbers a ha v hv k hk)⟩
  | receiverPosts row =>
    have hg := step_grows w n (.receiverPosts row)
    exact ⟨hi.sequenced,hg.known hi.cursor,fun f hf => hg.frameOk hi.sequenced (hi.frames f hf),
      fun a ha v hv k hk => hg.known (hi.numbers a ha v hv k hk)⟩

lemma Initial.inv (h : Initial n) : Inv n := by
  refine ⟨h.sequenced,?_,by simp [h.pushes],by simp [h.acks]⟩
  rw [h.cursor]
  refine ⟨Int.natCast_nonneg _,?_⟩
  intro m hm q hq hle
  have := (h.sequenced.bounds m hm q hq).1
  omega

/-- In every run in which the counters agree at each delivery, the cursor never passes a
message that the receiver neither stored nor rejected and that was not left out on
purpose. -/
theorem push_at_least_once (w : Setting) {n : Network} (hn : Initial n) {es : List Event}
    (h : Guarded (step w) (CountersAgree w) n es) : AtLeastOnce (run (step w) n es) := by
  have hin : Inv (run (step w) n es) :=
    h.invariant (I := Inv) (fun _ _ hi hok => step_inv hi hok) hn.inv
  exact hin.cursor.settled

/-! Two runs of one push, its delivery and its acknowledgement. The sender has one message
more than fits into a batch. -/

def sampleMessage (i : ℕ) : Message :=
  { msgHash := "m" ++ toString i
    channelId := "general"
    senderHash := some "0123456789abcdef0123456789abcdef"
    seq := some i
    timestamp := .fin 0
    type := msgText
    body := some "hello" }

lemma sampleMessages_keyed :
    (((range 16).map fun i => sampleMessage (i + 1)).map Message.msgHash).Nodup := by
  decide +kernel

def sampleNetwork (receiverSeq : ℕ) : Network :=
  { sender := {
      channels := ⟨[{ id := "general", latestSeq := 16 }],nodup_singleton _⟩
      messages := ⟨(range 16).map fun i => sampleMessage (i + 1),sampleMessages_keyed⟩ }
    receiver := {
      channels := ⟨[{ id := "general", latestSeq := receiverSeq }],nodup_singleton _⟩
      peers := ⟨[{ identityHash := "node", federationTrusted := true }],nodup_singleton _⟩ }
    pusher := { peerIdentityHash := "peer", channelId := "general", nodeIdentityHash := "node" } }

def sampleSetting : Setting :=
  { sig := { truncatedHashHex := fun _ => "", verify := fun _ _ _ => false }
    config := none }

def sampleRun : List Event := [.push {}, .deliver 0 0, .acknowledge 0]

lemma sampleNetwork_initial {receiverSeq : ℕ} : Initial (sampleNetwork receiverSeq) := by
  refine ⟨⟨?_,?_⟩,rfl,rfl,rfl⟩
  · have hb : ∀ m ∈ (sampleNetwork 0).history, ∀ q ∈ m.seq, 1 ≤ q ∧ q ≤ 16 := by
      decide +kernel
    exact hb
  intro m hm m' hm' q hq hq'
  have hn : ((sampleNetwork 0).history.map Message.seq).Nodup := by decide +kernel
  exact inj_on_of_nodup_map hn hm hm' (hq.trans hq'.symm)

theorem sampleRun_at_least_once :
    AtLeastOnce (run (step sampleSetting) (sampleNetwork 0) sampleRun) ∧
      (run (step sampleSetting) (sampleNetwork 0) sampleRun).pusher.pushCursor = 15 :=
  ⟨push_at_least_once sampleSetting sampleNetwork_initial (by decide +kernel),
    by decide +kernel⟩

lemma sampleRun_overtakes :
    let n := run (step sampleSetting) (sampleNetwork 10) sampleRun
    n.pusher.pushCursor = 25 ∧ sampleMessage 16 ∈ n.history ∧
      (sampleMessage 16).msgHash ∉ n.dropped ∧
      (getByHash n.receiver (sampleMessage 16).msgHash).isSome = false ∧
      ∀ a ∈ n.acks, a.rejected.length = 0 := by
  decide +kernel

theorem sampleRun_skips_message :
    ¬ AtLeastOnce (run (step sampleSetting) (sampleNetwork 10) sampleRun) := by
  obtain ⟨hc,hm,hse,ha,hn⟩ := sampleRun_overtakes
  intro h
  have hle : ((16 : ℕ) : ℤ) ≤
      (run (step sampleSetting) (sampleNetwork 10) sampleRun).pusher.pushCursor := by
    rw [hc]
    decide
  rcases h (sampleMessage 16) hm 16 rfl hle with hd | hs | ⟨ack,hac,hr⟩
  · exact hse hd
  · rw [ha] at hs
    cases hs
  · rw [eq_nil_of_length_eq_zero (hn ack hac)] at hr
    cases hr

end Hokora.PushDelivery
