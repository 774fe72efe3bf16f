import Hokora.HandlerTransactions
import Hokora.PushedContent

/-!
# Sequence numbers and sealed text in committed states

The write paths run statement by statement, one writer at a time; each may be rolled back.
-/
namespace Hokora.CommittedStates
open Constants Database HandlerTransactions KeyedTable List MessageProcessor MirrorIngest
  PushReceive PushedContent PyValue RateLimit Repositories SealedChannels SenderBinding
  TransitionRuns WireRows WriteTransactions
open ChannelRepo (getById getById_bumpSeq incrementSeq_ok)
open MessageRepo (getByHash insert_ok update)
open Prog.Safe (bind check query)

def seqs (st : Store) (channelId : String) : List ℕ :=
  (st.channelMessages channelId).filterMap Message.seq

lemma seqs_rows {st : Store} {ch : String} : seqs st ch =
      st.messages.rows.filterMap fun m => if m.channelId = ch then m.seq else none := by
  unfold seqs Store.channelMessages
  rw [filterMap_filter]
  apply filterMap_congr
  intro m _
  simp

structure Later (a b : Store) : Prop where
  row : ∀ {msgHash m}, getByHash a msgHash = some m →
    ∃ m', getByHash b msgHash = some m' ∧ m'.channelId = m.channelId
  channel : ∀ {channelId c}, getById a channelId = some c →
    ∃ c', getById b channelId = some c' ∧ c'.sealed = c.sealed

lemma Later.refl (a : Store) : Later a a := ⟨fun h => ⟨_,h,rfl⟩,fun h => ⟨_,h,rfl⟩⟩

lemma Later.trans {a b c : Store} (h : Later a b) (h' : Later b c) : Later a c := by
  constructor
  · intro msgHash m hm
    obtain ⟨m',hm',hs⟩ := h.row hm
    obtain ⟨m'',hm'',hs'⟩ := h'.row hm'
    exact ⟨m'',hm'',hs'.trans hs⟩
  intro channelId x hx
  obtain ⟨x',hx',hs⟩ := h.channel hx
  obtain ⟨x'',hx'',hs'⟩ := h'.channel hx'
  exact ⟨x'',hx'',hs'.trans hs⟩

instance : Preorder Db where
  le a b := Later a.store b.store
  le_refl a := Later.refl a.store
  le_trans _ _ _ := Later.trans

abbrev Pending := Option (String × ℕ)

def Pending.of (p : Pending) (channelId : String) : List ℕ :=
  match p with
  | some (c, n) => if c = channelId then [n] else []
  | none => []

structure Consistent (N Z : Set String) (p : Pending) (db : Db) : Prop where
  numbered : ∀ channelId c, getById db.store channelId = some c → channelId ∈ N →
    (seqs db.store channelId ++ p.of channelId).Perm (List.range' 1 c.latestSeq)
  sealed : ∀ channelId ∈ Z, ∃ c, getById db.store channelId = some c ∧ c.sealed = true
  bodies : ∀ m ∈ db.store.messages.rows, m.channelId ∈ Z → m.body = none
  unindexed : ∀ e ∈ db.messagesFts, e.channelId ∉ Z

variable {N Z : Set String} {p p' : Pending} {db db' : Db} {n : ℕ}

lemma mem_indexed {m : Message} {e : FtsEntry} (h : e ∈ indexed m) :
    e.channelId = m.channelId ∧ m.body = some e.body := by
  unfold indexed at h
  split at h
  next body hb _ =>
    rw [mem_singleton] at h
    rw [h]
    exact ⟨rfl,hb⟩
  · cases h

lemma Consistent.frame (h : Consistent N Z p db) (hch : db'.store.channels = db.store.channels)
    (hme : db'.store.messages = db.store.messages)
    (hf : db'.messagesFts = db.messagesFts) : Consistent N Z p db' ∧ db ≤ db' := by
  have hg : ∀ k, getById db'.store k = getById db.store k := by
    intro k
    rw [getById,hch]
    rfl
  have hr : ∀ k, getByHash db'.store k = getByHash db.store k := by
    intro k
    rw [getByHash,hme]
    rfl
  have hs : ∀ k, seqs db'.store k = seqs db.store k := by
    intro k
    rw [seqs,Store.channelMessages,hme]
    rfl
  refine ⟨⟨?_,?_,?_,?_⟩,?_,?_⟩
  · intro k c hc hk
    rw [hg] at hc
    rw [hs]
    exact h.numbered k c hc hk
  · intro k hk
    rw [hg]
    exact h.sealed k hk
  · rw [hme]
    exact h.bodies
  · rw [hf]
    exact h.unindexed
  · intro k m hm
    rw [hr]
    exact ⟨m,hm,rfl⟩
  · intro k c hc
    rw [hg]
    exact ⟨c,hc,rfl⟩

lemma Consistent.nextSeq {ch : String} (h : Consistent N Z none db)
    (hp : perform (.nextSeq ch) db = .ok (n, db')) :
    Consistent N Z (some (ch, n)) db' ∧ db ≤ db' := by
  obtain ⟨⟨seq,st⟩,hse,hp⟩ := bind_ok hp
  obtain ⟨c,hc,rfl,rfl⟩ := incrementSeq_ok.mp hse
  cases hp
  have hg := getById_bumpSeq db.store ch
  refine ⟨⟨?_,?_,h.bodies,h.unindexed⟩,fun hm => ⟨_,hm,rfl⟩,?_⟩
  · intro k c' hc' hk
    change (seqs db.store k ++ _).Perm _
    rw [hg] at hc'
    by_cases hsa : k = ch
    · subst hsa
      rw [if_pos rfl,hc] at hc'
      cases hc'
      have ho := h.numbered k c hc hk
      simp only [Pending.of,append_nil,if_true] at ho ⊢
      rw [List.range'_concat,Nat.one_mul,Nat.add_comm 1]
      exact ho.append_right _
    · rw [if_neg hsa] at hc'
      have ho := h.numbered k c' hc' hk
      simpa only [Pending.of,if_neg (Ne.symm hsa)] using ho
  · intro k hk
    obtain ⟨c',hc',hs⟩ := h.sealed k hk
    rw [hg,hc']
    split_ifs
    · exact ⟨_,rfl,hs⟩
    · exact ⟨_,rfl,hs⟩
  · intro k c' hc'
    rw [hg,hc']
    split_ifs
    · exact ⟨_,rfl,rfl⟩
    · exact ⟨_,rfl,rfl⟩

lemma Consistent.insertMessage {m : Message} (h : Consistent N Z p db)
    (hse : ∀ k, p.of k = (if m.channelId = k then m.seq.toList else []) ++ p'.of k)
    (hb : m.channelId ∈ Z → m.body = none) (hp : perform (.insertMessage m) db = .ok (n, db')) :
    Consistent N Z p' db' ∧ db ≤ db' := by
  obtain ⟨st,hi,hp⟩ := bind_ok hp
  obtain ⟨-,t,ht,rfl⟩ := insert_ok hi
  cases hp
  have hro := Table.insert?_rows ht
  refine ⟨⟨?_,h.sealed,?_,?_⟩,?_,fun hc => ⟨_,hc,rfl⟩⟩
  · intro k c hc hk
    have ho := h.numbered k c hc hk
    have hn : seqs { db.store with messages := t } k =
        seqs db.store k ++ (if m.channelId = k then m.seq.toList else []) := by
      simp only [seqs_rows,hro,filterMap_append]
      congr 1
      by_cases hk' : m.channelId = k
      · cases hs : m.seq <;> simp [hk',hs]
      · simp [hk']
    rw [hse,← append_assoc,← hn] at ho
    exact ho
  · intro r hr hz
    rw [hro,mem_append,mem_singleton] at hr
    rcases hr with ho | rfl
    · exact h.bodies r ho hz
    · exact hb hz
  · intro e he hz
    rcases mem_append.mp he with ho | hn
    · exact h.unindexed e ho hz
    obtain ⟨hch,hso⟩ := mem_indexed hn
    rw [hch] at hz
    rw [hb hz] at hso
    cases hso
  · intro k r hr
    exact ⟨r,Table.get?_insert?_of_some ht hr,rfl⟩

lemma Consistent.updateMessage {hash : String} {f : Message → Message}
    {hf : ∀ m, (f m).msgHash = m.msgHash} (h : Consistent N Z p db)
    (hpl : ∀ m, (f m).channelId = m.channelId ∧ (f m).seq = m.seq)
    (hb : ∀ m, getByHash db.store hash = some m → m.channelId ∈ Z → m.body = none →
      (f m).body = none)
    (hp : perform (.updateMessage hash f hf) db = .ok (n, db')) :
    Consistent N Z p db' ∧ db ≤ db' := by
  cases hp
  refine ⟨⟨?_,h.sealed,?_,?_⟩,?_,fun hc => ⟨_,hc,rfl⟩⟩
  · intro k c hc hk
    have hsa : seqs (update db.store hash f hf) k = seqs db.store k := by
      simp only [seqs_rows,update,Table.update_rows,filterMap_map]
      apply filterMap_congr
      intro m _
      simp only [Function.comp_apply]
      split_ifs <;> simp_all
    rw [hsa]
    exact h.numbered k c hc hk
  · intro r hr hz
    obtain ⟨m,hm,rfl⟩ := mem_map.mp hr
    by_cases hke : m.msgHash = hash
    · simp only [hke,if_true] at hz ⊢
      rw [(hpl m).1] at hz
      exact hb m (hke ▸ Table.get?_of_mem hm) hz (h.bodies m hm hz)
    · simp only [hke,if_false] at hz ⊢
      exact h.bodies m hm hz
  · intro e he hz
    rcases mem_append.mp he with ho | hn
    · exact h.unindexed e ho hz
    cases hro : getByHash db.store hash with
    | none =>
      rw [hro] at hn
      cases hn
    | some m =>
      rw [hro] at hn
      obtain ⟨hch,hs⟩ := mem_indexed hn
      rw [hch,(hpl m).1] at hz
      rw [hb m hro hz (h.bodies m (Table.get?_mem hro) hz)] at hs
      cases hs
  · intro k r hr
    rw [getByHash] at hr
    change ∃ m', (db.store.messages.update hash f hf).get? k = some m' ∧ _
    rw [Table.get?_update,hr]
    split_ifs
    · exact ⟨f r,rfl,(hpl r).1⟩
    · exact ⟨r,rfl,rfl⟩

abbrev Keeps {A : Type} (N Z : Set String) (Q : Db → Pending → A → Prop) (w : Db) (p : Pending)
    (x : Tx A) : Prop :=
  x.Safe perform (Consistent N Z) Q w p

section Rules
variable {A B : Type} {Q : Db → Pending → B → Prop} {w : Db} {k : A → Tx B}

lemma Keeps.select {q : Store → A}
    (h : ∀ w', w ≤ w' → Consistent N Z p w' → Keeps N Z Q w' p (k (q w'.store))) :
    Keeps N Z Q w p (select q >>= k) :=
  bind (query h)

lemma Keeps.require {q : Store → Py A}
    (h : ∀ w' a, w ≤ w' → Consistent N Z p w' → q w'.store = .ok a → Keeps N Z Q w' p (k a)) :
    Keeps N Z Q w p (require q >>= k) :=
  bind (check h)

lemma Keeps.lift {x : Py A} (h : ∀ a, x = .ok a → Keeps N Z Q w p (k a)) :
    Keeps N Z Q w p (lift x >>= k) :=
  bind (Prog.Safe.lift h)

variable {m : Message} {k : ℕ → Tx B}

lemma Keeps.nextSeq {ch : String} (h : ∀ w' n, w ≤ w' → Keeps N Z Q w' (some (ch, n)) (k n)) :
    Keeps N Z Q w none (execute (.nextSeq ch) >>= k) := by
  refine bind (Prog.Safe.execute fun s n t hle hs hp => ?_)
  obtain ⟨ht,hup⟩ := hs.nextSeq hp
  exact ⟨_,ht,hup,h t n (hle.trans hup)⟩

lemma Keeps.insertNumbered {ch : String} (hc : m.channelId = ch)
    (hse : m.seq = some n) (hb : ch ∈ Z → m.body = none)
    (h : ∀ w' n, w ≤ w' → Keeps N Z Q w' none (k n)) :
    Keeps N Z Q w (some (ch, n)) (execute (.insertMessage m) >>= k) := by
  refine bind (Prog.Safe.execute fun s n' t hle hs hp => ?_)
  have hta : ∀ c, Pending.of (some (ch, n)) c =
      (if m.channelId = c then m.seq.toList else []) ++ Pending.of none c := by
    intro c
    rw [hc,hse]
    simp [Pending.of]
  obtain ⟨ht,hup⟩ := hs.insertMessage hta (hc ▸ hb) hp
  exact ⟨none,ht,hup,h t n' (hle.trans hup)⟩

lemma Keeps.insertUnnumbered (hse : m.seq = none) (hb : m.channelId ∈ Z → m.body = none)
    (h : ∀ w' n, w ≤ w' → Keeps N Z Q w' p (k n)) :
    Keeps N Z Q w p (execute (.insertMessage m) >>= k) := by
  refine bind (Prog.Safe.execute fun s n t hle hs hp => ?_)
  have hk : ∀ c, p.of c = (if m.channelId = c then m.seq.toList else []) ++ p.of c := by
    intro c
    rw [hse,Option.toList_none,ite_self,nil_append]
  obtain ⟨ht,hup⟩ := hs.insertMessage hk hb hp
  exact ⟨p,ht,hup,h t n (hle.trans hup)⟩

lemma Keeps.updateMessage {hash : String} {f : Message → Message}
    {hf : ∀ m, (f m).msgHash = m.msgHash}
    (hpl : ∀ m, (f m).channelId = m.channelId ∧ (f m).seq = m.seq)
    (hb : ∀ s m, w ≤ s → getByHash s.store hash = some m → m.channelId ∈ Z →
      m.body = none → (f m).body = none) (h : ∀ w' n, w ≤ w' → Keeps N Z Q w' p (k n)) :
    Keeps N Z Q w p (execute (.updateMessage hash f hf) >>= k) := by
  refine bind (Prog.Safe.execute fun s n t hle hs hp => ?_)
  obtain ⟨ht,hup⟩ := hs.updateMessage hpl (fun m => hb s m hle) hp
  exact ⟨p,ht,hup,h t n (hle.trans hup)⟩

lemma Keeps.aside {x : Statement}
    (hx : ∀ {s t : Db} {n : ℕ}, perform x s = .ok (n, t) → t.store.channels = s.store.channels ∧
      t.store.messages = s.store.messages ∧ t.messagesFts = s.messagesFts)
    (h : ∀ w' n, w ≤ w' → Keeps N Z Q w' p (k n)) : Keeps N Z Q w p (execute x >>= k) := by
  refine bind (Prog.Safe.execute fun s n t hle hs hp => ?_)
  obtain ⟨hc,hm,hf⟩ := hx hp
  obtain ⟨ht,hup⟩ := hs.frame hc hm hf
  exact ⟨p,ht,hup,h t n (hle.trans hup)⟩

end Rules

lemma insertThread_aside {t : Thread} {s s' : Db} (h : perform (.insertThread t) s = .ok (n, s')) :
    s'.store.channels = s.store.channels ∧ s'.store.messages = s.store.messages ∧
      s'.messagesFts = s.messagesFts := by
  obtain ⟨st,hi,h⟩ := bind_ok h
  unfold SequenceManager.insertThread at hi
  split at hi
  · cases hi
    cases h
    exact ⟨rfl,rfl,rfl⟩
  · cases hi

lemma upsertIdentity_aside {i : String} {pk : BigEndian.Bytes} {now : ℚ}
    {s s' : Db} (h : perform (.upsertIdentity i pk now) s = .ok (n, s')) :
    s'.store.channels = s.store.channels ∧ s'.store.messages = s.store.messages ∧
      s'.messagesFts = s.messagesFts := by
  cases h
  refine ⟨?_,IdentityRepo.upsert_messages _ _ _,rfl⟩
  unfold IdentityRepo.upsert
  split <;> rfl

/-- The end of a transaction: nothing is pending. -/
def Settled {A : Type} (_ : Db) (p : Pending) (_ : A) : Prop := p = none

lemma keeps_logAudit {A : Type} {w : Db} {entry : AuditLog} {a : A} :
    Keeps N Z Settled w none (execute (.logAudit entry) >>= fun _ => pure a) := by
  refine Keeps.aside (fun h => ?_) fun _ _ _ => (rfl : none = none)
  cases h
  exact ⟨rfl,rfl,rfl⟩

lemma Consistent.channel_sealed (h : Consistent N Z p db) {ch : String} {c : Channel}
    (hc : getById db.store ch = some c) (hz : ch ∈ Z) :
    c.sealed = true := by
  obtain ⟨c',hc',hs⟩ := h.sealed ch hz
  rw [hc] at hc'
  cases hc'
  exact hs

section Ingest
variable {prim : Primitives} {mp : Processor} {m : Moment} {env : MessageEnvelope}
  {channel : Channel} {w : Db} {lim : Option RateLimiter} {B : Type} {now : ℚ}
  {Q : Db → Pending → B → Prop}

lemma keeps_effectivePermissions
    {rv : Permissions.PermissionResolver} {sender : String} {k : Perms → Tx B}
    (h : ∀ w' perms, w ≤ w' → Keeps N Z Q w' p (k perms)) :
    Keeps N Z Q w p (effectivePermissionsProg rv sender channel >>= k) := by
  unfold effectivePermissionsProg
  split
  · exact h w _ (le_refl w)
  refine bind ?_
  refine Keeps.select fun w₁ h₁ _ => ?_
  split
  · exact h w₁ _ h₁
  refine Keeps.select fun w₂ h₂ _ => ?_
  refine Keeps.select fun w₃ h₃ _ => ?_
  exact h w₃ _ ((h₁.trans h₂).trans h₃)

lemma keeps_checkPermissions {k : MessageEnvelope → Tx B}
    (h : ∀ w' env', w ≤ w' → env'.channelId = env.channelId → Keeps N Z Q w' p (k env')) :
    Keeps N Z Q w p (checkPermissionsProg mp lim env channel now >>= k) := by
  unfold checkPermissionsProg
  cases mp.permissionResolver with
  | none => exact h w env (le_refl w) rfl
  | some resolver =>
    refine bind ?_
    refine Keeps.require fun w₁ _ h₁ _ _ => ?_
    refine Keeps.lift fun _ _ => ?_
    refine Keeps.require fun w₂ _ h₂ _ _ => ?_
    refine keeps_effectivePermissions fun w₃ perms h₃ => ?_
    refine Keeps.require fun w₄ _ h₄ _ _ => ?_
    refine h w₄ _ (((h₁.trans h₂).trans h₃).trans h₄) ?_
    rw [stripMentions_fields]

lemma keeps_processEdit (hs : env.channelId ∈ Z → channel.sealed = true) :
    Keeps N Z Settled w none (processEditProg prim mp m env channel) := by
  unfold processEditProg
  refine Keeps.lift fun targetHash _ => ?_
  refine Keeps.require fun w₁ original h₁ _ ho => ?_
  obtain ⟨hr,hh⟩ := requireTargetInChannel_ok.mp ho
  split
  · trivial
  refine Keeps.select fun w₂ h₂ _ => ?_
  split
  · trivial
  refine Keeps.lift fun b hb => ?_
  have hbo : env.channelId ∈ Z → b.body = none := fun hz => ((sealForOrigin_ok hb).1 (hs hz)).1
  refine Keeps.insertUnnumbered rfl hbo fun w₃ _ h₃ => ?_
  split
  · trivial
  refine Keeps.updateMessage (fun _ => ⟨rfl,rfl⟩) ?_ fun w₄ _ _ => (rfl : none = none)
  -- The row has been in this channel since it was loaded.
  intro s row hle hno hz hn
  obtain ⟨row',hr',hsa⟩ := ((h₂.trans h₃).trans hle).row hr
  rw [hno] at hr'
  cases hr'
  rw [hsa,hh] at hz
  simp [flushEdit,written,hn,hbo hz]

lemma keeps_processDelete : Keeps N Z Settled w none (processDeleteProg m env) := by
  refine Keeps.lift fun targetHash _ => ?_
  refine Keeps.require fun w₁ original h₁ _ ho => ?_
  refine bind ?_
  refine Keeps.select fun w₂ h₂ _ => ?_
  split
  · exact keeps_logAudit
  refine Keeps.updateMessage (fun _ => ⟨rfl,rfl⟩) ?_ fun w₃ _ _ => keeps_logAudit
  intro s row _ _ _ hn
  simp [flushDelete,written,hn]

lemma keeps_processPin (hs : env.channelId ∈ Z → channel.sealed = true) :
    Keeps N Z Settled w none (processPinProg prim mp m env channel) := by
  refine Keeps.lift fun targetHash _ => ?_
  refine Keeps.require fun w₁ original h₁ _ ho => ?_
  have hn : ∀ w' newPinned, Keeps N Z Settled w' none (do
      let seq ← execute (.nextSeq env.channelId)
      let b ← lift (sealForOrigin prim.aesGcm channel (some (pinText env newPinned))
        mp.sealedManager m.gcmNonce)
      let _ ← execute (.insertMessage (pinNotice prim mp m env seq b))
      pure (pinNotice prim mp m env seq b)) := by
    intro w' newPinned
    refine Keeps.nextSeq fun w₃ seq _ => ?_
    refine Keeps.lift fun b hb => ?_
    exact Keeps.insertNumbered rfl rfl (fun hz => ((sealForOrigin_ok hb).1 (hs hz)).1)
      fun _ _ _ => (rfl : none = none)
  refine bind ?_
  refine Keeps.select fun w₂ h₂ _ => ?_
  split
  · exact hn w₂ _
  · refine Keeps.updateMessage (fun _ => ⟨rfl,rfl⟩) (fun _ _ _ _ _ hno => hno) ?_
    exact fun w₃ _ _ => hn w₃ _

lemma keeps_processReaction : Keeps N Z Settled w none (processReactionProg env) := by
  refine Keeps.lift fun targetHash _ => ?_
  refine Keeps.require fun w₁ original h₁ _ ho => ?_
  simp only
  split
  · trivial
  split
  · trivial
  split
  · split
    · exact (rfl : none = none)
    · exact (rfl : none = none)
  · exact Keeps.updateMessage (fun _ => ⟨rfl,rfl⟩) (fun _ _ _ _ _ hn => hn)
      fun _ _ _ => (rfl : none = none)

lemma keeps_assignSeq {k : Option ℕ × Option ℕ → Tx B}
    (hma : ∀ w' seq, Keeps N Z Q w' (some (env.channelId, seq)) (k (some seq, none)))
    (ht : ∀ w' seq, Keeps N Z Q w' none (k (none, some seq))) :
    Keeps N Z Q w none (assignSeqProg env now >>= k) := by
  refine bind ?_
  unfold assignSeqProg
  split
  next rootHash _ =>
    have hm : ∀ w' seq, Keeps N Z (fun w g a => (k a).Safe perform (Consistent N Z) Q w g)
        w' none (do
          updateThreadMetadataProg env rootHash now
          pure (none, some seq)) := by
      intro w' seq
      refine bind ?_
      unfold updateThreadMetadataProg
      refine Keeps.select fun w₂ _ _ => ?_
      split
      · exact Keeps.aside (fun h => by cases h; exact ⟨rfl,rfl,rfl⟩) fun w₃ _ _ => ht w₃ seq
      · exact Keeps.aside (fun h => insertThread_aside h) fun w₃ _ _ => ht w₃ seq
    refine bind ?_
    unfold nextThreadSeqProg
    refine Keeps.select fun w₁ _ _ => ?_
    split
    · exact Keeps.aside (fun h => by cases h; exact ⟨rfl,rfl,rfl⟩) fun w₂ _ _ => hm w₂ _
    · exact Keeps.aside (fun h => insertThread_aside h) fun w₂ _ _ => hm w₂ _
  · exact Keeps.nextSeq fun w' seq _ => hma w' seq

lemma keeps_storeMessage (hs : env.channelId ∈ Z → channel.sealed = true) :
    Keeps N Z Settled w none (storeMessageProg prim mp m env channel) := by
  have hr : ∀ w' (row : Message), Keeps N Z Settled w' none (do
      rememberSenderProg env m.now
      pure row) := by
    intro w' row
    refine bind ?_
    unfold rememberSenderProg
    split
    · exact Keeps.aside (fun h => upsertIdentity_aside h) fun _ _ _ => (rfl : none = none)
    · exact (rfl : none = none)
  unfold storeMessageProg
  refine Keeps.select fun w₁ h₁ _ => ?_
  split
  · exact (rfl : none = none)
  refine keeps_assignSeq ?_ ?_
  · intro w₂ seq
    refine Keeps.lift fun b hb => ?_
    exact Keeps.insertNumbered rfl rfl (fun hz => ((sealForOrigin_ok hb).1 (hs hz)).1)
      fun w₃ _ _ => hr w₃ _
  intro w₂ seq
  refine Keeps.lift fun b hb => ?_
  exact Keeps.insertUnnumbered rfl (fun hz => ((sealForOrigin_ok hb).1 (hs hz)).1)
    fun w₃ _ _ => hr w₃ _

lemma keeps_ingest : Keeps N Z Settled w none (ingestProg prim mp m lim env) := by
  refine Keeps.select fun w₁ h₁ hco => ?_
  split
  · trivial
  next channel hc =>
    split
    · trivial
    refine keeps_checkPermissions fun w₂ env' h₂ hid => ?_
    have hs : env'.channelId ∈ Z → channel.sealed = true := by
      intro hz
      rw [hid] at hz
      exact hco.channel_sealed hc hz
    unfold routeProg
    split_ifs
    · exact keeps_processEdit hs
    · exact keeps_processDelete
    · exact keeps_processPin hs
    · exact keeps_processReaction
    · exact keeps_storeMessage hs

end Ingest

section Federation
variable {w : Db} {d : MsgData} {b : PushBatch} {sig : SignatureScheme} {content : WireBody}
  {now : ℚ}

lemma keeps_storeEntry {B : Type} {Q : Db → Pending → B → Prop} {k : ℕ → Tx B}
    (hbo : b.channelId ∈ Z → content.body = .none) (h : ∀ w' seq, Keeps N Z Q w' none (k seq)) :
    Keeps N Z Q w none (storeEntryProg b now d content >>= k) := by
  refine bind ?_
  refine Keeps.nextSeq fun w₁ seq _ => ?_
  refine Keeps.lift fun name _ => ?_
  refine Keeps.lift fun row hr => ?_
  have hb := WireRow.bind_ok hr
  refine Keeps.insertNumbered hb.channelId rfl (fun hz => ?_) fun w₂ _ _ => h w₂ seq
  have ht := hb.body
  change bindText content.body = _ at ht
  rw [hbo hz] at ht
  exact (Except.ok.inj ht).symm

lemma vetEntry_body {st : Store} (h : vetEntry sig b st d = .ok (some content))
    (hs : b.channelSealed = true) : content.body = .none := by
  obtain ⟨-,-,-,-,hc⟩ := vetEntry_some.mp h
  unfold pushContent at hc
  rw [hs,if_pos rfl] at hc
  split at hc
  · obtain ⟨_,-,hc⟩ := bind_ok hc
    obtain ⟨_,-,hc⟩ := bind_ok hc
    obtain ⟨_,-,hc⟩ := bind_ok hc
    cases hc
  · cases hc
    rfl

lemma mirrorContent_body (h : mirrorContent true d = .ok (some content)) :
    content.body = .none := by
  unfold mirrorContent at h
  split at h
  next body _ _ _ hv =>
    cases h
    unfold validateMirrorPayload at hv
    rw [if_pos rfl] at hv
    split at hv
    · obtain ⟨_,-,hv⟩ := bind_ok hv
      obtain ⟨_,-,hv⟩ := bind_ok hv
      cases hv
    · cases hv
      rfl
  · obtain ⟨_,-,h⟩ := bind_ok h
    cases h
  · cases h

lemma keeps_pushEntries {Q : Db → Pending → List Answer → Prop}
    (hs : b.channelId ∈ Z → b.channelSealed = true) (hQ : ∀ w' answers, Q w' none answers)
    {entries : List Val} : Keeps N Z Q w none (pushEntriesProg sig b now entries) := by
  induction entries generalizing w Q with
  | nil => exact hQ w []
  | cons v vs ih =>
    refine Keeps.lift fun d _ => ?_
    have hr : ∀ w' a, Keeps N Z Q w' none
        (pushEntriesProg sig b now vs >>= fun as => pure (a :: as)) := by
      intro w' a
      exact bind (ih fun w₁ answers => hQ w₁ (a :: answers))
    refine bind ?_
    refine Keeps.require fun w₁ found _ _ _ => ?_
    cases found with
    | some row => exact hr w₁ _
    | none =>
      refine Keeps.require fun w₂ verdict _ _ hv => ?_
      cases verdict with
      | none => exact hr w₂ _
      | some content =>
        refine keeps_storeEntry (fun hz => ?_) fun w₃ seq => hr w₃ _
        exact vetEntry_body hv (hs hz)

lemma Consistent.batch_sealed (h : Consistent N Z p db) {ch : String} (hz : ch ∈ Z) :
    (getById db.store ch).any Channel.sealed = true := by
  obtain ⟨c,hc,hs⟩ := h.sealed ch hz
  rw [hc]
  exact hs

lemma keeps_push {config : Option FederationConfig} {p : Val} {ch : Option String} :
    Keeps N Z Settled w none (pushProg sig config now p ch) := by
  refine bind ?_
  refine Keeps.lift fun pushChannelId _ => ?_
  refine Keeps.lift fun messages _ => ?_
  refine Keeps.lift fun nodeIdentity _ => ?_
  split
  · trivial
  refine Keeps.require fun w₁ _ _ _ _ => ?_
  refine Keeps.lift fun key _ => ?_
  refine Keeps.lift fun id _ => ?_
  refine Keeps.lift fun entries _ => ?_
  refine Keeps.select fun w₂ _ hc => ?_
  refine bind (keeps_pushEntries ?_ (fun _ _ => rfl))
  exact fun hz => hc.batch_sealed hz

lemma keeps_mirror {rs : Bool} {ch ph : String} {md : Val} :
    Keeps N Z Settled w none (mirrorProg sig rs now ch md ph) := by
  refine Keeps.lift fun d _ => ?_
  refine Keeps.lift fun po _ => ?_
  refine Keeps.lift fun pass _ => ?_
  split
  · exact (rfl : none = none)
  refine Keeps.require fun w₁ found _ _ _ => ?_
  cases found with
  | some row => exact (rfl : none = none)
  | none =>
    refine Keeps.select fun w₂ _ hc => ?_
    refine Keeps.lift fun verdict hv => ?_
    cases verdict with
    | none => exact (rfl : none = none)
    | some content =>
      refine keeps_storeEntry (fun hz => ?_) fun _ _ => (rfl : none = none)
      have hs : (mirrorBatch rs w₂.store ch ph po).channelSealed = true := hc.batch_sealed hz
      rw [hs] at hv
      exact mirrorContent_body hv

end Federation

inductive Call where
  | ingest (prim : Primitives) (mp : Processor) (m : Moment) (lim : Option RateLimiter)
      (env : MessageEnvelope)
  | push (sig : SignatureScheme) (config : Option FederationConfig) (now : ℚ) (payload : Val)
      (channelId : Option String)
  | mirror (sig : SignatureScheme) (requireSigned : Bool) (now : ℚ) (channelId : String)
      (msgData : Val) (peerHash : String)

def Call.program : Call → Tx Unit
  | .ingest prim mp m lim env => do
      let _ ← ingestProg prim mp m lim env
      pure ()
  | .push sig config now payload channelId => do
      let _ ← pushProg sig config now payload channelId
      pure ()
  | .mirror sig requireSigned now channelId msgData peerHash =>
    mirrorProg sig requireSigned now channelId msgData peerHash

abbrev after (db : Db) (es : List (Event Call)) : System Db Statement ℕ PyError Unit :=
  run (step perform Call.program) { committed := db } es

lemma call_keeps {call : Call} {w : Db} : Keeps N Z Settled w none call.program := by
  cases call with
  | ingest prim mp m lim env => exact bind keeps_ingest
  | push sig config now payload channelId => exact bind keeps_push
  | mirror sig requireSigned now channelId msgData peerHash => exact keeps_mirror

lemma committed_consistent (h : Consistent N Z none db) (es : List (Event Call)) :
    Consistent N Z none (after db es).committed :=
  committed_invariant (J := Consistent N Z) (fun _ _ _ => call_keeps) h es

/-- The numbers of every channel's messages are 1 up to its counter, each used once. -/
def Numbered (st : Store) : Prop :=
  ∀ channelId c, getById st channelId = some c →
    (seqs st channelId).Perm (List.range' 1 c.latestSeq)

lemma consistent_numbered : Consistent Set.univ ∅ none db ↔ Numbered db.store := by
  constructor
  · intro h channelId c hc
    have hp := h.numbered channelId c hc (Set.mem_univ channelId)
    rwa [Pending.of,append_nil] at hp
  intro h
  refine ⟨fun channelId c hc _ => ?_,fun _ hz => hz.elim,fun _ _ hz => hz.elim,fun _ _ hz => hz⟩
  rw [Pending.of,append_nil]
  exact h channelId c hc

def numbers (channelId : String) (trace : List (Statement × ℕ)) : List ℕ :=
  trace.filterMap fun x =>
    match x.1 with
    | .nextSeq c => if c = channelId then some x.2 else none
    | _ => none

def counter (st : Store) (channelId : String) : ℕ :=
  ((getById st channelId).map Channel.latestSeq).getD 0

lemma perform_counter {x : Statement × ℕ} {channelId : String}
    (hp : perform x.1 db = .ok (x.2, db')) :
    numbers channelId [x] = List.range' (counter db.store channelId + 1)
      (numbers channelId [x]).length ∧
    counter db'.store channelId = counter db.store channelId + (numbers channelId [x]).length := by
  obtain ⟨s,n⟩ := x
  cases s with
  | nextSeq c =>
    obtain ⟨⟨seq,st⟩,hse,hp⟩ := bind_ok hp
    obtain ⟨ch,hc,rfl,rfl⟩ := incrementSeq_ok.mp hse
    cases hp
    simp only [counter,getById_bumpSeq]
    by_cases hs : c = channelId
    · subst hs
      simp [numbers,hc]
    · simp [numbers,hs,Ne.symm hs]
  | insertMessage m =>
    obtain ⟨st,hi,hp⟩ := bind_ok hp
    obtain ⟨-,t,-,rfl⟩ := insert_ok hi
    cases hp
    exact ⟨rfl,rfl⟩
  | updateMessage msgHash f hf =>
    cases hp
    exact ⟨rfl,rfl⟩
  | insertThread t =>
    have hch := (insertThread_aside hp).1
    simp [numbers,counter,getById,hch]
  | updateThread rootHash f hf =>
    cases hp
    exact ⟨rfl,rfl⟩
  | upsertIdentity identityHash publicKey now =>
    have hch := (upsertIdentity_aside hp).1
    simp [numbers,counter,getById,hch]
  | logAudit entry =>
    cases hp
    exact ⟨rfl,rfl⟩

lemma replays_numbers {trace : List (Statement × ℕ)} (ch : String)
    (h : Replays perform db trace db') : numbers ch trace =
      List.range' (counter db.store ch + 1) (numbers ch trace).length := by
  induction trace generalizing db with
  | nil => rfl
  | cons x xs ih =>
    obtain ⟨u,hx,hr⟩ := h
    obtain ⟨hh,hc⟩ := perform_counter hx
    have ht := ih hr
    have hs : numbers ch (x :: xs) = numbers ch [x] ++ numbers ch xs := by
      rw [numbers,← singleton_append,filterMap_append]
      rfl
    rw [hs,length_append,← List.range'_append_1,← hh]
    congr 1
    have hn : counter db.store ch + 1 + (numbers ch [x]).length = counter u.store ch + 1 := by
      rw [hc]
      omega
    rw [hn]
    exact ht

/-- In every committed state the numbers of a channel are complete; and a transaction that
commits later has larger numbers than the rows and the transactions before it. -/
theorem sequence_integrity (h : Numbered db.store) (es : List (Event Call)) :
    Numbered (after db es).committed.store ∧ ∀ channelId c, getById db.store channelId = some c →
        (seqs db.store channelId :: (after db es).log.map (numbers channelId)).Pairwise
          fun earlier later => ∀ a ∈ earlier, ∀ b ∈ later, a < b := by
  refine ⟨consistent_numbered.mp (committed_consistent (consistent_numbered.mpr h) es),?_⟩
  intro channelId c hc
  have hf : ((after db es).log.map (numbers channelId)).flatten =
      numbers channelId (after db es).log.flatten := filterMap_flatten.symm
  have hr := replays_numbers channelId (log_replays Call.program db es)
  rw [← hf] at hr
  constructor
  · intro later hl a ha b hb
    have ho : a ≤ c.latestSeq := by
      have hm := (h channelId c hc).mem_iff.mp ha
      rw [mem_range'_1] at hm
      omega
    have hn : b ∈ ((after db es).log.map (numbers channelId)).flatten :=
      mem_flatten.mpr ⟨later,hl,hb⟩
    rw [hr,mem_range'_1,counter,hc] at hn
    simp only [Option.map_some,Option.getD_some] at hn
    omega
  · have hs : ((after db es).log.map (numbers channelId)).flatten.Pairwise (· < ·) := by
      rw [hr]
      exact pairwise_lt_range'
    exact (pairwise_flatten.mp hs).2

/-! Two posts to a sealed channel. The second has read the channel before the first commits,
and waits for it. -/

def vaultCall (body : String) : Call :=
  .ingest vaultPrimitives vaultProcessor ⟨1000,[9]⟩ none { vaultPost with body := some body }

def vaultRun : List (Event Call) :=
  [.start (vaultCall "first"), .start (vaultCall "second"), .advance 0, .advance 1, .advance 0,
    .advance 1, .advance 0, .advance 0, .proceed, .proceed, .proceed, .advance 0, .proceed,
    .proceed, .proceed]

lemma vaultStart_numbered : Numbered (⟨vaultStart,[]⟩ : Db).store := by
  intro channelId c hc
  have hv : c = vault := mem_singleton.mp (Table.get?_mem hc)
  rw [hv]
  exact List.Perm.refl []

theorem vaultRun_numbered : seqs (after ⟨vaultStart,[]⟩ vaultRun).committed.store "vault" = [1, 2] ∧
      Numbered (after ⟨vaultStart,[]⟩ vaultRun).committed.store :=
  ⟨by decide +kernel,(sequence_integrity vaultStart_numbered vaultRun).1⟩

structure CreatedSealed (db : Db) (channelId : String) : Prop where
  sealed : ∃ c, getById db.store channelId = some c ∧ c.sealed = true
  empty : db.store.channelMessages channelId = []
  unindexed : ∀ e ∈ db.messagesFts, e.channelId ≠ channelId

/-- In every committed state the rows of the channel have no text, and none was indexed. -/
theorem sealed_at_rest {channelId : String} (h : CreatedSealed db channelId)
    (es : List (Event Call)) :
    (∀ m ∈ (after db es).committed.store.channelMessages channelId, m.body = none) ∧
      ∀ e ∈ (after db es).committed.messagesFts, e.channelId ≠ channelId := by
  have hs : Consistent ∅ {channelId} none db := by
    refine ⟨fun _ _ _ hn => hn.elim,?_,?_,fun e he hz => h.unindexed e he hz⟩
    · intro k hk
      rw [Set.mem_singleton_iff.mp hk]
      exact h.sealed
    intro m hm hz
    have hme : m ∈ db.store.channelMessages channelId :=
      mem_filter.mpr ⟨hm,decide_eq_true hz⟩
    rw [h.empty] at hme
    cases hme
  have hen := committed_consistent hs es
  refine ⟨fun m hm => ?_,fun e he hz => hen.unindexed e he hz⟩
  obtain ⟨hr,hc⟩ := mem_filter.mp hm
  exact hen.bodies m hr (of_decide_eq_true hc)

lemma vaultStart_created : CreatedSealed ⟨vaultStart,[]⟩ "vault" :=
  ⟨⟨vault,rfl,rfl⟩,rfl,fun _ he => nomatch he⟩

theorem vaultRun_at_rest :
    ((after ⟨vaultStart,[]⟩ vaultRun).committed.store.channelMessages "vault").length = 2 ∧
      (∀ m ∈ (after ⟨vaultStart,[]⟩ vaultRun).committed.store.channelMessages "vault",
        m.body = none) ∧
      ∀ e ∈ (after ⟨vaultStart,[]⟩ vaultRun).committed.messagesFts, e.channelId ≠ "vault" :=
  ⟨by decide +kernel,sealed_at_rest vaultStart_created vaultRun⟩

end Hokora.CommittedStates
