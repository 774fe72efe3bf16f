import Hokora.CommittedStates
import Hokora.MirrorClient

/-!
# The cursor of a mirror

Pages, the tasks that store them and the cursor, with failures and restarts between any two.
-/
namespace Hokora.MirrorCursor
open CommittedStates FederatedAcceptance HandlerTransactions KeyedTable List MirrorClient
  MirrorIngest PyValue Repositories SenderBinding TransitionRuns WireRows WriteTransactions

structure MirrorPeer where
  identityHash : String
  channelsMirrored : List String := []
  syncCursor : String → ℤ := fun _ => 0

def firstMirroring (peers : Table MirrorPeer.identityHash) (channelId : String) :
    Option MirrorPeer :=
  peers.rows.find? fun p => channelId ∈ p.channelsMirrored

def persistCursor (peers : Table MirrorPeer.identityHash) (channelId : String) (cursor : ℤ) :
    Table MirrorPeer.identityHash :=
  match firstMirroring peers channelId with
  | none => peers
  | some p =>
    peers.update p.identityHash
      (fun q => { q with syncCursor := Function.update q.syncCursor channelId cursor })
      fun _ => rfl

def storedCursor (peers : Table MirrorPeer.identityHash) (peerHash channelId : String) : ℤ :=
  match peers.get? peerHash with
  | some p => p.syncCursor channelId
  | none => 0

structure Mirror where
  peerHash : String
  channelId : String
  sig : SignatureScheme
  requireSigned : Bool

inductive Task where
  | ingest (msgData : Val)
  | persist (cursor : ℤ)

structure Node where
  db : Db
  peers : Table MirrorPeer.identityHash
  cursor : ℤ
  tasks : List Task := []
  delivered : List Val := []
  scheduled : List Val := []
  finished : List Val := []
  rejected : List Val := []

inductive Event where
  | deliver (resp : HistoryData)
  | runTask (i : ℕ) (now : ℚ) (fails : Bool)
  | restart
  | other (call : Call)
  | otherCursor (channelId : String) (cursor : ℤ)

def commit (db : Db) (call : Call) : Option Db :=
  (call.program.exec perform db).toOption.map Prod.snd

def Mirror.stored (m : Mirror) (s : Node) : ℤ := storedCursor s.peers m.peerHash m.channelId

def Mirror.runIngest (m : Mirror) (s : Node) (now : ℚ) (msgData : Val) : Node :=
  match commit s.db (.mirror m.sig m.requireSigned now m.channelId msgData m.peerHash) with
  | none => s
  | some db =>
    { s with
      db := db
      finished := s.finished ++ [msgData]
      rejected :=
        if refuses m.sig m.requireSigned now s.db.store m.channelId msgData then
          s.rejected ++ [msgData]
        else s.rejected }

variable {db : Db} {md : Val}

lemma runIngest_committed {m : Mirror} {s : Node} {now : ℚ}
    (h : commit s.db (.mirror m.sig m.requireSigned now m.channelId md m.peerHash) = some db) :
    m.runIngest s now md =
      { s with
        db := db
        finished := s.finished ++ [md]
        rejected :=
          if refuses m.sig m.requireSigned now s.db.store m.channelId md then
            s.rejected ++ [md]
          else s.rejected } := by
  rw [Mirror.runIngest,h]

def Mirror.runTask (m : Mirror) (s : Node) (now : ℚ) (task : Option Task) (fails : Bool) : Node :=
  match task, fails with
  | some (.ingest msgData), false => m.runIngest s now msgData
  | some (.persist cursor), false =>
    { s with peers := persistCursor s.peers m.channelId cursor }
  | _, _ => s

def step (m : Mirror) (s : Node) : Event → Node
  | .deliver resp =>
    let h := handleResponse s.cursor resp
    { s with
      cursor := h.cursor
      tasks := s.tasks ++ h.ingested.map .ingest ++ (h.persist.map .persist).toList
      delivered := s.delivered ++ resp.messages
      scheduled := s.scheduled ++ h.ingested }
  | .runTask i now fails => m.runTask { s with tasks := s.tasks.eraseIdx i } now s.tasks[i]? fails
  | .restart => { s with cursor := m.stored s, tasks := [], scheduled := [] }
  | .other call => { s with db := (commit s.db call).getD s.db }
  | .otherCursor channelId cursor => { s with peers := persistCursor s.peers channelId cursor }

def start (m : Mirror) (db : Db) (peers : Table MirrorPeer.identityHash) : Node :=
  { db := db, peers := peers, cursor := storedCursor peers m.peerHash m.channelId }

/-- What was delivered up to the stored cursor has a row or was refused. -/
def CursorSafe (m : Mirror) (s : Node) : Prop :=
  ∀ d ∈ s.delivered, ∀ n, messageSeq d = .ok n → n ≤ m.stored s →
    HasRow s.db.store d ∨ d ∈ s.rejected

/-- The cursor is stored after the ingestion of everything up to it, and by its own mirror. A
response has readable numbers and does not skip what was lost in a crash. -/
def Orderly (m : Mirror) (s : Node) : Event → Prop
  | .deliver resp =>
    (∀ d ∈ resp.messages, ∃ n, messageSeq d = .ok n ∧ (m.stored s < n ∨ d ∈ s.finished)) ∧
      ∀ d ∈ s.delivered, ∀ n, messageSeq d = .ok n → s.cursor < n →
        ∀ e ∈ resp.messages, ∀ k, messageSeq e = .ok k → n ≤ k →
          d ∈ resp.messages ∨ d ∈ s.scheduled ∨ d ∈ s.finished
  | .runTask i _ fails =>
    ∀ cursor, s.tasks[i]? = some (.persist cursor) → fails = false →
      ∀ d ∈ s.scheduled, ∀ n, messageSeq d = .ok n → n ≤ cursor → d ∈ s.finished
  | .restart => True
  | .other _ => True
  | .otherCursor channelId _ =>
    channelId = m.channelId → ∀ p, firstMirroring s.peers channelId = some p →
      p.identityHash ≠ m.peerHash

variable {peers : Table MirrorPeer.identityHash}

lemma storedCursor_persist {ch ph k : String} {cursor : ℤ} :
    storedCursor (persistCursor peers ch cursor) ph k = storedCursor peers ph k ∨
      (ch = k ∧ ∃ p, firstMirroring peers ch = some p ∧ p.identityHash = ph) ∧
        storedCursor (persistCursor peers ch cursor) ph k = cursor := by
  unfold persistCursor
  cases hf : firstMirroring peers ch with
  | none => exact .inl rfl
  | some p =>
    have hr : peers.get? p.identityHash = some p :=
      Table.get?_of_mem (mem_of_find?_eq_some hf)
    simp only [storedCursor,Table.get?_update]
    by_cases ho : ph = p.identityHash
    · by_cases hk : k = ch
      · exact .inr ⟨⟨hk.symm,p,rfl,ho.symm⟩,by simp [ho,hk,hr]⟩
      · exact .inl (by simp [ho,hk,hr])
    · exact .inl (by rw [if_neg ho])

lemma hasRow_later {a b : Db} (h : HasRow a.store md) (hle : a ≤ b) : HasRow b.store md := by
  obtain ⟨d,row,hd,hf⟩ := h
  obtain ⟨key,hk,hr⟩ := bind_ok hf
  cases key with
  | none => cases hr
  | some k =>
    have hg : MessageRepo.getByHash a.store k = some row := Except.ok.inj hr
    obtain ⟨row',hr',-⟩ := Later.row hle hg
    refine ⟨d,row',hd,?_⟩
    rw [getByWireHash,hk,ok_bind,Option.bind_some,hr']
    rfl

lemma commit_later {db' : Db} {call : Call} (h : commit db call = some db') : db ≤ db' := by
  obtain ⟨⟨a,t⟩,he,rfl⟩ := Option.map_eq_some_iff.mp h
  have ht : Consistent ∅ ∅ none db :=
    ⟨fun _ _ _ hn => hn.elim,fun _ hz => hz.elim,fun _ _ hz => hz.elim,fun _ _ hz => hz⟩
  exact call_keeps.exec (le_refl db) ht (toOption_eq_some.mp he)

lemma commit_settles {m : Mirror} {db' : Db} {now : ℚ}
    (h : commit db (.mirror m.sig m.requireSigned now m.channelId md m.peerHash) = some db') :
    refuses m.sig m.requireSigned now db.store m.channelId md = true ∨ HasRow db'.store md := by
  obtain ⟨⟨a,t⟩,he,rfl⟩ := Option.map_eq_some_iff.mp h
  have ha := exec_mirror m.sig m.requireSigned now db.store m.channelId md m.peerHash db.messagesFts
  have he' : (mirrorProg m.sig m.requireSigned now m.channelId md m.peerHash).exec perform
      db = .ok (a, t) := toOption_eq_some.mp he
  rw [he'] at ha
  obtain ⟨st',htx,hen⟩ := bind_ok ha.symm
  cases hen
  exact ingestTx_settles htx

structure Inv (m : Mirror) (s : Node) : Prop where
  settled : ∀ d ∈ s.finished, HasRow s.db.store d ∨ d ∈ s.rejected
  stored : ∀ d ∈ s.delivered, ∀ n, messageSeq d = .ok n → n ≤ m.stored s → d ∈ s.finished
  passed : ∀ d ∈ s.delivered, ∀ n, messageSeq d = .ok n → n ≤ s.cursor →
    d ∈ s.scheduled ∨ d ∈ s.finished
  persisting : ∀ cursor, Task.persist cursor ∈ s.tasks → cursor ≤ s.cursor

section Steps
variable {m : Mirror} {s : Node}

lemma step_deliver {resp : HistoryData}
    (hr : ∀ d ∈ resp.messages, ∃ n, messageSeq d = .ok n) : step m s (.deliver resp) =
      { s with
        cursor := (scan s.cursor resp.messages).cursor
        tasks := s.tasks ++ resp.messages.map .ingest ++
          ((handleResponse s.cursor resp).persist.map .persist).toList
        delivered := s.delivered ++ resp.messages
        scheduled := s.scheduled ++ resp.messages } := by
  have hs := (scan_completed hr s.cursor).1
  simp [step,handleResponse,hs]

lemma Inv.deliver (hi : Inv m s) {resp : HistoryData} (hok : Orderly m s (.deliver resp)) :
    Inv m (step m s (.deliver resp)) := by
  obtain ⟨hnu,hsk⟩ := hok
  have hle := scan_le s.cursor resp.messages
  rw [step_deliver fun d hd => (hnu d hd).imp fun _ h => h.1]
  refine ⟨hi.settled,?_,?_,?_⟩
  · intro d hd n hn hs
    rcases mem_append.mp hd with ho | hne
    · exact hi.stored d ho n hn hs
    obtain ⟨k,hk,hab | hf⟩ := hnu d hne
    · have hkn : k = n := Except.ok.inj (hk.symm.trans hn)
      change n ≤ m.stored s at hs
      omega
    · exact hf
  · intro d hd n hn hcu
    rcases mem_append.mp hd with ho | hne
    · by_cases hl : n ≤ s.cursor
      · exact (hi.passed d ho n hn hl).imp_left (mem_append_left _)
      -- The cursor has moved, to a number of the response.
      change n ≤ (scan s.cursor resp.messages).cursor at hcu
      rcases scan_cursor_cases s.cursor resp.messages with hsa | ⟨e,he,hk⟩
      · omega
      rcases hsk d ho n hn (by omega) e he _ hk hcu with ha | hsc | hfi
      · exact .inl (mem_append_right _ ha)
      · exact .inl (mem_append_left _ hsc)
      · exact .inr hfi
    · exact .inl (mem_append_right _ hne)
  · intro cursor hm
    change cursor ≤ (scan s.cursor resp.messages).cursor
    rcases mem_append.mp hm with hm | hne
    · rcases mem_append.mp hm with ho | hin
      · have := hi.persisting cursor ho
        omega
      · obtain ⟨d,-,hd⟩ := mem_map.mp hin
        cases hd
    · obtain ⟨c,hc,hp⟩ := Option.map_eq_some_iff.mp (Option.mem_toList.mp hne)
      cases hp
      rw [handleResponse_persist hc]

lemma Inv.dropTask (hi : Inv m s) (i : ℕ) : Inv m { s with tasks := s.tasks.eraseIdx i } :=
  ⟨hi.settled,hi.stored,hi.passed, fun cursor hm => hi.persisting cursor (mem_of_mem_eraseIdx hm)⟩

lemma Inv.withDb (hi : Inv m s) (hle : s.db ≤ db) : Inv m { s with db := db } :=
  ⟨fun d hd => (hi.settled d hd).imp_left fun h => hasRow_later h hle,hi.stored,hi.passed,
    hi.persisting⟩

lemma Inv.runIngest (hi : Inv m s) (now : ℚ) (md : Val) : Inv m (m.runIngest s now md) := by
  cases hc : commit s.db (.mirror m.sig m.requireSigned now m.channelId md m.peerHash) with
  | none =>
    rw [Mirror.runIngest,hc]
    exact hi
  | some db =>
    rw [runIngest_committed hc]
    have hg := hi.withDb (commit_later hc)
    refine ⟨?_,?_,?_,hi.persisting⟩
    · intro d hd
      rcases mem_append.mp hd with ho | hne
      · refine (hg.settled d ho).imp_right fun hr => ?_
        split_ifs
        · exact mem_append_left _ hr
        · exact hr
      rw [mem_singleton.mp hne]
      refine (commit_settles hc).symm.imp_right fun hre => ?_
      rw [if_pos hre]
      exact mem_append_right _ (mem_singleton_self md)
    · intro d hd n hn hs
      exact mem_append_left _ (hi.stored d hd n hn hs)
    · intro d hd n hn hcu
      exact (hi.passed d hd n hn hcu).imp_right (mem_append_left _)

lemma Inv.withPeers (hi : Inv m s) {ch : String} {cursor : ℤ} (ho : ch = m.channelId →
      (∃ p, firstMirroring s.peers ch = some p ∧ p.identityHash = m.peerHash) →
        ∀ d ∈ s.delivered, ∀ n, messageSeq d = .ok n → n ≤ cursor → d ∈ s.finished) :
    Inv m { s with peers := persistCursor s.peers ch cursor } := by
  refine ⟨hi.settled,?_,hi.passed,hi.persisting⟩
  intro d hd n hn hs
  change n ≤ storedCursor (persistCursor s.peers ch cursor) m.peerHash m.channelId at hs
  rcases storedCursor_persist with
    hsa | ⟨⟨hc,hf⟩,hne⟩
  · rw [hsa] at hs
    exact hi.stored d hd n hn hs
  · rw [hne] at hs
    exact ho hc hf d hd n hn hs

lemma Inv.runTask (hi : Inv m s) {i : ℕ} {now : ℚ} {fails : Bool}
    (hok : Orderly m s (.runTask i now fails)) : Inv m (step m s (.runTask i now fails)) := by
  have hr := hi.dropTask i
  rw [MirrorCursor.step]
  cases ht : s.tasks[i]? with
  | none => exact hr
  | some task =>
    cases fails with
    | true => cases task <;> exact hr
    | false =>
      cases task with
      | ingest md => exact hr.runIngest now md
      | persist cursor =>
        refine hr.withPeers fun _ _ d hd n hn hle => ?_
        have hb := hi.persisting cursor (mem_of_getElem? ht)
        rcases hi.passed d hd n hn (hle.trans hb) with hs | hf
        · exact hok cursor ht rfl d hs n hn hle
        · exact hf

lemma Inv.step (hi : Inv m s) {e : Event} (hok : Orderly m s e) : Inv m (step m s e) := by
  cases e with
  | deliver resp => exact hi.deliver hok
  | runTask i now fails => exact hi.runTask hok
  | restart =>
    refine ⟨hi.settled,hi.stored,?_,fun _ hm => nomatch hm⟩
    intro d hd n hn hcu
    exact .inr (hi.stored d hd n hn hcu)
  | other call =>
    refine hi.withDb ?_
    cases hco : commit s.db call with
    | none => exact le_refl s.db
    | some db => exact commit_later hco
  | otherCursor channelId cursor =>
    refine hi.withPeers fun hc hf => ?_
    obtain ⟨p,hp,ho⟩ := hf
    exact absurd ho (hok hc p hp)

end Steps

lemma start_inv {m : Mirror} : Inv m (start m db peers) :=
  ⟨fun _ hd => (nomatch hd),fun _ hd => (nomatch hd),fun _ hd => (nomatch hd),
    fun _ hm => (nomatch hm)⟩

/-- In a run of orderly steps the stored cursor is safe. -/
theorem cursor_safe_of_orderly (m : Mirror) (db : Db) (peers : Table MirrorPeer.identityHash)
    {es : List Event} (h : Guarded (step m) (Orderly m) (start m db peers) es) :
    CursorSafe m (run (step m) (start m db peers) es) := by
  have hin : Inv m (run (step m) (start m db peers) es) :=
    h.invariant (fun _ _ hi hok => hi.step hok) start_inv
  intro d hd n hn hs
  exact hin.settled d (hin.stored d hd n hn hs)

/-! One signed message. Its ingestion runs before the cursor is stored, fails, or is lost in
a crash. -/

def generalEntry : Val :=
  .dict [("msg_hash", .str "m"), ("seq", .int 1), ("sender_hash", .str sampleHash),
    ("timestamp", .int 1000), ("body", .str "hello"),
    ("sender_rns_public_key", .bytes (replicate 64 7)),
    ("lxmf_signed_part", .bytes [1, 2, 3]), ("lxmf_signature", .bytes [1, 2, 3])]

def generalMirror : Mirror := ⟨"peer","general",sampleScheme,true⟩

def generalStart : Node :=
  start generalMirror ⟨sampleStore,[]⟩
    (.singleton { identityHash := "peer", channelsMirrored := ["general"] })

def orderlyRun : List Event :=
  [.deliver ⟨[generalEntry],false⟩, .runTask 0 1000 false, .runTask 0 1000 false]

def failedRun : List Event :=
  [.deliver ⟨[generalEntry],false⟩, .runTask 0 1000 true, .runTask 0 1000 false]

def crashedRun : List Event :=
  [.deliver ⟨[generalEntry],false⟩, .runTask 1 1000 false, .restart]

lemma generalEntry_ingested : (commit ⟨sampleStore,[]⟩
      (.mirror sampleScheme true 1000 "general" generalEntry "peer")).isSome := by
  decide +kernel

lemma orderlyRun_orderly : Guarded (step generalMirror) (Orderly generalMirror) generalStart
    orderlyRun := by
  refine ⟨⟨?_,fun _ hd => (nomatch hd)⟩,?_,?_,trivial⟩
  · intro d hd
    rw [mem_singleton.mp hd]
    exact ⟨1,rfl,.inl (by decide)⟩
  · intro cursor ht
    cases ht
  intro cursor _ _ d hd n _ _
  obtain ⟨db,hdb⟩ := Option.isSome_iff_exists.mp generalEntry_ingested
  have hr : step generalMirror (step generalMirror generalStart
      (.deliver ⟨[generalEntry],false⟩)) (.runTask 0 1000 false) = _ :=
    runIngest_committed (m := generalMirror)
      (s := { generalStart with
        cursor := 1, tasks := [.persist 1], delivered := [generalEntry]
        scheduled := [generalEntry] }) hdb
  rw [hr] at hd ⊢
  exact hd

theorem orderlyRun_safe :
    generalMirror.stored (run (step generalMirror) generalStart orderlyRun) = 1 ∧
      CursorSafe generalMirror (run (step generalMirror) generalStart orderlyRun) :=
  ⟨by decide +kernel,cursor_safe_of_orderly generalMirror _ _ orderlyRun_orderly⟩

lemma not_cursorSafe_of_lost {s : Node} (hde : generalEntry ∈ s.delivered)
    (hs : 1 ≤ generalMirror.stored s) (he : s.db.store.messages.rows = [])
    (hr : s.rejected = []) : ¬ CursorSafe generalMirror s := by
  intro h
  rcases h generalEntry hde 1 rfl hs with ⟨d,row,hd,hro⟩ | hm
  · cases hd
    have hn : MessageRepo.getByHash s.db.store "m" = none := by
      rw [MessageRepo.getByHash,Table.get?,he]
      rfl
    cases hn.symm.trans (Except.ok.inj hro)
  · rw [hr] at hm
    cases hm

theorem failedRun_crashedRun_lose_message :
    ¬ CursorSafe generalMirror (run (step generalMirror) generalStart failedRun) ∧
      ¬ CursorSafe generalMirror (run (step generalMirror) generalStart crashedRun) :=
  ⟨not_cursorSafe_of_lost (mem_singleton_self _) (by decide +kernel) rfl rfl,
    not_cursorSafe_of_lost (mem_singleton_self _) (by decide +kernel) rfl rfl⟩

end Hokora.MirrorCursor
