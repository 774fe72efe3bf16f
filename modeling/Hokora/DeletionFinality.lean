import Hokora.IngestionSpec
import Hokora.ReadHandlers
import Hokora.TransitionRuns

/-!
# What is left of a deleted message

Runs of ingestions of every type, with what clients are sent of the deleted rows.
-/
namespace Hokora.DeletionFinality
open BigEndian Constants Database KeyedTable MessageProcessor PyValue RateLimit ReadHandlers
  Repositories SealedChannels TransitionRuns
open MessageRepo (getByHash)

structure Ingestion where
  processor : Processor
  moment : Moment
  limiter : Option RateLimiter := none
  envelope : MessageEnvelope

structure Node where
  store : Store
  deleted : List String := []

def deletion (env : MessageEnvelope) (outcome : Py (Message × Store)) : List String :=
  match outcome with
  | .ok _ => if env.type = msgDelete then env.target.toList else []
  | .error _ => []

def step (prim : Primitives) (s : Node) (l : Ingestion) : Node :=
  let outcome := (ingest prim l.processor l.moment l.limiter s.store l.envelope).2
  { store := committed s.store outcome, deleted := s.deleted ++ deletion l.envelope outcome }

/-- Neither text nor ciphertext in the entry. -/
def Erased (e : Entry) : Prop :=
  e.lookup "body" = some (.str "") ∧ e.lookup "encrypted_body" = none

/-- The row of each accepted delete is erased for every client. -/
def Final (prim : ReadPrimitives) (s : Node) : Prop :=
  ∀ h ∈ s.deleted, ∃ row, getByHash s.store h = some row ∧
    ∀ sealedManager supports, Erased (encodeMessageForWire prim sealedManager supports row)

/-- A delete names no row with a ciphertext, and an edit with a text no deleted row. Targets
in another channel or, for an edit, of another author are refused anyway. -/
def Clean (s : Node) (l : Ingestion) : Prop :=
  ∀ row ∈ l.envelope.target.bind (getByHash s.store), row.channelId = l.envelope.channelId →
    (l.envelope.type = msgDelete → ciphertext row = none) ∧
      (l.envelope.type = msgEdit → row.senderHash = some l.envelope.senderHash →
        row.deleted = true → l.envelope.body.getD "" = "")

instance (s : Node) (l : Ingestion) : Decidable (Clean s l) := by
  unfold Clean
  infer_instance

structure Gone (row : Message) : Prop where
  marked : row.deleted = true
  text : row.body.getD "" = ""
  noCiphertext : ciphertext row = none

lemma Gone.erased {row : Message} (h : Gone row) (prim : ReadPrimitives)
    (sm : Option Keyring) (supports : Bool) :
    Erased (encodeMessageForWire prim sm supports row) := by
  have hp : encodeMessageForWire prim sm supports row = Pusher.encodeMessageForSync row := by
    unfold encodeMessageForWire
    rw [h.noCiphertext]
    cases sm <;> rfl
  rw [hp]
  refine ⟨?_,rfl⟩
  change some (Val.str (row.body.getD "")) = _
  rw [h.text]

lemma Gone.applyEdit {row : Message} (h : Gone row) {editHash : String} {b : StoredBody}
    (hb : b.body.getD "" = "" ∧ b.encryptedBody = none) : Gone (applyEdit editHash b row) := by
  refine ⟨h.marked,hb.1,?_⟩
  unfold ciphertext MessageProcessor.applyEdit
  simp only [hb.2]

section Route
variable {prim : Primitives} {mp : Processor} {m : Moment} {st : Store} {env : MessageEnvelope}
  {channel : Channel} {r : Message × Store} {h : String} {row : Message}

lemma route_gone (hr : route prim mp m st env channel = .ok r)
    (hro : getByHash st h = some row) (hg : Gone row)
    (he : env.type = msgEdit → env.target = some row.msgHash →
      row.channelId = env.channelId → row.senderHash = some env.senderHash →
      env.body.getD "" = "") :
    ∃ row', getByHash r.2 h = some row' ∧ Gone row' := by
  obtain ⟨row',hr',hch⟩ := route_row hr hro
  refine ⟨row',hr',?_⟩
  cases hch with
  | kept => exact hg
  | edited hty ht hc ha hb =>
    exact hg.applyEdit ((sealForOrigin_ok hb).2 (he hty ht hc ha))
  | deleted => exact ⟨rfl,rfl,hg.noCiphertext⟩
  | pinned => exact ⟨hg.marked,hg.text,hg.noCiphertext⟩
  | reacted => exact ⟨hg.marked,hg.text,hg.noCiphertext⟩

lemma route_delete (hro : route prim mp m st env channel = .ok r) (hty : env.type = msgDelete)
    (ht : env.target = some h)
    (hc : ∀ row, getByHash st h = some row → row.channelId = env.channelId →
      ciphertext row = none) :
    ∃ row', getByHash r.2 h = some row' ∧ Gone row' := by
  unfold route at hro
  rw [hty,if_neg (by decide),if_pos rfl] at hro
  obtain ⟨th,o,ht',ho,hch,hr⟩ := processDelete_ok hro
  obtain rfl : h = th := Option.some.inj (ht.symm.trans ht')
  refine ⟨_,getByHash_update hr ho,?_⟩
  rw [if_pos rfl]
  exact ⟨rfl,rfl,hc o ho hch⟩

end Route

/-- The rows of the accepted deletes are gone. -/
def AllGone (s : Node) : Prop :=
  ∀ h ∈ s.deleted, ∃ row, getByHash s.store h = some row ∧ Gone row

lemma step_allGone (prim : Primitives) (s : Node) (l : Ingestion) (hs : AllGone s)
    (hcl : Clean s l) : AllGone (step prim s l) := by
  unfold AllGone step
  cases ho : (ingest prim l.processor l.moment l.limiter s.store l.envelope).2 with
  | error e =>
    simp only [deletion,List.append_nil]
    exact hs
  | ok r =>
    obtain ⟨channel,env',-,-,hp,hr⟩ := ingest_ok ho
    obtain ⟨displayName,mentions,rfl⟩ := checkPermissions_normalised hp
    intro h hm
    rcases List.mem_append.mp hm with hol | hn
    · obtain ⟨row,hro,hg⟩ := hs h hol
      apply route_gone hr hro hg
      intro hty ht hc ha
      rw [Table.get?_key hro] at ht
      exact (hcl row (Option.bind_eq_some_iff.mpr ⟨h,ht,hro⟩) hc).2 hty ha hg.marked
    unfold deletion at hn
    split_ifs at hn with hty
    · have ht := Option.mem_toList.mp hn
      apply route_delete hr hty ht
      intro row hro hc
      exact (hcl row (Option.bind_eq_some_iff.mpr ⟨h,ht,hro⟩) hc).1 hty
    · cases hn

/-- In runs in which no delete names a row with a ciphertext and no edit gives a text to a
deleted row, deletions are final. -/
theorem deletions_final (prim : Primitives) (readPrim : ReadPrimitives) (st : Store)
    (ls : List Ingestion) (hclean : Guarded (step prim) Clean ⟨st,[]⟩ ls) :
    Final readPrim (run (step prim) ⟨st,[]⟩ ls) := by
  have hn : AllGone ⟨st,[]⟩ := fun h hm => absurd hm List.not_mem_nil
  intro h hm
  obtain ⟨row,hr,hg⟩ := Guarded.invariant (step_allGone prim) hn hclean h hm
  exact ⟨row,hr,hg.erased readPrim⟩

def samplePrimitives : Primitives :=
  { sha256Hex := id, floatStr := fun _ => "t", aesGcm := fun _ _ _ _ => [5] }

def sampleDecryption : ReadPrimitives :=
  { aesGcmDecrypt := fun _ _ ciphertext _ => if ciphertext = [5] then some [7] else none
    decodeUtf8 := fun b => if b = [7] then some "hello" else none }

def sampleKeys : SealedChannelManager := { keys := .singleton ⟨"c",[1],0⟩ }

def sampleStart (sealed : Bool) : Node :=
  { store := { channels := .singleton { id := "c", sealed := sealed } } }

def sampleCall (env : MessageEnvelope) : Ingestion where
  processor :=
    { permissionResolver := none, nodeIdentityHash := some "node",
      sealedManager := some sampleKeys }
  moment := ⟨8,[3]⟩
  envelope := env

def samplePost : MessageEnvelope :=
  { channelId := "c", senderHash := "alice", timestamp := .fin 7, body := some "hello" }

def about (type : ℤ) (body : Option String) : MessageEnvelope :=
  { samplePost with
    type := type, body := body, replyTo := some (samplePost.computeHash samplePrimitives) }

def deletedRun : List Ingestion :=
  [sampleCall samplePost, sampleCall (about msgDelete none)]

def deletedAndPinned : List Ingestion :=
  deletedRun ++ [sampleCall (about msgPin none), sampleCall (about msgReaction (some "+"))]

def deletedAndEdited : List Ingestion := deletedRun ++ [sampleCall (about msgEdit (some "again"))]

theorem deletedAndPinned_final :
    (run (step samplePrimitives) (sampleStart false) deletedAndPinned).deleted ≠ [] ∧
      Final sampleDecryption (run (step samplePrimitives) (sampleStart false) deletedAndPinned) :=
  ⟨by decide +kernel,deletions_final samplePrimitives sampleDecryption _ deletedAndPinned
    (by decide +kernel)⟩

def sampleWire (s : Node) (supports : Bool) (k : String) : Option Val :=
  (getByHash s.store (samplePost.computeHash samplePrimitives)).bind fun row =>
    (encodeMessageForWire sampleDecryption (some { current := sampleKeys }) supports row).lookup k

lemma sampleWire_body {s : Node} (hd : samplePost.computeHash samplePrimitives ∈ s.deleted)
    (hf : Final sampleDecryption s) : sampleWire s false "body" = some (.str "") := by
  obtain ⟨row,hr,he⟩ := hf _ hd
  unfold sampleWire
  rw [hr]
  exact (he _ false).1

theorem deleted_text_returns :
    sampleWire (run (step samplePrimitives) (sampleStart true) deletedRun) false "body" =
        some (.str "hello") ∧
      sampleWire (run (step samplePrimitives) (sampleStart true) deletedRun) true "encrypted_body" =
        some (.bytes [5]) ∧
      ¬ Final sampleDecryption (run (step samplePrimitives) (sampleStart true) deletedRun) ∧
      sampleWire (run (step samplePrimitives) (sampleStart false) deletedAndEdited) false "body" =
        some (.str "again") ∧ ¬ Final sampleDecryption
        (run (step samplePrimitives) (sampleStart false) deletedAndEdited) := by
  have hs : sampleWire (run (step samplePrimitives) (sampleStart true) deletedRun) false
      "body" = some (.str "hello") := by rfl
  have he : sampleWire (run (step samplePrimitives) (sampleStart false) deletedAndEdited) false
      "body" = some (.str "again") := by rfl
  refine ⟨hs,by rfl,?_,he,?_⟩
  · intro hf
    rw [sampleWire_body (by decide +kernel) hf] at hs
    simp at hs
  intro hf
  rw [sampleWire_body (by decide +kernel) hf] at he
  simp at he

end Hokora.DeletionFinality
