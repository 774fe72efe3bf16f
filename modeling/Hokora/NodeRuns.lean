import Hokora.IngestionSpec
import Hokora.MirrorIngest
import Hokora.TransitionRuns

/-!
# A node between its users and its peers

Local envelopes, pushes and mirrored messages in any order, with a record of what came from whom.
-/
namespace Hokora.NodeRuns
open Database KeyedTable MessageProcessor PushReceive PyValue RateLimit Repositories SenderBinding
  TransitionRuns WireRows
open MessageRepo (getByHash)

inductive Path where
  | push
  | mirror

structure Arrival where
  path : Path
  origin : Val
  msgHash : String

structure Node where
  store : Store
  arrivals : List Arrival := []

structure Setting where
  prim : Primitives
  sig : SignatureScheme
  config : FederationConfig

inductive Event where
  | ingest (mp : Processor) (m : Moment) (lim : Option RateLimiter) (env : MessageEnvelope)
  | push (now : ℚ) (payload : Val) (channelId requesterHash : Option String)
  | mirror (now : ℚ) (channelId : String) (msgData : Val) (peerHash : String)

def fieldOr (v : Val) (k : String) : Val :=
  match v.get k .none with
  | .ok x => x
  | .error _ => .none

def newHashes (st st' : Store) : List String :=
  (st'.messages.rows.filter fun r => (getByHash st r.msgHash).isNone).map Message.msgHash

def Node.arrive (n : Node) (path : Path) (origin : Val) (st' : Store) : Node :=
  { store := st'
    arrivals := n.arrivals ++ (newHashes n.store st').map fun h => ⟨path,origin,h⟩ }

def step (w : Setting) (n : Node) : Event → Node
  | .ingest mp m lim env =>
    { n with store := committed n.store (ingest w.prim mp m lim n.store env).2 }
  | .push now payload channelId requesterHash =>
    n.arrive .push (fieldOr payload "node_identity")
      (committed n.store (handlePushMessages w.sig (some w.config) now n.store payload channelId
        requesterHash (none : Option Unit)))
  | .mirror now channelId msgData peerHash =>
    n.arrive .mirror ((Val.str peerHash).or (fieldOr msgData "origin_node"))
      (MirrorIngest.ingest w.sig w.config.requireSignedFederation now n.store channelId msgData
        peerHash)

structure Grown (P : Message → Prop) (st st' : Store) : Prop where
  kept : ∀ {h row}, getByHash st h = some row → getByHash st' h = some row
  added : ∀ {h row}, getByHash st h = none → getByHash st' h = some row → P row

section Grown
variable {P : Message → Prop} {st st₁ st' : Store}

lemma Grown.refl (P : Message → Prop) (st : Store) : Grown P st st :=
  ⟨fun h => h,fun h h' => by rw [h] at h'; cases h'⟩

lemma Grown.trans (h₁ : Grown P st st₁) (h₂ : Grown P st₁ st') : Grown P st st' := by
  refine ⟨fun h => h₂.kept (h₁.kept h),?_⟩
  intro h row hn hs
  cases hm : getByHash st₁ h with
  | none => exact h₂.added hm hs
  | some row₁ =>
    have hr := (h₂.kept hm).symm.trans hs
    cases hr
    exact h₁.added hn hm

lemma Grown.insert {row : Message} (hi : st.messages.insert? row = some st'.messages)
    (hp : P row) : Grown P st st' := by
  refine ⟨fun h => Table.get?_insert?_of_some hi h,?_⟩
  intro h row' hn hs
  have hg := (Table.get?_insert? hi h).symm.trans hs
  split_ifs at hg
  · cases hg
    exact hp
  · exact absurd (hg.symm.trans hn) (by simp)

end Grown

structure Foreign (origin : Val) (row : Message) : Prop where
  origin : bindText origin = .ok row.originNode
  signature : row.lxmfSignature = none
  signedPart : row.lxmfSignedPart = none

variable {n : Node} {b : PushBatch} {st st' : Store} {now : ℚ}

lemma storeEntry_foreign {d : MsgData} {content : WireBody} {r : ℕ × Store}
    (h : storeEntry b now st d content = .ok r) : Grown (Foreign b.nodeIdentity) st r.2 := by
  obtain ⟨seq,st'⟩ := r
  obtain ⟨c,name,row,t,-,-,-,hbi,hi,rfl⟩ := storeEntry_cases h
  have hb := WireRow.bind_ok hbi
  exact .insert hi ⟨hb.originNode,hb.signature,hb.signedPart⟩

variable {sig : SignatureScheme}

lemma pushEntry_foreign {d : MsgData} {r : Answer × Store} (h : pushEntry sig b now st d = .ok r) :
    Grown (Foreign b.nodeIdentity) st r.2 := by
  obtain ⟨-,-,-,rfl⟩ | ⟨-,⟨-,-,rfl⟩ | ⟨content,seq,-,hs,-⟩⟩ := pushEntry_cases h
  · exact .refl _ _
  · exact .refl _ _
  · exact storeEntry_foreign hs

lemma pushEntries_foreign {vs : List Val} {as : List Answer}
    (h : pushEntries sig b now st vs = .ok (as, st')) : Grown (Foreign b.nodeIdentity) st st' :=
  pushEntries_rel (.refl _) .trans pushEntry_foreign h

lemma handlePushMessages_foreign {L : Type} (config : Option FederationConfig) (now : ℚ)
    (st : Store) (p : Val) (ch rq : Option String) (link : Option L) :
    Grown (Foreign (fieldOr p "node_identity")) st
      (committed st (handlePushMessages sig config now st p ch rq link)) := by
  rcases handlePushMessages_cases with hs | ⟨c,b,entries,as,st',ho,he,hs⟩
  · rw [hs]
    exact .refl _ st
  have hn : fieldOr p "node_identity" = b.nodeIdentity := by
    rw [fieldOr,(openBatch_ok ho).2.1]
  rw [hs,hn]
  exact pushEntries_foreign he

lemma mirrorIngest_foreign (rs : Bool) (now : ℚ) (st : Store) (ch : String)
    (d : Val) (ph : String) : Grown (Foreign ((Val.str ph).or (fieldOr d "origin_node"))) st
      (MirrorIngest.ingest sig rs now st ch d ph) := by
  unfold MirrorIngest.ingest
  cases htx : MirrorIngest.ingestTx sig rs now st ch d ph with
  | error e => exact .refl _ st
  | ok st' =>
    cases MirrorIngest.ingestTx_effect htx with
    | stored _ ho _ _ _ hs =>
      rw [show fieldOr d "origin_node" = _ by rw [fieldOr,ho]]
      exact storeEntry_foreign hs
    | _ => exact .refl _ _

structure SameProvenance (row row' : Message) : Prop where
  origin : row'.originNode = row.originNode
  signature : row'.lxmfSignature = row.lxmfSignature
  signedPart : row'.lxmfSignedPart = row.lxmfSignedPart

lemma SameProvenance.refl (row : Message) : SameProvenance row row := ⟨rfl,rfl,rfl⟩

/-- Every row is still there, with the same provenance. -/
def RowsKept (st st' : Store) : Prop :=
  ∀ h row, getByHash st h = some row → ∃ row', getByHash st' h = some row' ∧ SameProvenance row row'

lemma RowsKept.refl (st : Store) : RowsKept st st := fun _ row h => ⟨row,h,.refl row⟩

variable {prim : Primitives} {mp : Processor} {env : MessageEnvelope}

lemma route_kept {m : Moment}
    {channel : Channel} {r : Message × Store} (h : route prim mp m st env channel = .ok r) :
    RowsKept st r.2 := by
  intro k row hr
  obtain ⟨row',hr',hc⟩ := route_row h hr
  exact ⟨row',hr',by cases hc <;> exact ⟨rfl,rfl,rfl⟩⟩

lemma ingest_kept {m : Moment} {lim : Option RateLimiter} :
    RowsKept st (committed st (ingest prim mp m lim st env).2) := by
  cases h : (ingest prim mp m lim st env).2 with
  | error e => exact .refl st
  | ok r =>
    obtain ⟨channel,env',-,-,-,hr⟩ := ingest_ok h
    exact route_kept hr

/-- Each recorded row is there, as its path stored it. -/
def Recorded (n : Node) : Prop :=
  ∀ a ∈ n.arrivals, ∃ row, getByHash n.store a.msgHash = some row ∧ Foreign a.origin row

lemma mem_newHashes {h : String} : h ∈ newHashes st st' ↔
      getByHash st h = none ∧ ∃ row, getByHash st' h = some row := by
  simp only [newHashes,List.mem_map,List.mem_filter,Option.isNone_iff_eq_none]
  constructor
  · rintro ⟨row,⟨hr,hn⟩,rfl⟩
    exact ⟨hn,row,Table.get?_of_mem hr⟩
  rintro ⟨hn,row,hr⟩
  have hk : row.msgHash = h := Table.get?_key hr
  exact ⟨row,⟨Table.get?_mem hr,hk ▸ hn⟩,hk⟩

lemma Recorded.arrive (hn : Recorded n) {path : Path} {origin : Val}
    (hg : Grown (Foreign origin) n.store st') : Recorded (n.arrive path origin st') := by
  intro a ha
  rcases List.mem_append.mp ha with ho | hne
  · obtain ⟨row,hr,hf⟩ := hn a ho
    exact ⟨row,hg.kept hr,hf⟩
  obtain ⟨h,hh,rfl⟩ := List.mem_map.mp hne
  obtain ⟨hno,row,hr⟩ := mem_newHashes.mp hh
  exact ⟨row,hr,hg.added hno hr⟩

lemma Recorded.step {w : Setting} (hn : Recorded n) (e : Event) : Recorded (step w n e) := by
  cases e with
  | ingest mp m lim env =>
    intro a ha
    obtain ⟨row,hr,hf⟩ := hn a ha
    obtain ⟨row',hr',hs⟩ := ingest_kept _ row hr
    refine ⟨row',hr',?_,?_,?_⟩
    · rw [hs.origin]
      exact hf.origin
    · rw [hs.signature]
      exact hf.signature
    · rw [hs.signedPart]
      exact hf.signedPart
  | push now payload channelId requesterHash =>
    exact hn.arrive (handlePushMessages_foreign ..)
  | mirror now channelId msgData peerHash =>
    exact hn.arrive (mirrorIngest_foreign ..)

lemma Recorded.run {w : Setting} (hn : Recorded n) (es : List Event) :
    Recorded (run (NodeRuns.step w) n es) :=
  run_invariant (fun _ e h => h.step e) hn es

end Hokora.NodeRuns
