import Hokora.EpochPersistence

/-!
# The stored cursors of all mirrors

What the node writes to the rows of its peers when a mirror or a pusher reports its cursor, and what
it reads back at a restart. Pull cursors of a channel go to the first peer that mirrors it, push
cursors to the peer of the pusher. Links, pages and the messages themselves are not modelled here.
-/
namespace Hokora.MirrorRestart
open BigEndian EpochPersistence HandshakeInitiator HandshakeResponder KeyedTable List TransitionRuns
open Option (getD_some isSome_iff_exists map map_some)
open PyValue (fromHexChars)
open Table (ext get?_key get?_mem get?_of_mem get?_set update_rows)

structure Cursor (V : Type) where
  key : String
  value : V

abbrev Cursors (V : Type) := Table (@Cursor.key V)

inductive CursorValue where
  | position (seq : ℤ)
  | pushTable (cursors : Cursors ℤ)

def CursorValue.seq : CursorValue → ℤ
  | .position seq => seq
  | .pushTable _ => 0

structure Peer where
  identityHash : String
  channelsMirrored : List String := []
  syncCursor : Cursors CursorValue := .empty

def Peer.pullCursor (p : Peer) (channelId : String) : CursorValue :=
  ((p.syncCursor.get? channelId).map Cursor.value).getD (.position 0)

def Peer.pushCursors (p : Peer) : Option (Cursors ℤ) :=
  match p.syncCursor.get? "_push" with
  | none => some .empty
  | some ⟨_,.pushTable cursors⟩ => some cursors
  | some ⟨_,.position _⟩ => none

def Peer.setCursor (p : Peer) (key : String) (value : CursorValue) : Peer :=
  { p with syncCursor := p.syncCursor.set ⟨key,value⟩ }

lemma setCursor_identityHash {p : Peer} {value : CursorValue} :
    (p.setCursor key value).identityHash = p.identityHash := rfl

def rewrite (peers : Table Peer.identityHash) (peerHash key : String) (value : CursorValue) :
    Table Peer.identityHash :=
  peers.update peerHash (fun q => q.setCursor key value) fun _ => setCursor_identityHash

def cursorOf (cursors : Cursors ℤ) (channelId : String) : ℤ :=
  ((cursors.get? channelId).map Cursor.value).getD 0

def firstMirroring (peers : Table Peer.identityHash) (channelId : String) : Option Peer :=
  peers.rows.find? fun p => channelId ∈ p.channelsMirrored

def persistCursor (peers : Table Peer.identityHash) (channelId : String) (cursor : ℤ) :
    Table Peer.identityHash :=
  match firstMirroring peers channelId with
  | none => peers
  | some p => rewrite peers p.identityHash channelId (.position cursor)

def persistPushCursor (peers : Table Peer.identityHash) (peerHash channelId : String)
    (cursor : ℤ) : Table Peer.identityHash :=
  match (peers.get? peerHash).bind Peer.pushCursors with
  | none => peers
  | some cursors =>
    rewrite peers peerHash "_push" (.pushTable (cursors.set ⟨channelId,cursor⟩))

def registryKey (peerHash channelId : String) : String := peerHash ++ ":" ++ channelId

structure StartedMirror where
  remoteHash : Bytes
  channelId : String
  initialCursor : CursorValue

def StartedMirror.key (m : StartedMirror) : String := registryKey (toHex m.remoteHash) m.channelId

structure Daemon where
  mirrors : Table StartedMirror.key := .empty
  pushers : Cursors ℤ := .empty

def addMirror (d : Daemon) (m : StartedMirror) : Daemon :=
  if (d.mirrors.get? m.key).isSome then d
  else { mirrors := d.mirrors.set m, pushers := d.pushers.set ⟨m.key,0⟩ }

def setPushCursor (d : Daemon) (key : String) (cursor : ℤ) : Daemon :=
  if (d.pushers.get? key).isSome then { d with pushers := d.pushers.set ⟨key,cursor⟩ } else d

def loadMirror (d : Daemon) (peer : Peer) (channelId : String) : Daemon × Bool :=
  let key := registryKey peer.identityHash channelId
  if (d.mirrors.get? key).isSome then (d, true)
  else
    match fromHexChars peer.identityHash.toList with
    | none => (d, false)
    | some remoteHash =>
      let added := addMirror d ⟨remoteHash,channelId,peer.pullCursor channelId⟩
      match peer.pushCursors with
      | none => (added, false)
      | some cursors => (setPushCursor added key (cursorOf cursors channelId), true)

def loadFrom : Daemon → List (Peer × String) → Daemon
  | d, [] => d
  | d, (peer, channelId) :: rest =>
    match loadMirror d peer channelId with
    | (d, true) => loadFrom d rest
    | (d, false) => d

def configured (peers : Table Peer.identityHash) : List (Peer × String) :=
  peers.rows.flatMap fun p => p.channelsMirrored.map fun channelId => (p, channelId)

def loadConfiguredMirrors (peers : Table Peer.identityHash) : Daemon :=
  loadFrom {} (configured peers)

inductive Direction where
  | pull
  | push

structure Report where
  direction : Direction
  remoteHash : Bytes
  channelId : String
  cursor : ℤ

def Report.peerHash (r : Report) : String := toHex r.remoteHash

structure Node where
  peers : Table Peer.identityHash
  pulled : String → String → ℤ
  pushed : String → String → ℤ

def Report.record (r : Report) (last : String → String → ℤ) : String → String → ℤ :=
  fun peerHash channelId =>
    if peerHash = r.peerHash ∧ channelId = r.channelId then r.cursor else last peerHash channelId

def step (s : Node) (r : Report) : Node :=
  match r.direction with
  | .pull =>
    { s with peers := persistCursor s.peers r.channelId r.cursor, pulled := r.record s.pulled }
  | .push =>
    { s with
      peers := persistPushCursor s.peers r.peerHash r.channelId r.cursor
      pushed := r.record s.pushed }

def Peer.pushPosition (p : Peer) (channelId : String) : ℤ :=
  cursorOf (p.pushCursors.getD .empty) channelId

def start (peers : Table Peer.identityHash) : Node where
  peers := peers
  pulled peerHash channelId :=
    ((peers.get? peerHash).map fun p => (p.pullCursor channelId).seq).getD 0
  pushed peerHash channelId := ((peers.get? peerHash).map (·.pushPosition channelId)).getD 0

/-- After a restart every mirror and every pusher is where it was at its own last report. -/
def Restored (s : Node) : Prop :=
  ∀ p ∈ s.peers.rows, ∀ channelId ∈ p.channelsMirrored,
    let key := registryKey p.identityHash channelId
    let daemon := loadConfiguredMirrors s.peers
    (daemon.mirrors.get? key).map StartedMirror.initialCursor =
        some (.position (s.pulled p.identityHash channelId)) ∧
      daemon.pushers.get? key = some ⟨key,s.pushed p.identityHash channelId⟩

structure Peer.Regular (p : Peer) : Prop where
  canonical : ∃ remoteHash, fromHexChars p.identityHash.toList = some remoteHash ∧
    toHex remoteHash = p.identityHash
  unreserved : "_push" ∉ p.channelsMirrored
  pull : ∀ channelId ∈ p.channelsMirrored, p.pullCursor channelId =
    .position (p.pullCursor channelId).seq
  push : p.pushCursors.isSome

/-- The mirror of a report is one of those in the table. -/
def Configured (peers : Table Peer.identityHash) (r : Report) : Prop :=
  ∃ p ∈ peers.rows, p.identityHash = r.peerHash ∧ r.channelId ∈ p.channelsMirrored

/-- A pull report goes to the row of its own peer, or finds its cursor in both rows already. -/
def Attributed (s : Node) (r : Report) : Prop :=
  match r.direction with
  | .pull =>
    ∀ first, firstMirroring s.peers r.channelId = some first → first.identityHash = r.peerHash ∨
        (first.pullCursor r.channelId).seq = r.cursor ∧ ∀ own, s.peers.get? r.peerHash = some own →
            (own.pullCursor r.channelId).seq = r.cursor
  | .push => True

lemma pullCursor_setCursor {p : Peer} {value : CursorValue} :
    (p.setCursor key value).pullCursor channelId =
      if key = channelId then value else p.pullCursor channelId := by
  unfold Peer.pullCursor Peer.setCursor
  rw [get?_set]
  split_ifs <;> rfl

lemma pushCursors_setCursor_ne {p : Peer} {value : CursorValue}
    (h : key ≠ "_push") : (p.setCursor key value).pushCursors = p.pushCursors := by
  unfold Peer.pushCursors Peer.setCursor
  rw [get?_set,if_neg h]

lemma pushCursors_setCursor {p : Peer} {cursors : Cursors ℤ} :
    (p.setCursor "_push" (.pushTable cursors)).pushCursors = some cursors := by
  unfold Peer.pushCursors Peer.setCursor
  rw [get?_set,if_pos rfl]

lemma cursorOf_set {cursors : Cursors ℤ} {cursor : ℤ} :
    cursorOf (cursors.set ⟨key,cursor⟩) channelId =
      if key = channelId then cursor else cursorOf cursors channelId := by
  unfold cursorOf
  rw [get?_set]
  split_ifs <;> rfl

variable {peers : Table Peer.identityHash} {p : Peer} {channelId key : String}

lemma firstMirroring_some (hp : p ∈ peers.rows) (hch : channelId ∈ p.channelsMirrored) :
    ∃ first ∈ peers.rows, firstMirroring peers channelId = some first ∧
      channelId ∈ first.channelsMirrored := by
  cases hf : firstMirroring peers channelId with
  | none =>
    have := List.find?_eq_none.mp hf p hp
    exact absurd (by simpa using hch) this
  | some first =>
    exact ⟨first,mem_of_find?_eq_some hf,rfl,by simpa using List.find?_some hf⟩

variable {value : CursorValue} {d : Daemon} {first own q : Peer}
  {cursors : Cursors ℤ}

lemma mem_rewrite {ph : String} : q ∈ (rewrite peers ph key value).rows ↔
      ∃ p ∈ peers.rows, q = if p.identityHash = ph then p.setCursor key value else p := by
  unfold rewrite
  rw [update_rows,mem_map]
  exact ⟨fun ⟨p,hp,h⟩ => ⟨p,hp,h.symm⟩,fun ⟨p,hp,h⟩ => ⟨p,hp,h.symm⟩⟩

lemma row_unique (hp : p ∈ peers.rows) (hq : q ∈ peers.rows)
    (h : p.identityHash = q.identityHash) : p = q :=
  inj_on_of_nodup_map peers.keyed hp hq h

lemma registryKey_inj {channelId' : String} (hp : p.Regular) (hq : q.Regular)
    (h : registryKey p.identityHash channelId = registryKey q.identityHash channelId') :
    p.identityHash = q.identityHash ∧ channelId = channelId' := by
  obtain ⟨remoteHash,-,hpH⟩ := hp.canonical
  obtain ⟨remoteHash',-,hqH⟩ := hq.canonical
  have hl : (toHex remoteHash).toList ++ ':' :: channelId.toList =
      (toHex remoteHash').toList ++ ':' :: channelId'.toList := by
    rw [hpH,hqH]
    simpa [registryKey] using congrArg String.toList h
  have hh := eq_of_separated toHex_colon_free toHex_colon_free hl
  rw [hh] at hl
  have hr := append_cancel_left hl
  exact ⟨hpH.symm.trans ((String.toList_injective hh).trans hqH),
    String.toList_injective (List.cons.inj hr).2⟩

/-- The mirror and the pusher of a channel are at the cursors of the row. -/
def Loaded (d : Daemon) (p : Peer) (channelId : String) : Prop :=
  let key := registryKey p.identityHash channelId
  (d.mirrors.get? key).map StartedMirror.initialCursor = some (p.pullCursor channelId) ∧
    d.pushers.get? key = some ⟨key,p.pushPosition channelId⟩

/-- Whatever was started, was started from its row. -/
def Sound (peers : Table Peer.identityHash) (d : Daemon) : Prop :=
  ∀ p ∈ peers.rows, ∀ channelId,
    (d.mirrors.get? (registryKey p.identityHash channelId)).isSome → Loaded d p channelId

lemma loadMirror_new (hp : p.Regular)
    (hn : d.mirrors.get? (registryKey p.identityHash channelId) = none) :
    ∃ m : StartedMirror, m.key = registryKey p.identityHash channelId ∧
      m.initialCursor = p.pullCursor channelId ∧ loadMirror d p channelId =
        ({ mirrors := d.mirrors.set m
           pushers := (d.pushers.set ⟨m.key,0⟩).set ⟨m.key,p.pushPosition channelId⟩ },
          true) := by
  obtain ⟨remoteHash,hb,hh⟩ := hp.canonical
  obtain ⟨cursors,hc⟩ := isSome_iff_exists.mp hp.push
  have hk : (StartedMirror.mk remoteHash channelId (p.pullCursor channelId)).key =
      registryKey p.identityHash channelId := by
    unfold StartedMirror.key
    rw [hh]
  refine ⟨_,hk,rfl,?_⟩
  have hpu : p.pushPosition channelId = cursorOf cursors channelId := by
    rw [Peer.pushPosition,hc,getD_some]
  have ha : addMirror d ⟨remoteHash,channelId,p.pullCursor channelId⟩ =
      { mirrors := d.mirrors.set ⟨remoteHash,channelId,p.pullCursor channelId⟩
        pushers := d.pushers.set ⟨registryKey p.identityHash channelId,0⟩ } := by
    unfold addMirror
    rw [hk,hn]
    rfl
  unfold loadMirror
  simp only [hn,hb,hc,ha,hk,hpu,Option.isSome_none,Bool.false_eq_true,if_false]
  unfold setPushCursor
  rw [get?_set,if_pos rfl]
  rfl

lemma loadMirror_sound (hr : ∀ q ∈ peers.rows, q.Regular) (hd : Sound peers d)
    (hp : p ∈ peers.rows) :
    ∃ d', loadMirror d p channelId = (d', true) ∧ Sound peers d' ∧ Loaded d' p channelId ∧
      ∀ key, (d.mirrors.get? key).isSome → (d'.mirrors.get? key).isSome := by
  cases ho : d.mirrors.get? (registryKey p.identityHash channelId) with
  | some m =>
    have ht : (d.mirrors.get? (registryKey p.identityHash channelId)).isSome := by
      rw [ho]
      rfl
    refine ⟨d,?_,hd,hd p hp channelId ht,fun _ h => h⟩
    unfold loadMirror
    rw [if_pos ht]
  | none =>
    obtain ⟨m,hke,hi,hl⟩ := loadMirror_new (hr p hp) ho
    refine ⟨_,hl,?_,?_,?_⟩
    · intro q hq channelId' ht
      by_cases hk : registryKey p.identityHash channelId = registryKey q.identityHash channelId'
      · obtain ⟨hid,rfl⟩ := registryKey_inj (hr p hp) (hr q hq) hk
        obtain rfl := row_unique hp hq hid
        simp [Loaded,get?_set,hke,hi]
      simp only [get?_set,hke,if_neg hk] at ht
      have hq' := hd q hq channelId' ht
      simpa only [Loaded,get?_set,hke,if_neg hk] using hq'
    · simp [Loaded,get?_set,hke,hi]
    · intro key ht
      rw [get?_set]
      split_ifs
      · rfl
      · exact ht

lemma loadFrom_sound (hr : ∀ q ∈ peers.rows, q.Regular) {pairs : List (Peer × String)}
    (hp : ∀ x ∈ pairs, x.1 ∈ peers.rows) (hd : Sound peers d) : Sound peers (loadFrom d pairs) ∧
      (∀ key, (d.mirrors.get? key).isSome → ((loadFrom d pairs).mirrors.get? key).isSome) ∧
      ∀ x ∈ pairs, ((loadFrom d pairs).mirrors.get? (registryKey x.1.identityHash x.2)).isSome := by
  induction pairs generalizing d with
  | nil => exact ⟨hd,fun _ h => h,fun _ h => absurd h not_mem_nil⟩
  | cons x pairs ih =>
    obtain ⟨p,channelId⟩ := x
    obtain ⟨d',hlo,hd',hl,hm⟩ :=
      loadMirror_sound hr hd (hp _ mem_cons_self)
    have hn : loadFrom d ((p, channelId) :: pairs) = loadFrom d' pairs := by
      rw [loadFrom,hlo]
    rw [hn]
    obtain ⟨hs,hk,hall⟩ := ih (fun x hx => hp x (mem_cons_of_mem _ hx)) hd'
    refine ⟨hs,fun key h => hk key (hm key h),?_⟩
    intro x hx
    rcases mem_cons.mp hx with rfl | hx
    · apply hk
      have hso := congrArg Option.isSome hl.1
      rwa [Option.isSome_map,Option.isSome_some] at hso
    · exact hall x hx

lemma load_loaded (hr : ∀ q ∈ peers.rows, q.Regular) (hp : p ∈ peers.rows)
    (hch : channelId ∈ p.channelsMirrored) : Loaded (loadConfiguredMirrors peers) p channelId := by
  have hpa : ∀ x ∈ configured peers, x.1 ∈ peers.rows := by
    intro x hx
    obtain ⟨q,hq,hm⟩ := mem_flatMap.mp hx
    obtain ⟨_,-,rfl⟩ := mem_map.mp hm
    exact hq
  have he : Sound peers {} := by
    intro q _ channelId h
    cases h
  obtain ⟨hso,-,hall⟩ := loadFrom_sound hr hpa he
  have hx : (p, channelId) ∈ configured peers :=
    mem_flatMap.mpr ⟨p,hp,mem_map_of_mem hch⟩
  have hs := hall (p, channelId) hx
  exact hso p hp channelId hs

/-- The rows hold the last cursor of each mirror and pusher. -/
def Faithful (s : Node) : Prop :=
  ∀ p ∈ s.peers.rows, ∀ channelId ∈ p.channelsMirrored,
    (p.pullCursor channelId).seq = s.pulled p.identityHash channelId ∧
      p.pushPosition channelId = s.pushed p.identityHash channelId

lemma restored_iff_faithful {s : Node} (hr : ∀ q ∈ s.peers.rows, q.Regular) :
    Restored s ↔ Faithful s := by
  apply forall₂_congr
  intro p hp
  apply forall₂_congr
  intro channelId hch
  obtain ⟨hpu,hpus⟩ := load_loaded hr hp hch
  simp only [hpu,hpus,Option.some.injEq,Cursor.mk.injEq,true_and]
  rw [(hr p hp).pull channelId hch]
  simp only [CursorValue.seq,CursorValue.position.injEq]

lemma start_faithful {peers : Table Peer.identityHash} : Faithful (start peers) := by
  intro p hp channelId _
  have hr : peers.get? p.identityHash = some p := get?_of_mem hp
  simp [start,hr,map_some]

lemma regular_setPosition (hp : p.Regular) (hne : channelId ≠ "_push")
    {cursor : ℤ} : (p.setCursor channelId (.position cursor)).Regular where
  canonical := hp.canonical
  unreserved := hp.unreserved
  pull := by
    intro channelId' hch
    rw [pullCursor_setCursor]
    split_ifs
    · rfl
    · exact hp.pull channelId' hch
  push := by
    rw [pushCursors_setCursor_ne hne]
    exact hp.push

lemma regular_setPush (hp : p.Regular) {cursors : Cursors ℤ} :
    (p.setCursor "_push" (.pushTable cursors)).Regular where
  canonical := hp.canonical
  unreserved := hp.unreserved
  pull := by
    intro channelId hch
    have hne : "_push" ≠ channelId := fun e => hp.unreserved (e ▸ hch)
    rw [pullCursor_setCursor,if_neg hne]
    exact hp.pull channelId hch
  push := by
    rw [pushCursors_setCursor]
    rfl

def configuration (peers : Table Peer.identityHash) : List (String × List String) :=
  peers.rows.map fun p => (p.identityHash, p.channelsMirrored)

lemma configuration_rewrite {peers : Table Peer.identityHash} {ph : String}
    {value : CursorValue} : configuration (rewrite peers ph key value) =
      configuration peers := by
  unfold configuration rewrite
  rw [update_rows,map_map]
  apply map_congr_left
  intro q _
  simp only [Function.comp_apply]
  split_ifs <;> rfl

lemma configured_of_configuration {peers' : Table Peer.identityHash} {r : Report}
    (h : configuration peers' = configuration peers) (hr : Configured peers r) :
    Configured peers' r := by
  obtain ⟨p,hp,hid,hch⟩ := hr
  have hm : (p.identityHash, p.channelsMirrored) ∈ configuration peers' := by
    rw [h]
    exact mem_map_of_mem hp
  obtain ⟨q,hq,heq⟩ := mem_map.mp hm
  obtain ⟨hqi,hqc⟩ := Prod.mk.inj heq
  exact ⟨q,hq,hqi.trans hid,hqc ▸ hch⟩

structure Stable (peers₀ : Table Peer.identityHash) (s : Node) : Prop where
  regular : ∀ p ∈ s.peers.rows, p.Regular
  same : configuration s.peers = configuration peers₀
  faithful : Faithful s

variable {s : Node} {r : Report}

lemma persistCursor_eq (hf : firstMirroring peers r.channelId = some first) :
    persistCursor peers r.channelId r.cursor =
      rewrite peers first.identityHash r.channelId (.position r.cursor) := by
  unfold persistCursor
  rw [hf]

lemma persistPushCursor_eq (ho : peers.get? r.peerHash = some own)
    (hc : own.pushCursors = some cursors) :
    persistPushCursor peers r.peerHash r.channelId r.cursor =
      rewrite peers r.peerHash "_push" (.pushTable (cursors.set ⟨r.channelId,r.cursor⟩)) := by
  unfold persistPushCursor
  rw [ho,Option.bind_some,hc]

lemma regular_rewrite {ph : String} (hr : ∀ q ∈ peers.rows, q.Regular)
    (hk : ∀ q ∈ peers.rows, (q.setCursor key value).Regular) :
    ∀ q ∈ (rewrite peers ph key value).rows, q.Regular := by
  intro q hq
  obtain ⟨p,hp,rfl⟩ := mem_rewrite.mp hq
  split_ifs
  · exact hk p hp
  · exact hr p hp

lemma pull_faithful_iff (hd : r.direction = .pull) (hs : Faithful s)
    (hne : r.channelId ≠ "_push") (hf : firstMirroring s.peers r.channelId = some first)
    (hco : Configured s.peers r) : Faithful (step s r) ↔
      first.identityHash = r.peerHash ∨ (first.pullCursor r.channelId).seq = r.cursor ∧
        ∀ own, s.peers.get? r.peerHash = some own →
          (own.pullCursor r.channelId).seq = r.cursor := by
  obtain ⟨own,how,hid,hch⟩ := hco
  obtain ⟨first',hme,hf',hfc⟩ := firstMirroring_some how hch
  obtain rfl : first' = first := Option.some.inj (hf'.symm.trans hf)
  have hst : step s r =
      { s with
        peers := persistCursor s.peers r.channelId r.cursor
        pulled := r.record s.pulled } := by
    unfold step
    rw [hd]
  rw [hst,persistCursor_eq hf]
  constructor
  · intro h
    by_cases hsa : first'.identityHash = r.peerHash
    · exact .inl hsa
    right
    constructor
    · -- the row of the other peer was overwritten, its last report was not
      have hr := (h (first'.setCursor r.channelId (.position r.cursor))
        (mem_rewrite.mpr ⟨first',hme,(if_pos rfl).symm⟩) r.channelId hfc).1
      rw [pullCursor_setCursor,if_pos rfl] at hr
      have hl : r.record s.pulled first'.identityHash r.channelId =
          s.pulled first'.identityHash r.channelId := if_neg fun e => hsa e.1
      exact ((hs first' hme r.channelId hfc).1.trans hl.symm).trans hr.symm
    -- the row of the reporting peer was not written
    intro own' hg
    obtain rfl := row_unique (get?_mem hg) how ((get?_key hg).trans hid.symm)
    have ho : own'.identityHash ≠ first'.identityHash := by
      rw [hid]
      exact Ne.symm hsa
    have hr := (h own' (mem_rewrite.mpr ⟨own',how,(if_neg ho).symm⟩) r.channelId hch).1
    exact hr.trans (if_pos ⟨hid,rfl⟩)
  intro h q hq channelId hqc
  obtain ⟨p,hp,rfl⟩ := mem_rewrite.mp hq
  by_cases hk : p.identityHash = first'.identityHash
  · obtain rfl := row_unique hp hme hk
    rw [if_pos rfl] at hqc ⊢
    have hol := hs p hp channelId hqc
    refine ⟨?_,?_⟩
    · rw [pullCursor_setCursor]
      by_cases hc : r.channelId = channelId
      · subst hc
        rw [if_pos rfl]
        by_cases hsa : p.identityHash = r.peerHash
        · exact (if_pos ⟨hsa,rfl⟩).symm
        have hl : r.record s.pulled p.identityHash r.channelId =
            s.pulled p.identityHash r.channelId := if_neg fun e => hsa e.1
        exact (hl.trans (hol.1.symm.trans (h.resolve_left hsa).1)).symm
      · rw [if_neg hc]
        exact hol.1.trans (if_neg fun e => hc e.2.symm).symm
    · rw [Peer.pushPosition,pushCursors_setCursor_ne hne]
      exact hol.2
  · rw [if_neg hk] at hqc ⊢
    have hol := hs p hp channelId hqc
    refine ⟨?_,hol.2⟩
    by_cases hm : p.identityHash = r.peerHash ∧ channelId = r.channelId
    · obtain ⟨hm,rfl⟩ := hm
      have hne : first'.identityHash ≠ r.peerHash := fun e => hk (hm.trans e.symm)
      have hr : s.peers.get? r.peerHash = some p := hm ▸ get?_of_mem hp
      exact ((h.resolve_left hne).2 p hr).trans (if_pos ⟨hm,rfl⟩).symm
    · exact hol.1.trans (if_neg hm).symm

lemma push_faithful (hd : r.direction = .push) (hs : Faithful s)
    (hr : ∀ q ∈ s.peers.rows, q.Regular) (how : s.peers.get? r.peerHash = some own)
    (hcu : own.pushCursors = some cursors) : Faithful (step s r) := by
  have hst : step s r =
      { s with
        peers := persistPushCursor s.peers r.peerHash r.channelId r.cursor
        pushed := r.record s.pushed } := by
    unfold step
    rw [hd]
  rw [hst,persistPushCursor_eq how hcu]
  intro q hq channelId hqc
  obtain ⟨p,hp,rfl⟩ := mem_rewrite.mp hq
  by_cases hk : p.identityHash = r.peerHash
  · obtain rfl := row_unique hp (get?_mem how) (hk.trans (get?_key how).symm)
    rw [if_pos hk] at hqc ⊢
    have ho := hs p hp channelId hqc
    have hne : "_push" ≠ channelId := fun e => (hr p hp).unreserved (e ▸ hqc)
    refine ⟨?_,?_⟩
    · rw [pullCursor_setCursor,if_neg hne]
      exact ho.1
    rw [Peer.pushPosition,pushCursors_setCursor,getD_some,cursorOf_set]
    by_cases hc : r.channelId = channelId
    · rw [if_pos hc]
      exact (if_pos ⟨hk,hc.symm⟩).symm
    have hpu : p.pushPosition channelId = cursorOf cursors channelId := by
      rw [Peer.pushPosition,hcu,getD_some]
    rw [if_neg hc,← hpu]
    exact ho.2.trans (if_neg fun e => hc e.2.symm).symm
  · rw [if_neg hk] at hqc ⊢
    have ho := hs p hp channelId hqc
    exact ⟨ho.1,ho.2.trans (if_neg fun e => hk e.1).symm⟩

lemma step_rewrites (hr : ∀ q ∈ s.peers.rows, q.Regular) (hco : Configured s.peers r) :
    ∃ ph key value, (step s r).peers = rewrite s.peers ph key value ∧
      ∀ q : Peer, q.Regular → (q.setCursor key value).Regular := by
  obtain ⟨own,ho,hid,hch⟩ := hco
  unfold step
  cases r.direction with
  | pull =>
    obtain ⟨first,-,hf,-⟩ := firstMirroring_some ho hch
    have hne : r.channelId ≠ "_push" := fun e => (hr own ho).unreserved (e ▸ hch)
    exact ⟨_,_,_,persistCursor_eq hf,fun q hq => regular_setPosition hq hne⟩
  | push =>
    have hg : s.peers.get? r.peerHash = some own := hid ▸ get?_of_mem ho
    obtain ⟨cursors,hc⟩ := isSome_iff_exists.mp (hr own ho).push
    exact ⟨_,_,_,persistPushCursor_eq hg hc,fun q hq => regular_setPush hq⟩

lemma step_faithful_iff (hs : Faithful s) (hr : ∀ q ∈ s.peers.rows, q.Regular)
    (hco : Configured s.peers r) : Faithful (step s r) ↔ Attributed s r := by
  obtain ⟨own,ho,hid,hch⟩ := id hco
  unfold Attributed
  cases hd : r.direction with
  | pull =>
    obtain ⟨first,-,hf,-⟩ := firstMirroring_some ho hch
    have hne : r.channelId ≠ "_push" := fun e => (hr own ho).unreserved (e ▸ hch)
    rw [pull_faithful_iff hd hs hne hf hco]
    simp [hf]
  | push =>
    have hg : s.peers.get? r.peerHash = some own := hid ▸ get?_of_mem ho
    obtain ⟨cursors,hc⟩ := isSome_iff_exists.mp (hr own ho).push
    exact iff_of_true (push_faithful hd hs hr hg hc) trivial

lemma step_shape {peers₀ : Table Peer.identityHash} (hs : Stable peers₀ s)
    (hc : Configured s.peers r) : (∀ p ∈ (step s r).peers.rows, p.Regular) ∧
      configuration (step s r).peers = configuration peers₀ := by
  obtain ⟨peerHash,key,value,heq,hk⟩ := step_rewrites hs.regular hc
  rw [heq,configuration_rewrite]
  exact ⟨regular_rewrite hs.regular fun q hq => hk q (hs.regular q hq),hs.same⟩

/-- With readable rows, the cursors are restored after every report of a run exactly if every
pull report is attributed to its own peer. -/
theorem cursors_restored_iff (hreg : ∀ p ∈ peers.rows, p.Regular) {reports : List Report}
    (hconf : ∀ r ∈ reports, Configured peers r) :
    (∀ past, past <+: reports → Restored (run step (start peers) past)) ↔
      Guarded step Attributed (start peers) reports := by
  refine always_iff_guarded (I := Stable peers) ?_ ?_ ⟨hreg,rfl,start_faithful⟩
    ((restored_iff_faithful hreg).mpr start_faithful) hconf
  · intro s r hr hs hok
    have hc' := configured_of_configuration hs.same hr
    obtain ⟨hre,hsa⟩ := step_shape hs hc'
    exact ⟨hre,hsa,(step_faithful_iff hs.faithful hs.regular hc').mpr hok⟩
  intro s r hr hs
  have hc' := configured_of_configuration hs.same hr
  rw [restored_iff_faithful (step_shape hs hc').1]
  exact step_faithful_iff hs.faithful hs.regular hc'

lemma attributed_of_first (hd : r.direction = .pull)
    (h : (firstMirroring s.peers r.channelId).map Peer.identityHash = some r.peerHash) :
    Attributed s r := by
  unfold Attributed
  rw [hd]
  intro first hf
  rw [hf] at h
  exact .inl (Option.some.inj h)

def alphaPeer : Peer where
  identityHash := "aa"
  channelsMirrored := ["general"]

def betaPeer : Peer where
  identityHash := "bb"
  channelsMirrored := ["general", "news"]

lemma sample_keyed : ([alphaPeer, betaPeer].map Peer.identityHash).Nodup := by decide

def samplePeers : Table Peer.identityHash := ⟨[alphaPeer, betaPeer],sample_keyed⟩

def betaPulls : Report := ⟨.pull,[0xbb],"general",7⟩

theorem cursor_misfiled :
    let s := step (start samplePeers) betaPulls
    let starts := fun key =>
      ((loadConfiguredMirrors s.peers).mirrors.get? key).map (·.initialCursor.seq)
    s.pulled "bb" "general" = 7 ∧ starts "bb:general" = some 0 ∧
      s.pulled "aa" "general" = 0 ∧ starts "aa:general" = some 7 ∧ ¬ Restored s := by
  have hs : ((loadConfiguredMirrors (step (start samplePeers) betaPulls).peers).mirrors.get?
      "bb:general").map (·.initialCursor.seq) = some 0 := by decide +kernel
  refine ⟨by decide +kernel,hs,by decide +kernel,by decide +kernel,fun h => ?_⟩
  have hb : betaPeer ∈ (step (start samplePeers) betaPulls).peers.rows :=
    mem_rewrite.mpr ⟨betaPeer,by simp [samplePeers,start],rfl⟩
  have hr := (h betaPeer hb "general" (by simp [betaPeer])).1
  have hc := congrArg (Option.map CursorValue.seq) hr
  exact absurd (hs.symm.trans hc) (by decide +kernel)

lemma samplePeers_regular : ∀ p ∈ samplePeers.rows, p.Regular := by
  intro p hp
  simp only [samplePeers,mem_cons,not_mem_nil,or_false] at hp
  rcases hp with rfl | rfl
  · exact ⟨⟨[0xaa],by decide +kernel,by decide +kernel⟩,by decide,fun _ _ => rfl,rfl⟩
  · exact ⟨⟨[0xbb],by decide +kernel,by decide +kernel⟩,by decide,fun _ _ => rfl,rfl⟩

theorem cursors_kept : Restored (run step (start samplePeers)
      [⟨.pull,[0xaa],"general",4⟩, ⟨.push,[0xbb],"general",9⟩, ⟨.pull,[0xbb],"news",12⟩]) := by
  refine (cursors_restored_iff samplePeers_regular ?_).mpr ?_ _ (prefix_refl _)
  · intro r hr
    simp only [mem_cons,not_mem_nil,or_false] at hr
    rcases hr with rfl | rfl | rfl
    · exact ⟨alphaPeer,by simp [samplePeers],by decide +kernel,by decide⟩
    · exact ⟨betaPeer,by simp [samplePeers],by decide +kernel,by decide⟩
    · exact ⟨betaPeer,by simp [samplePeers],by decide +kernel,by decide⟩
  · exact ⟨attributed_of_first rfl (by decide +kernel),trivial,
      attributed_of_first rfl (by decide +kernel),trivial⟩

end Hokora.MirrorRestart
