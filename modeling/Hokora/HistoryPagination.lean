import Hokora.CommittedStates
import Hokora.MirrorClient
import Hokora.ReadHandlers

/-!
# Paging through a channel's history

A client that asks from its cursor until nothing more is promised, on rows that stay as they are.
-/
namespace Hokora.HistoryPagination
open CommittedStates Constants CursorPaging Database FederatedAcceptance HandlerTransactions
  KeyedTable List MirrorClient PushedContent PyValue ReadHandlers Repositories WriteTransactions
open MessageRepo (seqLe)
open Option (getD_some isSome_iff_exists)

def numberedRows (st : Store) (channelId : String) : List Message :=
  ((st.channelMessages channelId).filter fun m => m.seq.isSome).insertionSort seqLe

def seqKey (m : Message) : ℤ := (m.seq.getD 0 : ℕ)

def shown (m : Message) : Bool := m.type ≠ msgThreadReply

lemma mem_numberedRows {st : Store} {ch : String} {m : Message} :
    m ∈ numberedRows st ch ↔ m ∈ st.channelMessages ch ∧ ∃ q, m.seq = some q := by
  rw [numberedRows,mem_insertionSort,mem_filter,isSome_iff_exists]

section Ordered
variable {st : Store} {channelId : String} {c : Channel} (hst : Numbered st)
  (hc : ChannelRepo.getById st channelId = some c)
include hst hc

lemma seqKey_pos {m : Message} (hm : m ∈ numberedRows st channelId) : 0 < seqKey m := by
  obtain ⟨hro,q,hq⟩ := mem_numberedRows.mp hm
  have hme : q ∈ seqs st channelId := mem_filterMap.mpr ⟨m,hro,hq⟩
  have hr := (hst channelId c hc).mem_iff.mp hme
  rw [mem_range'_1] at hr
  rw [seqKey,hq,getD_some]
  omega

lemma numberedRows_distinct :
    (numberedRows st channelId).Pairwise fun x y => seqKey x ≠ seqKey y := by
  have hn : (seqs st channelId).Nodup :=
    (hst channelId c hc).nodup_iff.mpr nodup_range'
  have hr : (st.channelMessages channelId).Pairwise fun x y =>
      ∀ p, x.seq = some p → ∀ q, y.seq = some q → p ≠ q := pairwise_filterMap.mp hn
  have hf : ((st.channelMessages channelId).filter fun m => m.seq.isSome).Pairwise
      fun x y => seqKey x ≠ seqKey y := by
    refine List.Pairwise.imp_of_mem ?_ (hr.filter _)
    intro x y hx hy hne
    obtain ⟨p,hp⟩ := isSome_iff_exists.mp (mem_filter.mp hx).2
    obtain ⟨q,hq⟩ := isSome_iff_exists.mp (mem_filter.mp hy).2
    have hpq := hne p hp q hq
    rw [seqKey,seqKey,hp,hq,getD_some,getD_some]
    omega
  exact (perm_insertionSort seqLe _).symm.pairwise hf fun h => Ne.symm h

lemma numberedRows_sorted :
    (numberedRows st channelId).Pairwise fun x y => seqKey x < seqKey y := by
  have hle : (numberedRows st channelId).Pairwise seqLe :=
    pairwise_insertionSort seqLe _
  refine List.Pairwise.imp ?_ (hle.and (numberedRows_distinct hst hc))
  rintro x y ⟨hxy,hne⟩
  have hn : x.seq.getD 0 ≤ y.seq.getD 0 := hxy
  unfold seqKey at hne ⊢
  omega

lemma eq_of_seqKey {x y : Message} (hx : x ∈ numberedRows st channelId)
    (hy : y ∈ numberedRows st channelId) (h : seqKey x = seqKey y) : x = y :=
  inj_on_of_nodup_map (pairwise_map.mpr (numberedRows_distinct hst hc)) hx hy h

lemma getHistory_forward {since : ℤ} {limit : ℤ} (hlimit : 0 ≤ limit) :
    getHistory st channelId since limit "forward" =
      page seqKey (numberedRows st channelId) limit.toNat since := by
  have hm : ∀ m : Message, (m.seq.any fun q : ℕ =>
      since < q && (none : Option ℤ).all fun b => (q : ℤ) < b) =
        (decide (since < seqKey m) && m.seq.isSome) := by
    intro m
    cases hq : m.seq with
    | none => simp
    | some q => simp [seqKey,hq]
  have hs : ((st.channelMessages channelId).filter fun m =>
        decide (since < seqKey m) && m.seq.isSome).insertionSort seqLe =
      above seqKey (numberedRows st channelId) since := by
    refine List.Perm.eq_of_pairwise ?_ (pairwise_insertionSort seqLe _)
      ((pairwise_insertionSort seqLe _).filter _) ?_
    · intro x y hx hy hxy hyx
      rw [mem_insertionSort,mem_filter,Bool.and_eq_true] at hx
      have hxr : x ∈ numberedRows st channelId :=
        mem_numberedRows.mpr ⟨hx.1,isSome_iff_exists.mp hx.2.2⟩
      apply eq_of_seqKey hst hc hxr (mem_above.mp hy).1
      have hle : x.seq.getD 0 ≤ y.seq.getD 0 := hxy
      have hge : y.seq.getD 0 ≤ x.seq.getD 0 := hyx
      unfold seqKey
      omega
    · refine (perm_insertionSort _ _).trans ?_
      rw [← filter_filter]
      exact ((perm_insertionSort _ _).symm.filter _)
  rw [getHistory,if_pos rfl]
  simp only [hm]
  rw [hs,sqlLimit,if_neg (by omega),page]

end Ordered

section Client
variable (prim : ReadPrimitives) (ctx : SyncContext) (st : Store) (channelId : String)
  (limit : ℤ) (supportsSealedAtRest : Bool) (envelope requesterHash : Option String)

structure Client where
  sinceSeq : ℤ := 0
  received : List Entry := []
  more : Bool := true

def ask (s : Client) : Client :=
  if s.more then
    match handleHistory prim ctx st
        { channelId := some channelId, sinceSeq := s.sinceSeq, limit := some limit,
          supportsSealedAtRest := supportsSealedAtRest } envelope requesterHash with
    | .error _ => { s with more := false }
    | .ok resp =>
      let h := handleResponse s.sinceSeq ⟨resp.messages.map .dict,resp.hasMore⟩
      { sinceSeq := h.cursor, received := s.received ++ resp.messages, more := h.again }
  else s

def asked : ℕ → Client
  | 0 => {}
  | n + 1 => ask prim ctx st channelId limit supportsSealedAtRest envelope requesterHash (asked n)

/-- After some number of requests the client stops, and has every numbered message that is
not a thread reply. -/
def PagesThrough : Prop :=
  ∃ n, (asked prim ctx st channelId limit supportsSealedAtRest envelope requesterHash n).more =
      false ∧
    ∀ m ∈ st.channelMessages channelId, m.seq.isSome → m.type ≠ msgThreadReply →
      encodeMessageWithKeys prim st ctx.sealedManager supportsSealedAtRest m ∈
        (asked prim ctx st channelId limit supportsSealedAtRest envelope requesterHash n).received

end Client

/-- Under a forward profile no page's length of consecutive rows are all thread replies;
under the backward profile there is nothing to send. -/
def Pageable (profile : ProfileLimits) (limit : ℤ) (rows : List Message) : Prop :=
  if profile.historyDirection = some "backward" then ∀ m ∈ rows, shown m = false
  else Passable shown rows (min limit profile.maxSyncLimit).toNat

lemma getHistory_backward_zero {st : Store} {ch : String} {limit : ℤ} :
    getHistory st ch 0 limit "backward" = [] := by
  have hn : (st.channelMessages ch).filter (fun m =>
      m.seq.any fun q : ℕ => (q : ℤ) < (none : Option ℤ).getD 0) = [] := by
    rw [filter_eq_nil_iff]
    intro m _
    cases m.seq with
    | none => simp
    | some q => simp
  rw [getHistory,if_neg (by decide),if_pos rfl,hn]
  simp [sqlLimit]

section Reader
variable (prim : ReadPrimitives) {ctx : SyncContext} {st : Store} {channelId : String}
  (limit : ℤ) (supportsSealedAtRest : Bool) (envelope : Option String)
  {requesterHash : Option String} {channel : Channel}
  (hread : checkChannelRead ctx st channelId requesterHash = .ok channel)
include hread

lemma handleHistory_readable (since : ℤ) : ∃ raw, raw = getHistory st channelId since
        (min limit (getSessionProfile ctx requesterHash).maxSyncLimit)
        (if (getSessionProfile ctx requesterHash).historyDirection = some "backward"
          then "backward" else "forward") ∧
      handleHistory prim ctx st
        { channelId := some channelId, sinceSeq := since, limit := some limit,
          supportsSealedAtRest := supportsSealedAtRest } envelope requesterHash =
      .ok { channelId := channelId
            messages := (raw.filter shown).map
              (encodeMessageWithKeys prim st ctx.sealedManager supportsSealedAtRest)
            hasMore := (raw.length : ℤ) =
              min limit (getSessionProfile ctx requesterHash).maxSyncLimit } := by
  refine ⟨_,rfl,?_⟩
  have hid : requireChannelId (some channelId) envelope "No channel_id provided for sync_history" =
      .ok channelId := by
    have hp : present ((some channelId).or envelope) = some channelId :=
      present_eq_some.mpr ⟨rfl,checkChannelRead_cached hread⟩
    rw [requireChannelId,hp]
  simp only [handleHistory,hid,ok_bind,hread]
  rfl

variable {limit}

lemma asked_backward (hlimit : 1 ≤ limit)
    (hb : (getSessionProfile ctx requesterHash).historyDirection = some "backward") (n : ℕ) :
    asked prim ctx st channelId limit supportsSealedAtRest envelope requesterHash (n + 1) =
      { more := false } := by
  induction n with
  | zero =>
    have hma := maxSyncLimit_pos ctx requesterHash
    obtain ⟨raw,hra,hr⟩ :=
      handleHistory_readable prim limit supportsSealedAtRest envelope hread 0
    have he : raw = [] := by
      rw [hra,if_pos hb,getHistory_backward_zero]
    rw [he] at hr
    have hm : decide ((([] : List Message).length : ℤ) =
        min limit (getSessionProfile ctx requesterHash).maxSyncLimit) = false := by
      apply decide_eq_false
      rw [length_nil]
      omega
    rw [hm] at hr
    simp only [asked,ask,if_true,hr]
    rfl
  | succ n ih => rw [asked,ih,ask,if_neg (by decide)]

end Reader

section Forward
variable (prim : ReadPrimitives) {ctx : SyncContext} {st : Store} {channelId : String}
  {limit : ℤ} (supportsSealedAtRest : Bool) (envelope : Option String)
  {requesterHash : Option String} {channel c : Channel}

lemma messageSeq_entry {m : Message} (hp : 0 < seqKey m) :
    messageSeq (.dict (encodeMessageWithKeys prim st ctx.sealedManager supportsSealedAtRest m)) =
      .ok (seqKey m) := by
  have hl : (encodeMessageWithKeys prim st ctx.sealedManager supportsSealedAtRest m).lookup
      "seq" = some (Pusher.natVal? m.seq) :=
    lookup_encodeMessageWithKeys (by decide) prim st ctx.sealedManager supportsSealedAtRest m
  cases hq : m.seq with
  | none => simp [seqKey,hq] at hp
  | some q =>
    have hk : seqKey m = q := by rw [seqKey,hq,getD_some]
    have hne : q ≠ 0 := by omega
    rw [messageSeq,Val.get,hl,hq,hk]
    simp [Pusher.natVal?,Val.truthy,Val.int?,hne,pure,Except.pure]

variable (hst : Numbered st) (hc : ChannelRepo.getById st channelId = some c)
  (hread : checkChannelRead ctx st channelId requesterHash = .ok channel) (hlimit : 1 ≤ limit)
  (hforward : (getSessionProfile ctx requesterHash).historyDirection ≠ some "backward")
include hst hc hread hlimit hforward

lemma asked_forward {n : ℕ} : ∃ t, t = CursorPaging.asked seqKey shown (numberedRows st channelId)
        (min limit (getSessionProfile ctx requesterHash).maxSyncLimit).toNat { cursor := 0 } n ∧
      asked prim ctx st channelId limit supportsSealedAtRest envelope requesterHash n =
        { sinceSeq := t.cursor
          received := t.received.map
            (encodeMessageWithKeys prim st ctx.sealedManager supportsSealedAtRest)
          more := t.more } := by
  refine ⟨_,rfl,?_⟩
  have hma := maxSyncLimit_pos ctx requesterHash
  generalize hL : min limit (getSessionProfile ctx requesterHash).maxSyncLimit = L
  induction n with
  | zero => rfl
  | succ n ih =>
    rw [asked,ih,CursorPaging.asked]
    generalize CursorPaging.asked seqKey shown (numberedRows st channelId) L.toNat
      { cursor := 0 } n = t
    cases hmo : t.more with
    | false =>
      rw [ask_stopped hmo,ask]
      simp [hmo]
    | true =>
      obtain ⟨raw,hra,hr⟩ :=
        handleHistory_readable prim limit supportsSealedAtRest envelope hread t.cursor
      rw [if_neg hforward,hL,getHistory_forward hst hc (by omega)] at hra
      rw [ask_more hmo,← hra]
      have hn : ∀ m ∈ raw.filter shown, messageSeq (.dict (encodeMessageWithKeys prim st
          ctx.sealedManager supportsSealedAtRest m)) = .ok (seqKey m) ∧ seqKey m ≠ 0 := by
        intro m hm
        have hp : m ∈ page seqKey (numberedRows st channelId) L.toNat t.cursor :=
          hra ▸ (mem_filter.mp hm).1
        have hpo := seqKey_pos hst hc (mem_above.mp (mem_of_mem_take hp)).1
        exact ⟨messageSeq_entry prim supportsSealedAtRest hpo,by omega⟩
      have hl : ((raw.length : ℤ) = L) = (raw.length = L.toNat) := by
        apply propext
        omega
      have hco : (scan t.cursor ((raw.filter shown).map fun m => Val.dict
          (encodeMessageWithKeys prim st ctx.sealedManager supportsSealedAtRest m))).completed =
            true := by
        refine (scan_completed (fun d hd => ?_) t.cursor).2
        obtain ⟨m,hm,rfl⟩ := mem_map.mp hd
        exact ⟨_,(hn m hm).1⟩
      simp only [ask,if_true,hr,handleResponse,map_map,Function.comp_def,
        scan_cursor_raise hn,hco,hL,hl,map_append,Bool.true_and]

end Forward

section Complete
variable {db : Db} {prim : ReadPrimitives} {ctx : SyncContext} {channelId : String}
  {limit : ℤ} {supportsSealedAtRest : Bool} {envelope requesterHash : Option String}
  {channel c : Channel} {st : Store}

lemma pagesThrough_forward (hst : Numbered st) (hc : ChannelRepo.getById st channelId = some c)
    (hread : checkChannelRead ctx st channelId requesterHash = .ok channel) (hlimit : 1 ≤ limit)
    (hforward : (getSessionProfile ctx requesterHash).historyDirection ≠ some "backward") :
    PagesThrough prim ctx st channelId limit supportsSealedAtRest envelope requesterHash ↔
      Passable shown (numberedRows st channelId)
        (min limit (getSessionProfile ctx requesterHash).maxSyncLimit).toNat := by
  have hso := numberedRows_sorted hst hc
  have hsta : ∀ m ∈ numberedRows st channelId, 0 < seqKey m := fun m hm => seqKey_pos hst hc hm
  rw [← stops_iff hso hsta]
  constructor
  · rintro ⟨n,hs,-⟩
    obtain ⟨t,ht,ha⟩ := asked_forward prim supportsSealedAtRest envelope hst hc hread hlimit
      hforward
    rw [ha] at hs
    exact ⟨n,ht ▸ hs⟩
  rintro ⟨n,hs⟩
  obtain ⟨t,ht,ha⟩ := asked_forward prim supportsSealedAtRest envelope hst hc hread hlimit hforward
  refine ⟨n,by rw [ha,ht]; exact hs,fun m hm hse hty => ?_⟩
  have hr : m ∈ numberedRows st channelId :=
    mem_numberedRows.mpr ⟨hm,isSome_iff_exists.mp hse⟩
  rw [ha,ht]
  exact mem_map_of_mem (stopped_with_all hso hsta hs hr (decide_eq_true hty))

lemma pagesThrough_backward
    (hread : checkChannelRead ctx st channelId requesterHash = .ok channel) (hlimit : 1 ≤ limit)
    (hb : (getSessionProfile ctx requesterHash).historyDirection = some "backward") :
    PagesThrough prim ctx st channelId limit supportsSealedAtRest envelope requesterHash ↔
      ∀ m ∈ numberedRows st channelId, shown m = false := by
  have ha := asked_backward prim supportsSealedAtRest envelope hread hlimit hb
  constructor
  · rintro ⟨n,-,hall⟩ m hm
    obtain ⟨hr,hse⟩ := mem_numberedRows.mp hm
    by_contra ht
    have hme := hall m hr (isSome_iff_exists.mpr hse) (by simpa [shown] using ht)
    cases n with
    | zero => cases hme
    | succ n =>
      rw [ha n] at hme
      cases hme
  · intro hn
    refine ⟨1,by rw [ha 0],fun m hm hse ht => ?_⟩
    have hs := hn m (mem_numberedRows.mpr ⟨hm,isSome_iff_exists.mp hse⟩)
    exact absurd (of_decide_eq_false hs) (not_not_intro ht)

/-- The client pages through the history of a committed state exactly when `Pageable`. -/
theorem history_pages_iff (h : Numbered db.store) (es : List (Event Call))
    (hc : ChannelRepo.getById (after db es).committed.store channelId = some c)
    (hread : checkChannelRead ctx (after db es).committed.store channelId requesterHash =
      .ok channel) (hlimit : 1 ≤ limit) :
    PagesThrough prim ctx (after db es).committed.store channelId limit supportsSealedAtRest
      envelope requesterHash ↔ Pageable (getSessionProfile ctx requesterHash) limit
        (numberedRows (after db es).committed.store channelId) := by
  have hst := consistent_numbered.mp (committed_consistent (consistent_numbered.mpr h) es)
  unfold Pageable
  split_ifs with hb
  · exact pagesThrough_backward hread hlimit hb
  · exact pagesThrough_forward hst hc hread hlimit hb

end Complete

/-! The two posts of the sealed channel, read with and without a prioritized session; and a
channel whose only numbered row is a thread reply. -/

def vaultReader : SyncContext := { channels := .singleton vault }

def vaultDb : Db := (after ⟨vaultStart,[]⟩ vaultRun).committed

theorem vaultDb_pages :
    PagesThrough noDecryption vaultReader vaultDb.store "vault" 50 false none none := by
  refine (history_pages_iff (c := { vault with latestSeq := 2 }) vaultStart_numbered vaultRun
    (by decide +kernel) (rfl : checkChannelRead vaultReader vaultDb.store "vault" none = .ok vault)
    (by decide)).mpr ?_
  intro before window rest hs hle
  have hr : (numberedRows vaultDb.store "vault").length = 2 := by decide +kernel
  have hl : window.length = 50 := hle
  have hsu : (numberedRows vaultDb.store "vault").length = (before ++ window ++ rest).length :=
    congrArg List.length hs
  rw [length_append,length_append] at hsu
  omega

def hurriedReader : SyncContext :=
  { vaultReader with
    sessions := [{ sessionId := "s", identityHash := some sampleHash
                   syncProfile := cdspProfilePrioritized, state := "active" }] }

def hall : Channel := { id := "hall" }

def hallStart : Db := ⟨{ channels := .singleton hall },[]⟩

def hallReply : Val :=
  .dict [("msg_hash", .str "reply"), ("sender_hash", .str sampleHash),
    ("timestamp", .float (.fin 1000)), ("type", .int msgThreadReply), ("body", .str "yes")]

def hallDb : Db :=
  (after hallStart [.start (.mirror sampleScheme false 1000 "hall" hallReply "peer"), .advance 0,
    .advance 0, .advance 0, .proceed, .proceed, .proceed, .proceed]).committed

def hallReader : SyncContext := { channels := .singleton hall }

lemma hallStart_numbered : Numbered hallStart.store := by
  intro channelId c hc
  have hh : c = hall := mem_singleton.mp (Table.get?_mem hc)
  rw [hh]
  exact List.Perm.refl []

theorem vaultDb_hallDb_not_paged :
    ¬ PagesThrough noDecryption hurriedReader vaultDb.store "vault" 50 false none
        (some sampleHash) ∧
      ¬ PagesThrough noDecryption hallReader hallDb.store "hall" 1 false none none := by
  constructor
  · have hread : checkChannelRead hurriedReader vaultDb.store "vault" (some sampleHash) =
        .ok vault := by decide +kernel
    rw [pagesThrough_backward hread (by decide) (by decide +kernel)]
    decide +kernel
  have hst : Numbered hallDb.store := (consistent_numbered.mp
    (committed_consistent (consistent_numbered.mpr hallStart_numbered) _))
  have hread : checkChannelRead hallReader hallDb.store "hall" none = .ok hall := rfl
  rw [pagesThrough_forward (c := { hall with latestSeq := 1 }) hst (by decide +kernel) hread
    (by decide) (by decide +kernel)]
  intro hp
  obtain ⟨x,hx,hs⟩ := hp [] (numberedRows hallDb.store "hall") []
    (by rw [nil_append,append_nil]) (by decide +kernel)
  have hn : ∀ m ∈ numberedRows hallDb.store "hall", shown m = false := by decide +kernel
  rw [hn x hx] at hs
  cases hs

end Hokora.HistoryPagination
