import Hokora.HistoryPagination
import Hokora.LinkResponses

/-!
# History on the wire

A page is packed, and cut to ten messages if the frame is too small. Sizes are those of the packed
bytes.
-/
namespace Hokora.HistoryOnWire
open BigEndian Constants Database HistoryPagination LinkResponses Msgpack PackedSize Pusher PyValue
  ReadHandlers
open List

structure Wire where
  fmt : FloatFormat
  nonce : Bytes
  mediaMeta : Entry → Val
  latestSeq : Val
  nodeTime : FloatVal
  first : FloatVal
  second : FloatVal

def Wire.messageVal (w : Wire) (d : Entry) : Val := .dict (setItem d "media_meta" (w.mediaMeta d))

def Wire.historyData (w : Wire) (profile : ProfileLimits) (resp : HistoryResponse) :
    List (String × Val) :=
  [("action", .str "history"), ("channel_id", .str resp.channelId),
    ("messages", .list (resp.messages.map w.messageVal)), ("latest_seq", w.latestSeq),
    ("has_more", .bool resp.hasMore), ("gap_explanation", .none),
    ("node_time", .float w.nodeTime), ("sync_profile", .int profile.maxSyncLimit)]

structure Reader where
  prim : ReadPrimitives
  ctx : SyncContext
  st : Store
  envelope : Option String
  requesterHash : Option String

def Reader.profile (r : Reader) : ProfileLimits := getSessionProfile r.ctx r.requesterHash

def Reader.serve (r : Reader) (w : Wire) (req : HistoryRequest) : Py Sent :=
  sendResponse w.fmt w.nonce ((handleHistory r.prim r.ctx r.st req r.envelope r.requesterHash).map
      (w.historyData r.profile)) w.first w.second

def messagesOf (data : List (String × Val)) : List Val :=
  match data.lookup "messages" with
  | some (.list l) => l
  | _ => []

def Contains (data : List (String × Val)) (m : Message) : Prop :=
  ∃ d : Entry, .dict d ∈ messagesOf data ∧ d.lookup "msg_hash" = some (.str m.msgHash)

/-- A message of a channel above a number, other than a thread reply. -/
def Above (st : Store) (channelId : String) (since : ℤ) (m : Message) : Prop :=
  m ∈ st.channelMessages channelId ∧ (∃ q : ℕ, m.seq = some q ∧ since < q) ∧ m.type ≠ msgThreadReply

/-- A history response that says that there is no more has everything above the number. -/
def Reader.Truthful (r : Reader) (w : Wire) (channelId : String) (req : HistoryRequest) : Prop :=
  ∀ sent, r.serve w req = .ok sent → sent.data.lookup "action" = some (.str "history") →
    sent.data.lookup "has_more" = some (.bool false) →
      ∀ m, Above r.st channelId req.sinceSeq m → Contains sent.data m

/-- If there is something above the number, then some limit brings some of it. -/
def Reader.Reachable (r : Reader) (w : Wire) (channelId : String) (req : HistoryRequest) : Prop :=
  (∃ m, Above r.st channelId req.sinceSeq m) →
    ∃ limit sent, r.serve w { req with limit := some limit } = .ok sent ∧
      ∃ m, Above r.st channelId req.sinceSeq m ∧ Contains sent.data m

structure Reader.Admits (r : Reader) (channelId : String) (req : HistoryRequest) : Prop where
  named : present (req.channelId.or r.envelope) = some channelId
  readable : ∃ channel, checkChannelRead r.ctx r.st channelId r.requesterHash = .ok channel
  forward : historyDirection r.profile req = "forward"

def rowsAbove (st : Store) (channelId : String) (since : ℤ) : List Message :=
  getHistory st channelId since (-1) "forward"

def Reader.limitOf (r : Reader) (req : HistoryRequest) : ℤ :=
  min (req.limit.getD r.profile.defaultSyncLimit) r.profile.maxSyncLimit

def Reader.page (r : Reader) (channelId : String) (req : HistoryRequest) : List Message :=
  (sqlLimit (r.limitOf req) (rowsAbove r.st channelId req.sinceSeq)).filter shown

def Reader.hasMore (r : Reader) (channelId : String) (req : HistoryRequest) : Bool :=
  ((sqlLimit (r.limitOf req) (rowsAbove r.st channelId req.sinceSeq)).length : ℤ) = r.limitOf req

def Reader.answer (r : Reader) (w : Wire) (channelId : String) (supports hasMore : Bool)
    (ms : List Message) : List (String × Val) :=
  w.historyData r.profile
    { channelId := channelId
      messages := ms.map (encodeMessageWithKeys r.prim r.st r.ctx.sealedManager supports)
      hasMore := hasMore }

/-- A dictionary that reaches the client whole or cut. -/
def Carries (nonce : Bytes) (data : List (String × Val)) : Prop :=
  Fits nonce data ∨ Oversized nonce data ∧ Fits nonce (truncated data)

/-- The answer is cut to ten messages although it says that there is no more. -/
def Reader.CutShort (r : Reader) (w : Wire) (channelId : String) (req : HistoryRequest) : Prop :=
  let data := r.answer w channelId req.supportsSealedAtRest (r.hasMore channelId req)
    (r.page channelId req)
  r.hasMore channelId req = false ∧ 10 < (r.page channelId req).length ∧
    Oversized w.nonce data ∧ Fits w.nonce (truncated data)

/-- The first message above the number comes within one page and fits a frame, or a request
without a limit is answered. -/
def Reader.Passes (r : Reader) (w : Wire) (channelId : String) (req : HistoryRequest) : Prop :=
  let rows := rowsAbove r.st channelId req.sinceSeq
  let supports := req.supportsSealedAtRest
  ∀ m, rows.find? shown = some m → (rows.findIdx shown : ℤ) < r.profile.maxSyncLimit ∧
        Fits w.nonce (r.answer w channelId supports true [m]) ∨
      Carries w.nonce (r.answer w channelId supports false (rows.filter shown))

section Rows
variable {st : Store} {channelId : String} {since : ℤ} {limit : ℤ} {rows : List Message}

lemma getHistory_rowsAbove : getHistory st channelId since limit "forward" =
      sqlLimit limit (rowsAbove st channelId since) := rfl

variable {m : Message}

lemma mem_rowsAbove : m ∈ rowsAbove st channelId since ↔
    m ∈ st.channelMessages channelId ∧ ∃ q : ℕ, m.seq = some q ∧ since < q := by
  rw [rowsAbove,getHistory,if_pos rfl,sqlLimit,if_pos (by decide),mem_insertionSort, mem_filter]
  cases m.seq with
  | none => simp
  | some q => simp

lemma above_iff :
    Above st channelId since m ↔ m ∈ rowsAbove st channelId since ∧ shown m = true := by
  rw [Above,mem_rowsAbove,and_assoc,shown,decide_eq_true_eq]

lemma rowsAbove_nodup : ((rowsAbove st channelId since).map Message.msgHash).Nodup := by
  have hr : ((st.channelMessages channelId).map Message.msgHash).Nodup :=
    st.messages.keyed.sublist (filter_sublist.map _)
  exact ((perm_insertionSort _ _).map _).nodup_iff.mpr (hr.sublist (filter_sublist.map _))

lemma sqlLimit_sublist : (sqlLimit limit rows).Sublist rows := by
  unfold sqlLimit
  split_ifs
  · exact List.Sublist.refl rows
  · exact take_sublist _ rows

lemma sqlLimit_all
    (h : ((sqlLimit limit rows).length : ℤ) ≠ limit) : sqlLimit limit rows = rows := by
  unfold sqlLimit at h ⊢
  split_ifs at h ⊢ with hn
  · rfl
  · rw [length_take] at h
    exact take_of_length_le (by omega)

lemma take_findIdx (h : rows.find? shown = some m) :
    (rows.take (rows.findIdx shown + 1)).filter shown = [m] := by
  induction rows with
  | nil => cases h
  | cons x xs ih =>
    by_cases hx : shown x = true
    · rw [List.find?_cons_of_pos hx] at h
      obtain rfl := Option.some.inj h
      simp [findIdx_cons,hx]
    rw [List.find?_cons_of_neg hx] at h
    have hr := ih h
    simpa [findIdx_cons,hx] using hr

lemma filter_take_cons (h : rows.find? shown = some m) {n : ℕ}
    (hn : (rows.take n).filter shown ≠ []) :
    rows.findIdx shown < n ∧ ∃ rest, (rows.take n).filter shown = m :: rest := by
  induction rows generalizing n with
  | nil => cases h
  | cons x xs ih =>
    cases n with
    | zero => exact absurd rfl hn
    | succ n =>
      by_cases hx : shown x = true
      · rw [List.find?_cons_of_pos hx] at h
        obtain rfl := Option.some.inj h
        simp [findIdx_cons,hx]
      rw [List.find?_cons_of_neg hx] at h
      have hn' : (xs.take n).filter shown ≠ [] := by simpa [hx] using hn
      obtain ⟨hlt,rest,hr⟩ := ih h hn'
      refine ⟨by simpa [findIdx_cons,hx] using hlt,rest,?_⟩
      simpa [hx] using hr

end Rows

variable {more : List (String × Val)} {rest : List Message} {first second : FloatVal}

section Answers
variable {r : Reader} {w : Wire} {channelId : String} {req : HistoryRequest}

lemma handleHistory_admitted (h : r.Admits channelId req) :
    handleHistory r.prim r.ctx r.st req r.envelope r.requesterHash =
      .ok { channelId := channelId
            messages := (r.page channelId req).map
              (encodeMessageWithKeys r.prim r.st r.ctx.sealedManager req.supportsSealedAtRest)
            hasMore := r.hasMore channelId req } := by
  obtain ⟨channel,hr⟩ := h.readable
  have hid : requireChannelId req.channelId r.envelope "No channel_id provided for sync_history" =
      .ok channelId := by
    rw [requireChannelId,h.named]
  have hf : historyDirection (getSessionProfile r.ctx r.requesterHash) req = "forward" :=
    h.forward
  simp only [handleHistory,hid,ok_bind,hr,hf,getHistory_rowsAbove]
  rfl

lemma serve_admitted (h : r.Admits channelId req) : r.serve w req = sendResponse w.fmt w.nonce
      (.ok (r.answer w channelId req.supportsSealedAtRest (r.hasMore channelId req)
        (r.page channelId req))) w.first w.second := by
  rw [Reader.serve,handleHistory_admitted h]
  rfl

lemma Reader.Admits.limit (h : r.Admits channelId req) (limit : ℤ) :
    r.Admits channelId { req with limit := some limit } := ⟨h.named,h.readable,h.forward⟩

variable {supports hasMore : Bool} {ms : List Message}

lemma cut_other {key : String} (h : key ∉ bulkKeys) {v : Val} : cut (key, v) = (key, v) := by
  cases v with
  | list l => rw [cut,if_neg h]
  | none => rfl
  | bool b => rfl
  | int i => rfl
  | float x => rfl
  | str s => rfl
  | bytes b => rfl
  | dict d => rfl

lemma truncated_answer : truncated (r.answer w channelId supports hasMore ms) =
      r.answer w channelId supports hasMore (ms.take 10) ++ [("truncated", .bool true)] := by
  have hl : cut ("latest_seq", w.latestSeq) = ("latest_seq", w.latestSeq) :=
    cut_other (by decide)
  have hf : setEntry (r.answer w channelId supports hasMore ms) "truncated" (.bool true) =
      r.answer w channelId supports hasMore ms ++ [("truncated", .bool true)] := rfl
  rw [truncated,hf]
  simp only [Reader.answer,Wire.historyData,map_append,map_cons,map_nil,hl]
  simp [cut,bulkKeys,map_take]

lemma messagesOf_answer : messagesOf (r.answer w channelId supports hasMore ms ++ more) =
      (ms.map (encodeMessageWithKeys r.prim r.st r.ctx.sealedManager supports)).map
        w.messageVal := rfl

variable {m : Message}

lemma contains_answer : Contains (r.answer w channelId supports hasMore ms ++ more) m ↔
      ∃ x ∈ ms, x.msgHash = m.msgHash := by
  have hh : ∀ x : Message, (setItem (encodeMessageWithKeys r.prim r.st r.ctx.sealedManager
      supports x) "media_meta" (w.mediaMeta (encodeMessageWithKeys r.prim r.st r.ctx.sealedManager
        supports x))).lookup "msg_hash" = some (.str x.msgHash) := by
    intro x
    rw [lookup_setItem_ne (by decide),lookup_encodeMessageWithKeys (by decide)]
    rfl
  unfold Contains
  rw [messagesOf_answer,map_map]
  constructor
  · rintro ⟨d,hd,hl⟩
    obtain ⟨x,hx,heq⟩ := mem_map.mp hd
    obtain rfl := Val.dict.inj heq
    rw [hh] at hl
    exact ⟨x,hx,Val.str.inj (Option.some.inj hl)⟩
  · rintro ⟨x,hx,heq⟩
    exact ⟨_,mem_map_of_mem hx,(hh x).trans (by rw [heq])⟩

lemma contains_answer_all (hm : m ∈ ms) :
    Contains (r.answer w channelId supports hasMore ms) m := by
  have hmo : Contains (r.answer w channelId supports hasMore ms ++ []) m :=
    contains_answer.mpr ⟨m,hm,rfl⟩
  rwa [append_nil] at hmo

lemma not_contains_internalError : ¬ Contains internalError m := by
  rintro ⟨d,hd,-⟩
  cases hd

lemma answer_within {hasMore' : Bool} : Within (.dict (r.answer w channelId supports hasMore [m]))
      (.dict (r.answer w channelId supports hasMore' (m :: rest) ++ more)) := by
  refine within_dict (.cons (.refl "action" _) (.cons (.refl "channel_id" _)
    (.cons (.of "messages" ?_) (.cons (.refl "latest_seq" _) (.cons (.of "has_more" ?_)
      (.cons (.refl "gap_explanation" _) (.cons (.refl "node_time" _)
        (.cons (.refl "sync_profile" _) .nil))))))))
  · exact within_list
  · exact within_bool

lemma page_rows (hm : m ∈ r.page channelId req) : Above r.st channelId req.sinceSeq m := by
  obtain ⟨hr,hs⟩ := mem_filter.mp hm
  exact above_iff.mpr ⟨sqlLimit_sublist.subset hr,hs⟩

lemma mem_page_of_all (hmo : r.hasMore channelId req = false)
    (hm : Above r.st channelId req.sinceSeq m) : m ∈ r.page channelId req := by
  have hall := sqlLimit_all (of_decide_eq_false hmo)
  rw [Reader.page,hall]
  obtain ⟨hr,hs⟩ := above_iff.mp hm
  exact mem_filter.mpr ⟨hr,hs⟩

lemma page_nodup (r : Reader) (ch : String) (req : HistoryRequest) :
    ((r.page ch req).map Message.msgHash).Nodup :=
  rowsAbove_nodup.sublist ((filter_sublist.trans sqlLimit_sublist).map _)

lemma truthful_iff (h : r.Admits channelId req) :
    r.Truthful w channelId req ↔ ¬ r.CutShort w channelId req := by
  constructor
  · rintro ht ⟨hmo,hl,ho,hf⟩
    obtain ⟨frame,hs⟩ := sendResponse_truncated w.fmt ho hf
    rw [← serve_admitted h] at hs
    have hlo := ht _ hs
    simp only [truncated_answer] at hlo
    -- the message in the eleventh place has no entry
    have hr : (r.page channelId req).drop 10 ≠ [] := by
      intro hni
      have := drop_eq_nil_iff.mp hni
      omega
    obtain ⟨m,hm⟩ := exists_mem_of_ne_nil _ hr
    have hc := hlo rfl (by rw [hmo]; rfl) m (page_rows (mem_of_mem_drop hm))
    obtain ⟨x,hx,heq⟩ := contains_answer.mp hc
    have hn := page_nodup r channelId req
    rw [← take_append_drop 10 (r.page channelId req),map_append] at hn
    exact (nodup_append.mp hn).2.2 _ (mem_map_of_mem hx) _ (mem_map_of_mem hm) heq
  · intro hcu sent hs ha hmo m hm
    rw [serve_admitted h] at hs
    rw [sendResponse_data hs] at ha hmo ⊢
    unfold carried at ha hmo ⊢
    split_ifs at ha hmo ⊢ with hf ho
    · have hno : r.hasMore channelId req = false := Val.bool.inj (Option.some.inj hmo)
      exact contains_answer_all (mem_page_of_all hno hm)
    · rw [truncated_answer] at hmo ⊢
      have hno : r.hasMore channelId req = false := Val.bool.inj (Option.some.inj hmo)
      have hsh : (r.page channelId req).length ≤ 10 := by
        by_contra hl
        exact hcu ⟨hno,Nat.lt_of_not_le hl,ho⟩
      rw [take_of_length_le hsh]
      exact contains_answer.mpr ⟨m,mem_page_of_all hno hm,rfl⟩
    · cases ha

lemma carries_of_contains {data : List (String × Val)} {sent : Sent}
    (hs : sendResponse w.fmt w.nonce (.ok data) first second = .ok sent)
    (hm : Contains sent.data m) : Carries w.nonce data := by
  by_contra hn
  obtain ⟨hf,hc⟩ := not_or.mp hn
  rw [sendResponse_data hs,carried,if_neg hf,if_neg hc] at hm
  exact not_contains_internalError hm

lemma sent_of_carries (h : Carries w.nonce (r.answer w channelId supports hasMore (m :: rest))) :
    ∃ sent, sendResponse w.fmt w.nonce
        (.ok (r.answer w channelId supports hasMore (m :: rest))) first second = .ok sent ∧
      Contains sent.data m := by
  rcases h with hf | ⟨ho,hf⟩
  · obtain ⟨frame,hs⟩ := sendResponse_fits w.fmt hf
    exact ⟨_,hs,contains_answer_all mem_cons_self⟩
  obtain ⟨frame,hs⟩ := sendResponse_truncated w.fmt ho hf
  refine ⟨_,hs,?_⟩
  rw [truncated_answer]
  exact contains_answer.mpr ⟨m,mem_cons_self,rfl⟩

lemma single_fits {hasMore' : Bool}
    (h : Carries w.nonce (r.answer w channelId supports hasMore' (m :: rest))) :
    Fits w.nonce (r.answer w channelId supports hasMore [m]) := by
  rcases h with hf | ⟨-,hf⟩
  · have hw : Within (.dict (r.answer w channelId supports hasMore [m]))
        (.dict (r.answer w channelId supports hasMore' (m :: rest) ++ [])) :=
      answer_within
    exact fits_of_within hw hf
  · rw [truncated_answer] at hf
    exact fits_of_within answer_within hf

lemma nonempty_of_contains {sent : Sent}
    (hs : sendResponse w.fmt w.nonce (.ok (r.answer w channelId supports hasMore ms)) first
      second = .ok sent) (hm : Contains sent.data m) : ms ≠ [] := by
  rintro rfl
  have hn : ∀ more, ¬ Contains (r.answer w channelId supports hasMore [] ++ more) m := by
    intro more hc
    obtain ⟨x,hx,-⟩ := contains_answer.mp hc
    cases hx
  rw [sendResponse_data hs] at hm
  unfold carried at hm
  split_ifs at hm
  · exact hn [] (by rwa [append_nil])
  · rw [truncated_answer] at hm
    exact hn _ hm
  · exact not_contains_internalError hm

lemma page_unlimited (hn : r.limitOf req < 0) :
    r.page channelId req = (rowsAbove r.st channelId req.sinceSeq).filter shown ∧
      r.hasMore channelId req = false := by
  rw [Reader.page,Reader.hasMore,sqlLimit,if_pos hn]
  refine ⟨rfl,decide_eq_false ?_⟩
  omega

lemma page_limited (ch : String) (hp : 0 ≤ r.limitOf req) : r.page ch req =
      ((rowsAbove r.st ch req.sinceSeq).take (r.limitOf req).toNat).filter shown := by
  rw [Reader.page,sqlLimit,if_neg (Int.not_lt.mpr hp)]

lemma limitOf_some {limit : ℤ} :
    r.limitOf { req with limit := some limit } = min limit r.profile.maxSyncLimit := rfl

lemma passes_of_reachable (h : r.Admits channelId req) (hr : r.Reachable w channelId req) :
    r.Passes w channelId req := by
  intro m hf
  have hm : Above r.st channelId req.sinceSeq m :=
    above_iff.mpr ⟨mem_of_find?_eq_some hf,List.find?_some hf⟩
  obtain ⟨limit,sent,hs,m',-,hin⟩ := hr ⟨m,hm⟩
  rw [serve_admitted (h.limit limit)] at hs
  have hc := carries_of_contains hs hin
  by_cases hn : r.limitOf { req with limit := some limit } < 0
  · obtain ⟨hp,hmo⟩ := page_unlimited hn
    rw [hp,hmo] at hc
    exact .inr hc
  have hp := page_limited channelId (Int.not_lt.mp hn)
  have hsh := nonempty_of_contains hs hin
  rw [hp] at hsh hc
  obtain ⟨hi,rest,hre⟩ := filter_take_cons hf hsh
  rw [hre] at hc
  refine .inl ⟨?_,single_fits hc⟩
  have hle : r.limitOf { req with limit := some limit } ≤ r.profile.maxSyncLimit :=
    min_le_right _ _
  omega

lemma reachable_of_passes (h : r.Admits channelId req) (hpa : r.Passes w channelId req) :
    r.Reachable w channelId req := by
  have hma : 1 ≤ r.profile.maxSyncLimit := maxSyncLimit_pos r.ctx r.requesterHash
  rintro ⟨m₀,hm₀⟩
  obtain ⟨hro,hsh⟩ := above_iff.mp hm₀
  obtain ⟨m,hf⟩ := Option.isSome_iff_exists.mp (List.find?_isSome.mpr ⟨m₀,hro,hsh⟩)
  have hm : Above r.st channelId req.sinceSeq m :=
    above_iff.mpr ⟨mem_of_find?_eq_some hf,List.find?_some hf⟩
  rcases hpa m hf with ⟨hi,hfit⟩ | hc
  · -- a page that ends with the first message
    obtain ⟨k,hk⟩ : ∃ k : ℕ, (rowsAbove r.st channelId req.sinceSeq).findIdx shown = k := ⟨_,rfl⟩
    have hfi := take_findIdx hf
    rw [hk] at hi hfi
    have hl : r.limitOf { req with limit := some (k + 1 : ℤ) } = k + 1 := by
      rw [limitOf_some]
      omega
    have hp : r.page channelId { req with limit := some (k + 1 : ℤ) } = [m] := by
      refine (page_limited channelId (by rw [hl]; omega)).trans ?_
      rw [hl,show (k + 1 : ℤ).toNat = k + 1 by omega]
      exact hfi
    have ho : Carries w.nonce (r.answer w channelId req.supportsSealedAtRest
        (r.hasMore channelId { req with limit := some (k + 1 : ℤ) }) [m]) :=
      .inl (fits_of_within answer_within (by rwa [append_nil]))
    obtain ⟨sent,hs,hin⟩ := sent_of_carries ho
    refine ⟨k + 1,sent,(serve_admitted (h.limit _)).trans ?_,m,hm,hin⟩
    rw [hp]
    exact hs
  · -- all rows at once
    have hn : r.limitOf { req with limit := some (-1) } < 0 := by
      rw [limitOf_some]
      omega
    obtain ⟨hp,hmo⟩ := page_unlimited hn
    have hne : ((rowsAbove r.st channelId req.sinceSeq).take
        (rowsAbove r.st channelId req.sinceSeq).length).filter shown ≠ [] := by
      rw [take_length]
      exact ne_nil_of_mem (mem_filter.mpr ⟨hro,hsh⟩)
    obtain ⟨-,rest,hr⟩ := filter_take_cons hf hne
    rw [take_length] at hr
    rw [hr] at hc hp
    obtain ⟨sent,hs,hin⟩ := sent_of_carries hc
    refine ⟨-1,sent,(serve_admitted (h.limit _)).trans ?_,m,hm,hin⟩
    rw [hmo,hp]
    exact hs

lemma messageVal_large {signedPart : Bytes} (hm : m.lxmfSignedPart = some signedPart) :
    Large signedPart.length
      (w.messageVal (encodeMessageWithKeys r.prim r.st r.ctx.sealedManager supports m)) := by
  refine large_lookup (k := "lxmf_signed_part") (v := .bytes signedPart) ?_ large_bytes
  rw [lookup_setItem_ne (by decide),lookup_encodeMessageWithKeys (by decide)]
  simp [encodeMessageForSync,lookup_cons,hm,Val.ofBytes?]

lemma answer_large {signedPart : Bytes} (hm : m.lxmfSignedPart = some signedPart) (hme : m ∈ ms) :
    Large signedPart.length (.dict (r.answer w channelId supports hasMore ms ++ more)) := by
  have hl : Large signedPart.length (.list ((ms.map (encodeMessageWithKeys r.prim r.st
      r.ctx.sealedManager supports)).map w.messageVal)) :=
    large_mem (mem_map_of_mem (mem_map_of_mem hme)) (messageVal_large hm)
  refine large_dict (e := ("messages", _)) ?_ hl
  simp [Reader.answer,Wire.historyData]

lemma not_carries {signedPart : Bytes} (hm : m.lxmfSignedPart = some signedPart)
    (hl : maxFrameSize < signedPart.length) :
    ¬ Carries w.nonce (r.answer w channelId supports hasMore (m :: rest)) := by
  intro h
  have ho : Fits w.nonce (r.answer w channelId supports true [m]) := single_fits h
  have hs : Large signedPart.length (.dict (r.answer w channelId supports true [m] ++ [])) :=
    answer_large hm (mem_singleton_self m)
  exact not_fits_of_large hs hl ho

/-- What the wire says about history is true exactly if the answer is not cut short, and the
first message above the number can come through. -/
theorem wire_history_true_iff (h : r.Admits channelId req) :
    r.Truthful w channelId req ∧ r.Reachable w channelId req ↔
      ¬ r.CutShort w channelId req ∧ r.Passes w channelId req :=
  and_congr (truthful_iff h) ⟨passes_of_reachable h,reachable_of_passes h⟩

end Answers

/-! A channel with eleven messages of six kilobytes, and one with a large file. -/

def sampleWire : Wire :=
  { fmt := zeroFormat, nonce := replicate 16 0, mediaMeta := fun _ => .none
    latestSeq := .int 11, nodeTime := .fin 0, first := .fin 0, second := .fin 0 }

def sampleMessage (i : ℕ) (signedPart : Bytes) : Message where
  msgHash := toString i
  channelId := "hall"
  senderHash := some "alice"
  seq := some i
  timestamp := .fin 0
  type := msgText
  body := some "hello"
  lxmfSignedPart := some signedPart

def hallMessages (n : ℕ) (signedPart : Bytes) : List Message :=
  (List.range' 1 n).map fun i => sampleMessage i signedPart

def longPart : Bytes := replicate 6000 0

lemma long_keyed : ((hallMessages 11 longPart).map Message.msgHash).Nodup := by decide +kernel

def longHall : Reader where
  prim := noDecryption
  ctx := hallReader
  st := { channels := .singleton hall, messages := ⟨hallMessages 11 longPart,long_keyed⟩ }
  envelope := none
  requesterHash := none

def filePart : Bytes := replicate 70000 0

lemma filePart_length : filePart.length = 70000 := length_replicate

def fileHall : Reader :=
  { longHall with
    st := { channels := .singleton hall, messages := .singleton (sampleMessage 1 filePart) } }

def hallRequest : HistoryRequest := { channelId := some "hall", limit := some 50 }

lemma longHall_admits : longHall.Admits "hall" hallRequest :=
  ⟨rfl,⟨hall,rfl⟩,rfl⟩

lemma fileHall_admits : fileHall.Admits "hall" hallRequest :=
  ⟨rfl,⟨hall,rfl⟩,rfl⟩

theorem history_cut_and_stuck : ¬ longHall.Truthful sampleWire "hall" hallRequest ∧
      ¬ fileHall.Reachable sampleWire "hall" hallRequest := by
  constructor
  · rw [truthful_iff longHall_admits,not_not]
    exact ⟨by decide +kernel,by decide +kernel,by decide +kernel,by decide +kernel⟩
  intro hr
  have hf : (rowsAbove fileHall.st "hall" 0).find? shown = some (sampleMessage 1 filePart) :=
    rfl
  have hro : (rowsAbove fileHall.st "hall" 0).filter shown = [sampleMessage 1 filePart] := rfl
  have hl : maxFrameSize < filePart.length := by
    rw [filePart_length]
    decide
  rcases passes_of_reachable fileHall_admits hr _ hf with ⟨-,hfi⟩ | hc
  · exact not_carries rfl hl (.inl hfi)
  · exact not_carries rfl hl (hro ▸ hc)

lemma short_keyed : ((hallMessages 11 []).map Message.msgHash).Nodup := by decide +kernel

def shortHall : Reader :=
  { longHall with
    st := { channels := .singleton hall, messages := ⟨hallMessages 11 [],short_keyed⟩ } }

theorem short_history_true : shortHall.Truthful sampleWire "hall" hallRequest ∧
      shortHall.Reachable sampleWire "hall" hallRequest := by
  refine (wire_history_true_iff ⟨rfl,⟨hall,rfl⟩,rfl⟩).mpr ⟨?_,?_⟩
  · rintro ⟨-,-,ho,-⟩
    exact absurd ho (by decide +kernel)
  · intro m _
    exact .inr (.inl (by decide +kernel))

end Hokora.HistoryOnWire
