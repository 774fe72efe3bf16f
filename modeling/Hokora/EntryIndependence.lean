import Hokora.NodeRuns
import Hokora.ReceivedRows

/-!
# Entries of one push

When one entry of a batch raises, the whole batch is rolled back. The types that the checks and
columns can take are spelled out.
-/
namespace Hokora.EntryIndependence
open Constants Database KeyedTable PushReceive PyValue ReceivedRows Repositories SenderBinding
  WireRows
open ChannelRepo (bumpSeq getById)
open MessageRepo (getByHash)

/-- The value can be cut for a log line: text, bytes or a list. -/
def Sliceable (v : Val) : Prop := ∃ w, v.take 16 = .ok w

/-- A body that a sealed channel refuses can be logged. -/
def Loggable (b : PushBatch) (d : MsgData) : Prop :=
  b.channelSealed = true → (d.body.truthy || !d.encryptedBody.truthy) = true →
    Sliceable d.msgHash ∧ (∃ n, d.body.lenOrZero = .ok n) ∧ ∃ n, d.encryptedBody.lenOrZero = .ok n

/-- The checks of the content end without an exception. -/
def Checkable (sig : SignatureScheme) (b : PushBatch) (d : MsgData) : Prop :=
  (verifySenderBinding sig d.senderHash d.senderRnsPublicKey d.lxmfSignedPart d.lxmfSignature
    b.requireSigned).1 = true →
  ∃ valid, isValidType d.type = .ok valid ∧ (valid = true → ∃ size, bodySize d.body = .ok size ∧
    (size ≤ maxMessageBodySize → Loggable b d))

structure Vettable (sig : SignatureScheme) (b : PushBatch) (st : Store) (d : MsgData) : Prop where
  sender : d.senderHash.truthy = true → ∃ s, bindText d.senderHash = .ok s ∧
    (s.any (Ban.isBlocked st) = true → Sliceable d.msgHash ∧ Sliceable d.senderHash)
  content : NotBanned st d → Checkable sig b d

section
variable {sig : SignatureScheme} {b : PushBatch} {now : ℚ} {st st' : Store} {d : MsgData}

lemma pushContent_succeeds_iff : (∃ r, pushContent b.channelSealed d = .ok r) ↔ Loggable b d := by
  unfold pushContent Loggable Sliceable
  split_ifs with hs hp
  · simp only [hs,hp,true_implies]
    constructor
    · rintro ⟨r,h⟩
      obtain ⟨w,hw,h⟩ := bind_ok h
      obtain ⟨n,hn,h⟩ := bind_ok h
      obtain ⟨k,hk,-⟩ := bind_ok h
      exact ⟨⟨w,hw⟩,⟨n,hn⟩,k,hk⟩
    · rintro ⟨⟨w,hw⟩,⟨n,hn⟩,k,hk⟩
      exact ⟨none,by simp [hw,hn,hk]⟩
  · exact iff_of_true ⟨_,rfl⟩ fun _ h => absurd h hp
  · exact iff_of_true ⟨_,rfl⟩ fun h => absurd h hs

lemma vetContent_succeeds_iff : (∃ r, vetContent sig b d = .ok r) ↔ Checkable sig b d := by
  simp only [Checkable,← pushContent_succeeds_iff]
  unfold vetContent
  rcases verifySenderBinding sig d.senderHash d.senderRnsPublicKey d.lxmfSignedPart
    d.lxmfSignature b.requireSigned with ⟨_ | _,reason⟩
  · simp [pure,Except.pure]
  cases isValidType d.type with
  | error e => simp
  | ok valid =>
    cases valid with
    | false => simp [pure,Except.pure]
    | true =>
      cases bodySize d.body with
      | error e => simp
      | ok size =>
        by_cases hs : maxMessageBodySize < size
        · simp [hs,pure,Except.pure]
        · simp [hs,Nat.le_of_not_lt hs]

lemma vetEntry_succeeds_iff : (∃ r, vetEntry sig b st d = .ok r) ↔ Vettable sig b st d := by
  unfold vetEntry
  by_cases ht : d.senderHash.truthy = true
  · cases hk : bindText d.senderHash with
    | error e =>
      refine iff_of_false ?_ fun h => ?_
      · rintro ⟨r,h⟩
        rw [if_pos ht,isBlockedWire,hk] at h
        cases h
      obtain ⟨s,hs,-⟩ := h.sender ht
      rw [hk] at hs
      cases hs
    | ok s =>
      have hwi : isBlockedWire st d.senderHash = .ok (s.any (Ban.isBlocked st)) := by
        rw [isBlockedWire,hk,ok_bind]
        cases s <;> rfl
      rw [if_pos ht,hwi,ok_bind]
      cases hbl : s.any (Ban.isBlocked st) with
      | true =>
        simp only [if_true]
        constructor
        · rintro ⟨r,h⟩
          obtain ⟨w,hw,h⟩ := bind_ok h
          obtain ⟨x,hx,-⟩ := bind_ok h
          refine ⟨fun _ => ⟨s,hk,fun _ => ⟨⟨w,hw⟩,x,hx⟩⟩,fun hn => ?_⟩
          have hf := hn ht
          rw [hwi,hbl] at hf
          cases hf
        · intro h
          obtain ⟨s',hs',hsl⟩ := h.sender ht
          cases hk.symm.trans hs'
          obtain ⟨⟨w,hw⟩,x,hx⟩ := hsl hbl
          exact ⟨none,by simp [hw,hx]⟩
      | false =>
        have hn : NotBanned st d := fun _ => by rw [hwi,hbl]
        simp only [Bool.false_eq_true,if_false]
        rw [vetContent_succeeds_iff]
        constructor
        · intro h
          refine ⟨fun _ => ⟨s,hk,fun hb => ?_⟩,fun _ => h⟩
          rw [hbl] at hb
          cases hb
        · intro h
          exact h.content hn
  · rw [if_neg ht]
    change (∃ r, vetContent sig b d = .ok r) ↔ _
    rw [vetContent_succeeds_iff]
    exact ⟨fun h => ⟨fun htr => absurd htr ht,fun _ => h⟩,
      fun h => h.content fun htr => absurd htr ht⟩

/-- The columns of the new row take the values. -/
def ColumnsBind (b : PushBatch) (now : ℚ) (d : MsgData) (content : WireBody) : Prop :=
  ∃ name row, shortName d.displayName = .ok name ∧ (entryRow b d content name).bind now = .ok row

lemma pushEntry_succeeds_iff {c : Channel} (hc : getById st b.channelId = some c)
    {key : Option String} (hke : bindText d.msgHash = .ok key) :
    (∃ r, pushEntry sig b now st d = .ok r) ↔ (∃ k, key = some k ∧ (getByHash st k).isSome) ∨
        Vettable sig b st d ∧
          ∀ content, vetEntry sig b st d = .ok (some content) → ColumnsBind b now d content := by
  have hf : getByWireHash st d.msgHash = .ok (key.bind (getByHash st)) := by
    rw [getByWireHash,hke]
    rfl
  have hk : (∃ k, key = some k ∧ (getByHash st k).isSome) ↔ (key.bind (getByHash st)).isSome := by
    cases key with
    | none => simp
    | some k => simp
  rw [hk,← vetEntry_succeeds_iff]
  unfold pushEntry
  rw [hf,ok_bind]
  cases hr : key.bind (getByHash st) with
  | some row => exact iff_of_true ⟨_,rfl⟩ (.inl rfl)
  | none =>
    rw [hr] at hf
    cases hv : vetEntry sig b st d with
    | error e => simp
    | ok verdict =>
      cases verdict with
      | none => exact iff_of_true ⟨_,rfl⟩ (.inr ⟨⟨_,rfl⟩,fun _ h => by cases h⟩)
      | some content =>
        have hs : (∃ r, storeEntry b now st d content = .ok r) ↔
            ColumnsBind b now d content := by
          rw [storeEntry_succeeds_iff hf]
          exact and_iff_right ⟨c,hc⟩
        have hb : (∃ r, (storeEntry b now st d content >>= fun x =>
            (pure (.received (.int x.1), x.2) : Py (Answer × Store))) = .ok r) ↔
            ∃ r, storeEntry b now st d content = .ok r := by
          constructor
          · rintro ⟨r,h⟩
            obtain ⟨x,hx,-⟩ := bind_ok h
            exact ⟨x,hx⟩
          · rintro ⟨x,hx⟩
            exact ⟨_,by rw [hx,ok_bind]; rfl⟩
        simp only [ok_bind]
        rw [hb,hs]
        simp

end

section
variable {sig : SignatureScheme} {b : PushBatch} {now : ℚ} {st st' : Store} {a : Answer}
  {c : Channel} {as : List Answer} {d : MsgData} {k : String}

lemma pushEntries_append {xs ys : List Val} : pushEntries sig b now st (xs ++ ys) = .ok (as, st') ↔
      ∃ as₁ st₁ as₂, pushEntries sig b now st xs = .ok (as₁, st₁) ∧
        pushEntries sig b now st₁ ys = .ok (as₂, st') ∧ as = as₁ ++ as₂ := by
  induction xs generalizing st as with
  | nil => simp [pushEntries]
  | cons x xs ih =>
    rw [List.cons_append,pushEntries_cons]
    constructor
    · rintro ⟨d,a,st₁,as',hd,he,hr,rfl⟩
      obtain ⟨as₁,st₂,as₂,hxs,hys,rfl⟩ := ih.mp hr
      exact ⟨a :: as₁,st₂,as₂,pushEntries_cons.mpr ⟨d,a,st₁,as₁,hd,he,hxs,rfl⟩,hys,rfl⟩
    rintro ⟨as₁,st₂,as₂,hxs,hys,rfl⟩
    obtain ⟨d,a,st₁,as',hd,he,hr,rfl⟩ := pushEntries_cons.mp hxs
    exact ⟨d,a,st₁,as' ++ as₂,hd,he,ih.mpr ⟨as',st₂,as₂,hr,hys,rfl⟩,rfl⟩

/-- One of the entries has the hash and passes the checks. -/
def TakesHash (sig : SignatureScheme) (b : PushBatch) (st : Store) (vs : List Val) (k : String) :
    Prop :=
  ∃ v ∈ vs, ∃ d, MsgData.ofVal v = .ok d ∧ bindText d.msgHash = .ok (some k) ∧
    ∃ content, vetEntry sig b st d = .ok (some content)

lemma pushEntry_rows (h : EntryEffect sig b st d a st') :
    (getByHash st' k).isSome ↔ (getByHash st k).isSome ∨ bindText d.msgHash = .ok (some k) ∧
        ∃ content, vetEntry sig b st d = .ok (some content) := by
  cases h with
  | duplicate hf =>
    -- An entry with the hash of a row is counted already.
    refine (or_iff_left_of_imp ?_).symm
    rintro ⟨hke,-⟩
    rw [getByWireHash,hke,ok_bind] at hf
    exact Option.isSome_iff_exists.mpr ⟨_,Except.ok.inj hf⟩
  | refused _ hv =>
    refine (or_iff_left ?_).symm
    rintro ⟨-,content,hp⟩
    rw [hv] at hp
    cases hp
  | @stored content c row t _ hv _ hh _ _ _ hi =>
    have hg : getByHash { bumpSeq st b.channelId with
        messages := t } k = if row.msgHash = k then some row
          else getByHash st k := Table.get?_insert? hi k
    rw [hg,hh]
    split_ifs with hk
    · simp [hk,hv]
    · simp [hk]

variable {vs pre : List Val}

lemma pushEntries_rows (h : pushEntries sig b now st vs = .ok (as, st')) :
    (getByHash st' k).isSome ↔ (getByHash st k).isSome ∨ TakesHash sig b st vs k := by
  induction vs generalizing st as with
  | nil =>
    cases h
    simp [TakesHash]
  | cons v vs ih =>
    obtain ⟨d,a,st₁,as',hd,hen,hr,rfl⟩ := pushEntries_cons.mp h
    have he := pushEntry_effect hen
    have ht : TakesHash sig b st₁ vs k ↔ TakesHash sig b st vs k := by
      simp only [TakesHash,vetEntry_congr he.identities]
    have hc : TakesHash sig b st (v :: vs) k ↔ (bindText d.msgHash = .ok (some k) ∧
          ∃ content, vetEntry sig b st d = .ok (some content)) ∨ TakesHash sig b st vs k := by
      simp only [TakesHash,List.mem_cons,or_and_right,exists_or,exists_eq_left,hd,
        Except.ok.injEq,exists_eq_left']
    rw [ih hr,ht,hc,pushEntry_rows he,or_assoc]

/-- Every entry is a map with a hash that binds. Unless the hash is known, the fields have the types
that the checks need, and the columns take the values of an entry that passes. -/
def EntriesTyped (sig : SignatureScheme) (b : PushBatch) (now : ℚ) (st : Store)
    (entries : List Val) : Prop :=
  ∀ pre v post, entries = pre ++ v :: post →
    ∃ d key, MsgData.ofVal v = .ok d ∧ bindText d.msgHash = .ok key ∧
      ((∃ k, key = some k ∧ ((getByHash st k).isSome ∨ TakesHash sig b st pre k)) ∨
        Vettable sig b st d ∧
          ∀ content, vetEntry sig b st d = .ok (some content) → ColumnsBind b now d content)

lemma pushEntries_channel (h : pushEntries sig b now st vs = .ok (as, st'))
    (hc : ∃ c, getById st b.channelId = some c) : ∃ c, getById st' b.channelId = some c := by
  refine pushEntries_rel (R := fun s s' => (∃ c, getById s b.channelId = some c) →
    ∃ c, getById s' b.channelId = some c) (fun _ => id) (fun h₁ h₂ h => h₂ (h₁ h)) ?_ h hc
  rintro s s' d a he ⟨c,hc⟩
  cases pushEntry_effect he with
  | duplicate => exact ⟨c,hc⟩
  | refused => exact ⟨c,hc⟩
  | stored =>
    have hb := ChannelRepo.getById_bumpSeq s b.channelId b.channelId
    rw [if_pos rfl,hc,Option.map_some] at hb
    exact ⟨_,hb⟩

lemma pushEntry_after_iff (hc : getById st b.channelId = some c)
    (hp : pushEntries sig b now st pre = .ok (as, st')) {key : Option String}
    (hk : bindText d.msgHash = .ok key) : (∃ r, pushEntry sig b now st' d = .ok r) ↔
      (∃ k, key = some k ∧ ((getByHash st k).isSome ∨ TakesHash sig b st pre k)) ∨
        Vettable sig b st d ∧
          ∀ content, vetEntry sig b st d = .ok (some content) → ColumnsBind b now d content := by
  have hi := (pushEntries_context hp).identities
  obtain ⟨c',hc'⟩ := pushEntries_channel hp ⟨c,hc⟩
  rw [pushEntry_succeeds_iff hc' hk,← vetEntry_succeeds_iff,← vetEntry_succeeds_iff]
  simp [pushEntries_rows hp,vetEntry_congr hi]

lemma pushEntries_succeeds_iff_typed (hc : getById st b.channelId = some c) {entries : List Val} :
    (∃ r, pushEntries sig b now st entries = .ok r) ↔ EntriesTyped sig b now st entries := by
  constructor
  · rintro ⟨⟨as,st'⟩,h⟩ pre v post rfl
    obtain ⟨as₁,st₁,as₂,hp,hr,-⟩ := pushEntries_append.mp h
    obtain ⟨d,a,st₂,as',hd,he,-,-⟩ := pushEntries_cons.mp hr
    obtain ⟨found,hf,-⟩ := bind_ok he
    obtain ⟨key,hk,-⟩ := bind_ok hf
    exact ⟨d,key,hd,hk,(pushEntry_after_iff hc hp hk).mp ⟨_,he⟩⟩
  -- From the front: each entry meets the rows that the ones before it left.
  induction entries using List.reverseRecOn with
  | nil => exact fun _ => ⟨_,rfl⟩
  | append_singleton vs v ih =>
    intro h
    have hfr : EntriesTyped sig b now st vs := by
      rintro pre w post rfl
      exact h pre w (post ++ [v]) (by simp)
    obtain ⟨⟨as,st₁⟩,hvs⟩ := ih hfr
    obtain ⟨d,key,hd,hk,hl⟩ := h vs v [] rfl
    obtain ⟨⟨a,st₂⟩,he⟩ := (pushEntry_after_iff hc hvs hk).mpr hl
    have ho : pushEntries sig b now st₁ [v] = .ok ([a], st₂) :=
      pushEntries_cons.mpr ⟨d,a,st₂,[],hd,he,rfl,rfl⟩
    exact ⟨_,pushEntries_append.mpr ⟨as,st₁,[a],hvs,ho,rfl⟩⟩

/-- The new row of an entry is bound from its fields, up to its number. -/
def RowOf (sig : SignatureScheme) (b : PushBatch) (now : ℚ) (st : Store) (d : MsgData)
    (row : Message) : Prop :=
  ∃ content name bound q, vetEntry sig b st d = .ok (some content) ∧
    shortName d.displayName = .ok name ∧ (entryRow b d content name).bind now = .ok bound ∧
    row = { bound with seq := some q }

lemma RowOf.unique {row row' : Message} (h : RowOf sig b now st d row)
    (h' : RowOf sig b now st d row') : ∃ q, row' = { row with seq := some q } := by
  obtain ⟨content,name,bound,q,hv,hn,hb,rfl⟩ := h
  obtain ⟨content',name',bound',q',hv',hn',hb',rfl⟩ := h'
  cases hv.symm.trans hv'
  cases hn.symm.trans hn'
  cases hb.symm.trans hb'
  exact ⟨q',rfl⟩

lemma pushEntry_new (h : pushEntry sig b now st d = .ok (a, st')) {row : Message}
    (hn : getByHash st k = none) (hr : getByHash st' k = some row) :
    bindText d.msgHash = .ok (some k) ∧ RowOf sig b now st d row := by
  obtain ⟨-,-,-,rfl⟩ | ⟨-,⟨-,-,rfl⟩ | ⟨content,seq,hv,hst,-⟩⟩ := pushEntry_cases h
  · rw [hn] at hr
    cases hr
  · rw [hn] at hr
    cases hr
  obtain ⟨c,name,bound,t,-,-,hna,hb,hi,rfl⟩ := storeEntry_cases hst
  have hs := Table.eq_of_get?_insert? hi hn hr
  have hh : bindText d.msgHash = .ok (some bound.msgHash) := (WireRow.bind_ok hb).msgHash
  have hk : row.msgHash = k := Table.get?_key hr
  rw [hs] at hk
  exact ⟨hk ▸ hh,content,name,bound,_,hv,hna,hb,hs⟩

lemma pushEntry_taken (h : pushEntry sig b now st d = .ok (a, st'))
    (hk : bindText d.msgHash = .ok (some k)) {content : WireBody}
    (hv : vetEntry sig b st d = .ok (some content)) : ∃ row, getByHash st' k = some row ∧
      (getByHash st k = none → RowOf sig b now st d row) := by
  have hs := (pushEntry_rows (pushEntry_effect h)).mpr (.inr ⟨hk,content,hv⟩)
  obtain ⟨row,hr⟩ := Option.isSome_iff_exists.mp hs
  exact ⟨row,hr,fun hn => (pushEntry_new h hn hr).2⟩

def HashUnused (vs : List Val) (k : String) : Prop :=
  ∀ v ∈ vs, ∀ d, MsgData.ofVal v = .ok d → bindText d.msgHash ≠ .ok (some k)

lemma pushEntries_as_alone {post : List Val} {v : Val} {as₁ : List Answer} {st₁ : Store}
    (hb : pushEntries sig b now st (pre ++ v :: post) = .ok (as, st'))
    (ha : pushEntries sig b now st [v] = .ok (as₁, st₁)) {row₁ : Message}
    (hn : getByHash st k = none) (hrow₁ : getByHash st₁ k = some row₁) :
    ∃ row, getByHash st' k = some row ∧
      (HashUnused pre k → ∃ q, row = { row₁ with seq := some q }) := by
  obtain ⟨d,a₁,st₁',as',hd,hentry₁,hni,-⟩ := pushEntries_cons.mp ha
  cases hni
  obtain ⟨hke,hrowOf₁⟩ := pushEntry_new hentry₁ hn hrow₁
  have ⟨content,_,_,_,hv,_⟩ := hrowOf₁
  obtain ⟨as₂,st₂,as₃,hpr,hre,-⟩ := pushEntries_append.mp hb
  obtain ⟨d',a,st₃,as₄,hd',hen,hp,-⟩ := pushEntries_cons.mp hre
  cases hd.symm.trans hd'
  have hi := (pushEntries_context hpr).identities
  have hvet₂ : vetEntry sig b st₂ d = .ok (some content) := by rw [vetEntry_congr hi,hv]
  obtain ⟨row,hro,hr⟩ := pushEntry_taken hen hke hvet₂
  refine ⟨row,(NodeRuns.pushEntries_foreign hp).kept hro,fun hu => ?_⟩
  have hnone₂ : getByHash st₂ k = none := by
    rw [← Option.not_isSome_iff_eq_none,pushEntries_rows hpr,hn]
    rintro (hs | ⟨w,hw,e,he,hk,-⟩)
    · cases hs
    · exact hu w hw e he hk
  have hsa : RowOf sig b now st d row := by
    have h₂ := hr hnone₂
    simpa only [RowOf,vetEntry_congr hi] using h₂
  exact hrowOf₁.unique hsa

end

/-- Each entry is stored in the batch as it is when it is the only one of a request. -/
def StoredAsAlone {L : Type} (sig : SignatureScheme) (config : Option FederationConfig) (now : ℚ)
    (st st' : Store) (b : PushBatch) (entries : List Val) (channelId requesterHash : Option String)
    (link : Option L) : Prop :=
  ∀ pre v post, entries = pre ++ v :: post → ∀ payload c ack st₁,
    openBatch config st payload channelId = .ok (c, b, [v]) →
    handlePushMessages sig config now st payload channelId requesterHash link = .ok (ack, st₁) →
    ∀ k row₁, getByHash st k = none → getByHash st₁ k = some row₁ →
      ∃ row, getByHash st' k = some row ∧
        (HashUnused pre k → ∃ q, row = { row₁ with seq := some q })

/-- A push of a trusted peer to an existing channel is acknowledged, with every entry judged as
on its own, exactly when the entries have the types that their checks and columns need. -/
theorem entries_independent_iff {L : Type} (sig : SignatureScheme)
    (config : Option FederationConfig) (now : ℚ) (st : Store) (payload : Val)
    (channelId requesterHash : Option String) (link : Option L) {c : Val} {b : PushBatch}
    {entries : List Val} {channel : Channel}
    (hopen : openBatch config st payload channelId = .ok (c, b, entries))
    (hchannel : getById st b.channelId = some channel) :
    ((∃ ack st', handlePushMessages sig config now st payload channelId requesterHash link =
        .ok (ack, st')) ∧
      StoredAsAlone sig config now st (committed st (handlePushMessages sig config now st payload
        channelId requesterHash link)) b entries channelId requesterHash link) ↔
      EntriesTyped sig b now st entries := by
  have hr : ∀ {payload : Val} {c : Val} {entries : List Val} {ack : PushAck} {st' : Store},
      openBatch config st payload channelId = .ok (c, b, entries) →
      handlePushMessages sig config now st payload channelId requesterHash link = .ok (ack, st') →
      ∃ as, pushEntries sig b now st entries = .ok (as, st') := by
    intro payload c entries ack st' ho h
    unfold handlePushMessages at h
    rw [ho,ok_bind] at h
    obtain ⟨⟨as,st''⟩,he,h⟩ := bind_ok h
    cases h
    exact ⟨as,he⟩
  rw [← pushEntries_succeeds_iff_typed hchannel]
  constructor
  · rintro ⟨⟨ack,st',h⟩,-⟩
    obtain ⟨as,he⟩ := hr hopen h
    exact ⟨_,he⟩
  rintro ⟨⟨as,st'⟩,he⟩
  have hok : handlePushMessages sig config now st payload channelId requesterHash link =
      .ok ({ channelId := c, received := as.filterMap Answer.received?,
             rejected := as.filterMap Answer.rejected? }, st') := by
    unfold handlePushMessages
    simp [hopen,he]
  rw [hok]
  refine ⟨⟨_,_,rfl⟩,?_⟩
  rintro pre v post rfl payload' c' ack st₁ ho ha k row₁ hn hrow₁
  obtain ⟨as₁,hon⟩ := hr ho ha
  exact pushEntries_as_alone he hon hn hrow₁

/-! A good entry next to one whose display name is a number. -/

open FederatedAcceptance

def numberedName : Val :=
  .dict [("msg_hash", .str "m2"), ("sender_hash", .str sampleHash), ("timestamp", .int 1000),
    ("body", .str "hi"), ("sender_rns_public_key", .bytes (List.replicate 64 7)),
    ("lxmf_signed_part", .bytes [1, 2, 3]), ("lxmf_signature", .bytes [1, 2, 3]),
    ("display_name", .int 7)]

def pushOf (entries : List Val) : Py (PushAck × Store) :=
  handlePushMessages sampleScheme (some {}) 1000 sampleStore (pushPayload "general" "peer" entries)
    none none (none : Option Unit)

def mixedEntries : List Val := [sampleEntry "m1" "hello", numberedName]

lemma mixedEntries_opened :
    openBatch (some {}) sampleStore (pushPayload "general" "peer" mixedEntries) none =
      .ok (.str "general", batchFor (some {}) sampleStore "general" (.str "peer"), mixedEntries) :=
  openBatch_pushPayload.mpr ⟨by decide,rfl,rfl⟩

lemma general_stored : getById sampleStore "general" = some { id := "general" } := by
  rfl

theorem mixedEntries_independent_iff : ((∃ ack st', pushOf mixedEntries = .ok (ack, st')) ∧
      StoredAsAlone sampleScheme (some {}) 1000 sampleStore
        (committed sampleStore (pushOf mixedEntries))
        (batchFor (some {}) sampleStore "general" (.str "peer")) mixedEntries none none
        (none : Option Unit)) ↔
      EntriesTyped sampleScheme (batchFor (some {}) sampleStore "general" (.str "peer")) 1000
        sampleStore mixedEntries :=
  entries_independent_iff sampleScheme (some {}) 1000 sampleStore _ none none none
    mixedEntries_opened general_stored

theorem good_entry_lost : (getByHash (committed sampleStore (pushOf [sampleEntry "m1" "hello"]))
        "m1").isSome = true ∧ (pushOf mixedEntries).toOption.isNone = true ∧
      (getByHash (committed sampleStore (pushOf mixedEntries)) "m1").isNone = true := by
  decide +kernel

end Hokora.EntryIndependence
