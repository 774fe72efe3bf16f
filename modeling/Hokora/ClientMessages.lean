import Hokora.ReadHandlers
import Hokora.TransitionRuns

/-!
# Messages on the client

Verification, merging, caches and cursors. Views and other tables of the client are not modelled.
-/
namespace Hokora.ClientMessages
open BigEndian KeyedTable PyValue ReadHandlers SenderBinding
open List

inductive Key where
  | text (s : String)
  | bytes (b : Bytes)
  | number (q : ℚ)
  | infinity (positive : Bool)
  deriving DecidableEq

def hashKey : Val → Py (Option Key)
  | .none => .ok none
  | .bool b => .ok (some (.number (if b then 1 else 0)))
  | .int i => .ok (some (.number i))
  | .float (.fin q) => .ok (some (.number q))
  | .float .posInf => .ok (some (.infinity true))
  | .float .negInf => .ok (some (.infinity false))
  | .float .nan => .ok none
  | .str s => .ok (some (.text s))
  | .bytes b => .ok (some (.bytes b))
  | .list _ => .error .typeError
  | .dict _ => .error .typeError

def field (m : Entry) (k : String) : Val := (m.lookup k).getD .none

def assign (m : Entry) (k : String) (v : Val) : Entry := (k, v) :: m

def merged (existing m : Entry) : Entry := m ++ existing

def isNone : Val → Bool
  | .none => true
  | _ => false

variable {v publicKey : Val}

lemma field_assign_self {m : Entry} {k : String} : field (assign m k v) k = v := by
  rw [field,assign,lookup_cons_self,Option.getD_some]

lemma field_assign_ne {m : Entry} {k j : String} (h : j ≠ k) :
    field (assign m k v) j = field m j := by
  have hb : (j == k) = false := beq_eq_false_iff_ne.mpr h
  rw [field,assign,lookup_cons,hb,field]

lemma field_merged (e m : Entry) (k : String) :
    field (merged e m) k = if (m.lookup k).isSome then field m k else field e k := by
  rw [field,merged,lookup_append]
  cases hk : m.lookup k with
  | none => rfl
  | some v =>
    rw [Option.isSome_some,if_pos rfl,field,hk]
    rfl

variable {e m : Entry} {g g' : Merge} {k : Option Key} {sig : SignatureScheme}

lemma lookup_isSome_of_truthy {k : String} (h : (field m k).truthy = true) :
    (m.lookup k).isSome = true := by
  cases hk : m.lookup k with
  | none =>
    rw [field,hk] at h
    cases h
  | some v => rfl

structure Pin where
  sender : Key
  publicKey : Bytes
  deriving DecidableEq

abbrev Pins := Table Pin.sender

def checkSigned (sig : SignatureScheme) (publicKey signedPart signature : Val) : Py Bool :=
  match publicKey with
  | .bytes pk => .ok (verifyEd25519Signature sig pk signedPart signature)
  | .none => .ok false
  | v => do
      let _ ← v.len
      pure false

def complete (msg : Entry) : Bool :=
  (field msg "lxmf_signature").truthy && (field msg "sender_public_key").truthy &&
    (field msg "lxmf_signed_part").truthy && (field msg "sender_hash").truthy

def differs (cached : Bytes) (publicKey : Val) : Bool :=
  match publicKey with
  | .bytes pk => cached ≠ pk
  | _ => true

structure Verdict where
  verified : Option Bool
  identityKeys : Pins
  newKey : Option Pin := none

def pinnedKey (identityKeys : Pins) (sender : Option Key) : Option Bytes :=
  (sender.bind identityKeys.get?).map Pin.publicKey |>.filter fun pk => pk ≠ []

/-- What the column `sender_hash` of the pins keeps: TEXT affinity turns a number into text. A value
that cannot be bound leaves no row, as the error of the hook is caught. -/
def columnKey : Val → Option Key
  | .bytes b => some (.bytes b)
  | v => (WireRows.bindText v).toOption.join.map .text

def accept (identityKeys : Pins) (sender row : Option Key) (publicKey : Val) : Verdict :=
  match sender, publicKey with
  | some k, .bytes pk =>
    { verified := some true
      identityKeys := identityKeys.set ⟨k,pk⟩
      newKey := if (pinnedKey identityKeys sender).isNone then row.map fun r => ⟨r,pk⟩ else none }
  | _, _ => { verified := some true, identityKeys := identityKeys }

def verifyMessageSignature (sig : SignatureScheme) (identityKeys : Pins) (msg : Entry) :
    Py Verdict :=
  if complete msg = false then .ok ⟨none,identityKeys,none⟩
  else do
    let sender ← hashKey (field msg "sender_hash")
    let publicKey := field msg "sender_public_key"
    if (pinnedKey identityKeys sender).any fun cached => differs cached publicKey then
      pure ⟨some false,identityKeys,none⟩
    else do
      let verified ← checkSigned sig publicKey (field msg "lxmf_signed_part")
        (field msg "lxmf_signature")
      pure (if verified then
          accept identityKeys sender (columnKey (field msg "sender_hash")) publicKey
        else ⟨some false,identityKeys,none⟩)

lemma accept_verified {identityKeys : Pins} {sender row : Option Key} :
    (accept identityKeys sender row publicKey).verified = some true := by
  unfold accept
  split <;> rfl

lemma checkSigned_true {signedPart signature : Val}
    (h : checkSigned sig publicKey signedPart signature = .ok true) :
    ∃ pk, publicKey = .bytes pk ∧ pk ≠ [] := by
  unfold checkSigned at h
  split at h
  next pk =>
    refine ⟨pk,rfl,?_⟩
    rintro rfl
    have hv := Except.ok.inj h
    unfold verifyEd25519Signature at hv
    split at hv <;> cases hv
  · cases h
  · obtain ⟨n,-,h⟩ := bind_ok h
    cases h

variable {msg x : Entry} {es ms : List Entry} {identityKeys : Pins} {v : Verdict} {i : ℕ}

lemma verdict_cases (h : verifyMessageSignature sig identityKeys msg = .ok v) :
    (v.verified ≠ some true ∧ v.identityKeys = identityKeys ∧ v.newKey = none) ∨
      ∃ sender pk, (field msg "sender_hash").truthy = true ∧
        hashKey (field msg "sender_hash") = .ok sender ∧
        field msg "sender_public_key" = .bytes pk ∧ pk ≠ [] ∧
        (∀ cached, pinnedKey identityKeys sender = some cached → cached = pk) ∧
        v = accept identityKeys sender (columnKey (field msg "sender_hash")) (.bytes pk) := by
  unfold verifyMessageSignature at h
  split_ifs at h with hc
  · cases h
    exact .inl ⟨nofun,rfl,rfl⟩
  obtain ⟨sender,hs,h⟩ := bind_ok h
  dsimp only at h
  split_ifs at h with hco
  · cases h
    exact .inl ⟨nofun,rfl,rfl⟩
  obtain ⟨b,hb,h⟩ := bind_ok h
  cases h
  cases b with
  | false => exact .inl ⟨nofun,rfl,rfl⟩
  | true =>
    obtain ⟨pk,hpk,hne⟩ := checkSigned_true hb
    have hse : (field msg "sender_hash").truthy = true := by
      simp only [complete,Bool.not_eq_false,Bool.and_eq_true] at hc
      exact hc.2
    refine .inr ⟨sender,pk,hse,hs,hpk,hne,?_,by rw [hpk]; rfl⟩
    intro cached hca
    rw [hca,hpk] at hco
    simpa [differs] using hco

lemma verified_none_iff (h : verifyMessageSignature sig identityKeys msg = .ok v) :
    v.verified = none ↔ complete msg = false := by
  unfold verifyMessageSignature at h
  split_ifs at h with hc
  · cases h
    exact ⟨fun _ => hc,fun _ => rfl⟩
  have hs : ∃ b, v.verified = some b := by
    obtain ⟨sender,-,h⟩ := bind_ok h
    dsimp only at h
    split_ifs at h
    · cases h
      exact ⟨false,rfl⟩
    obtain ⟨b,-,h⟩ := bind_ok h
    cases h
    cases b
    · exact ⟨false,rfl⟩
    · exact ⟨true,accept_verified⟩
  obtain ⟨b,hb⟩ := hs
  rw [hb]
  exact ⟨nofun,fun h => absurd h hc⟩

def persistPin (tofuKeys : Pins) : Option Pin → Pins
  | some p => (tofuKeys.insert? p).getD tofuKeys
  | none => tofuKeys

structure Cache where
  channel : Key
  messages : List Entry

structure Cursor where
  channel : Key
  lastSeq : Val

inductive Alarm where
  | extend (channel : Option Key) (messages : List Entry)
  | update (msg : Entry)
  | markThread (channel : Option Key) (rootHash : Val)

structure Client where
  identityKeys : Pins := .empty
  tofuKeys : Pins := .empty
  messages : Table Cache.channel := .empty
  cursors : Table Cursor.channel := .empty
  savedCursors : Table Cursor.channel := .empty
  stored : List Entry := []
  alarms : List Alarm := []
  proved : List Entry := []

namespace Client
variable (s : Client)

def cached (channel : Option Key) : List Entry :=
  ((channel.bind s.messages.get?).map Cache.messages).getD []

def setCached (channel : Option Key) (messages : List Entry) : Client :=
  match channel with
  | some k => { s with messages := s.messages.set ⟨k,messages⟩ }
  | none => s

lemma cached_setCached {k : Key} {messages : List Entry} {c : Option Key} :
    (s.setCached (some k) messages).cached c =
      if c = some k then messages else s.cached c := by
  cases c with
  | none => rfl
  | some j =>
    simp only [cached,setCached,Option.bind_some,Table.get?_set]
    by_cases hj : k = j
    · subst hj
      rw [if_pos rfl,if_pos rfl]
      rfl
    · rw [if_neg hj,if_neg fun h => hj (Option.some.inj h).symm]

def cursor (channel : Option Key) : Val :=
  ((channel.bind s.cursors.get?).map Cursor.lastSeq).getD (.int 0)

def setCursor (channel : Option Key) (seq : Val) : Client :=
  match channel with
  | some k => { s with cursors := s.cursors.set ⟨k,seq⟩ }
  | none => s

def saveCursor (channel : Option Key) (seq : Val) : Client :=
  match channel with
  | some k => { s with savedCursors := s.savedCursors.set ⟨k,seq⟩ }
  | none => s

def store (messages : List Entry) : Client := { s with stored := s.stored ++ messages }

def schedule (a : Alarm) : Client := { s with alarms := s.alarms ++ [a] }

def verify (sig : SignatureScheme) (msg : Entry) : Client × Py (Option Bool) :=
  match verifyMessageSignature sig s.identityKeys msg with
  | .error e => (s, .error e)
  | .ok v =>
    ({ s with
      identityKeys := v.identityKeys
      tofuKeys := persistPin s.tofuKeys v.newKey
      proved := if v.verified = some true then s.proved ++ [msg] else s.proved },
      .ok v.verified)

lemma verify_ok (h : verifyMessageSignature sig s.identityKeys msg = .ok v) :
    s.verify sig msg = ({ s with
        identityKeys := v.identityKeys
        tofuKeys := persistPin s.tofuKeys v.newKey
        proved := if v.verified = some true then s.proved ++ [msg] else s.proved },
        .ok v.verified) := by
  rw [verify,h]

lemma verify_cases (sig : SignatureScheme) (msg : Entry) : (∃ e, s.verify sig msg = (s, .error e)) ∨
      ∃ verdict identityKeys tofuKeys, (verdict = none ↔ complete msg = false) ∧
        s.verify sig msg = ({ s with
          identityKeys := identityKeys
          tofuKeys := tofuKeys
          proved := if verdict = some true then s.proved ++ [msg] else s.proved },
          .ok verdict) := by
  cases hv : verifyMessageSignature sig s.identityKeys msg with
  | error e => exact .inl ⟨e,by rw [verify,hv]⟩
  | ok v => exact .inr ⟨v.verified,v.identityKeys,_,verified_none_iff hv,s.verify_ok hv⟩

end Client

def entryKey (m : Entry) : Option Key :=
  let h := field m "msg_hash"
  if h.truthy then (hashKey h).toOption.bind id else none

def hasKey (k : Option Key) (e : Entry) : Bool := k.isSome && entryKey e = k

def lastKnown (k : Option Key) : List Entry → Option (ℕ × Entry)
  | [] => none
  | e :: es =>
    match lastKnown k es with
    | some (i, x) => some (i + 1, x)
    | none => if hasKey k e then some (0, e) else none

lemma lastKnown_some (h : lastKnown k es = some (i, x)) : x ∈ es ∧ hasKey k x = true := by
  induction es generalizing i with
  | nil => cases h
  | cons e es ih =>
    rw [lastKnown] at h
    cases hr : lastKnown k es with
    | some p =>
      rw [hr] at h
      obtain ⟨hx,hk⟩ := ih (i := p.1) (hr.trans (by cases h; rfl))
      exact ⟨mem_cons_of_mem _ hx,hk⟩
    | none =>
      rw [hr] at h
      split_ifs at h with hk
      cases h
      exact ⟨mem_cons_self,hk⟩

lemma entryKey_eq (ht : (field m "msg_hash").truthy = true)
    (h : hashKey (field m "msg_hash") = .ok k) : entryKey m = k := by
  simp only [entryKey,ht,if_pos,h]
  cases k <;> rfl

lemma hasKey_eq (h : hasKey k e = true) : entryKey e = k := by
  rw [hasKey,Bool.and_eq_true] at h
  exact of_decide_eq_true h.2

structure Merge where
  cached : List Entry
  fresh : List Entry := []
  updated : List ℕ := []

def withThread (existing m : Entry) : Entry :=
  let e := assign existing "has_thread" (.bool true)
  let e := if (field m "reply_count").truthy then
    assign e "reply_count" (field m "reply_count") else e
  let e := if (field m "edited").truthy && !(field e "edited").truthy then
    assign e "edited" (.bool true) else e
  if (field m "body").truthy && !(field e "body").truthy then
    assign e "body" (field m "body") else e

def mergeKnown (g : Merge) (i : ℕ) (existing m : Entry) : Merge :=
  if !(field existing "body").truthy && (field m "body").truthy then
    { g with cached := g.cached.set i (merged existing m), updated := g.updated ++ [i] }
  else if (field m "has_thread").truthy && !(field existing "has_thread").truthy then
    { g with cached := g.cached.set i (withThread existing m), updated := g.updated ++ [i] }
  else g

def mergeOne (g : Merge) (m : Entry) : Py Merge :=
  let h := field m "msg_hash"
  if h.truthy = false then .ok g
  else do
    let k ← hashKey h
    match lastKnown k g.cached with
    | none => pure { g with fresh := g.fresh ++ [m] }
    | some (i, existing) => pure (mergeKnown g i existing m)

def mergeAll : Merge → List Entry → Merge × Py Unit
  | g, [] => (g, .ok ())
  | g, m :: ms =>
    match mergeOne g m with
    | .error e => (g, .error e)
    | .ok g' => mergeAll g' ms

lemma mergeKnown_cached (h : e ∈ (mergeKnown g i x m).cached) :
    e ∈ g.cached ∨ e = merged x m ∨ e = withThread x m := by
  unfold mergeKnown at h
  split_ifs at h
  · rcases mem_or_eq_of_mem_set h with h | h
    · exact .inl h
    · exact .inr (.inl h)
  · rcases mem_or_eq_of_mem_set h with h | h
    · exact .inl h
    · exact .inr (.inr h)
  · exact .inl h

lemma mergeKnown_fresh : (mergeKnown g i x m).fresh = g.fresh := by
  unfold mergeKnown
  split_ifs <;> rfl

lemma mergeOne_cases (h : mergeOne g m = .ok g') : (field m "msg_hash").truthy = false ∧ g' = g ∨
      (field m "msg_hash").truthy = true ∧ (g' = { g with fresh := g.fresh ++ [m] } ∨
          ∃ i, ∃ x ∈ g.cached, entryKey x = entryKey m ∧ g' = mergeKnown g i x m) := by
  simp only [mergeOne] at h
  split_ifs at h with ht
  · cases h
    exact .inl ⟨ht,rfl⟩
  have ht' : (field m "msg_hash").truthy = true := Bool.not_eq_false _ ▸ ht
  obtain ⟨k,hk,h⟩ := bind_ok h
  refine .inr ⟨ht',?_⟩
  cases hl : lastKnown k g.cached with
  | none =>
    rw [hl] at h
    cases h
    exact .inl rfl
  | some p =>
    obtain ⟨hx,hxk⟩ := lastKnown_some (i := p.1) hl
    rw [hl] at h
    cases h
    exact .inr ⟨p.1,p.2,hx,(hasKey_eq hxk).trans (entryKey_eq ht' hk).symm,rfl⟩

lemma mergeOne_cached (h : mergeOne g m = .ok g') (he : e ∈ g'.cached) : e ∈ g.cached ∨
      ∃ x ∈ g.cached, entryKey x = entryKey m ∧ (e = merged x m ∨ e = withThread x m) := by
  rcases mergeOne_cases h with ⟨-,rfl⟩ | ⟨-,rfl | ⟨i,x,hx,hk,rfl⟩⟩
  · exact .inl he
  · exact .inl he
  · exact (mergeKnown_cached he).imp_right fun hm => ⟨x,hx,hk,hm⟩

lemma mergeOne_fresh (h : mergeOne g m = .ok g') (he : e ∈ g'.fresh) : e ∈ g.fresh ∨ e = m := by
  rcases mergeOne_cases h with ⟨-,rfl⟩ | ⟨-,rfl | ⟨i,x,hx,hk,rfl⟩⟩
  · exact .inl he
  · rcases mem_append.mp he with he | he
    · exact .inl he
    · exact .inr (mem_singleton.mp he)
  · rw [mergeKnown_fresh] at he
    exact .inl he

lemma mergeAll_cached {P : Entry → Prop}
    (hme : ∀ x m, P x → m ∈ ms → entryKey x = entryKey m → P (merged x m))
    (ht : ∀ x m, P x → P (withThread x m)) (hg : ∀ e ∈ g.cached, P e) :
    ∀ e ∈ (mergeAll g ms).1.cached, P e := by
  induction ms generalizing g with
  | nil => exact hg
  | cons m ms ih =>
    rw [mergeAll]
    cases hm : mergeOne g m with
    | error e => exact hg
    | ok g' =>
      apply ih fun x m' hx hm' => hme x m' hx (mem_cons_of_mem _ hm')
      intro e he
      rcases mergeOne_cached hm he with he | ⟨x,hx,hk,rfl | rfl⟩
      · exact hg e he
      · exact hme x m (hg x hx) mem_cons_self hk
      · exact ht x m (hg x hx)

lemma mergeAll_fresh (he : e ∈ (mergeAll g ms).1.fresh) : e ∈ g.fresh ∨ e ∈ ms := by
  induction ms generalizing g with
  | nil => exact .inl he
  | cons m ms ih =>
    rw [mergeAll] at he
    cases hm : mergeOne g m with
    | error e =>
      rw [hm] at he
      exact .inl he
    | ok g' =>
      rw [hm] at he
      rcases ih he with he | he
      · rcases mergeOne_fresh hm he with he | rfl
        · exact .inl he
        · exact .inr mem_cons_self
      · exact .inr (mem_cons_of_mem _ he)

lemma field_withThread (e m : Entry) {k : String} (h : k ≠ "has_thread")
    (hr : k ≠ "reply_count") (he : k ≠ "edited") (hb : k ≠ "body") :
    field (withThread e m) k = field e k := by
  have hc : ∀ (c : Bool) (d : Entry) (j : String) (v : Val), k ≠ j →
      field (if c then assign d j v else d) k = field d k := by
    intro c d j v hj
    cases c
    · rfl
    · exact field_assign_ne hj
  simp only [withThread]
  rw [hc _ _ _ _ hb,hc _ _ _ _ he,hc _ _ _ _ hr,field_assign_ne h]

def numbered (messages : List Entry) : List Entry :=
  messages.filter fun m => !isNone (field m "seq")

def Merge.rows (g : Merge) : List Entry :=
  numbered g.fresh ++ numbered (g.updated.filterMap fun i => g.cached[i]?)

def Client.persist (s : Client) (channel : Option Key) (rows : List Entry) (latestSeq : Val) :
    Client :=
  if rows.isEmpty then s
  else if latestSeq.truthy then (s.store rows).saveCursor channel latestSeq
  else s.store rows

def Client.keep (s : Client) (channel : Option Key) (g : Merge) (latestSeq : Val) : Client :=
  let s := s.persist channel g.rows latestSeq
  if g.fresh.isEmpty then s else s.schedule (.extend channel (numbered g.fresh))

def onMessages (s : Client) (channelId : Val) (messages : List Entry) (latestSeq : Val) :
    Client × Py Unit :=
  match hashKey channelId with
  | .error e => (s, .error e)
  | .ok channel =>
    let (g, outcome) := mergeAll { cached := s.cached channel } messages
    let s := s.setCached channel g.cached
    match outcome with
    | .error e => (s, .error e)
    | .ok () => (s.keep channel g latestSeq, .ok ())

def verifyAll (sig : SignatureScheme) : Client → List Entry → Client × Py (List Entry)
  | s, [] => (s, .ok [])
  | s, m :: ms =>
    match s.verify sig m with
    | (s', .error e) => (s', .error e)
    | (s', .ok verified) =>
      let r := verifyAll sig s' ms
      (r.1, r.2.map fun rest => assign m "verified" (.bool (verified = some true)) :: rest)

def pyMax (a b : Val) : Py Val :=
  match a.num?, b.num? with
  | some x, some y => .ok (if x.lt y then b else a)
  | _, _ => .error .typeError

def seqOf (m : Entry) : Val := (m.lookup "seq").getD (.int 0)

def maxSeq : Val → List Entry → Py Val
  | top, [] => .ok top
  | top, m :: ms => do
      let top' ← pyMax top (seqOf m)
      maxSeq top' ms

def nextCursor (cursor : Val) : List Entry → Py Val
  | [] => .ok cursor
  | m :: ms => do
      let top ← maxSeq (seqOf m) ms
      pyMax cursor top

def handleHistory (sig : SignatureScheme) (s : Client) (channelId : Val) (messages : List Entry) :
    Client × Py Unit :=
  if channelId.truthy = false then (s, .ok ())
  else
    match verifyAll sig s messages with
    | (s, .error e) => (s, .error e)
    | (s, .ok checked) =>
      match hashKey channelId with
      | .error e => (s, .error e)
      | .ok channel =>
        match nextCursor (s.cursor channel) checked with
        | .error e => (s, .error e)
        | .ok top =>
          let s := if checked.isEmpty then s else s.setCursor channel top
          onMessages s channelId checked top

def marked (msg : Entry) : Option Bool → Entry
  | some b => assign msg "verified" (.bool b)
  | none => msg

def dispatchMessage (sig : SignatureScheme) (s : Client) (msg : Entry) : Client × Py Unit :=
  let channelId := field msg "channel_id"
  if channelId.truthy = false then (s, .ok ())
  else
    match s.verify sig msg with
    | (s, .error e) => (s, .error e)
    | (s, .ok verified) =>
      let msg := marked msg verified
      match onMessages s channelId [msg] (seqOf msg) with
      | (s, .error e) => (s, .error e)
      | (s, .ok ()) =>
        if (field msg "reply_to").truthy && !isNone (field msg "thread_seq") then
          (s.schedule (.markThread ((hashKey channelId).toOption.bind id)
            (field msg "reply_to")), .ok ())
        else (s, .ok ())

def changeFirst (k : Option Key) (f : Entry → Entry) : List Entry → List Entry
  | [] => []
  | e :: es => if hasKey k e then f e :: es else e :: changeFirst k f es

def Client.known (s : Client) (channel : Option Key) : Bool :=
  (channel.bind s.messages.get?).isSome

def keyOf (h : Val) : Option Key := (hashKey h).toOption.bind id

def threaded (m : Entry) : Entry := assign m "has_thread" (.bool true)

def fire (s : Client) : Alarm → Client
  | .extend channel messages => s.setCached channel (s.cached channel ++ messages)
  | .update msg =>
    let channelId := field msg "channel_id"
    if channelId.truthy && (field msg "msg_hash").truthy && s.known (keyOf channelId) then
      (s.setCached (keyOf channelId) (changeFirst (keyOf (field msg "msg_hash")) (fun _ => msg)
        (s.cached (keyOf channelId)))).store [msg]
    else s
  | .markThread channel rootHash =>
    match (s.cached channel).find? (hasKey (keyOf rootHash)) with
    | some m =>
      (s.setCached channel (changeFirst (keyOf rootHash) threaded (s.cached channel))).store
        [threaded m]
    | none => s

lemma mem_changeFirst {f : Entry → Entry} (h : e ∈ changeFirst k f es) :
    e ∈ es ∨ ∃ x ∈ es, e = f x := by
  induction es with
  | nil => cases h
  | cons x es ih =>
    rw [changeFirst] at h
    split_ifs at h
    · rcases mem_cons.mp h with rfl | h
      · exact .inr ⟨x,mem_cons_self,rfl⟩
      · exact .inl (mem_cons_of_mem _ h)
    rcases mem_cons.mp h with rfl | h
    · exact .inl mem_cons_self
    rcases ih h with h | ⟨y,hy,rfl⟩
    · exact .inl (mem_cons_of_mem _ h)
    · exact .inr ⟨y,mem_cons_of_mem _ hy,rfl⟩

lemma Client.setCached_proved (s : Client) (c : Option Key) (ms : List Entry) :
    (s.setCached c ms).proved = s.proved := by
  cases c <;> rfl

lemma Client.keep_proved {s : Client} {c : Option Key} {latest : Val} :
    (s.keep c g latest).proved = s.proved := by
  have hp : (s.persist c g.rows latest).proved = s.proved := by
    unfold Client.persist
    split_ifs
    · rfl
    · cases c <;> rfl
    · rfl
  simp only [Client.keep]
  split_ifs
  · exact hp
  · exact hp

lemma onMessages_proved (s : Client) (ch : Val) (ms : List Entry) (latest : Val) :
    (onMessages s ch ms latest).1.proved = s.proved := by
  unfold onMessages
  cases hashKey ch with
  | error e => rfl
  | ok c =>
    dsimp only
    cases (mergeAll { cached := s.cached c } ms).2 with
    | error e => exact s.setCached_proved c _
    | ok u => exact Client.keep_proved.trans (s.setCached_proved c _)

lemma fire_proved (s : Client) (a : Alarm) : (fire s a).proved = s.proved := by
  cases a with
  | extend c ms => exact s.setCached_proved c _
  | update msg =>
    simp only [fire]
    split_ifs
    · exact s.setCached_proved _ _
    · rfl
  | markThread c rootHash =>
    simp only [fire]
    split
    · exact s.setCached_proved _ _
    · rfl

def Alarm.entries : Alarm → List Entry
  | .extend _ messages => messages
  | .update msg => [msg]
  | .markThread _ _ => []

structure Held (P : Entry → Prop) (s : Client) : Prop where
  cached : ∀ c, ∀ e ∈ s.cached c, P e
  alarms : ∀ a ∈ s.alarms, ∀ e ∈ a.entries, P e
  stored : ∀ e ∈ s.stored, P e

namespace Held
variable {P Q : Entry → Prop} {s : Client}

lemma mono (h : Held P s) (hPQ : ∀ e, P e → Q e) : Held Q s :=
  ⟨fun c e he => hPQ e (h.cached c e he),fun a ha e he => hPQ e (h.alarms a ha e he),
    fun e he => hPQ e (h.stored e he)⟩

lemma store (h : Held P s) (hms : ∀ e ∈ ms, P e) : Held P (s.store ms) := by
  refine ⟨h.cached,h.alarms,?_⟩
  intro e he
  rcases mem_append.mp he with he | he
  · exact h.stored e he
  · exact hms e he

lemma schedule (h : Held P s) {a : Alarm} (ha : ∀ e ∈ a.entries, P e) : Held P (s.schedule a) := by
  refine ⟨h.cached,?_,h.stored⟩
  intro b hb
  rcases mem_append.mp hb with hb | hb
  · exact h.alarms b hb
  · rw [mem_singleton.mp hb]
    exact ha

lemma saveCursor (h : Held P s) (c : Option Key) (seq : Val) : Held P (s.saveCursor c seq) := by
  cases c <;> exact ⟨h.cached,h.alarms,h.stored⟩

lemma setCursor (h : Held P s) (c : Option Key) (seq : Val) : Held P (s.setCursor c seq) := by
  cases c <;> exact ⟨h.cached,h.alarms,h.stored⟩

lemma setCached (h : Held P s) (c : Option Key) (hms : ∀ e ∈ ms, P e) :
    Held P (s.setCached c ms) := by
  cases c with
  | none => exact h
  | some k =>
    refine ⟨?_,h.alarms,h.stored⟩
    intro d e he
    rw [Client.cached_setCached] at he
    split_ifs at he
    · exact hms e he
    · exact h.cached d e he

lemma persist (h : Held P s) (c : Option Key) {rows : List Entry} (latest : Val)
    (hr : ∀ e ∈ rows, P e) : Held P (s.persist c rows latest) := by
  unfold Client.persist
  split_ifs
  · exact h
  · exact (h.store hr).saveCursor c latest
  · exact h.store hr

lemma keep (h : Held P s) (c : Option Key) (latest : Val) (hc : ∀ e ∈ g.cached, P e)
    (hn : ∀ e ∈ numbered g.fresh, P e) : Held P (s.keep c g latest) := by
  have hr : ∀ e ∈ g.rows, P e := by
    intro e he
    rcases mem_append.mp he with he | he
    · exact hn e he
    · obtain ⟨i,-,hi⟩ := mem_filterMap.mp (mem_of_mem_filter he)
      exact hc e (mem_of_getElem? hi)
  have hk := h.persist c latest hr
  simp only [Client.keep]
  split_ifs
  · exact hk
  · exact hk.schedule (a := .extend c (numbered g.fresh)) hn

lemma onMessages (h : Held P s) (ch latest : Val) {messages : List Entry}
    (hm : ∀ c, hashKey ch = .ok c →
      ∀ e ∈ (mergeAll { cached := s.cached c } messages).1.cached, P e)
    (hms : ∀ m ∈ numbered messages, P m) :
    Held P (ClientMessages.onMessages s ch messages latest).1 := by
  unfold ClientMessages.onMessages
  cases hc : hashKey ch with
  | error e => exact h
  | ok c =>
    have hs := h.setCached c (hm c hc)
    dsimp only
    cases (mergeAll { cached := s.cached c } messages).2 with
    | error e => exact hs
    | ok u =>
      apply hs.keep c latest (hm c hc)
      intro e he
      obtain ⟨hf,hse⟩ := mem_filter.mp he
      rcases mergeAll_fresh hf with hn | hme
      · cases hn
      · exact hms e (mem_filter.mpr ⟨hme,hse⟩)

lemma fire (h : Held P s) (ht : ∀ e, P e → P (threaded e)) {a : Alarm}
    (ha : ∀ e ∈ a.entries, P e) : Held P (ClientMessages.fire s a) := by
  cases a with
  | extend c ms =>
    apply h.setCached c
    intro e he
    exact (mem_append.mp he).elim (h.cached c e) (ha e)
  | update msg =>
    have hm := ha msg mem_cons_self
    simp only [ClientMessages.fire]
    split_ifs
    · apply (h.setCached _ ?_).store
      · intro e he
        rwa [mem_singleton.mp he]
      intro e he
      rcases mem_changeFirst he with he | ⟨-,-,rfl⟩
      · exact h.cached _ e he
      · exact hm
    · exact h
  | markThread c rootHash =>
    simp only [ClientMessages.fire]
    cases hf : (s.cached c).find? (hasKey (keyOf rootHash)) with
    | none => exact h
    | some m =>
      apply (h.setCached c ?_).store
      · intro e he
        rw [mem_singleton.mp he]
        exact ht m (h.cached c m (mem_of_find?_eq_some hf))
      intro e he
      rcases mem_changeFirst he with he | ⟨x,hx,rfl⟩
      · exact h.cached _ e he
      · exact ht x (h.cached _ x hx)

end Held

def Client.restart (s : Client) : Client :=
  { identityKeys := s.tofuKeys
    tofuKeys := s.tofuKeys
    cursors := s.savedCursors
    savedCursors := s.savedCursors
    stored := s.stored
    proved := s.proved }

inductive Event where
  | history (channelId : Val) (messages : List Entry)
  | message (msg : Entry)
  | messageUpdated (msg : Entry)
  | alarm

def step (sig : SignatureScheme) (s : Client) : Event → Client
  | .history channelId messages => (handleHistory sig s channelId messages).1
  | .message msg => (dispatchMessage sig s msg).1
  | .messageUpdated msg => s.schedule (.update msg)
  | .alarm =>
    match s.alarms with
    | [] => s
    | a :: rest => fire { s with alarms := rest } a

inductive Incoming where
  | event (e : Event)
  | batch (items : List Incoming)
  | replay (items : List Incoming)

mutual

def Incoming.events : Incoming → List Event
  | .event e => [e]
  | .batch items => eventsAll items
  | .replay items => eventsAll items

def eventsAll : List Incoming → List Event
  | [] => []
  | i :: is => i.events ++ eventsAll is

end

def sampleScheme : SignatureScheme := ⟨fun _ => "",fun _ message signature => message = signature⟩

def sampleMaterial (key : UInt8) : Entry :=
  [("sender_hash", .str "ann"), ("sender_public_key", .bytes (replicate 32 key)),
    ("lxmf_signed_part", .bytes [1, 2]), ("lxmf_signature", .bytes [1, 2])]

end Hokora.ClientMessages
