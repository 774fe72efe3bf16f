import Mathlib.Algebra.Group.Int.Defs
import Hokora.NumberText
import Hokora.Repositories

/-!
# Rows built from wire fields

What a column stores for a value of a request. SQLite converts by the affinity of the column and
keeps what it cannot convert, so a column of text may hold a BLOB and a column of integers a REAL, a
TEXT or a BLOB. The columns of the model hold text and integers only; such cells stand in them under
codes that no value of the column's own kind has.
-/
namespace Hokora.WireRows
open BigEndian Constants Database NumberText PyValue Repositories

def fitsInt64 (i : ℤ) : Bool := -(2 ^ 63) ≤ i && i < 2 ^ 63

/-- The value under TEXT affinity: numbers become text, a NaN becomes NULL. -/
def bindText : Val → Py (Option String)
  | .none => .ok none
  | .str s => .ok (some s)
  | .bytes b => .ok (some (blobText b))
  | .bool b => .ok (some (if b then "1" else "0"))
  | .int i => if fitsInt64 i then .ok (some (toString i)) else .error .overflowError
  | .float (.fin q) => .ok (some (floatText q))
  | .float .posInf => .ok (some "Inf")
  | .float .negInf => .ok (some "-Inf")
  | .float .nan => .ok none
  | _ => .error .interfaceError

def bindBlob : Val → Py (Option Bytes)
  | .none => .ok none
  | .bytes b => .ok (some b)
  | _ => .error .typeError

/-- The code, past the integers of eight bytes, of another cell in a column of integers. -/
def otherCell (cs : List Char) : ℤ :=
  2 ^ 63 + (cs.foldl (fun n c => 0x110000 * n + c.toNat) 1 : ℕ)

/-- A number under INTEGER affinity: a REAL that is no integer of eight bytes stays a REAL. -/
def numberCell (q : ℚ) : ℤ :=
  if q.den = 1 && fitsInt64 q.num then q.num
  else otherCell ('r' :: (toString q.num ++ "/" ++ toString q.den).toList)

def textCell (s : String) : ℤ :=
  match decimal s.toList with
  | some q => numberCell q
  | none => otherCell ('t' :: s.toList)

def bindInteger : Val → Py (Option ℤ)
  | .none => .ok none
  | .bool b => .ok (some (if b then 1 else 0))
  | .int i => if fitsInt64 i then .ok (some i) else .error .overflowError
  | .float (.fin q) => .ok (some (numberCell q))
  | .float .posInf => .ok (some (otherCell ['r', '+']))
  | .float .negInf => .ok (some (otherCell ['r', '-']))
  | .float .nan => .ok none
  | .str s => .ok (some (textCell s))
  | .bytes b => .ok (some (otherCell ('t' :: (blobText b).toList)))
  | _ => .error .interfaceError

/-- The text that `float()` reads. -/
def floatLiteral (cs : List Char) : Py (Option FloatVal) :=
  let signed := takeSign ((strip cs).map Char.toLower)
  if signed.2 = "nan".toList then .ok none
  else if signed.2 = "inf".toList ∨ signed.2 = "infinity".toList then
    .ok (some (if signed.1 < 0 then .negInf else .posInf))
  else
    match (dropUnderscores ' ' (strip cs)).bind decimal with
    | some q => .ok (some (.fin q))
    | none => .error .valueError

/-- The column of floats converts with `float()` before the value is bound. -/
def bindFloat : Val → Py (Option FloatVal)
  | .none => .ok none
  | .bool b => .ok (some (.fin (if b then 1 else 0)))
  | .int i => .ok (some (.fin i))
  | .float .nan => .ok none
  | .float x => .ok (some x)
  | .str s => floatLiteral s.toList
  | .bytes b => floatLiteral (b.map fun c => Char.ofNat c.toNat)
  | _ => .error .typeError

def notNull {A : Type} : Option A → Py A
  | some a => .ok a
  | none => .error .integrityError

structure WireBody where
  body : Val
  encryptedBody : Val
  encryptionNonce : Val
  encryptionEpoch : Val

structure WireRow where
  msgHash : Val
  channelId : String
  senderHash : Val
  timestamp : Val
  type : Val
  content : WireBody
  displayName : Val
  originNode : Val

def WireRow.bind (w : WireRow) (now : ℚ) : Py Message := do
  let msgHash ← notNull (← bindText w.msgHash)
  let senderHash ← bindText w.senderHash
  let timestamp ← notNull (← bindFloat w.timestamp)
  let type ← notNull (← bindInteger w.type)
  let body ← bindText w.content.body
  let encryptedBody ← bindBlob w.content.encryptedBody
  let encryptionNonce ← bindBlob w.content.encryptionNonce
  let encryptionEpoch ← bindInteger w.content.encryptionEpoch
  let displayName ← bindText w.displayName
  let originNode ← bindText w.originNode
  pure {
    msgHash := msgHash, channelId := w.channelId, senderHash := senderHash,
    timestamp := timestamp, type := type, body := body, encryptedBody := encryptedBody,
    encryptionNonce := encryptionNonce, encryptionEpoch := encryptionEpoch,
    displayName := displayName, originNode := originNode, receivedAt := now }

def addRow (st : Store) (w : WireRow) (seq : ℕ) (now : ℚ) : Py Store := do
  let row ← w.bind now
  MessageRepo.insert st { row with seq := some seq }

def getByWireHash (st : Store) (msgHash : Val) : Py (Option Message) := do
  let key ← bindText msgHash
  pure (key.bind (MessageRepo.getByHash st))

def bodySize : Val → Py ℕ
  | .str s => .ok s.utf8ByteSize
  | v => (v.or (.bytes [])).len

def shortName (displayName : Val) : Py Val := do
  let name ← (displayName.or (.str "")).take maxDisplayNameLength
  pure (name.or .none)

structure WireRow.Bound (w : WireRow) (row : Message) : Prop where
  msgHash : bindText w.msgHash = .ok (some row.msgHash)
  channelId : row.channelId = w.channelId
  originNode : bindText w.originNode = .ok row.originNode
  body : bindText w.content.body = .ok row.body
  signature : row.lxmfSignature = none
  signedPart : row.lxmfSignedPart = none

lemma notNull_ok {A : Type} {o : Option A} {a : A} : notNull o = .ok a ↔ o = some a := by
  cases o <;> simp [notNull]

structure WireRow.Columns (w : WireRow) (row : Message) : Prop where
  msgHash : bindText w.msgHash = .ok (some row.msgHash)
  senderHash : bindText w.senderHash = .ok row.senderHash
  timestamp : bindFloat w.timestamp = .ok (some row.timestamp)
  type : bindInteger w.type = .ok (some row.type)
  body : bindText w.content.body = .ok row.body
  encryptedBody : bindBlob w.content.encryptedBody = .ok row.encryptedBody
  encryptionNonce : bindBlob w.content.encryptionNonce = .ok row.encryptionNonce
  encryptionEpoch : bindInteger w.content.encryptionEpoch = .ok row.encryptionEpoch
  displayName : bindText w.displayName = .ok row.displayName
  originNode : bindText w.originNode = .ok row.originNode

def WireRow.rowOf (w : WireRow) (now : ℚ) (row : Message) : Message :=
  { msgHash := row.msgHash, channelId := w.channelId, senderHash := row.senderHash,
    timestamp := row.timestamp, type := row.type, body := row.body,
    encryptedBody := row.encryptedBody, encryptionNonce := row.encryptionNonce,
    encryptionEpoch := row.encryptionEpoch, displayName := row.displayName,
    originNode := row.originNode, receivedAt := now }

variable {st : Store} {w : WireRow} {now : ℚ} {row : Message}

lemma WireRow.bind_iff : w.bind now = .ok row ↔ w.Columns row ∧ row = w.rowOf now row := by
  unfold WireRow.bind
  constructor
  · intro h
    obtain ⟨_,hk,h⟩ := bind_ok h
    obtain ⟨_,hh,h⟩ := bind_ok h
    obtain ⟨_,hs,h⟩ := bind_ok h
    obtain ⟨_,ht,h⟩ := bind_ok h
    obtain ⟨_,ht',h⟩ := bind_ok h
    obtain ⟨_,hty,h⟩ := bind_ok h
    obtain ⟨_,hty',h⟩ := bind_ok h
    obtain ⟨_,hb,h⟩ := bind_ok h
    obtain ⟨_,hen,h⟩ := bind_ok h
    obtain ⟨_,hn,h⟩ := bind_ok h
    obtain ⟨_,he,h⟩ := bind_ok h
    obtain ⟨_,hna,h⟩ := bind_ok h
    obtain ⟨_,ho,h⟩ := bind_ok h
    cases h
    rw [notNull_ok] at hh ht' hty'
    exact ⟨⟨hh ▸ hk,hs,ht' ▸ ht,hty' ▸ hty,hb,hen,hn,he,hna,ho⟩,rfl⟩
  · rintro ⟨h,hr⟩
    simp only [h.msgHash,h.senderHash,h.timestamp,h.type,h.body,h.encryptedBody,
      h.encryptionNonce,h.encryptionEpoch,h.displayName,h.originNode,notNull,ok_bind]
    exact congrArg Except.ok hr.symm

lemma WireRow.bind_ok (h : w.bind now = .ok row) : w.Bound row := by
  obtain ⟨hc,hr⟩ := bind_iff.mp h
  refine ⟨hc.msgHash,?_,hc.originNode,hc.body,?_,?_⟩
  · exact congrArg Message.channelId hr
  · exact congrArg Message.lxmfSignature hr
  · exact congrArg Message.lxmfSignedPart hr

lemma WireRow.bind_retimed (h : w.bind now = .ok row) (now' : ℚ) :
    bindText w.senderHash = .ok row.senderHash ∧
      w.bind now' = .ok { row with receivedAt := now' } := by
  obtain ⟨hc,hr⟩ := bind_iff.mp h
  refine ⟨hc.senderHash,bind_iff.mpr ⟨?_,?_⟩⟩
  · exact ⟨hc.msgHash,hc.senderHash,hc.timestamp,hc.type,hc.body,
      hc.encryptedBody,hc.encryptionNonce,hc.encryptionEpoch,
      hc.displayName,hc.originNode⟩
  · rw [hr]
    rfl

lemma addRow_ok {st' : Store} {seq : ℕ} (h : addRow st w seq now = .ok st') :
    ∃ row t, w.bind now = .ok row ∧ st.messages.insert? { row with seq := some seq } = some t ∧
      st' = { st with messages := t } := by
  obtain ⟨row,hb,h⟩ := bind_ok h
  obtain ⟨-,t,ht,hst⟩ := MessageRepo.insert_ok h
  exact ⟨row,t,hb,ht,hst⟩

lemma addRow_of_fresh {c : Channel} (hb : w.bind now = .ok row)
    (hc : ChannelRepo.getById st w.channelId = some c)
    (hn : getByWireHash st w.msgHash = .ok none) (seq : ℕ) :
    ∃ st', addRow st w seq now = .ok st' := by
  obtain ⟨hh,hch,-,-,-,-⟩ := WireRow.bind_ok hb
  have hf : MessageRepo.getByHash st row.msgHash = none := by
    unfold getByWireHash at hn
    rw [hh,ok_bind] at hn
    exact Except.ok.inj hn
  have hc' : st.channels.get? { row with seq := some seq }.channelId = some c := by
    rw [← hc,← hch]
    rfl
  obtain ⟨t,-,hi⟩ := MessageRepo.insert_of_fresh hc' hf
  exact ⟨_,by rw [addRow,hb,ok_bind,hi]⟩

end Hokora.WireRows
