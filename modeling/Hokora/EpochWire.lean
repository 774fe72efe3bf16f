import Hokora.Constants
import Hokora.PyValue

/-!
# Frames of the epoch protocol

The three frames byte by byte. Lengths are those that the decoders check.
-/
namespace Hokora.EpochWire
open BigEndian Constants PyValue
open List (append_assoc replicate)

def epochRotateLen : ℕ := 1 + 8 + 4 + 32 + 32 + 64
def epochRotateAckLen : ℕ := 1 + 8 + 32 + 32 + 64
def epochDataHeaderLen : ℕ := 1 + 8 + 24

structure EpochRotate where
  epochId : ℕ
  epochDuration : ℕ
  ephPubkey : Bytes
  prevEpochHash : Bytes
  signature : Bytes

structure EpochRotateAck where
  epochId : ℕ
  ephPubkey : Bytes
  prevEpochHash : Bytes
  signature : Bytes

structure EpochData where
  epochId : ℕ
  nonce : Bytes
  ciphertext : Bytes

def epochError (text : String) : PyError := .hokora .epochError text

def structPack (w n : ℕ) : Py Bytes :=
  match pack w n with
  | some bs => .ok bs
  | none => .error .structError

def hexByte (b : UInt8) : String :=
  String.ofList [Nat.digitChar (b.toNat / 16), Nat.digitChar (b.toNat % 16)]

def checkFrame (name : String) (frameType : UInt8) (minLength : ℕ) (data : Bytes) : Py Unit :=
  if data.length < minLength then
    .error (epochError (name ++ " frame too short: " ++ toString data.length ++ " < " ++
      toString minLength))
  else if data.headD 0 ≠ frameType then
    .error (epochError ("Expected " ++ name ++ " (0x" ++ hexByte frameType ++ "), got 0x" ++
      hexByte (data.headD 0)))
  else .ok ()

def encodeEpochRotate (epochId epochDuration : ℕ) (ephPubkey prevEpochHash signature : Bytes) :
    Py Bytes := do
  let id ← structPack 8 epochId
  let duration ← structPack 4 epochDuration
  pure ([epochRotate] ++ id ++ duration ++ ephPubkey ++ prevEpochHash ++ signature)

def decodeEpochRotate (data : Bytes) : Py EpochRotate := do
  checkFrame "EpochRotate" epochRotate epochRotateLen data
  pure { epochId := natBE (field data 1 8)
         epochDuration := natBE (field data 9 4)
         ephPubkey := field data 13 32
         prevEpochHash := field data 45 32
         signature := field data 77 64 }

def encodeEpochRotateAck (epochId : ℕ) (ephPubkey prevEpochHash signature : Bytes) :
    Py Bytes := do
  let id ← structPack 8 epochId
  pure ([epochRotateAck] ++ id ++ ephPubkey ++ prevEpochHash ++ signature)

def decodeEpochRotateAck (data : Bytes) : Py EpochRotateAck := do
  checkFrame "EpochRotateAck" epochRotateAck epochRotateAckLen data
  pure { epochId := natBE (field data 1 8)
         ephPubkey := field data 9 32
         prevEpochHash := field data 41 32
         signature := field data 73 64 }

def encodeEpochData (epochId : ℕ) (nonce encryptedPayload : Bytes) : Py Bytes := do
  let id ← structPack 8 epochId
  pure ([epochData] ++ id ++ nonce ++ encryptedPayload)

def decodeEpochData (data : Bytes) : Py EpochData := do
  checkFrame "EpochData" epochData epochDataHeaderLen data
  pure { epochId := natBE (field data 1 8)
         nonce := field data 9 24
         ciphertext := data.drop 33 }

def isEpochFrame : Bytes → Bool
  | [] => false
  | b :: _ => b = epochRotate || b = epochRotateAck || b = epochData

variable {w n minLength epochDuration : ℕ} {frame : Bytes} {name : String} {frameType : UInt8}
  {a : EpochRotateAck}

lemma structPack_ok {bs : Bytes} (h : structPack w n = .ok bs) :
    n < 256 ^ w ∧ bs = bytesBE w n := by
  unfold structPack at h
  split at h
  next hp =>
    cases h
    exact pack_eq_some.mp hp
  · cases h

lemma structPack_of_lt (h : n < 256 ^ w) : structPack w n = .ok (bytesBE w n) := by
  unfold structPack
  rw [pack_eq_some.mpr ⟨h,rfl⟩]

variable {data ephPubkey prevEpochHash signature : Bytes} {epochId : ℕ}

lemma decode_encodeEpochRotateAck {ack : EpochRotateAck} (hp : ephPubkey.length = 32)
    (he : encodeEpochRotateAck epochId ephPubkey prevEpochHash signature = .ok frame)
    (hd : decodeEpochRotateAck frame = .ok ack) :
    ack.epochId = epochId ∧ ack.ephPubkey = ephPubkey := by
  obtain ⟨id,hid,he⟩ := bind_ok he
  obtain ⟨hlt,rfl⟩ := structPack_ok hid
  obtain ⟨-,-,hd⟩ := bind_ok hd
  cases he
  cases hd
  simp [field_cons,field_skip,field_head,length_bytesBE,hp,natBE_bytesBE 8 epochId hlt]

lemma checkFrame_ok (hl : minLength ≤ data.length) (hh : data.headD 0 = frameType) :
    checkFrame name frameType minLength data = .ok () := by
  unfold checkFrame
  rw [if_neg (by omega),if_neg (not_not.mpr hh)]

/-! Round trips, for byte strings of the widths that the frames have room for. -/

lemma decodeEpochRotate_of_encode
    (hp : ephPubkey.length = 32) (hh : prevEpochHash.length = 32) (hs : signature.length = 64)
    (h : encodeEpochRotate epochId epochDuration ephPubkey prevEpochHash signature = .ok frame) :
    decodeEpochRotate frame = .ok ⟨epochId,epochDuration,ephPubkey,prevEpochHash,signature⟩ := by
  obtain ⟨id,hid,h⟩ := bind_ok h
  obtain ⟨hi,rfl⟩ := structPack_ok hid
  obtain ⟨duration,hd,h⟩ := bind_ok h
  obtain ⟨hdu,rfl⟩ := structPack_ok hd
  cases h
  unfold decodeEpochRotate
  rw [checkFrame_ok ?_ ?_,ok_bind]
  · simp [field_cons,field_skip,field_head,length_bytesBE,hp,hh,field_self hs,
      natBE_bytesBE 8 epochId hi,natBE_bytesBE 4 epochDuration hdu,pure,Except.pure]
  · simp [epochRotateLen,hp,hh,hs]
  · rfl

variable {r : EpochRotate}

lemma ephPubkey_of_encode (hp : ephPubkey.length = 32)
    (he : encodeEpochRotate epochId epochDuration ephPubkey prevEpochHash signature = .ok frame)
    (hd : decodeEpochRotate frame = .ok r) : r.ephPubkey = ephPubkey := by
  obtain ⟨id,hid,he⟩ := bind_ok he
  obtain ⟨-,rfl⟩ := structPack_ok hid
  obtain ⟨duration,hdu,he⟩ := bind_ok he
  obtain ⟨-,rfl⟩ := structPack_ok hdu
  obtain ⟨-,-,hd⟩ := bind_ok hd
  cases he
  cases hd
  simp [field_cons,field_skip,field_head,length_bytesBE,hp]

lemma decodeEpochRotate_lt (h : decodeEpochRotate data = .ok r) : r.epochId < 256 ^ 8 := by
  obtain ⟨-,-,h⟩ := bind_ok h
  cases h
  exact natBE_field_lt

lemma decodeEpochRotateAck_lt (h : decodeEpochRotateAck data = .ok a) : a.epochId < 256 ^ 8 := by
  obtain ⟨-,-,h⟩ := bind_ok h
  cases h
  exact natBE_field_lt

lemma decodeEpochRotateAck_of_encode (hp : ephPubkey.length = 32)
    (hh : prevEpochHash.length = 32) (hs : signature.length = 64)
    (h : encodeEpochRotateAck epochId ephPubkey prevEpochHash signature = .ok frame) :
    decodeEpochRotateAck frame = .ok ⟨epochId,ephPubkey,prevEpochHash,signature⟩ := by
  obtain ⟨id,hid,h⟩ := bind_ok h
  obtain ⟨hi,rfl⟩ := structPack_ok hid
  cases h
  unfold decodeEpochRotateAck
  rw [checkFrame_ok ?_ ?_,ok_bind]
  · simp [field_cons,field_skip,field_head,length_bytesBE,hp,hh,field_self hs,
      natBE_bytesBE 8 epochId hi,pure,Except.pure]
  · simp [epochRotateAckLen,hp,hh,hs]
  · rfl

lemma decodeEpochData_of_encode {nonce ciphertext : Bytes} (hn : nonce.length = 24)
    (h : encodeEpochData epochId nonce ciphertext = .ok frame) :
    decodeEpochData frame = .ok ⟨epochId,nonce,ciphertext⟩ := by
  obtain ⟨id,hid,h⟩ := bind_ok h
  obtain ⟨hi,rfl⟩ := structPack_ok hid
  cases h
  have hd : (([epochData] ++ bytesBE 8 epochId ++ nonce) ++ ciphertext).drop 33 = ciphertext :=
    List.drop_left' (by simp [hn])
  unfold decodeEpochData
  rw [checkFrame_ok ?_ ?_,ok_bind]
  · rw [hd]
    simp [field_cons,field_skip,field_head,length_bytesBE,hn,natBE_bytesBE 8 epochId hi,
      pure,Except.pure]
  · simp only [List.length_append,List.length_singleton,length_bytesBE,hn,epochDataHeaderLen]
    omega
  · rfl

/-! Encoding what was decoded. The encoder writes the fields one after the other, so it
gives back as many bytes of the frame as the fields take. -/

lemma checkFrame_spec {u : Unit} (h : checkFrame name frameType minLength data = .ok u) :
    minLength ≤ data.length ∧ (0 < minLength → data.take 1 = [frameType]) := by
  unfold checkFrame at h
  split_ifs at h with hl hh
  refine ⟨by omega,fun hp => ?_⟩
  cases data with
  | nil => simp at hl; omega
  | cons b rest => simpa using hh

def EpochRotate.encode (r : EpochRotate) : Py Bytes :=
  encodeEpochRotate r.epochId r.epochDuration r.ephPubkey r.prevEpochHash r.signature

def EpochRotateAck.encode (a : EpochRotateAck) : Py Bytes :=
  encodeEpochRotateAck a.epochId a.ephPubkey a.prevEpochHash a.signature

def EpochData.encode (d : EpochData) : Py Bytes := encodeEpochData d.epochId d.nonce d.ciphertext

/-- The widths of the fields: `uint64`, `uint32`, keys and hashes of 32 bytes, signatures of 64. -/
def EpochRotate.Fits (r : EpochRotate) : Prop :=
  r.epochId < 256 ^ 8 ∧ r.epochDuration < 256 ^ 4 ∧ r.ephPubkey.length = 32 ∧
    r.prevEpochHash.length = 32 ∧ r.signature.length = 64

def EpochRotateAck.Fits (a : EpochRotateAck) : Prop :=
  a.epochId < 256 ^ 8 ∧ a.ephPubkey.length = 32 ∧ a.prevEpochHash.length = 32 ∧
    a.signature.length = 64

def EpochData.Fits (d : EpochData) : Prop := d.epochId < 256 ^ 8 ∧ d.nonce.length = 24

lemma encode_decodeEpochRotate (h : decodeEpochRotate data = .ok r) :
    r.encode = .ok (data.take epochRotateLen) := by
  obtain ⟨u,hc,h⟩ := bind_ok h
  obtain ⟨hl,hh⟩ := checkFrame_spec hc
  cases h
  have hn : 141 ≤ data.length := hl
  simp only [EpochRotate.encode,encodeEpochRotate,structPack_of_lt natBE_field_lt,
    ok_bind,bytesBE_field (show 1 + 8 ≤ data.length by omega),
    bytesBE_field (show 9 + 4 ≤ data.length by omega),← hh (by decide),take_append_field]
  rfl

lemma encode_decodeEpochRotateAck (h : decodeEpochRotateAck data = .ok a) :
    a.encode = .ok (data.take epochRotateAckLen) := by
  obtain ⟨u,hc,h⟩ := bind_ok h
  obtain ⟨hl,hh⟩ := checkFrame_spec hc
  cases h
  have hn : 137 ≤ data.length := hl
  simp only [EpochRotateAck.encode,encodeEpochRotateAck,structPack_of_lt natBE_field_lt,
    ok_bind,bytesBE_field (show 1 + 8 ≤ data.length by omega),← hh (by decide),
    take_append_field]
  rfl

lemma encode_decodeEpochData {d : EpochData} (h : decodeEpochData data = .ok d) :
    d.encode = .ok data := by
  obtain ⟨u,hc,h⟩ := bind_ok h
  obtain ⟨hl,hh⟩ := checkFrame_spec hc
  cases h
  have hn : 33 ≤ data.length := hl
  simp only [EpochData.encode,encodeEpochData,structPack_of_lt natBE_field_lt,
    ok_bind,bytesBE_field (show 1 + 8 ≤ data.length by omega),← hh (by decide),
    take_append_field]
  exact congrArg Except.ok (List.take_append_drop 33 data)

lemma ok_take_eq_iff (h : n ≤ data.length) :
    (Except.ok (data.take n) : Py Bytes) = .ok data ↔ data.length = n := by
  rw [Except.ok.injEq]
  constructor
  · intro heq
    have hl := congrArg List.length heq
    rw [List.length_take] at hl
    omega
  · intro heq
    exact List.take_of_length_le heq.le

structure Canonical {R : Type} (encode : R → Py Bytes) (decode : Bytes → Py R) (fits : R → Prop)
    (data : Bytes) (exact : Prop) : Prop where
  decode_encode : ∀ r, fits r → ∃ frame, encode r = .ok frame ∧ decode frame = .ok r
  encode_decode : ∀ r, decode data = .ok r → (encode r = .ok data ↔ exact)

/-- Data frames are canonical. The rotate and ack decoders look for a minimal length only, so
they are canonical on the frames of 141 and 137 bytes and on no others. -/
theorem epochFrames_canonical_iff (data : Bytes) :
    Canonical EpochRotate.encode decodeEpochRotate EpochRotate.Fits data
        (data.length = epochRotateLen) ∧
      Canonical EpochRotateAck.encode decodeEpochRotateAck EpochRotateAck.Fits data
        (data.length = epochRotateAckLen) ∧
      Canonical EpochData.encode decodeEpochData EpochData.Fits data True := by
  refine ⟨⟨?_,?_⟩,⟨?_,?_⟩,⟨?_,?_⟩⟩
  · rintro r ⟨hid,hd,hp,hh,hs⟩
    obtain ⟨frame,he⟩ : ∃ frame, r.encode = .ok frame := by
      rw [EpochRotate.encode,encodeEpochRotate,structPack_of_lt hid,structPack_of_lt hd]
      exact ⟨_,rfl⟩
    exact ⟨frame,he,decodeEpochRotate_of_encode hp hh hs he⟩
  · intro r h
    obtain ⟨u,hc,-⟩ := bind_ok h
    rw [encode_decodeEpochRotate h,ok_take_eq_iff (checkFrame_spec hc).1]
  · rintro a ⟨hid,hp,hh,hs⟩
    obtain ⟨frame,he⟩ : ∃ frame, a.encode = .ok frame := by
      rw [EpochRotateAck.encode,encodeEpochRotateAck,structPack_of_lt hid]
      exact ⟨_,rfl⟩
    exact ⟨frame,he,decodeEpochRotateAck_of_encode hp hh hs he⟩
  · intro a h
    obtain ⟨u,hc,-⟩ := bind_ok h
    rw [encode_decodeEpochRotateAck h,ok_take_eq_iff (checkFrame_spec hc).1]
  · rintro d ⟨hid,hn⟩
    obtain ⟨frame,he⟩ : ∃ frame, d.encode = .ok frame := by
      rw [EpochData.encode,encodeEpochData,structPack_of_lt hid]
      exact ⟨_,rfl⟩
    exact ⟨frame,he,decodeEpochData_of_encode hn he⟩
  · intro d h
    rw [encode_decodeEpochData h]
    exact iff_of_true rfl trivial

theorem longRotate_not_canonical :
    ∃ data r, decodeEpochRotate data = .ok r ∧ r.encode ≠ .ok data := by
  have hl : (epochRotate :: replicate 141 0).length = 142 := by simp
  have hc : checkFrame "EpochRotate" epochRotate epochRotateLen
      (epochRotate :: replicate 141 0) = .ok () :=
    checkFrame_ok (hl ▸ by decide) rfl
  obtain ⟨r,h⟩ : ∃ r, decodeEpochRotate (epochRotate :: replicate 141 0) = .ok r := by
    rw [decodeEpochRotate,hc]
    exact ⟨_,rfl⟩
  refine ⟨_,r,h,?_⟩
  rw [encode_decodeEpochRotate h,Ne,ok_take_eq_iff (hl ▸ by decide),hl]
  decide

end Hokora.EpochWire
