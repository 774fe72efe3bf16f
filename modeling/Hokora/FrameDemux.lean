import Hokora.EpochLifecycle
import Hokora.WireFrames

/-!
# Telling epoch frames from sync frames

Both receivers look at the first byte; a sync frame starts with its length.
-/
namespace Hokora.FrameDemux
open BigEndian Constants EpochCrypto EpochLifecycle EpochWire Msgpack PyValue WireFrames

inductive Route where
  | plain (data : Bytes)
  | opened (data : Bytes)
  | answered (ack : Bytes)
  | handshake (frame : Bytes)
  | dropped

structure Draws where
  privateKey : Bytes := []
  noncePrefix : Bytes := []
  now : ℚ := 0

variable (p : Primitives)

def openData (em : EpochManager) (message : Bytes) : Route × EpochManager :=
  let r := decrypt p em message
  match r.1 with
  | .ok data => (.opened data, r.2)
  | .error _ => (.dropped, r.2)

def answerRotate (em : EpochManager) (message : Bytes) (draws : Draws) : Route × EpochManager :=
  let r := handleEpochRotate p em message draws.privateKey draws.noncePrefix draws.now
  match r.1 with
  | .ok ack => (.answered ack, r.2)
  | .error _ => (.dropped, r.2)

def linkManagerRoute (em : Option EpochManager) (message : Bytes) (draws : Draws) :
    Route × Option EpochManager :=
  if isEpochFrame message then
    match em with
    | none => (.dropped, none)
    | some m =>
      if message.headD 0 = epochData then
        let r := openData p m message
        (r.1, some r.2)
      else if message.headD 0 = epochRotate then
        let r := answerRotate p m message draws
        (r.1, some r.2)
      else (.dropped, some m)
  else (.plain message, em)

def mirrorRoute (em : Option EpochManager) (hasCallback : Bool) (message : Bytes)
    (draws : Draws) : Route × Option EpochManager :=
  if isEpochFrame message then
    if message.headD 0 = epochData then
      match em with
      | none => (.plain message, none)
      | some m =>
        let r := openData p m message
        (r.1, some r.2)
    else if hasCallback then
      if message.headD 0 = epochRotateAck then (.handshake message, em)
      else
        match em with
        | none => (.dropped, none)
        | some m =>
          let r := answerRotate p m message draws
          (r.1, some r.2)
    else (.dropped, em)
  else (.plain message, em)

/-- No receiver takes the frame for an epoch frame, whatever managers and callbacks it
has. -/
def TakenAsSync (bs : Bytes) : Prop :=
  isEpochFrame bs = false ∧
    ∀ p em hasCallback draws, (linkManagerRoute p em bs draws).1 = .plain bs ∧
      (mirrorRoute p em hasCallback bs draws).1 = .plain bs

def Collides (n : ℕ) : Prop := 8192 ≤ n ∧ n < 8960

instance (n : ℕ) : Decidable (Collides n) := inferInstanceAs (Decidable (_ ∧ _))

variable {p}

lemma takenAsSync_iff {bs : Bytes} : TakenAsSync bs ↔ isEpochFrame bs = false := by
  constructor
  · exact fun h => h.1
  intro h
  refine ⟨h,?_⟩
  intro p em ha draws
  simp [linkManagerRoute,mirrorRoute,h]

lemma isEpochFrame_header {n : ℕ} (hn : n ≤ maxFrameSize) {data : Bytes} :
    isEpochFrame (bytesBE 2 n ++ data) = true ↔ Collides n := by
  obtain ⟨x,y,hx,hb⟩ := header_cons hn data
  have ht : ∀ t : UInt8, x = t ↔ n / 256 = t.toNat := by
    intro t
    rw [← UInt8.toNat_inj,hb]
  rw [hx]
  simp only [isEpochFrame,Bool.or_eq_true,decide_eq_true_eq,ht,Collides]
  have h₀ : epochRotate.toNat = 32 := rfl
  have h₁ : epochRotateAck.toNat = 33 := rfl
  have h₂ : epochData.toNat = 34 := rfl
  omega

lemma framed_takenAsSync_iff {raw bs : Bytes} (h : addLengthHeader raw = .ok bs) :
    TakenAsSync bs ↔ ¬ Collides raw.length := by
  obtain ⟨hl,rfl⟩ := addLengthHeader_ok h
  rw [takenAsSync_iff,← isEpochFrame_header hl,Bool.not_eq_true]

/-- A sync frame is told from an epoch frame exactly when the length of its packed map is
not from 8192 to 8959. Epoch frames are always recognised, each with its type. -/
theorem sync_frames_told_apart_iff (fmt : FloatFormat) :
    (∀ action nonce payload raw bs, packb fmt (requestVal action nonce payload) = .ok raw →
      encodeSyncRequest fmt action nonce payload = .ok bs →
        (TakenAsSync bs ↔ ¬ Collides raw.length)) ∧
      (∀ nonce payload nodeTime raw bs, packb fmt (responseVal nonce payload nodeTime) = .ok raw →
        encodeSyncResponse fmt nonce payload nodeTime = .ok bs →
          (TakenAsSync bs ↔ ¬ Collides raw.length)) ∧ (∀ epochId duration pub hash signature bs,
        encodeEpochRotate epochId duration pub hash signature = .ok bs →
          isEpochFrame bs = true ∧ bs.head? = some epochRotate) ∧
      (∀ epochId pub hash signature bs, encodeEpochRotateAck epochId pub hash signature = .ok bs →
        isEpochFrame bs = true ∧ bs.head? = some epochRotateAck) ∧
      ∀ epochId nonce ciphertext bs, encodeEpochData epochId nonce ciphertext = .ok bs →
        isEpochFrame bs = true ∧ bs.head? = some epochData := by
  refine ⟨?_,?_,?_,?_,?_⟩
  · intro action nonce payload raw bs hr h
    unfold encodeSyncRequest at h
    split_ifs at h
    rw [hr,ok_bind] at h
    exact framed_takenAsSync_iff h
  · intro nonce payload nodeTime raw bs hr h
    unfold encodeSyncResponse at h
    rw [hr,ok_bind] at h
    exact framed_takenAsSync_iff h
  · intro epochId duration pub hash signature bs h
    obtain ⟨id,-,h⟩ := bind_ok h
    obtain ⟨d,-,h⟩ := bind_ok h
    cases h
    exact ⟨rfl,rfl⟩
  · intro epochId pub hash signature bs h
    obtain ⟨id,-,h⟩ := bind_ok h
    cases h
    exact ⟨rfl,rfl⟩
  · intro epochId nonce ciphertext bs h
    obtain ⟨id,-,h⟩ := bind_ok h
    cases h
    exact ⟨rfl,rfl⟩

def sampleNonce : Bytes := List.replicate nonceSize 0

def historyPayload : Val := .dict [("channel_id", .str "general"), ("limit", .int 50)]

theorem historyRequest_taken_as_sync :
    ∃ bs, encodeSyncRequest zeroFormat 1 sampleNonce historyPayload = .ok bs ∧ bs.length = 73 ∧
      TakenAsSync bs := by
  refine ⟨_,rfl,by decide +kernel,?_⟩
  refine ((sync_frames_told_apart_iff zeroFormat).1 1 sampleNonce historyPayload _ _ rfl rfl).mpr ?_
  decide +kernel

/-! A request of 8192 bytes: 50 for everything but the contents of a blob. -/

def sampleBlob : Bytes := List.replicate 8142 0

def samplePayload : Val := .dict [("d", .bytes sampleBlob)]

lemma packb_sampleRequest {fmt : FloatFormat} :
    ∃ raw, packb fmt (requestVal 12 sampleNonce samplePayload) = .ok raw ∧ raw.length = 8192 := by
  have hb : packAt fmt 510 (.bytes sampleBlob) = .ok ([0xc5, 0x1f, 0xce] ++ sampleBlob) := by
    apply packAt_bytes
    rw [sampleBlob,List.length_replicate]
    rfl
  have hp : packAt fmt 511 samplePayload =
      .ok ([0x81] ++ ([0xa1, 0x64] ++ ([0xc5, 0x1f, 0xce] ++ sampleBlob) ++ [])) :=
    packAt_dict rfl (packEntries_cons rfl hb rfl)
  refine ⟨_,packAt_dict rfl (packEntries_cons rfl rfl (packEntries_cons rfl rfl
    (packEntries_cons rfl rfl (packEntries_cons rfl hp rfl)))),?_⟩
  simp only [List.length_append,sampleBlob,List.length_replicate]
  rfl

theorem sampleRequest_taken_as_epoch :
    ∃ bs, encodeSyncRequest zeroFormat 12 sampleNonce samplePayload = .ok bs ∧
      isEpochFrame bs = true ∧ (linkManagerRoute additive none bs {}).1 = .dropped ∧
      ¬ TakenAsSync bs := by
  obtain ⟨raw,hr,hl⟩ := packb_sampleRequest
  have hf : addLengthHeader raw = .ok (bytesBE 2 raw.length ++ raw) := by
    unfold addLengthHeader
    rw [if_neg (by rw [hl]; decide)]
  have he : isEpochFrame (bytesBE 2 raw.length ++ raw) = true := by
    rw [isEpochFrame_header (by rw [hl]; decide),hl]
    exact ⟨by decide,by decide⟩
  refine ⟨bytesBE 2 raw.length ++ raw,?_,he,?_,?_⟩
  · unfold encodeSyncRequest
    rw [if_neg (by decide),hr,ok_bind,hf]
  · simp [linkManagerRoute,he]
  intro h
  rw [h.1] at he
  cases he

end Hokora.FrameDemux
