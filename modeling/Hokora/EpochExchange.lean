import Hokora.EpochAgreement

/-!
# One exchange between honest ends

Both ends follow the protocol and nothing is lost.
-/
namespace Hokora.EpochExchange
open BigEndian EpochAgreement EpochCrypto EpochLifecycle EpochWire PyValue

structure Sound (p : Primitives) : Prop extends p.Lawful where
  exchange_ok : ∀ a b, ∃ secret, p.exchange a (p.publicBytes b) = .ok secret
  hmac_length : ∀ key data, (p.hmac key data).length = 32
  aead_correct : ∀ {plaintext aad nonce key ciphertext},
    p.aeadEncrypt plaintext aad nonce key = .ok ciphertext →
      p.aeadDecrypt ciphertext aad nonce key = .ok plaintext

/-- The first manager accepts the signatures of the second, which have the width of an
Ed25519 signature. -/
def Recognises (verifier signer : EpochManager) : Prop :=
  ∃ own peer : RnsIdentity, signer.localIdentity = some own ∧
    verifier.peerIdentity = some peer ∧ (∀ data, (own.sign data).length = 64) ∧
    ∀ data, peer.validate (own.sign data) data = true

variable {p : Primitives} {sk : Bytes} {m verifier : EpochManager} {parsed : EpochRotate}
  {epochId : ℕ} {hash pub : Bytes} {epochDuration : ℕ} {frame a b key np : Bytes} {keys : EpochKeys}

lemma rotateSignData_eq (hid : epochId < 256 ^ 8)
    (hd : epochDuration < 256 ^ 4) : rotateSignData epochId epochDuration pub hash =
      .ok (bytesBE 8 epochId ++ bytesBE 4 epochDuration ++ pub ++ hash) := by
  unfold rotateSignData
  rw [structPack_of_lt hid,structPack_of_lt hd]
  rfl

variable {data : Bytes}

lemma rotateSignData_ok (h : rotateSignData epochId epochDuration pub hash = .ok data) :
    epochId < 256 ^ 8 ∧ epochDuration < 256 ^ 4 := by
  obtain ⟨id,hid,h⟩ := bind_ok h
  obtain ⟨duration,hd,-⟩ := bind_ok h
  exact ⟨(structPack_ok hid).1,(structPack_ok hd).1⟩

lemma ackSignData_eq (hid : epochId < 256 ^ 8) :
    ackSignData epochId pub hash = .ok (bytesBE 8 epochId ++ pub ++ hash) := by
  unfold ackSignData
  rw [structPack_of_lt hid]
  rfl

/-- The numbers of the next rotate frame fit into their fields. -/
def Packable (m : EpochManager) : Prop :=
  m.currentEpochId + 1 < 256 ^ 8 ∧ m.epochDuration < 256 ^ 4

def rotateContent (p : Primitives) (m : EpochManager) (privateKey signature : Bytes) :
    EpochRotate where
  epochId := m.currentEpochId + 1
  epochDuration := m.epochDuration
  ephPubkey := p.publicBytes privateKey
  prevEpochHash := m.lastChainHash
  signature := signature

lemma createEpochRotate_packable (h : (createEpochRotate p m sk).1 = .ok frame) : Packable m := by
  obtain ⟨data,hd,-⟩ := bind_ok h
  exact rotateSignData_ok hd

lemma createEpochRotate_ephPubkey (hp : p.Lawful) (h : (createEpochRotate p m sk).1 = .ok frame)
    (hd : decodeEpochRotate frame = .ok parsed) : parsed.ephPubkey = p.publicBytes sk := by
  obtain ⟨data,-,h⟩ := bind_ok h
  obtain ⟨signature,-,h⟩ := bind_ok h
  exact ephPubkey_of_encode (hp.publicBytes_length sk) h hd

lemma createEpochRotate_succeeds (hr : Recognises verifier m) (hp : Packable m)
    (sk : Bytes) : ∃ frame, (createEpochRotate p m sk).1 = .ok frame := by
  obtain ⟨own,peer,ho,-,-,-⟩ := hr
  simp only [createEpochRotate,rotateSignData_eq hp.1 hp.2,ho,signWith,ok_bind,
    encodeEpochRotate,structPack_of_lt hp.1,structPack_of_lt hp.2]
  exact ⟨_,rfl⟩

lemma readRotate_created (hp : p.Lawful) (hr : Recognises verifier m)
    (hc : m.lastChainHash.length = 32) (h : (createEpochRotate p m sk).1 = .ok frame) :
    ∃ signature, readRotate verifier frame = .ok (rotateContent p m sk signature) := by
  obtain ⟨own,peer,ho,hpe,hl,hv⟩ := hr
  obtain ⟨data,hd,h⟩ := bind_ok h
  obtain ⟨signature,hs,h⟩ := bind_ok h
  rw [ho] at hs
  cases hs
  have hde : decodeEpochRotate frame = .ok (rotateContent p m sk (own.sign data)) :=
    decodeEpochRotate_of_encode (hp.publicBytes_length sk) hc (hl data) h
  refine ⟨own.sign data,?_⟩
  simp only [readRotate,hde,ok_bind,hpe]
  simp only [rotateContent] at hd ⊢
  rw [hd,ok_bind]
  exact if_pos (hv data)

lemma answerKeys_eq (hr : readRotate m frame = .ok parsed)
    (hid : m.currentEpochId < parsed.epochId) (hc : parsed.prevEpochHash = m.lastChainHash)
    (hk : deriveEpochKeys p sk parsed.ephPubkey parsed.epochId false = .ok keys) :
    answerKeys p m frame sk = .ok (parsed, keys) := by
  unfold answerKeys
  rw [hr,ok_bind,if_neg (by omega),if_neg (not_not.mpr hc),hk]
  rfl

lemma answerKeys_checks (h : answerKeys p m frame sk = .ok (parsed, keys)) :
    readRotate m frame = .ok parsed ∧ m.currentEpochId < parsed.epochId ∧
      parsed.prevEpochHash = m.lastChainHash := by
  obtain ⟨r,hr,h⟩ := bind_ok h
  split_ifs at h with hid hc
  obtain ⟨k,-,h⟩ := bind_ok h
  cases h
  exact ⟨hr,by omega,not_not.mp hc⟩

lemma deriveEpochKeys_ok (hp : Sound p) (a b : Bytes) (hid : epochId < 256 ^ 8) (x : Bool) :
    ∃ keys, deriveEpochKeys p a (p.publicBytes b) epochId x = .ok keys := by
  obtain ⟨secret,hs⟩ := hp.exchange_ok a b
  unfold deriveEpochKeys
  rw [hs,structPack_of_lt hid]
  exact ⟨_,rfl⟩

lemma deriveEpochKeys_length (hp : p.Lawful) {x : Bool}
    (h : deriveEpochKeys p a b epochId x = .ok keys) :
    keys.i2r.length = 32 ∧ keys.r2i.length = 32 := by
  obtain ⟨secret,-,h⟩ := bind_ok h
  obtain ⟨id,-,h⟩ := bind_ok h
  cases h
  exact ⟨hp.hkdf_length _ _ _,hp.hkdf_length _ _ _⟩

lemma readAck_built (hp : p.Lawful) (hr : Recognises verifier m)
    (hc : m.lastChainHash.length = 32) (hid : epochId < 256 ^ 8) (sk : Bytes) :
    ∃ frame ack, buildAck m epochId (p.publicBytes sk) = .ok frame ∧
      readAck verifier frame = .ok ack ∧ ack.epochId = epochId ∧
      ack.ephPubkey = p.publicBytes sk := by
  obtain ⟨own,peer,ho,hpe,hl,hv⟩ := hr
  let data := bytesBE 8 epochId ++ p.publicBytes sk ++ m.lastChainHash
  let ack : EpochRotateAck := ⟨epochId,p.publicBytes sk,m.lastChainHash,own.sign data⟩
  have hd : ackSignData epochId (p.publicBytes sk) m.lastChainHash = .ok data :=
    ackSignData_eq hid
  obtain ⟨frame,hf⟩ : ∃ frame, encodeEpochRotateAck epochId (p.publicBytes sk)
      m.lastChainHash (own.sign data) = .ok frame := by
    unfold encodeEpochRotateAck
    rw [structPack_of_lt hid]
    exact ⟨_,rfl⟩
  have hde : decodeEpochRotateAck frame = .ok ack :=
    decodeEpochRotateAck_of_encode (hp.publicBytes_length sk) hc (hl data) hf
  refine ⟨frame,ack,?_,?_,rfl,rfl⟩
  · unfold buildAck
    rw [hd,ok_bind,ho]
    exact hf
  simp only [readAck,hde,ok_bind,hpe]
  rw [hd,ok_bind]
  exact if_pos (hv data)

lemma completeKeys_answer (hp : p.Lawful) {ack : EpochRotateAck} (hr : readAck m frame = .ok ack)
    (hpe : m.pendingPrivateKey = some a) (hpu : ack.ephPubkey = p.publicBytes b)
    (hk : deriveEpochKeys p b (p.publicBytes a) ack.epochId false = .ok keys) :
    completeKeys p m frame = .ok (ack, keys) := by
  unfold completeKeys
  rw [hr,ok_bind,hpe]
  simp only
  rw [hpu,deriveEpochKeys_comm hp,hk]
  rfl

/-- A data frame of an epoch that opens to the text under the key. -/
def Sealed (p : Primitives) (epochId : ℕ) (key frame plaintext : Bytes) : Prop :=
  ∃ parsed aad, decodeEpochData frame = .ok parsed ∧ parsed.epochId = epochId ∧
    structPack 8 epochId = .ok aad ∧
    decryptPayload p key parsed.nonce parsed.ciphertext aad = .ok plaintext

lemma encrypt_ok (hp : Sound p) (hs : m.noncePrefix.length = 16)
    {pt : Bytes} (hk : m.sendKey = some key)
    (h : (encrypt p m pt).1 = .ok frame) :
    Sealed p m.currentEpochId key frame pt := by
  unfold encrypt at h
  split at h
  · cases h
  next nonce m' ht =>
    obtain ⟨aad,ha,h⟩ := bind_ok h
    obtain ⟨ciphertext,hct,h⟩ := bind_ok h
    have hno : nonce.length = 24 := by
      unfold takeNonce at ht
      split_ifs at ht
      obtain ⟨n,hn,ht⟩ := bind_ok ht
      cases ht
      obtain ⟨c,hc,hn⟩ := bind_ok hn
      obtain ⟨-,rfl⟩ := structPack_ok hc
      cases hn
      rw [List.length_append,hs,length_bytesBE]
    rw [hk] at hct
    exact ⟨_,aad,decodeEpochData_of_encode hno h,rfl,ha,hp.aead_correct hct⟩

lemma encrypt_manager (m : EpochManager) (pt : Bytes) :
    ∃ n, (encrypt p m pt).2 = { m with messageCounter := n } := by
  unfold encrypt
  split
  · exact ⟨m.messageCounter,rfl⟩
  next nonce m' ht => exact ⟨m.messageCounter + 1,(takeNonce_ok ht).2⟩

lemma decrypt_current {pt : Bytes} (hk : usable m.recvKey = some key)
    (h : Sealed p m.currentEpochId key frame pt) :
    decrypt p m frame = (.ok pt, { m with prevRecvKey := none }) := by
  obtain ⟨parsed,aad,hd,hid,ha,ho⟩ := h
  unfold decrypt
  rw [hd]
  simp [hk,hid,ha,ho]

lemma decrypt_previous {pt : Bytes} (hk : usable m.prevRecvKey = some key)
    (hne : m.prevEpochId ≠ m.currentEpochId) (h : Sealed p m.prevEpochId key frame pt) :
    decrypt p m frame = (.ok pt, m) := by
  obtain ⟨parsed,aad,hd,hid,ha,ho⟩ := h
  unfold decrypt
  rw [hd]
  simp only [hk,hid,hne,if_true,if_false,ha,ok_bind,ho]
  cases usable m.recvKey <;> rfl

structure Kept (m m' : EpochManager) : Prop where
  own : m'.localIdentity = m.localIdentity
  peer : m'.peerIdentity = m.peerIdentity
  chain : m.lastChainHash.length = 32 → m'.lastChainHash.length = 32

lemma Recognises.kept {signer verifier' signer' : EpochManager} (h : Recognises verifier signer)
    (hv : Kept verifier verifier') (hs : Kept signer signer') : Recognises verifier' signer' := by
  obtain ⟨own,peer,ho,hp,hr⟩ := h
  exact ⟨own,peer,hs.own.trans ho,hv.peer.trans hp,hr⟩

lemma Kept.refl (m : EpochManager) : Kept m m := ⟨rfl,rfl,id⟩

lemma createEpochRotate_kept (m : EpochManager) (sk : Bytes) :
    Kept m (createEpochRotate p m sk).2 := ⟨rfl,rfl,id⟩

lemma activateEpoch_kept (hp : Sound p) (m : EpochManager) (epochId : ℕ)
    (sendKey recvKey i2r np : Bytes) (now : ℚ) :
    Kept m (activateEpoch p m epochId sendKey recvKey i2r np now) :=
  ⟨rfl,rfl,fun _ => hp.hmac_length _ _⟩

lemma handleEpochRotate_kept (hp : Sound p) {now : ℚ} :
    Kept m (handleEpochRotate p m data sk np now).2 := by
  rcases handleEpochRotate_cases (p := p) m data sk np now with ⟨e,he⟩ | ⟨parsed,keys,-,hm,-⟩
  · rw [he]
    exact .refl m
  · rw [hm]
    exact activateEpoch_kept hp m _ _ _ _ _ _

lemma handleEpochRotateAck_kept (hp : Sound p) {now : ℚ} :
    Kept m (handleEpochRotateAck p m data np now).2 := by
  unfold handleEpochRotateAck
  cases completeKeys p m data with
  | error e => exact .refl m
  | ok r =>
    have h := activateEpoch_kept hp m r.1.epochId r.2.i2r r.2.r2i r.2.i2r np now
    exact ⟨h.own,h.peer,h.chain⟩

def padded : Primitives := { additive with hmac := fun key _ => padKey key }

lemma padded_sound : Sound padded where
  exchange_comm := additive_lawful.exchange_comm
  publicBytes_length := additive_lawful.publicBytes_length
  hkdf_length := additive_lawful.hkdf_length
  exchange_ok _ _ := ⟨_,rfl⟩
  hmac_length key _ := length_padKey key
  aead_correct h := by
    cases h
    rfl

lemma length_sampleIdentity_sign (tag : UInt8) (data : Bytes) :
    ((sampleIdentity tag).sign data).length = 64 := by
  simp [sampleIdentity]

end Hokora.EpochExchange
