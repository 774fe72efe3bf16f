import Hokora.EpochWire

/-!
# Keys and nonces of an epoch

The primitives are parameters; `Lawful` is what the proofs ask of them.
-/
namespace Hokora.EpochCrypto
open BigEndian EpochWire PyValue

structure Primitives where
  publicBytes : Bytes → Bytes
  exchange : Bytes → Bytes → Py Bytes
  hkdf : Bytes → Bytes → Bytes → Bytes
  hmac : Bytes → Bytes → Bytes
  aeadEncrypt : Bytes → Bytes → Bytes → Bytes → Py Bytes
  aeadDecrypt : Bytes → Bytes → Bytes → Bytes → Py Bytes

structure Primitives.Lawful (p : Primitives) : Prop where
  exchange_comm : ∀ a b, p.exchange a (p.publicBytes b) = p.exchange b (p.publicBytes a)
  publicBytes_length : ∀ a, (p.publicBytes a).length = 32
  hkdf_length : ∀ salt info secret, (p.hkdf salt info secret).length = 32

def ascii (s : String) : Bytes := s.toList.map fun c => UInt8.ofNat c.toNat

def epochSalt : Bytes := ascii "hokora-epoch-v1"

structure EpochKeys where
  i2r : Bytes
  r2i : Bytes

def deriveEpochKeys (p : Primitives) (localPrivate remotePublicBytes : Bytes) (epochId : ℕ)
    (_isInitiator : Bool) : Py EpochKeys := do
  let sharedSecret ← p.exchange localPrivate remotePublicBytes
  let epochIdBytes ← structPack 8 epochId
  pure { i2r := p.hkdf epochSalt (ascii "epoch" ++ epochIdBytes ++ ascii "i2r") sharedSecret
         r2i := p.hkdf epochSalt (ascii "epoch" ++ epochIdBytes ++ ascii "r2i") sharedSecret }

def computeChainHash (p : Primitives) (epochKey : Bytes) : Bytes :=
  p.hmac epochKey (ascii "epoch_chain")

def buildNonce (noncePrefix : Bytes) (counter : ℕ) : Py Bytes := do
  let c ← structPack 8 counter
  pure (noncePrefix ++ c)

def encryptPayload (p : Primitives) (key nonce plaintext aad : Bytes) : Py Bytes :=
  p.aeadEncrypt plaintext aad nonce key

def decryptPayload (p : Primitives) (key nonce ciphertext aad : Bytes) : Py Bytes :=
  p.aeadDecrypt ciphertext aad nonce key

def deriveKek (p : Primitives) (nodeIdentityKey : Bytes) : Bytes :=
  p.hkdf epochSalt (ascii "epoch-kek-v1") nodeIdentityKey

def wrapKey (p : Primitives) (kek nonce plaintextKey : Bytes) : Py Bytes := do
  let ciphertext ← p.aeadEncrypt plaintextKey (ascii "epoch-key-wrap") nonce kek
  pure (nonce ++ ciphertext)

def unwrapKey (p : Primitives) (kek wrapped : Bytes) : Py Bytes :=
  p.aeadDecrypt (wrapped.drop 24) (ascii "epoch-key-wrap") (wrapped.take 24) kek

variable {p : Primitives} {a b : Bytes}

lemma deriveEpochKeys_comm (hp : p.Lawful) {epochId : ℕ} {x y : Bool} :
    deriveEpochKeys p a (p.publicBytes b) epochId x =
      deriveEpochKeys p b (p.publicBytes a) epochId y := by
  unfold deriveEpochKeys
  rw [hp.exchange_comm a b]

lemma i2r_ne_nil (hp : p.Lawful) {epochId : ℕ} {x : Bool}
    {keys : EpochKeys} (h : deriveEpochKeys p a b epochId x = .ok keys) : keys.i2r ≠ [] := by
  obtain ⟨secret,-,h⟩ := bind_ok h
  obtain ⟨id,-,h⟩ := bind_ok h
  cases h
  apply List.ne_nil_of_length_pos
  rw [hp.hkdf_length]
  omega

def padKey (b : Bytes) : Bytes := (b ++ List.replicate 32 0).take 32

def additive : Primitives where
  publicBytes := padKey
  exchange a b := .ok [a.headD 0 + b.headD 0]
  hkdf _ info secret := padKey (secret ++ info)
  hmac key _ := key
  aeadEncrypt plaintext _ _ _ := .ok plaintext
  aeadDecrypt ciphertext _ _ _ := .ok ciphertext

lemma length_padKey (b : Bytes) : (padKey b).length = 32 := by
  rw [padKey,List.length_take,List.length_append,List.length_replicate]
  omega

lemma headD_padKey : (padKey b).headD 0 = b.headD 0 := by
  cases b with
  | nil => rfl
  | cons x xs => rfl

lemma additive_lawful : additive.Lawful where
  exchange_comm a b := by
    simp only [additive,headD_padKey,UInt8.add_comm]
  publicBytes_length := length_padKey
  hkdf_length _ info secret := length_padKey (secret ++ info)

def nonceCounter (nonce : Bytes) : ℕ := natBE (nonce.drop (nonce.length - 8))

lemma nonceCounter_buildNonce {np nonce : Bytes} {counter : ℕ}
    (h : buildNonce np counter = .ok nonce) : nonceCounter nonce = counter := by
  obtain ⟨c,hc,h⟩ := bind_ok h
  obtain ⟨hlt,rfl⟩ := structPack_ok hc
  cases h
  have hl : (np ++ bytesBE 8 counter).length - 8 = np.length := by
    rw [List.length_append,length_bytesBE]
    omega
  unfold nonceCounter
  rw [hl,List.drop_left,natBE_bytesBE 8 counter hlt]

end Hokora.EpochCrypto
