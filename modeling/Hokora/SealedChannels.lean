import Hokora.Database

/-!
# Sealed channels

Encryption at the origin, and the shape that the row of a peer must have. The cipher and the nonces
are parameters.
-/
namespace Hokora.SealedChannels
open BigEndian Database KeyedTable PyValue

abbrev AesGcmEncrypt := Bytes → Bytes → Bytes → Bytes → Bytes

structure KeyInfo where
  channelId : String
  key : Bytes
  epoch : ℤ
  deriving DecidableEq

structure SealedChannelManager where
  keys : Table KeyInfo.channelId := .empty

def utf8 (s : String) : Bytes := s.toUTF8.toList

def SealedChannelManager.getKey (sm : SealedChannelManager) (channelId : String) :
    Option Bytes := (sm.keys.get? channelId).map KeyInfo.key

def SealedChannelManager.encrypt (aes : AesGcmEncrypt) (sm : SealedChannelManager)
    (channelId : String) (plaintext nonce : Bytes) : Py (Bytes × Bytes × ℤ) :=
  match sm.keys.get? channelId with
  | none => .error (.hokora .sealedChannelError ("No key for channel " ++ channelId))
  | some k => .ok (nonce, aes k.key nonce plaintext (utf8 channelId), k.epoch)

structure StoredBody where
  body : Option String := none
  encryptedBody : Option Bytes := none
  encryptionNonce : Option Bytes := none
  encryptionEpoch : Option ℤ := none

def sealForOrigin (aes : AesGcmEncrypt) (channel : Channel) (plaintext : Option String)
    (sealedManager : Option SealedChannelManager) (nonce : Bytes) : Py StoredBody :=
  if channel.sealed = false then .ok { body := plaintext } else
    let text := plaintext.getD ""
    if text = "" then .ok {} else
      match sealedManager with
      | none =>
        .error (.hokora .permissionDenied "Sealed channel: sealed manager not initialised")
      | some sm =>
        if (sm.getKey channel.id).getD [] = [] then
          .error (.hokora .permissionDenied
            "Sealed channel: no encryption key available for this channel")
        else
          match sm.encrypt aes channel.id (utf8 text) nonce with
          | .ok (nonce, ciphertext, epoch) =>
            .ok { encryptedBody := some ciphertext, encryptionNonce := some nonce,
                  encryptionEpoch := some epoch }
          | .error e =>
            .error (.hokora .permissionDenied
              ("Sealed channel: encryption failed (" ++ e.text ++ ")"))

lemma sealForOrigin_ok {aes : AesGcmEncrypt} {channel : Channel} {text : Option String}
    {sm : Option SealedChannelManager} {nonce : Bytes} {b : StoredBody}
    (h : sealForOrigin aes channel text sm nonce = .ok b) : (channel.sealed = true → b.body = none ∧
      (text.getD "" ≠ "" → b.encryptedBody.isSome = true)) ∧
      (text.getD "" = "" → b.body.getD "" = "" ∧ b.encryptedBody = none) := by
  unfold sealForOrigin at h
  dsimp only at h
  split_ifs at h with hs ht
  · cases h
    exact ⟨fun h => absurd hs (ne_false_of_eq_true h),fun ht => ⟨ht,rfl⟩⟩
  · cases h
    exact ⟨fun _ => ⟨rfl,fun h => absurd ht h⟩,fun _ => ⟨rfl,rfl⟩⟩
  split at h
  · cases h
  split_ifs at h
  split at h
  · cases h
    exact ⟨fun _ => ⟨rfl,fun _ => rfl⟩,fun h => absurd h ht⟩
  · cases h

def validateMirrorPayload (channelSealed : Bool) (body encBody encNonce encEpoch : Val) :
    Py (Val × Val × Val × Val) :=
  if channelSealed then
    if body.truthy || !encBody.truthy then do
      let bodyLen ← body.lenOrZero
      let encLen ← encBody.lenOrZero
      .error (.hokora .sealedChannelError ("sealed channel requires ciphertext (body_len=" ++
        toString bodyLen ++ " enc_len=" ++ toString encLen ++ ")"))
    else .ok (.none, encBody, encNonce, encEpoch)
  else .ok (body, .none, .none, .none)

end Hokora.SealedChannels
