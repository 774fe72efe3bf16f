import Hokora.Constants
import Hokora.PyValue

/-!
# Binding a sender hash to its key

Hash, key and signature of a sender. The hash and Ed25519 are parameters.
-/
namespace Hokora.SenderBinding
open BigEndian Constants PyValue

structure SignatureScheme where
  truncatedHashHex : Bytes → String
  verify : Bytes → Bytes → Bytes → Bool

def typeName : Val → String
  | .none => "NoneType"
  | .bool _ => "bool"
  | .int _ => "int"
  | .float _ => "float"
  | .str _ => "str"
  | .bytes _ => "bytes"
  | .list _ => "list"
  | .dict _ => "dict"

def deriveIdentityHashHex (sig : SignatureScheme) (rnsPublicKey : Val) : Py String :=
  match rnsPublicKey with
  | .bytes pk =>
    if pk.length ≠ rnsPublicKeySize then
      .error (.hokora .federationError ("rns_public_key must be " ++ toString rnsPublicKeySize ++
        " bytes (X25519||Ed25519); got " ++ toString pk.length))
    else .ok (sig.truncatedHashHex pk)
  | v => .error (.hokora .federationError ("rns_public_key must be bytes, got " ++ typeName v))

def verifyEd25519Signature (sig : SignatureScheme) (publicKey : Bytes) (message signature : Val) :
    Bool :=
  match message, signature with
  | .bytes m, .bytes s => publicKey.length = ed25519PublicKeySize && sig.verify publicKey m s
  | _, _ => false

def signingHalf : Val → Bytes
  | .bytes pk => pk.drop ed25519PublicKeySize
  | _ => []

def checkSignature (sig : SignatureScheme) (rnsPublicKey signedPart signature : Val)
    (requireSigned : Bool) : Bool × Option String :=
  if signedPart.truthy && signature.truthy then
    if verifyEd25519Signature sig (signingHalf rnsPublicKey) signedPart signature then (true, none)
    else (false, some "Ed25519 signature verification failed")
  else if requireSigned then (false, some "missing signature")
  else (true, none)

def verifySenderBinding (sig : SignatureScheme)
    (senderHash senderRnsPublicKey lxmfSignedPart lxmfSignature : Val) (requireSigned : Bool) :
    Bool × Option String :=
  match senderHash with
  | .str sender =>
    if sender = "" then (false, some "missing sender_hash")
    else if sender.length ≠ identityHashHexLength then
      (false, some ("malformed sender_hash length (" ++ toString sender.length ++
        "; expected " ++ toString identityHashHexLength ++ ")"))
    else if senderRnsPublicKey.truthy = false then
      if requireSigned then (false, some "missing sender_rns_public_key") else (true, none)
    else match deriveIdentityHashHex sig senderRnsPublicKey with
      | .error e => (false, some ("malformed sender_rns_public_key: " ++ e.text))
      | .ok expected =>
        if expected ≠ sender then
          (false, some ("sender_hash binding violation: claimed " ++ sender ++
            " does not match pubkey-derived " ++ expected))
        else checkSignature sig senderRnsPublicKey lxmfSignedPart lxmfSignature requireSigned
  | _ => (false, some "missing sender_hash")

lemma checkSignature_signed {sig : SignatureScheme} {rnsPublicKey signedPart signature : Val}
    (h : (checkSignature sig rnsPublicKey signedPart signature true).1 = true) :
    ∃ m s, signedPart = .bytes m ∧ signature = .bytes s ∧
      sig.verify (signingHalf rnsPublicKey) m s = true := by
  unfold checkSignature at h
  split_ifs at h with hb hv hr
  · unfold verifyEd25519Signature at hv
    split at hv
    next m s =>
      rw [Bool.and_eq_true] at hv
      exact ⟨m,s,rfl,rfl,hv.2⟩
    · cases hv
  · exact absurd rfl hr

lemma verifySenderBinding_signed {sig : SignatureScheme}
    {senderHash senderRnsPublicKey lxmfSignedPart lxmfSignature : Val}
    (h : (verifySenderBinding sig senderHash senderRnsPublicKey lxmfSignedPart lxmfSignature
      true).1 = true) : ∃ pk m s, senderRnsPublicKey = .bytes pk ∧ pk.length = rnsPublicKeySize ∧
      lxmfSignedPart = .bytes m ∧ lxmfSignature = .bytes s ∧
      senderHash = .str (sig.truncatedHashHex pk) ∧
      sig.verify (pk.drop ed25519PublicKeySize) m s = true := by
  unfold verifySenderBinding at h
  split at h
  · split_ifs at h with _ _ _ hr
    · exact absurd rfl hr
    split at h
    · cases h
    next expected hd =>
      split_ifs at h with hne
      rw [not_not] at hne
      obtain ⟨m,s,hm,hs,hv⟩ := checkSignature_signed h
      unfold deriveIdentityHashHex at hd
      split at hd
      next pk =>
        split_ifs at hd with hl
        cases hd
        exact ⟨pk,m,s,rfl,not_not.mp hl,hm,hs,by rw [hne],hv⟩
      · cases hd
  · cases h

end Hokora.SenderBinding
