import Hokora.GroupKeys

/-!
# Sealed history on the client

The client keeps one key for each sealed channel, that of the last response it could open, and
renders stored ciphertext with it. Responses come in any order, and two responses may bring
different keys under one epoch number, as the node may seal a channel again. Opening a response and
AES-GCM are parameters.
-/
namespace Hokora.ClientSealedKeys
open BigEndian GroupKeys KeyedTable List ReadHandlers SealedChannels TransitionRuns

abbrev SealedKeyStore := Table KeyInfo.channelId

structure SealedKeyResponse where
  channelId : Option String
  epoch : Option ℤ
  encryptedKeyBlob : Option Bytes

section Responses
variable (decrypt : Bytes → Option Bytes)

def receivedKey (data : SealedKeyResponse) : Option KeyInfo :=
  match present data.channelId, data.epoch, data.encryptedKeyBlob with
  | some channelId, some epoch, some (b :: bs) =>
    (decrypt (b :: bs)).bind fun key =>
      if key.length = 32 then some ⟨channelId,key,epoch⟩ else none
  | _, _, _ => none

def handleSealedKeyResponse (keys : SealedKeyStore) (data : SealedKeyResponse) : SealedKeyStore :=
  match receivedKey decrypt data with
  | some k => keys.set k
  | none => keys

def receivedKeys (responses : List SealedKeyResponse) (channelId : String) : List KeyInfo :=
  (responses.filterMap (receivedKey decrypt)).filter fun k => k.channelId = channelId

lemma run_get? {keys : SealedKeyStore} {responses : List SealedKeyResponse} {ch : String} :
    (run (handleSealedKeyResponse decrypt) keys responses).get? ch =
      ((receivedKeys decrypt responses ch).getLast?).or (keys.get? ch) := by
  induction responses generalizing keys with
  | nil => rfl
  | cons data rest ih =>
    rw [run_cons,ih]
    simp only [receivedKeys,handleSealedKeyResponse,filterMap_cons]
    cases receivedKey decrypt data with
    | none => rfl
    | some k =>
      rw [Table.get?_set,filter_cons]
      split_ifs with hk hd hd
      · rw [List.getLast?_cons]
        cases (List.filter _ _).getLast? <;> rfl
      · exact absurd (decide_eq_true hk) hd
      · exact absurd (of_decide_eq_true hd) hk
      · rfl

lemma receivedKey_length {data : SealedKeyResponse} {k : KeyInfo}
    (h : receivedKey decrypt data = some k) : k.key.length = 32 := by
  unfold receivedKey at h
  split at h
  · obtain ⟨key,-,h⟩ := Option.bind_eq_some_iff.mp h
    split_ifs at h with hl
    cases h
    exact hl
  · cases h

lemma mem_receivedKeys {responses : List SealedKeyResponse} {ch : String} {k : KeyInfo}
    (h : k ∈ receivedKeys decrypt responses ch) : k.channelId = ch ∧ k.key.length = 32 := by
  obtain ⟨hm,hc⟩ := mem_filter.mp h
  obtain ⟨data,-,hd⟩ := mem_filterMap.mp hm
  exact ⟨of_decide_eq_true hc,receivedKey_length decrypt hd⟩

end Responses

def decryptFailedMarker : String := "[encrypted - key unavailable]"

def bodyForRender (prim : ReadPrimitives) (keys : SealedKeyStore) (channelId : Option String)
    (row : StoredBody) : String :=
  match present row.body with
  | some text => text
  | none =>
    match row.encryptedBody, row.encryptionNonce with
    | some (e :: es), some (n :: ns) =>
      match present channelId with
      | none => decryptFailedMarker
      | some channel =>
        match keys.get? channel with
        | none => decryptFailedMarker
        | some held =>
          if row.encryptionEpoch.any fun epoch => epoch ≠ held.epoch then
            decryptFailedMarker
          else
            ((prim.aesGcmDecrypt held.key (n :: ns) (e :: es) (utf8 channel)).bind
              prim.decodeUtf8).getD decryptFailedMarker
    | _, _ => ""

def sealedRow (aes : AesGcmEncrypt) (k : KeyInfo) (nonce : Bytes) (text : String) : StoredBody where
  encryptedBody := some (aes k.key nonce (utf8 text) (utf8 k.channelId))
  encryptionNonce := some nonce
  encryptionEpoch := some k.epoch

section Reading
variable {aes : AesGcmEncrypt} {prim : ReadPrimitives} {k : KeyInfo} {nonce : Bytes}
  {text : String} (hchannel : k.channelId ≠ "") (hnonce : nonce ≠ [])
  (hciphertext : aes k.key nonce (utf8 text) (utf8 k.channelId) ≠ [])
include hchannel hnonce hciphertext

lemma bodyForRender_sealed {keys : SealedKeyStore} {held : KeyInfo}
    (hh : keys.get? k.channelId = some held) :
    bodyForRender prim keys (some k.channelId) (sealedRow aes k nonce text) =
      if k.epoch ≠ held.epoch then decryptFailedMarker
      else ((prim.aesGcmDecrypt held.key nonce (aes k.key nonce (utf8 text) (utf8 k.channelId))
        (utf8 k.channelId)).bind prim.decodeUtf8).getD decryptFailedMarker := by
  obtain ⟨n,ns,rfl⟩ := exists_cons_of_ne_nil hnonce
  obtain ⟨e,es,he⟩ := exists_cons_of_ne_nil hciphertext
  have hp : present (some k.channelId) = some k.channelId :=
    present_eq_some.mpr ⟨rfl,hchannel⟩
  have hb : present (none : Option String) = none := rfl
  simp [bodyForRender,sealedRow,hb,he,hp,hh]

/-- Once a key of the row's epoch was received, the row is readable exactly if the last key of its
channel is the one that encrypted it. -/
theorem sealed_history_readable_iff
    (hcipher : prim.aesGcmDecrypt k.key nonce (aes k.key nonce (utf8 text) (utf8 k.channelId))
      (utf8 k.channelId) = some (utf8 text))
    (hother : ∀ key : Bytes, key.length = 32 → key ≠ k.key → prim.aesGcmDecrypt key nonce
      (aes k.key nonce (utf8 text) (utf8 k.channelId)) (utf8 k.channelId) = none)
    (hutf8 : prim.decodeUtf8 (utf8 text) = some text) (decrypt : Bytes → Option Bytes)
    (keys : SealedKeyStore) (responses : List SealedKeyResponse)
    (hreceived : ∃ received ∈ receivedKeys decrypt responses k.channelId,
      received.epoch = k.epoch) :
    bodyForRender prim (run (handleSealedKeyResponse decrypt) keys responses) (some k.channelId)
        (sealedRow aes k nonce text) = text ↔
      (receivedKeys decrypt responses k.channelId).getLast? = some k ∨
        text = decryptFailedMarker := by
  obtain ⟨received,hm,-⟩ := hreceived
  obtain ⟨last,hl⟩ : ∃ last, (receivedKeys decrypt responses k.channelId).getLast? = some last :=
    Option.ne_none_iff_exists'.mp (mt List.getLast?_eq_none_iff.mp (ne_nil_of_mem hm))
  obtain ⟨hc,hlen⟩ := mem_receivedKeys decrypt (mem_of_getLast? hl)
  have hh : (run (handleSealedKeyResponse decrypt) keys responses).get? k.channelId =
      some last := by
    rw [run_get?,hl]
    rfl
  rw [bodyForRender_sealed hchannel hnonce hciphertext hh,hl]
  by_cases hk : last = k
  · rw [hk,if_neg (not_not.mpr rfl),hcipher,Option.bind_some,hutf8]
    exact iff_of_true rfl (.inl rfl)
  -- Either the epoch differs, or the key does and the ciphertext does not open.
  have hmarker : (if k.epoch ≠ last.epoch then decryptFailedMarker
      else ((prim.aesGcmDecrypt last.key nonce (aes k.key nonce (utf8 text) (utf8 k.channelId))
        (utf8 k.channelId)).bind prim.decodeUtf8).getD decryptFailedMarker) =
      decryptFailedMarker := by
    split_ifs with he
    · rfl
    have hne : last.key ≠ k.key := fun h =>
      hk (by cases last; cases k; simp_all)
    rw [hother last.key hlen hne]
    rfl
  rw [hmarker,Option.some.injEq]
  exact ⟨fun h => .inr h.symm,fun h => (h.resolve_left hk).symm⟩

end Reading

def oldKey : KeyInfo := ⟨"secrets",replicate 32 1,1⟩

def newKey : KeyInfo := ⟨"secrets",replicate 32 2,2⟩

def served (k : KeyInfo) : SealedKeyResponse := ⟨some k.channelId,some k.epoch,some k.key⟩

theorem rotation_hides_history :
    bodyForRender tagPrimitives (run (handleSealedKeyResponse some) .empty [served oldKey])
        (some "secrets") (sealedRow tagEncrypt oldKey [9] "text") = "text" ∧
      bodyForRender tagPrimitives
        (run (handleSealedKeyResponse some) .empty [served oldKey, served newKey])
        (some "secrets") (sealedRow tagEncrypt oldKey [9] "text") = decryptFailedMarker := by
  decide +kernel

lemma tagPrimitives_other {key key' pt nonce aad : Bytes} (hl : key.length = key'.length)
    (hne : key ≠ key') :
    tagPrimitives.aesGcmDecrypt key nonce (tagEncrypt key' nonce pt aad) aad = none := by
  refine if_neg fun h => hne ?_
  obtain ⟨rest,hr⟩ := isPrefixOf_iff_prefix.mp h
  exact (append_inj hr hl).1

theorem last_epoch_readable :
    (receivedKeys some [served oldKey, served newKey] "secrets").getLast? = some newKey ∧
      bodyForRender tagPrimitives
        (run (handleSealedKeyResponse some) .empty [served oldKey, served newKey])
        (some "secrets") (sealedRow tagEncrypt newKey [9] "text") = "text" := by
  have hl : (receivedKeys some [served oldKey, served newKey] "secrets").getLast? =
      some newKey := by decide +kernel
  exact ⟨hl,(sealed_history_readable_iff (k := newKey) (by decide) (by decide) (by decide)
    (tagPrimitives_decrypt _ _ _ _) (fun _ hk hne => tagPrimitives_other hk hne) rfl some .empty
    [served oldKey, served newKey] ⟨newKey,by decide +kernel,rfl⟩).mpr (.inl hl)⟩

end Hokora.ClientSealedKeys
