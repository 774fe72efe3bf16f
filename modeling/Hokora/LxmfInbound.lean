import Hokora.Msgpack
import Hokora.SenderBinding

/-!
# Inbound LXMF messages

From the bytes of a message to the dispatched envelope. Digests, signatures and the answers of RNS
are parameters.
-/
namespace Hokora.LxmfInbound
open BigEndian Constants Msgpack PyValue SenderBinding

structure Library where
  unpackb : Bytes → Py Val
  packb : Val → Py Bytes
  fullHash : Bytes → Py Bytes
  hexrep : Val → Py String
  signatures : SignatureScheme

structure Identity where
  hexhash : String
  sigPubBytes : Option Bytes := none
  publicKey : Option Bytes := none
  deriving DecidableEq

def Identity.signingKey (i : Identity) : Option Bytes :=
  match i.sigPubBytes with
  | some pk => some pk
  | none => (i.publicKey.filter fun full => full.length = rnsPublicKeySize).map (List.drop 32)

structure Source where
  identity : Option Identity := none

def sourceUnknown : ℤ := 0x01
def signatureInvalid : ℤ := 0x02

structure LxMessage where
  signatureValidated : Bool := false
  unverifiedReason : Option ℤ := none
  source : Option Source := none
  sourceHash : Val := .none
  destinationHash : Val := .none
  hash : Val := .none
  packed : Option Bytes := none
  signature : Val := .none
  timestamp : Option FloatVal := none
  content : Bytes := []

def bytesOr (v : Val) : Bytes :=
  match v with
  | .bytes b => b
  | _ => []

def signedPayload (lib : Library) (payload : Bytes) : Py Bytes := do
  let unpacked ← lib.unpackb payload
  match unpacked with
  | .list items => if 4 < items.length then lib.packb (.list (items.take 4)) else pure payload
  | _ => pure payload

def reconstructLxmfSignedPart (lib : Library) (m : LxMessage) : Option Bytes :=
  match m.hash, m.packed with
  | .bytes hash, some packed =>
    if hash = [] ∨ packed.length < 96 then none
    else
      match signedPayload lib (packed.drop 96) with
      | .error _ => none
      | .ok payload =>
        let hashedPart := bytesOr m.destinationHash ++ bytesOr m.sourceHash ++ payload
        match lib.fullHash hashedPart with
        | .error _ => none
        | .ok recomputed => if recomputed = hash then some (hashedPart ++ hash) else none
  | _, _ => none

def pathRequestCacheTtl : ℚ := 60
def pathRequestCacheMax : ℕ := 1024

abbrev PathRequestCache := List (Bytes × ℚ)

def PathRequestCache.place (cache : PathRequestCache) (sourceHash : Bytes) (time : ℚ) :
    PathRequestCache :=
  cache.filter (fun e => e.1 ≠ sourceHash) ++ [(sourceHash, time)]

def PathRequestCache.renew (cache : PathRequestCache) (sourceHash : Bytes) (now : ℚ) :
    Bool × PathRequestCache :=
  let entries := PathRequestCache.place cache sourceHash now
  (true, entries.drop (entries.length - pathRequestCacheMax))

def PathRequestCache.shouldRequest (cache : PathRequestCache) (sourceHash : Bytes) (now : ℚ) :
    Bool × PathRequestCache :=
  match cache.lookup sourceHash with
  | some last =>
    if now - last < pathRequestCacheTtl then
      (false, PathRequestCache.place cache sourceHash last)
    else PathRequestCache.renew cache sourceHash now
  | none => PathRequestCache.renew cache sourceHash now

structure Inbound where
  cache : PathRequestCache := []
  requested : List Bytes := []
  rejections : List String := []
  results : List String := []

structure Verdict where
  ok : Bool
  reason : Option String := none
  identity : Option Identity := none

def Inbound.reject (s : Inbound) (label result reason : String) : Verdict × Inbound :=
  (⟨false,some reason,none⟩,
    { s with rejections := s.rejections ++ [label], results := s.results ++ [result] })

def Inbound.accept (s : Inbound) (result : String) (identity : Option Identity) :
    Verdict × Inbound :=
  (⟨true,none,identity⟩, { s with results := s.results ++ [result] })

structure Timing where
  requestedAt : ℚ
  startedAt : ℚ
  firstAnswer : Option Identity
  rounds : List (ℚ × Option Identity)

def waitSeconds (pathWait : ℚ) : ℚ := if 0 < pathWait then pathWait else 0

def poll (deadline : ℚ) : Option Identity → List (ℚ × Option Identity) → Option (Option Identity)
  | some identity, _ => some (some identity)
  | none, [] => none
  | none, (now, answer) :: rounds =>
    if now < deadline then poll deadline answer rounds else some none

def Inbound.requestPath (s : Inbound) (sourceHash : Bytes) (now : ℚ) : Inbound :=
  let r := PathRequestCache.shouldRequest s.cache sourceHash now
  { s with
    cache := r.2
    requested := if r.1 then s.requested ++ [sourceHash] else s.requested }

def checkRecovered (lib : Library) (s : Inbound) (m : LxMessage) (identity : Identity) :
    Verdict × Inbound :=
  match reconstructLxmfSignedPart lib m with
  | none =>
    s.reject "signed_part_reconstruction_failed" "rejected" "signed part reconstruction failed"
  | some signedPart =>
    match m.signature with
    | .bytes (b :: sig) =>
      match identity.signingKey.filter fun pk => pk.length = ed25519PublicKeySize with
      | none => s.reject "invalid_pubkey" "rejected" "invalid recovered pubkey"
      | some pk =>
        if verifyEd25519Signature lib.signatures pk (.bytes signedPart) (.bytes (b :: sig))
        then s.accept "recovered" (some identity)
        else s.reject "bad_signature" "signature_failed"
          "Ed25519 signature verification failed after path resolution"
    | _ => s.reject "missing_signature" "rejected" "missing signature"

def verifyLxmfInbound (lib : Library) (requireSigned : Bool) (pathWait : ℚ) (s : Inbound)
    (m : LxMessage) (t : Timing) : Option (Verdict × Inbound) :=
  if m.signatureValidated then some (⟨true,none,m.source.bind Source.identity⟩, s)
  else if m.unverifiedReason = some signatureInvalid then
    some (s.reject "signature_invalid" "rejected" "signature invalid")
  else if m.unverifiedReason ≠ some sourceUnknown then
    some (s.reject "validation_status_unknown" "rejected" "validation status unknown")
  else if requireSigned = false then some (s.accept "opt_out_passthrough" none)
  else
    match m.sourceHash with
    | .bytes (b :: sourceHash) =>
      let s := s.requestPath (b :: sourceHash) t.requestedAt
      match poll (t.startedAt + waitSeconds pathWait) t.firstAnswer t.rounds with
      | none => none
      | some none => some (s.reject "source_unknown_after_path_request" "rejected"
          "source unknown after path request")
      | some (some identity) => some (checkRecovered lib s m identity)
    | _ => some (s.reject "missing_source_hash" "rejected" "missing source_hash")

structure InboundEnvelope where
  channelId : String
  senderHash : String
  timestamp : FloatVal
  type : Val
  body : Val
  mediaPath : Val
  mediaBytes : Val
  replyTo : Val
  ttl : Val
  lxmfSignature : Val
  lxmfSignedPart : Option Bytes
  senderPublicKey : Option Bytes
  displayName : Val
  mentions : Val

structure Bridge where
  requireSignedLxmf : Bool := true
  lxmfPathWaitSeconds : ℚ := 5
  registeredDestinations : List (String × Bytes) := []
  hasIngestCallback : Bool := true

def Bridge.findChannelForDestination (b : Bridge) (destHash : Val) : Option String :=
  match destHash with
  | .bytes h => (b.registeredDestinations.find? fun e => e.2 = h).map Prod.fst
  | _ => none

def textContent (body : String) : Val := .dict [("body", .str body), ("type", .int msgText)]

def decodeContent (lib : Library) (m : LxMessage) : Val :=
  if m.content = [] then textContent ""
  else
    match lib.unpackb m.content with
    | .ok content => content
    | .error _ =>
      match ofUtf8 m.content with
      | .ok text => textContent text
      | .error _ => textContent ""

def Bridge.channelOfContent (b : Bridge) (content : Val) : Py (Option String) := do
  let channel ← content.get "channel_id" .none
  match channel with
  | .str c => pure (if c ∈ b.registeredDestinations.map Prod.fst ∧ c ≠ "" then some c else none)
  | .list (_ :: _) => .error .typeError
  | .dict (_ :: _) => .error .typeError
  | _ => pure none

def Bridge.channelOf (b : Bridge) (m : LxMessage) (content : Val) : Py (Option String) :=
  match (b.findChannelForDestination m.destinationHash).filter fun c => c ≠ "" with
  | some channelId => .ok (some channelId)
  | none => b.channelOfContent content

def senderHashOf (lib : Library) (identity : Option Identity) (m : LxMessage) : Py String :=
  match identity with
  | some i => .ok i.hexhash
  | none =>
    match m.source.bind Source.identity with
    | some i => .ok i.hexhash
    | none => lib.hexrep m.sourceHash

def senderPublicKeyOf (identity : Option Identity) : Option Bytes :=
  (identity.bind Identity.signingKey).filter fun pk => pk.length = ed25519PublicKeySize

def Bridge.envelope (lib : Library) (b : Bridge) (m : LxMessage) (identity : Option Identity)
    (now : FloatVal) : Py (Option InboundEnvelope) := do
  let content := decodeContent lib m
  match ← b.channelOf m content with
  | none => pure none
  | some channelId =>
    let senderHash ← senderHashOf lib identity m
    let type ← content.get "type" (.int msgText)
    let body ← content.get "body" .none
    let mediaPath ← content.get "media_path" .none
    let mediaBytes ← content.get "media_bytes" .none
    let replyTo ← content.get "reply_to" .none
    let ttl ← content.get "ttl" .none
    let displayName ← content.get "display_name" .none
    let mentions ← content.get "mentions" (.list [])
    pure (some {
      channelId := channelId
      senderHash := senderHash
      timestamp := m.timestamp.getD now
      type := type
      body := body
      mediaPath := mediaPath
      mediaBytes := mediaBytes
      replyTo := replyTo
      ttl := ttl
      lxmfSignature := m.signature
      lxmfSignedPart := reconstructLxmfSignedPart lib m
      senderPublicKey := senderPublicKeyOf identity
      displayName := displayName
      mentions := mentions })

def Bridge.callback (b : Bridge) (envelope : Option InboundEnvelope) : Option InboundEnvelope :=
  if b.hasIngestCallback then envelope else none

def Bridge.validateAndDispatch (lib : Library) (b : Bridge) (s : Inbound) (m : LxMessage)
    (t : Timing) (now : FloatVal) : Option (Py (Option InboundEnvelope) × Inbound) :=
  match verifyLxmfInbound lib b.requireSignedLxmf b.lxmfPathWaitSeconds s m t with
  | none => none
  | some (verdict, s') =>
    if verdict.ok then some ((b.envelope lib m verdict.identity now).map b.callback, s')
    else some (.ok none, s')

/-! The loop ends when the clock reaches the deadline, whatever the network answers. -/

variable {s : Inbound} {lib : Library} {m : LxMessage} {t : Timing} {pathWait : ℚ} {s' : Inbound}
  {now : FloatVal} {envelope : InboundEnvelope}

/-- The signing key of the identity verifies the signature of the message. -/
def VerifiedHere (lib : Library) (m : LxMessage) (identity : Identity) : Prop :=
  ∃ pk signedPart sig, identity.signingKey = some pk ∧ pk.length = ed25519PublicKeySize ∧
    reconstructLxmfSignedPart lib m = some signedPart ∧ m.signature = .bytes sig ∧
    lib.signatures.verify pk signedPart sig = true

lemma checkRecovered_ok {identity : Identity} (h : (checkRecovered lib s m identity).1.ok = true) :
    (checkRecovered lib s m identity).1.identity = some identity ∧
      VerifiedHere lib m identity := by
  unfold checkRecovered at h ⊢
  split at h
  · cases h
  next signedPart hp =>
  split at h
  next b sig hs =>
    split at h
    · cases h
    next pk hpk =>
    obtain ⟨hk,hl⟩ := Option.filter_eq_some_iff.1 hpk
    split at h
    next hv =>
      simp only [verifyEd25519Signature,Bool.and_eq_true] at hv
      exact ⟨by simp [Inbound.accept,verifyEd25519Signature,hv],
        pk,signedPart,b :: sig,hk,by simpa using hl,hp,hs,hv.2⟩
    · cases h
  · cases h

lemma verifyLxmfInbound_ok {verdict : Verdict}
    (h : verifyLxmfInbound lib true pathWait s m t = some (verdict, s')) (hok : verdict.ok = true) :
    (m.signatureValidated = true ∧ verdict.identity = m.source.bind Source.identity) ∨
      ∃ identity, verdict.identity = some identity ∧ VerifiedHere lib m identity := by
  unfold verifyLxmfInbound at h
  split_ifs at h with hv hi hu ho
  · cases h
    exact .inl ⟨hv,rfl⟩
  · cases h
    cases hok
  · cases h
    cases hok
  · exact ho.elim
  -- Only a recovered identity gets past the checks of an unknown source.
  split at h
  · split at h
    · cases h
    · cases h
      cases hok
    next identity hp =>
      obtain ⟨rfl,-⟩ := Prod.mk.inj (Option.some.inj h)
      exact .inr ⟨identity,checkRecovered_ok hok⟩
  · cases h
    cases hok

lemma envelope_senderHash {b : Bridge} {identity : Option Identity}
    (h : b.envelope lib m identity now = .ok (some envelope)) :
    senderHashOf lib identity m = .ok envelope.senderHash := by
  obtain ⟨channel,-,h⟩ := bind_eq_ok.1 h
  cases channel with
  | none => cases h
  | some channelId =>
    obtain ⟨senderHash,hs,h⟩ := bind_eq_ok.1 h
    obtain ⟨type,-,h⟩ := bind_eq_ok.1 h
    obtain ⟨body,-,h⟩ := bind_eq_ok.1 h
    obtain ⟨mediaPath,-,h⟩ := bind_eq_ok.1 h
    obtain ⟨mediaBytes,-,h⟩ := bind_eq_ok.1 h
    obtain ⟨replyTo,-,h⟩ := bind_eq_ok.1 h
    obtain ⟨ttl,-,h⟩ := bind_eq_ok.1 h
    obtain ⟨displayName,-,h⟩ := bind_eq_ok.1 h
    obtain ⟨mentions,-,h⟩ := bind_eq_ok.1 h
    cases h
    exact hs

lemma validateAndDispatch_some {b : Bridge}
    (h : b.validateAndDispatch lib s m t now = some (.ok (some envelope), s')) :
    ∃ verdict, verifyLxmfInbound lib b.requireSignedLxmf b.lxmfPathWaitSeconds s m t =
        some (verdict, s') ∧ verdict.ok = true ∧
      b.envelope lib m verdict.identity now = .ok (some envelope) := by
  unfold Bridge.validateAndDispatch at h
  split at h
  · cases h
  next verdict s'' hv =>
  split_ifs at h with hok
  · obtain ⟨hm,rfl⟩ := Prod.mk.inj (Option.some.inj h)
    obtain ⟨built,hb,hc⟩ := map_eq_ok.1 hm
    unfold Bridge.callback at hc
    split_ifs at hc
    exact ⟨verdict,hv,hok,hc ▸ hb⟩
  · cases h

/-- The sender of every dispatched envelope is an identity that LXMF validated for this message or
whose key verified the signature here. -/
theorem dispatched_sender_authentic {lib : Library} {b : Bridge}
    (hrequire : b.requireSignedLxmf = true) {m : LxMessage} {Validated : Identity → Prop}
    (hlxmf : m.signatureValidated = true → ∃ source identity, m.source = some source ∧
      source.identity = some identity ∧ Validated identity)
    {s s' : Inbound} {t : Timing} {now : FloatVal} {envelope : InboundEnvelope}
    (h : b.validateAndDispatch lib s m t now = some (.ok (some envelope), s')) :
    ∃ identity, envelope.senderHash = identity.hexhash ∧
      (VerifiedHere lib m identity ∨ Validated identity) := by
  obtain ⟨verdict,hv,hok,he⟩ := validateAndDispatch_some h
  have hs := envelope_senderHash he
  rw [hrequire] at hv
  obtain ⟨hval,hi⟩ | ⟨identity,hi,hve⟩ := verifyLxmfInbound_ok hv hok
  · obtain ⟨source,identity,hso,hid,hva⟩ := hlxmf hval
    have hr : verdict.identity = some identity := by rw [hi,hso]; exact hid
    rw [hr] at hs
    exact ⟨identity,(Except.ok.inj hs).symm,.inr hva⟩
  · rw [hi] at hs
    exact ⟨identity,(Except.ok.inj hs).symm,.inl hve⟩

/-! A message from an unknown source, which the network knows after one round. -/

def sampleLibrary : Library where
  unpackb := Msgpack.unpackb zeroFormat
  packb := Msgpack.packb zeroFormat
  fullHash hashedPart := .ok hashedPart
  hexrep _ := .ok ""
  signatures := ⟨fun _ => "",fun pk message signature => signature = pk.take 1 ++ message⟩

def alice : Identity := { hexhash := "a11ce", sigPubBytes := some (List.replicate 32 7) }

def sampleMessage : LxMessage where
  unverifiedReason := some sourceUnknown
  sourceHash := .bytes [0x06]
  destinationHash := .bytes [0x05]
  hash := .bytes [0x05, 0x06, 0x90]
  packed := some (List.replicate 96 0 ++ [0x90])
  signature := .bytes [7, 0x05, 0x06, 0x90, 0x05, 0x06, 0x90]
  content := [0x81, 0xa4, 0x62, 0x6f, 0x64, 0x79, 0xa2, 0x68, 0x69]

def sampleBridge : Bridge := { registeredDestinations := [("general", [0x05])] }

def sampleTiming : Timing where
  requestedAt := 0
  startedAt := 0
  firstAnswer := none
  rounds := [(1, some alice)]

def sampleEnvelope : InboundEnvelope where
  channelId := "general"
  senderHash := alice.hexhash
  timestamp := .fin 3
  type := .int msgText
  body := .str "hi"
  mediaPath := .none
  mediaBytes := .none
  replyTo := .none
  ttl := .none
  lxmfSignature := sampleMessage.signature
  lxmfSignedPart := some [0x05, 0x06, 0x90, 0x05, 0x06, 0x90]
  senderPublicKey := some (List.replicate 32 7)
  displayName := .none
  mentions := .list []

lemma sampleMessage_dispatched :
    sampleBridge.validateAndDispatch sampleLibrary {} sampleMessage sampleTiming (.fin 3) =
      some (.ok (some sampleEnvelope),
        { cache := [([0x06], 0)], requested := [[0x06]], results := ["recovered"] }) := by
  have hp : poll (sampleTiming.startedAt + waitSeconds sampleBridge.lxmfPathWaitSeconds)
      sampleTiming.firstAnswer sampleTiming.rounds = some (some alice) := by decide +kernel
  unfold Bridge.validateAndDispatch verifyLxmfInbound
  rw [hp]
  rfl

theorem recovered_sender_authentic : ∃ identity, sampleEnvelope.senderHash = identity.hexhash ∧
      (VerifiedHere sampleLibrary sampleMessage identity ∨ identity = alice) := by
  have hl : sampleMessage.signatureValidated = true → ∃ source identity,
      sampleMessage.source = some source ∧ source.identity = some identity ∧ identity = alice := by
    intro h
    cases h
  exact dispatched_sender_authentic (b := sampleBridge) rfl hl sampleMessage_dispatched

/-- The content is decoded to a dictionary, and a text that does not encode one to its own body. -/
def Survives (lib : Library) (m : LxMessage) : Prop :=
  (∃ d, decodeContent lib m = .dict d) ∧ ∀ text, ofUtf8 m.content = .ok text →
    (¬ ∃ d, lib.unpackb m.content = .ok (.dict d)) → decodeContent lib m = textContent text

section PlainText
variable {fmt : FloatFormat}

lemma unpackb_ascii {b : UInt8} {bs : Bytes} (hb : b.toNat < 0x80) :
    Msgpack.unpackb fmt (b :: bs) = if bs = [] then .ok (.int b.toNat) else .error .valueError := by
  have hat : unpackAt fmt unpackDepth (b :: bs) = .ok (.int b.toNat, bs) := by
    rw [unpackDepth,unpackAt,unpackHead]
    simp only [if_pos hb]
    rfl
  rw [Msgpack.unpackb,hat]
  rfl

lemma decodeContent_error (lib : Library) {m : LxMessage} {e : PyError}
    (h : lib.unpackb m.content = .error e) : (∃ text, decodeContent lib m = textContent text) ∧
      ∀ text, ofUtf8 m.content = .ok text → decodeContent lib m = textContent text := by
  unfold decodeContent
  split_ifs with hc
  · refine ⟨⟨_,rfl⟩,fun text ht => ?_⟩
    rw [hc,show ofUtf8 [] = .ok "" from @ofUtf8_utf8 ""] at ht
    cases ht
    rfl
  rw [h]
  cases ofUtf8 m.content with
  | error e => exact ⟨⟨_,rfl⟩,nofun⟩
  | ok text =>
    refine ⟨⟨_,rfl⟩,fun text' ht => ?_⟩
    cases ht
    rfl

end PlainText

end Hokora.LxmfInbound
