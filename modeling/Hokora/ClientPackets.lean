import Hokora.WireFrames

/-!
# Packets at the client

What the client takes a packet for: by its length header first, then by the keys of the map.
-/
namespace Hokora.ClientPackets
open BigEndian Constants List Msgpack PyValue WireFrames

structure ClientState where
  pendingNonces : List Bytes := []
  hasEventCallback : Bool := true

inductive ClientCall where
  | event (name data : Val)
  | dispatch (data : Val)

def stripIfFramed (message : Bytes) : Bytes :=
  match stripLengthHeader message with
  | .ok payload => payload
  | .error _ => message

def onMap (s : ClientState) (d : List (String × Val)) : List ClientCall × ClientState :=
  let data := (d.lookup "data").getD (.dict [])
  match d.lookup "event" with
  | some name => (if s.hasEventCallback then [.event name data] else [], s)
  | none =>
    match d.lookup "nonce" with
    | some (.bytes nonce) =>
      if nonce ≠ [] ∧ nonce ∈ s.pendingNonces then
        ([.dispatch data], { s with pendingNonces := s.pendingNonces.filter (· ≠ nonce) })
      else ([], s)
    | _ => ([], s)

def onPacket (fmt : FloatFormat) (s : ClientState) (message : Bytes) :
    List ClientCall × ClientState :=
  match unpackb fmt (stripIfFramed message) with
  | .ok (.dict d) => onMap s d
  | _ => ([], s)

def ambiguousLength : ℕ := 33699

section Events
variable {fmt : FloatFormat} {s : ClientState} {eventType : String} {data : List (String × Val)}
  {bs : Bytes}

lemma encodePushEvent_head (h : encodePushEvent fmt eventType data = .ok bs) :
    ∃ rest, bs = 0x83 :: 0xa1 :: 0x76 :: 0x01 :: rest := by
  obtain ⟨head,hh,h⟩ := bind_ok h
  obtain ⟨entries,he,h⟩ := bind_ok h
  obtain ⟨key,hk,he⟩ := bind_ok he
  obtain ⟨version,hv,he⟩ := bind_ok he
  obtain ⟨rest,-,he⟩ := bind_ok he
  cases h
  cases he
  have hh' : packHead fmt (.map 3) = .ok [0x83] := rfl
  have hk' : packText fmt "v" = .ok [0xa1, 0x76] := rfl
  have hv' : packAt fmt 511 (.int wireVersion) = .ok [0x01] := rfl
  cases hh.symm.trans hh'
  cases hk.symm.trans hk'
  cases hv.symm.trans hv'
  exact ⟨rest,rfl⟩

lemma stripIfFramed_event {rest : Bytes} : stripIfFramed (0x83 :: 0xa1 :: rest) =
      if (0x83 :: 0xa1 :: rest).length = ambiguousLength then rest else 0x83 :: 0xa1 :: rest := by
  have hs : natBE ((0x83 :: 0xa1 :: rest : Bytes).take 2) = 33697 := rfl
  unfold stripIfFramed stripLengthHeader
  rw [hs,if_neg (by simp)]
  simp only [drop_succ_cons,drop_zero,length_cons,ambiguousLength]
  by_cases hl : rest.length = 33697
  · simp [hl]
  · simp [hl]

lemma onPacket_event (hs : s.hasEventCallback = true) (hd : WellFormed fmt (.dict data))
    (h : encodePushEvent fmt eventType data = .ok bs) (hl : bs.length ≠ ambiguousLength) :
    (onPacket fmt s bs).1 = [.event (.str eventType) (.dict data)] := by
  obtain ⟨rest,rfl⟩ := encodePushEvent_head h
  have hr := unpackb_packb (eventVal_wellFormed hd) h
  unfold onPacket
  rw [stripIfFramed_event,if_neg hl,hr]
  simp [eventVal,onMap,hs,lookup_cons]

lemma onPacket_shortened (h : encodePushEvent fmt eventType data = .ok bs)
    (hl : bs.length = ambiguousLength) : (onPacket fmt s bs).1 = [] := by
  obtain ⟨rest,rfl⟩ := encodePushEvent_head h
  have hn : packb fmt (.int 0x76) = .ok [0x76] := rfl
  have hr : unpackb fmt ([0x76] ++ 0x01 :: rest) = .error .valueError :=
    unpackb_trailing (.int _) hn (by simp)
  unfold onPacket
  rw [stripIfFramed_event,if_pos hl]
  rw [singleton_append] at hr
  rw [hr]

end Events

lemma onPacket_response {fmt : FloatFormat} {s : ClientState} {nonce : Bytes} {p : Val}
    {nodeTime : Option FloatVal} {bs : Bytes} (hn : nonce.length = nonceSize)
    (hpe : nonce ∈ s.pendingNonces) (hp : WellFormed fmt p)
    (ht : ∀ t ∈ nodeTime, fmt.exact t) (h : encodeSyncResponse fmt nonce p nodeTime = .ok bs) :
    (onPacket fmt s bs).1 = [.dispatch p] := by
  obtain ⟨raw,hra,h⟩ := bind_ok h
  have hr := unpackb_packb (responseVal_wellFormed hp ht) hra
  have hne : nonce ≠ [] := by
    rintro rfl
    cases hn
  have hs : stripIfFramed bs = raw := by
    unfold stripIfFramed
    rw [strip_addLengthHeader h]
  unfold onPacket
  rw [hs,hr]
  cases nodeTime with
  | none => simp [responseVal,onMap,lookup_cons,hne,hpe]
  | some t => simp [responseVal,onMap,lookup_cons,hne,hpe]

/-- Every response to a pending request is dispatched with its payload. A live event
reaches the callback exactly when it is not 33699 bytes long. -/
theorem client_packets_classified_iff (fmt : FloatFormat) (s : ClientState) :
    (∀ eventType data bs, s.hasEventCallback = true → WellFormed fmt (.dict data) →
      encodePushEvent fmt eventType data = .ok bs →
        ((onPacket fmt s bs).1 = [.event (.str eventType) (.dict data)] ↔
          bs.length ≠ ambiguousLength)) ∧
      ∀ nonce payload nodeTime bs, nonce.length = nonceSize → nonce ∈ s.pendingNonces →
        WellFormed fmt payload → (∀ t ∈ nodeTime, fmt.exact t) →
        encodeSyncResponse fmt nonce payload nodeTime = .ok bs →
          (onPacket fmt s bs).1 = [.dispatch payload] := by
  constructor
  · intro eventType data bs hs hd h
    constructor
    · intro hc hl
      rw [onPacket_shortened h hl] at hc
      cases hc
    · exact onPacket_event hs hd h
  · intro nonce payload nodeTime bs hn hpe hp ht h
    exact onPacket_response hn hpe hp ht h

def sampleClient : ClientState := { pendingNonces := [replicate nonceSize 0] }

theorem sampleClient_classifies :
    (∃ bs, encodePushEvent zeroFormat "message" [("body", .str "hello")] = .ok bs ∧
      (onPacket zeroFormat sampleClient bs).1 =
        [.event (.str "message") (.dict [("body", .str "hello")])]) ∧
      ∃ bs, encodeSyncResponse zeroFormat (replicate nonceSize 0) (.dict []) none = .ok bs ∧
        (onPacket zeroFormat sampleClient bs).1 = [.dispatch (.dict [])] := by
  have hd : WellFormed zeroFormat (.dict [("body", .str "hello")]) := by
    refine .dict (by simp) ?_
    rintro e he
    cases mem_singleton.mp he
    exact .str _
  constructor
  · refine ⟨_,rfl,?_⟩
    refine ((client_packets_classified_iff zeroFormat sampleClient).1 _ _ _ rfl hd rfl).mpr ?_
    decide +kernel
  refine ⟨_,rfl,?_⟩
  exact (client_packets_classified_iff zeroFormat sampleClient).2 _ _ none _ rfl
    mem_cons_self (.dict nodup_nil (by simp)) (by simp) rfl

def sampleEvent : List (String × Val) := [("encrypted_body", .bytes (replicate 33657 0))]

lemma encodePushEvent_sample {fmt : FloatFormat} :
    ∃ bs, encodePushEvent fmt "message" sampleEvent = .ok bs ∧ bs.length = ambiguousLength := by
  have hb : packAt fmt 510 (.bytes (replicate 33657 0)) =
      .ok ([0xc5, 0x83, 0x79] ++ replicate 33657 0) := by
    apply packAt_bytes
    rw [length_replicate]
    rfl
  have hd := packAt_dict (d := sampleEvent) rfl (packEntries_cons rfl hb rfl)
  refine ⟨_,packAt_dict rfl (packEntries_cons rfl rfl (packEntries_cons rfl rfl
    (packEntries_cons rfl hd rfl))),?_⟩
  simp only [length_append,length_replicate]
  rfl

theorem sampleEvent_lost : ∃ bs, encodePushEvent zeroFormat "message" sampleEvent = .ok bs ∧
      (onPacket zeroFormat sampleClient bs).1 = [] := by
  obtain ⟨bs,hbs,hl⟩ := encodePushEvent_sample
  exact ⟨bs,hbs,onPacket_shortened hbs hl⟩

end Hokora.ClientPackets
