import Hokora.ClientMessages

/-!
# Pinned keys on the client

The pins in memory and in the client's database over runs of verified messages, restarts and
forgotten keys. The writes to the database are taken to succeed. Both are keyed by what the server
sent as `sender_hash`: a dictionary keeps the value, the column keeps text.
-/
namespace Hokora.KeyPinning
open BigEndian ClientMessages KeyedTable PyValue SenderBinding TransitionRuns
open ReadHandlers (Entry)

def forgetKey (s : Client) (sender : String) : Client :=
  { s with
    tofuKeys := s.tofuKeys.erase (.text sender)
    identityKeys := s.identityKeys.erase (.text sender) }

inductive PinEvent where
  | message (msg : Entry)
  | restart
  | forget (sender : String)

def pinStep (sig : SignatureScheme) (s : Client) : PinEvent → Client
  | .message msg => (s.verify sig msg).1
  | .restart => s.restart
  | .forget sender => forgetKey s sender

def Verified (sig : SignatureScheme) (s : Client) (msg : Entry) : Prop :=
  (s.verify sig msg).2 = .ok (some true)

def TextSender (msg : Entry) : Prop :=
  field msg "sender_hash" = .none ∨ ∃ sender, field msg "sender_hash" = .str sender

/-- The senders of all messages are text, or missing. -/
def TextSenders (es : List PinEvent) : Prop := ∀ msg, .message msg ∈ es → TextSender msg

structure Synced (s : Client) : Prop where
  same : ∀ k, s.identityKeys.get? k = s.tofuKeys.get? k
  nonempty : ∀ k p, s.identityKeys.get? k = some p → p.publicKey ≠ []

variable {s : Client}

lemma Synced.pinnedKey (h : Synced s) (k : Key) :
    pinnedKey s.identityKeys (some k) = (s.identityKeys.get? k).map Pin.publicKey := by
  rw [ClientMessages.pinnedKey,Option.bind_some]
  cases hk : s.identityKeys.get? k with
  | none => rfl
  | some p =>
    rw [Option.map_some,Option.filter_some,if_pos (by simpa using h.nonempty k p hk)]

lemma persistPin_get? (h : Synced s) {sender : String} {pk : Bytes}
    (ho : ∀ p, s.identityKeys.get? (.text sender) = some p → p.publicKey = pk) {k : Key} :
    (persistPin s.tofuKeys (accept s.identityKeys (some (.text sender)) (some (.text sender))
        (.bytes pk)).newKey).get? k =
      if .text sender = k then some ⟨.text sender,pk⟩ else s.identityKeys.get? k := by
  simp only [accept,h.pinnedKey]
  cases hp : s.identityKeys.get? (.text sender) with
  | none =>
    -- the first key of the sender, which the database does not have either
    have hn : s.tofuKeys.get? (.text sender) = none := (h.same _).symm.trans hp
    obtain ⟨t,ht⟩ := Table.insert?_isSome (r := (⟨.text sender,pk⟩ : Pin)).mpr hn
    simp only [Option.map_none,Option.isNone_none,if_true,Option.map_some,persistPin,ht,
      Option.getD_some]
    rw [Table.get?_insert? ht,h.same]
  | some p =>
    simp only [Option.map_some,Option.isNone_some,Bool.false_eq_true,if_false,persistPin]
    split_ifs with hk
    · cases hk
      have hke : p.sender = .text sender := Table.get?_key hp
      rw [← h.same,hp,← hke,← ho p hp]
    · exact (h.same k).symm

variable (sig : SignatureScheme) {m : Entry}

lemma verify_pins (h : Synced s) (hm : TextSender m) :
    (¬ Verified sig s m ∧ (s.verify sig m).1.identityKeys = s.identityKeys ∧
        (s.verify sig m).1.tofuKeys = s.tofuKeys) ∨
      ∃ sender pk, field m "sender_hash" = .str sender ∧
        field m "sender_public_key" = .bytes pk ∧ pk ≠ [] ∧
        (∀ p, s.identityKeys.get? (.text sender) = some p → p.publicKey = pk) ∧
        ∀ k, (s.verify sig m).1.identityKeys.get? k =
            (if .text sender = k then some ⟨.text sender,pk⟩ else s.identityKeys.get? k) ∧
          (s.verify sig m).1.tofuKeys.get? k =
            (if .text sender = k then some ⟨.text sender,pk⟩ else s.identityKeys.get? k) := by
  cases hv : verifyMessageSignature sig s.identityKeys m with
  | error e =>
    have he : s.verify sig m = (s, .error e) := by rw [Client.verify,hv]
    rw [Verified,he]
    refine .inl ⟨?_,rfl,rfl⟩
    intro hok
    cases hok
  | ok v =>
    rw [Verified,s.verify_ok hv]
    rcases verdict_cases hv with ⟨hne,hpi,hnew⟩ | ⟨key,pk,ht,hk,hpk,hne,ho,rfl⟩
    · exact .inl ⟨fun hok => hne (Except.ok.inj hok),hpi,by rw [hnew]; rfl⟩
    obtain hn | ⟨sender,hs⟩ := hm
    · rw [hn] at ht
      cases ht
    rw [hs] at hk ⊢
    cases hk
    rw [h.pinnedKey] at ho
    have hpin : ∀ p, s.identityKeys.get? (.text sender) = some p → p.publicKey = pk := by
      intro p hp
      exact ho p.publicKey (by rw [hp]; rfl)
    refine .inr ⟨sender,pk,rfl,hpk,hne,hpin,?_⟩
    intro k
    exact ⟨Table.get?_set _ _ _,persistPin_get? h hpin⟩

lemma verify_synced (h : Synced s) (hm : TextSender m) : Synced (s.verify sig m).1 := by
  rcases verify_pins sig h hm with ⟨-,hm,hdb⟩ | ⟨sender,pk,-,-,hne,-,hg⟩
  · constructor
    · intro k
      rw [hm,hdb]
      exact h.same k
    intro k p hp
    rw [hm] at hp
    exact h.nonempty k p hp
  constructor
  · intro k
    rw [(hg k).1,(hg k).2]
  intro k p hp
  rw [(hg k).1] at hp
  split_ifs at hp
  · cases hp
    exact hne
  · exact h.nonempty k p hp

lemma step_synced (s : Client) (e : PinEvent) (he : ∀ msg, e = .message msg → TextSender msg)
    (h : Synced s) : Synced (pinStep sig s e) := by
  cases e with
  | message m => exact verify_synced sig h (he m rfl)
  | restart => exact ⟨fun _ => rfl,fun k p hp => h.nonempty k p ((h.same k).trans hp)⟩
  | forget sender =>
    constructor
    · intro k
      simp [pinStep,forgetKey,Table.get?_erase,h.same]
    intro k p hp
    simp only [pinStep,forgetKey,Table.get?_erase] at hp
    split_ifs at hp
    exact h.nonempty k p hp

lemma run_synced (h : Synced s) {es : List PinEvent} (hes : TextSenders es) :
    Synced (run (pinStep sig) s es) :=
  run_invariant_mem (fun s e he hs => step_synced sig s e (fun m hm => hes m (hm ▸ he)) hs) h

lemma synced_empty : Synced {} := ⟨fun _ => rfl,fun k p hp => by cases hp⟩

lemma pin_kept (h : Synced s) {sender : String} {p : Pin}
    (hp : s.identityKeys.get? (.text sender) = some p) {es : List PinEvent}
    (hte : TextSenders es) (hes : .forget sender ∉ es) :
    (run (pinStep sig) s es).identityKeys.get? (.text sender) = some p := by
  have hr : Synced (run (pinStep sig) s es) ∧
      (run (pinStep sig) s es).identityKeys.get? (.text sender) = some p := by
    apply run_invariant_mem (I := fun s => Synced s ∧ s.identityKeys.get? (.text sender) = some p)
      ?_ ⟨h,hp⟩
    rintro t e he ⟨ht,htp⟩
    refine ⟨step_synced sig t e (fun m hm => hte m (hm ▸ he)) ht,?_⟩
    cases e with
    | message m =>
      rcases verify_pins sig ht (hte m he) with ⟨-,hm,-⟩ | ⟨other,pk,-,-,-,ho,hg⟩
      · exact (congrArg (Table.get? · _) hm).trans htp
      refine (hg _).1.trans ?_
      split_ifs with hs
      · -- the sender has this pin already, so the key is the same
        cases hs
        have hk : p.sender = .text sender := Table.get?_key htp
        have hpk : p.publicKey = pk := ho p htp
        rw [← hk,← hpk]
      · exact htp
    | restart => exact (ht.same _).symm.trans htp
    | forget other =>
      have hne : Key.text sender ≠ .text other := by
        rintro hs
        cases hs
        exact hes he
      simp only [pinStep,forgetKey,Table.get?_erase]
      rw [if_neg hne,htp]
  exact hr.2

lemma verified_pin (h : Synced s) (ht : TextSender m) (hm : Verified sig s m) :
    ∃ sender pk, field m "sender_hash" = .str sender ∧ field m "sender_public_key" = .bytes pk ∧
      (∀ p, s.identityKeys.get? (.text sender) = some p → p.publicKey = pk) ∧
      (pinStep sig s (.message m)).identityKeys.get? (.text sender) = some ⟨.text sender,pk⟩ := by
  rcases verify_pins sig h ht with ⟨hn,-⟩ | ⟨sender,pk,hs,hpk,-,ho,hg⟩
  · exact absurd hm hn
  · exact ⟨sender,pk,hs,hpk,ho,(hg _).1.trans (if_pos rfl)⟩

/-- In every run in which the senders are text, the pins in memory are those of the database, and
two messages of one sender that were both verified have the same key, unless the user forgot the pin
of the sender between them. -/
theorem key_pinning (sig : SignatureScheme) :
    (∀ es, TextSenders es → ∀ k, (run (pinStep sig) {} es).identityKeys.get? k =
      (run (pinStep sig) {} es).tofuKeys.get? k) ∧
    ∀ (before between : List PinEvent) (m₁ m₂ : Entry),
      TextSenders (before ++ .message m₁ :: between) →
      Verified sig (run (pinStep sig) {} before) m₁ →
      Verified sig (run (pinStep sig) {} (before ++ .message m₁ :: between)) m₂ →
      field m₁ "sender_hash" = field m₂ "sender_hash" →
      field m₁ "sender_public_key" ≠ field m₂ "sender_public_key" →
      ∃ sender, field m₁ "sender_hash" = .str sender ∧ .forget sender ∈ between := by
  refine ⟨fun es hes k => (run_synced sig synced_empty hes).same k,?_⟩
  intro before between m₁ m₂ hte h₁ h₂ hs hk
  rw [run_append,run_cons] at h₂
  have ht₁ : TextSender m₁ := hte m₁ (by simp)
  have htb : TextSenders between := fun m hm => hte m (by simp [hm])
  have hsy : Synced (run (pinStep sig) {} before) :=
    run_synced sig synced_empty fun m hm => hte m (by simp [hm])
  obtain ⟨sender,pk,hs₁,hpk₁,-,hp⟩ := verified_pin sig hsy ht₁ h₁
  refine ⟨sender,hs₁,?_⟩
  by_contra hn
  have hsync₁ := verify_synced sig hsy ht₁
  have hke := pin_kept sig hsync₁ hp htb hn
  obtain ⟨sender',pk',hs₂,hpk₂,ho,-⟩ :=
    verified_pin sig (run_synced sig hsync₁ htb) (.inr ⟨sender,hs.symm.trans hs₁⟩) h₂
  rw [hs₁,hs₂] at hs
  cases hs
  have hsa : pk = pk' := ho _ hke
  exact hk (by rw [hpk₁,hpk₂,hsa])

lemma sampleMaterial_key : field (sampleMaterial 1) "sender_public_key" ≠
      field (sampleMaterial 2) "sender_public_key" := by
  intro h
  have hb : List.replicate 32 (1 : UInt8) = List.replicate 32 2 := Val.bytes.inj h
  exact absurd hb (by decide)

theorem second_key_after_forget : ¬ Verified sampleScheme (run (pinStep sampleScheme) {}
        [.message (sampleMaterial 1), .restart]) (sampleMaterial 2) ∧
      Verified sampleScheme (run (pinStep sampleScheme) {} [.message (sampleMaterial 1),
        .restart, .forget "ann"]) (sampleMaterial 2) ∧
      ∃ sender, field (sampleMaterial 1) "sender_hash" = .str sender ∧
        PinEvent.forget sender ∈ [PinEvent.restart, .forget "ann"] := by
  have h₁ : Verified sampleScheme (run (pinStep sampleScheme) {} []) (sampleMaterial 1) := rfl
  have h₂ : Verified sampleScheme (run (pinStep sampleScheme) {}
      ([] ++ .message (sampleMaterial 1) :: [.restart, .forget "ann"])) (sampleMaterial 2) := rfl
  have ht : TextSenders ([] ++ .message (sampleMaterial 1) :: [.restart, .forget "ann"]) := by
    intro m hm
    simp only [List.nil_append,List.mem_cons,reduceCtorEq,List.not_mem_nil,or_false] at hm
    cases hm
    exact .inr ⟨"ann",rfl⟩
  exact ⟨nofun,h₂,(key_pinning sampleScheme).2 [] [.restart, .forget "ann"] (sampleMaterial 1)
    (sampleMaterial 2) ht h₁ h₂ rfl sampleMaterial_key⟩

/-- Two messages with the number 7 as their sender: the pin is stored under the text "7", and after
a restart another key is taken for the number. -/
theorem number_pin_lost :
    let seventh := fun key => ("sender_hash", Val.int 7) :: sampleMaterial key
    let s := run (pinStep sampleScheme) {} [.message (seventh 1)]
    Verified sampleScheme {} (seventh 1) ∧
      Verified sampleScheme (pinStep sampleScheme s .restart) (seventh 2) ∧
      s.identityKeys.get? (.number 7) ≠ s.tofuKeys.get? (.number 7) := by
  refine ⟨rfl,rfl,?_⟩
  decide +kernel

end Hokora.KeyPinning
