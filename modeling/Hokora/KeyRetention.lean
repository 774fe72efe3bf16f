import Hokora.GroupKeys

/-!
# Retained epochs

Messages are encrypted, keys rotated, the daemon restarted. A restart loads one key of each channel.
-/
namespace Hokora.KeyRetention
open BigEndian Database GroupKeys List ReadHandlers SealedChannels TransitionRuns
open KeyState (view)

structure KeySetting where
  aesGcmEncrypt : AesGcmEncrypt
  prim : ReadPrimitives
  cipher : IdentityCipher
  node : String

structure KeySetting.Correct (w : KeySetting) : Prop where
  aes : ∀ key nonce plaintext aad,
    w.prim.aesGcmDecrypt key nonce (w.aesGcmEncrypt key nonce plaintext aad) aad = some plaintext
  identity : w.cipher.Correct

structure Ciphertext where
  channelId : String
  plaintext : Bytes
  nonce : Bytes
  ciphertext : Bytes
  epoch : ℤ

structure Daemon where
  store : Store
  keys : KeyState := ⟨[],{}⟩
  written : List Ciphertext := []

inductive KeyEvent where
  | encrypt (channelId : String) (plaintext nonce : Bytes)
  | rotate (channelId : String) (draw : Draw) (now : ℚ)
  | restart (draw : String → Draw) (now : ℚ)

def step (w : KeySetting) (s : Daemon) : KeyEvent → Daemon
  | .encrypt channelId plaintext nonce =>
    match s.keys.ring.current.encrypt w.aesGcmEncrypt channelId plaintext nonce with
    | .ok (nonce, ciphertext, epoch) =>
      { s with written := s.written ++ [⟨channelId,plaintext,nonce,ciphertext,epoch⟩] }
    | .error _ => s
  | .rotate channelId draw now =>
    { s with keys := rotateAndPersist w.cipher w.node s.keys channelId draw now }
  | .restart draw now =>
    { s with keys := startKeys w.cipher w.node draw now
              { store := s.store, sealedKeys := s.keys.rows } }

/-- Every caller of `rotate_key` looks at the channel's flag first. -/
def OfSealed (st : Store) : KeyEvent → Prop
  | .rotate channelId _ _ => isSealed st channelId
  | _ => True

instance (st : Store) : (e : KeyEvent) → Decidable (OfSealed st e)
  | .rotate _ _ _ => inferInstanceAs (Decidable (_ = true))
  | .encrypt _ _ _ | .restart _ _ => isTrue trivial

/-- The epoch is the current one of its channel or one of the `_MAX_PREVIOUS_KEYS` before it. -/
def InWindow (s : Daemon) (x : Ciphertext) : Prop :=
  getEpoch s.keys.ring x.channelId - maxPreviousKeys ≤ x.epoch ∧
    x.epoch ≤ getEpoch s.keys.ring x.channelId

instance (s : Daemon) (x : Ciphertext) : Decidable (InWindow s x) :=
  inferInstanceAs (Decidable (_ ∧ _))

/-- What was encrypted under an epoch of the window decrypts to its plaintext. -/
def Readable (w : KeySetting) (s : Daemon) : Prop :=
  ∀ x ∈ s.written, InWindow s x →
    s.keys.ring.decrypt w.prim x.channelId x.nonce x.ciphertext (some x.epoch) = some x.plaintext

instance (w : KeySetting) (s : Daemon) : Decidable (Readable w s) :=
  inferInstanceAs (Decidable (∀ x ∈ _, _ → _))

/-- At a restart the window holds ciphertext of current epochs only. -/
def LosesNothing (s : Daemon) : KeyEvent → Prop
  | .restart _ _ =>
    ∀ x ∈ s.written, InWindow s x → x.epoch = getEpoch s.keys.ring x.channelId
  | _ => True

instance (s : Daemon) : (e : KeyEvent) → Decidable (LosesNothing s e)
  | .encrypt _ _ _ | .rotate _ _ _ => isTrue trivial
  | .restart _ _ => inferInstanceAs (Decidable (∀ x ∈ _, _ → _))

/-- The epochs of the keys follow one another and end before the given one. -/
def Consecutive (keys : List KeyInfo) (next : ℤ) : Prop :=
  ∀ (i : ℕ) k, keys[i]? = some k → k.epoch = next - keys.length + i

lemma Consecutive.nil (next : ℤ) : Consecutive [] next := by
  intro i k h
  cases h

variable {keys : List KeyInfo} {info : KeyInfo} {next epoch : ℤ} {x : Ciphertext}

lemma Consecutive.snoc (h : Consecutive keys info.epoch) :
    Consecutive (keys ++ [info]) (info.epoch + 1) := by
  intro i k hk
  have hlt := (List.getElem?_eq_some_iff.mp hk).1
  rw [length_append,length_singleton] at hlt ⊢
  by_cases hi : i < keys.length
  · rw [List.getElem?_append_left hi] at hk
    have := h i k hk
    push_cast
    omega
  obtain rfl : i = keys.length := by omega
  rw [List.getElem?_append_right (Nat.le_refl _),Nat.sub_self,List.getElem?_cons_zero] at hk
  obtain rfl := Option.some.inj hk
  push_cast
  omega

lemma Consecutive.retained (h : Consecutive keys next) : Consecutive (retained keys) next := by
  intro i k hk
  unfold GroupKeys.retained at hk ⊢
  rw [List.getElem?_drop] at hk
  have := h _ k hk
  rw [length_drop]
  omega

variable {s : Daemon} {k : KeyInfo} {c : String}

lemma Consecutive.mem_retained (h : Consecutive keys next)
    (hk : k ∈ keys) (he : next - maxPreviousKeys ≤ k.epoch) : k ∈ GroupKeys.retained keys := by
  obtain ⟨i,hi⟩ := mem_iff_getElem?.mp hk
  have hp := h i k hi
  refine mem_iff_getElem?.mpr ⟨i - (keys.length - maxPreviousKeys),?_⟩
  unfold GroupKeys.retained
  rw [List.getElem?_drop,show keys.length - maxPreviousKeys +
    (i - (keys.length - maxPreviousKeys)) = i by omega]
  exact hi

lemma Consecutive.unique (h : Consecutive keys next)
    {k' : KeyInfo} (hk : k ∈ keys) (hk' : k' ∈ keys) (he : k.epoch = k'.epoch) : k = k' := by
  obtain ⟨i,hi⟩ := mem_iff_getElem?.mp hk
  obtain ⟨j,hj⟩ := mem_iff_getElem?.mp hk'
  have h₁ := h i k hi
  have h₂ := h j k' hj
  have hij : i = j := by omega
  rw [hij,hj] at hi
  exact (Option.some.inj hi).symm

lemma Consecutive.lt (h : Consecutive keys next) (hk : k ∈ keys) : k.epoch < next := by
  obtain ⟨i,hi⟩ := mem_iff_getElem?.mp hk
  have hp := h i k hi
  have hlt := (List.getElem?_eq_some_iff.mp hi).1
  omega

variable {w : KeySetting}

def Under (w : KeySetting) (x : Ciphertext) (k : KeyInfo) : Prop :=
  x.epoch = k.epoch ∧ x.ciphertext = w.aesGcmEncrypt k.key x.nonce x.plaintext (utf8 x.channelId)

/-- The key of the ciphertext is in memory, or its epoch has left the window. -/
def Kept (w : KeySetting) (info : KeyInfo) (keys : List KeyInfo) (x : Ciphertext) : Prop :=
  Under w x info ∨ (∃ k ∈ keys, Under w x k) ∨ x.epoch < info.epoch - maxPreviousKeys

/-- Memory and table agree on the current key of a channel, and the retained keys are those of
the epochs before it. -/
def ViewSound (w : KeySetting) (flagged : Bool) (written : List Ciphertext) (c : String)
    (v : ChannelView) : Prop :=
  match v.current with
  | none => v.history = [] ∧ keyRows v.rows c w.node = [] ∧ ∀ x ∈ written, x.channelId ≠ c
  | some info =>
    flagged = true ∧ (latestKey v.rows c w.node).bind (openRow w.cipher) = some info ∧
      Consecutive v.history info.epoch ∧
      ∀ x ∈ written, x.channelId = c → Kept w info v.history x

def Sound (w : KeySetting) (s : Daemon) : Prop :=
  ∀ c, ViewSound w (isSealed s.store c) s.written c (s.keys.view c)

lemma sound_start {st : Store} : Sound w { store := st } := by
  intro c
  refine ⟨rfl,rfl,?_⟩
  intro x hx
  cases hx

lemma Kept.rotate
    (hke : Consecutive keys info.epoch) (h : Kept w info keys x) (c : String) (key : Bytes) :
    Kept w ⟨c,key,info.epoch + 1⟩ (retained (keys ++ [info])) x := by
  have hall : Consecutive (keys ++ [info]) (info.epoch + 1) := hke.snoc
  have hm : ∀ k ∈ keys ++ [info], Under w x k →
      Kept w ⟨c,key,info.epoch + 1⟩ (retained (keys ++ [info])) x := by
    intro k hk hx
    by_cases he : info.epoch + 1 - maxPreviousKeys ≤ k.epoch
    · exact .inr (.inl ⟨k,hall.mem_retained hk he,hx⟩)
    refine .inr (.inr ?_)
    rw [hx.1]
    exact not_le.mp he
  rcases h with hc | ⟨k,hk,hx⟩ | ho
  · exact hm info (mem_append_right _ (mem_singleton_self _)) hc
  · exact hm k (mem_append_left _ hk) hx
  refine .inr (.inr ?_)
  show x.epoch < info.epoch + 1 - maxPreviousKeys
  omega

lemma Sound.current (h : Sound w s) (hx : x ∈ s.written) :
    ∃ info, currentKey s.keys.ring x.channelId = some info ∧
      Consecutive (history s.keys.ring x.channelId) info.epoch ∧
      Kept w info (history s.keys.ring x.channelId) x := by
  have hc := h x.channelId
  cases hcu : currentKey s.keys.ring x.channelId with
  | none =>
    simp only [view,hcu] at hc
    exact absurd rfl (hc.2.2 x hx)
  | some info =>
    simp only [view,hcu] at hc
    exact ⟨info,rfl,hc.2.2.1,hc.2.2.2 x hx rfl⟩

lemma decrypt_eq {prim : ReadPrimitives} {ring : Keyring}
    (hc : currentKey ring c = some info) {nonce ciphertext : Bytes} :
    ring.decrypt prim c nonce ciphertext (some epoch) =
      if epoch = info.epoch then prim.aesGcmDecrypt info.key nonce ciphertext (utf8 c)
      else ((history ring c).find? fun k => k.epoch = epoch).bind fun old =>
        prim.aesGcmDecrypt old.key nonce ciphertext (utf8 c) := by
  have hg : ring.current.keys.get? c = some info := hc
  have hf : (ring.previousKeys.find? fun k => k.channelId = c && some k.epoch = some epoch) =
      (history ring c).find? fun k => k.epoch = epoch := by
    unfold history
    rw [List.find?_filter]
    congr 1
    funext k
    simp
  unfold Keyring.decrypt
  simp only [hg]
  rw [hf]
  simp only [reduceCtorEq,false_or,Option.some.injEq]
  split_ifs
  · rfl
  · cases (history ring c).find? fun k => k.epoch = epoch <;> rfl

lemma Sound.readable (hw : w.Correct) (h : Sound w s) : Readable w s := by
  intro x hx hwi
  obtain ⟨info,hc,hke,hkep⟩ := h.current hx
  have ho : ∀ k, Under w x k →
      w.prim.aesGcmDecrypt k.key x.nonce x.ciphertext (utf8 x.channelId) = some x.plaintext := by
    intro k hk
    rw [hk.2]
    exact hw.aes k.key x.nonce x.plaintext (utf8 x.channelId)
  rw [decrypt_eq hc]
  rcases hkep with hn | ⟨k,hk,hu⟩ | hol
  · rw [if_pos hn.1]
    exact ho info hn
  · have hne : x.epoch ≠ info.epoch := by
      rw [hu.1]
      exact (hke.lt hk).ne
    rw [if_neg hne]
    cases hf : (history s.keys.ring x.channelId).find? fun k => k.epoch = x.epoch with
    | none =>
      have := List.find?_eq_none.mp hf k hk
      simp [hu.1] at this
    | some k' =>
      have he : k'.epoch = x.epoch := by simpa using List.find?_some hf
      obtain rfl : k' = k :=
        hke.unique (mem_of_find?_eq_some hf) hk (he.trans hu.1)
      exact ho k' hu
  · have hl := hwi.1
    rw [getEpoch_of_current hc] at hl
    omega

lemma ViewSound.rotate (hw : w.Correct) {written : List Ciphertext} {v : ChannelView}
    {flagged : Bool} (hf : flagged = true) (h : ViewSound w flagged written c v) (draw : Draw)
    (now : ℚ) (he : epoch = (v.current.map KeyInfo.epoch).getD 0) :
    ViewSound w flagged written c ⟨some ⟨c,draw.key,epoch + 1⟩,
        v.current.elim v.history fun old => retained (v.history ++ [old]),
        v.rows ++ [keyRow w.cipher w.node ⟨c,draw.key,epoch + 1⟩ draw.ephemeral now]⟩ := by
  let info : KeyInfo := ⟨c,draw.key,epoch + 1⟩
  have hl : (∀ q ∈ keyRows v.rows info.channelId w.node, q.epoch ≤ info.epoch) →
      (latestKey (v.rows ++ [keyRow w.cipher w.node info draw.ephemeral now])
        info.channelId w.node).bind (openRow w.cipher) = some info := by
    intro ht
    rw [latestKey_append_keyRow ht]
    exact openRow_keyRow hw.identity _ _ _ _
  unfold ViewSound at h
  cases hcu : v.current with
  | none =>
    simp only [hcu] at h
    obtain ⟨hh,hro,hwr⟩ := h
    refine ⟨hf,hl ?_,?_,?_⟩
    · rw [hro]
      intro q hq
      cases hq
    · rw [hh]
      exact .nil _
    · intro x hx hc
      exact absurd hc (hwr x hx)
  | some old =>
    simp only [hcu] at h
    obtain ⟨-,hrow,hk,hwr⟩ := h
    obtain rfl : epoch = old.epoch := by
      rw [he,hcu]
      rfl
    refine ⟨hf,hl ?_,hk.snoc.retained,?_⟩
    · intro q hq
      obtain ⟨r,hr,ho⟩ := Option.bind_eq_some_iff.mp hrow
      calc q.epoch ≤ r.epoch := latestKey_top hr hq
        _ = old.epoch := (openRow_channel ho).2.symm
        _ ≤ old.epoch + 1 := Int.le_add_one (Int.le_refl _)
    · intro x hx hc
      exact (hwr x hx hc).rotate hk c draw.key

lemma sound_rotate (hw : w.Correct) (h : Sound w s) {ch : String}
    (hf : isSealed s.store ch = true) {draw : Draw} {now : ℚ} :
    Sound w (step w s (.rotate ch draw now)) := by
  intro c
  have hv : (step w s (.rotate ch draw now)).keys.view c = _ :=
    rotateAndPersist_view w.cipher w.node s.keys ch draw now c
  rw [hv]
  split_ifs with hc
  · subst hc
    exact (h ch).rotate hw hf draw now rfl
  · exact h c

lemma sound_encrypt (h : Sound w s) {ch : String} {pt nonce : Bytes} :
    Sound w (step w s (.encrypt ch pt nonce)) := by
  cases hcur : currentKey s.keys.ring ch with
  | none =>
    have hg : s.keys.ring.current.keys.get? ch = none := hcur
    simp only [step,SealedChannelManager.encrypt,hg]
    exact h
  | some info =>
    have hg : s.keys.ring.current.keys.get? ch = some info := hcur
    simp only [step,SealedChannelManager.encrypt,hg]
    intro c
    have hc := h c
    by_cases hid : ch = c
    · subst hid
      simp only [view,hcur] at hc ⊢
      refine ⟨hc.1,hc.2.1,hc.2.2.1,?_⟩
      intro x hx hch
      rcases mem_append.mp hx with hol | hn
      · exact hc.2.2.2 x hol hch
      · rw [mem_singleton.mp hn]
        exact .inl ⟨rfl,rfl⟩
    -- the new ciphertext is of another channel
    have ho : ∀ x ∈ s.written ++ [⟨ch,pt,nonce,
        w.aesGcmEncrypt info.key nonce pt (utf8 ch),info.epoch⟩],
        x.channelId = c → x ∈ s.written := by
      intro x hx hch
      rcases mem_append.mp hx with hol | hn
      · exact hol
      · rw [mem_singleton.mp hn] at hch
        exact absurd hch hid
    cases hcu : currentKey s.keys.ring c with
    | none =>
      simp only [view,hcu] at hc ⊢
      exact ⟨hc.1,hc.2.1,fun x hx hch =>
        hc.2.2 x (ho x hx hch) hch⟩
    | some k =>
      simp only [view,hcu] at hc ⊢
      exact ⟨hc.1,hc.2.1,hc.2.2.1,fun x hx hch =>
        hc.2.2.2 x (ho x hx hch) hch⟩

lemma Sound.restart_view (h : Sound w s)
    (hcu : currentKey s.keys.ring c = some info) (draw : String → Draw) (now : ℚ) :
    (step w s (.restart draw now)).keys.view c = ⟨some info,[],channelRows s.keys.rows c⟩ := by
  have hc := h c
  simp only [view,hcu] at hc
  obtain ⟨hf,hr,-,-⟩ := hc
  obtain ⟨ch,hch,rfl⟩ := isSealed_iff.mp hf
  rw [latestKey_channelRows] at hr
  refine (startKeys_view w.cipher w.node draw now hch).trans ?_
  simp [hr]

lemma sound_restart (h : Sound w s) (hw : w.Correct) {draw : String → Draw} {now : ℚ}
    (hok : LosesNothing s (.restart draw now)) : Sound w (step w s (.restart draw now)) := by
  intro c
  have hc := h c
  cases hcu : currentKey s.keys.ring c with
  | some info =>
    rw [h.restart_view hcu draw now]
    simp only [view,hcu] at hc
    obtain ⟨hf,hro,hke,hwr⟩ := hc
    refine ⟨hf,hro,.nil _,?_⟩
    intro x hx hcha
    rcases hwr x hx hcha with hn | ⟨k,hk,hu⟩ | ho
    · exact .inl hn
    · -- a retained key is forgotten, so its epoch cannot be one of the window
      refine .inr (.inr ?_)
      by_contra hin
      have hlt := hke.lt hk
      have he : getEpoch s.keys.ring x.channelId = info.epoch := by
        rw [hcha]
        exact getEpoch_of_current hcu
      have hwi : InWindow s x := by
        unfold InWindow
        rw [he,hu.1] at *
        exact ⟨not_lt.mp hin,hlt.le⟩
      have := hok x hx hwi
      rw [he,hu.1] at this
      omega
    · exact .inr (.inr ho)
  | none =>
    simp only [view,hcu] at hc
    obtain ⟨hh,hr,hwr⟩ := hc
    have hl : latestKey s.keys.rows c w.node = none := by
      rw [← latestKey_channelRows,latestKey,hr]
      rfl
    by_cases hf : isSealed s.store c = true
    · -- the bootstrap gives the channel its first key, as a rotation would
      obtain ⟨ch,hch,rfl⟩ := isSealed_iff.mp hf
      have hv : (step w s (.restart draw now)).keys.view ch.id = _ :=
        startKeys_view w.cipher w.node draw now hch
      simp only [hl,Option.bind_none] at hv
      have hfi : ViewSound w (isSealed s.store ch.id) s.written ch.id
          ⟨none,[],channelRows s.keys.rows ch.id⟩ := ⟨rfl,hr,hwr⟩
      rw [hv]
      exact hfi.rotate hw hf (draw ch.id) now rfl
    · have hv : (step w s (.restart draw now)).keys.view c = _ :=
        startKeys_view_unsealed w.cipher w.node draw now (not_isSealed hf)
      rw [hv]
      exact ⟨rfl,hr,hwr⟩

lemma step_store {e : KeyEvent} : (step w s e).store = s.store := by
  cases e with
  | encrypt channelId plaintext nonce =>
    simp only [step]
    split <;> rfl
  | rotate channelId draw now => rfl
  | restart draw now => rfl

lemma restart_readable_iff (hw : w.Correct) (h : Sound w s) (draw : String → Draw) (now : ℚ) :
    Readable w (step w s (.restart draw now)) ↔ LosesNothing s (.restart draw now) := by
  constructor
  · intro hr x hx hwi
    obtain ⟨info,hc,-,-⟩ := h.current hx
    have hv := h.restart_view hc draw now
    have hc' : currentKey (step w s (.restart draw now)).keys.ring x.channelId = some info :=
      congrArg ChannelView.current hv
    have hh : history (step w s (.restart draw now)).keys.ring x.channelId = [] :=
      congrArg ChannelView.history hv
    have he := getEpoch_of_current hc
    have ha : InWindow (step w s (.restart draw now)) x := by
      unfold InWindow at hwi ⊢
      rw [getEpoch_of_current hc']
      rwa [he] at hwi
    have hp := hr x hx ha
    rw [decrypt_eq hc',hh] at hp
    by_contra hne
    rw [if_neg (by rwa [he] at hne)] at hp
    cases hp
  · intro hok
    exact (sound_restart h hw hok).readable hw

/-- Every state of a run is readable exactly if every restart of the run is made with nothing but
current epochs in the window. -/
theorem retained_readable_iff (hw : w.Correct) (st : Store) {ls : List KeyEvent}
    (hls : ∀ e ∈ ls, OfSealed st e) :
    (∀ ks, ks <+: ls → Readable w (run (step w) { store := st } ks)) ↔
      Guarded (step w) LosesNothing { store := st } ls := by
  have hso : ∀ s e, OfSealed st e → (s.store = st ∧ Sound w s) → LosesNothing s e →
      (step w s e).store = st ∧ Sound w (step w s e) := by
    rintro s e he ⟨hst,hs⟩ hok
    refine ⟨step_store.trans hst,?_⟩
    cases e with
    | encrypt channelId plaintext nonce => exact sound_encrypt hs
    | rotate channelId draw now =>
      subst hst
      exact sound_rotate hw hs he
    | restart draw now => exact sound_restart hs hw hok
  refine always_iff_guarded (I := fun s => s.store = st ∧ Sound w s) (G := Readable w) hso ?_
    ⟨rfl,sound_start⟩ (sound_start.readable hw) hls
  rintro s e he ⟨hst,hs⟩
  cases e with
  | restart draw now => exact restart_readable_iff hw hs draw now
  | encrypt channelId plaintext nonce =>
    exact iff_of_true ((hso s _ he ⟨hst,hs⟩ trivial).2.readable hw) trivial
  | rotate channelId draw now =>
    exact iff_of_true ((hso s _ he ⟨hst,hs⟩ trivial).2.readable hw) trivial

def sampleSetting : KeySetting := ⟨tagEncrypt,tagPrimitives,openCipher,"node"⟩

lemma sampleSetting_correct : sampleSetting.Correct :=
  ⟨tagPrimitives_decrypt,openCipher_correct⟩

def rotatedRun : List KeyEvent :=
  [.restart (fun _ => ⟨[1],[]⟩) 0, .encrypt "secrets" [42] [0], .rotate "secrets" ⟨[2],[]⟩ 1,
    .encrypt "secrets" [43] [0]]

theorem rotatedRun_readable :
    (run (step sampleSetting) { store := secretsStore } rotatedRun).written.length = 2 ∧
      ∀ ks, ks <+: rotatedRun →
        Readable sampleSetting (run (step sampleSetting) { store := secretsStore } ks) :=
  ⟨by decide +kernel,
    (retained_readable_iff sampleSetting_correct secretsStore (by decide +kernel)).mpr
      (by decide +kernel)⟩

theorem restart_forgets_retained :
    Readable sampleSetting (run (step sampleSetting) { store := secretsStore } rotatedRun) ∧
      ¬ Readable sampleSetting (run (step sampleSetting) { store := secretsStore }
        (rotatedRun ++ [.restart (fun _ => ⟨[3],[]⟩) 2])) := by
  decide +kernel

end Hokora.KeyRetention
