import Hokora.HandshakeInitiator
import Hokora.SerialCrc
import Mathlib.Data.List.DropRight

/-!
# Invite codes

Base32 and the checksum as the source computes them; what `str` does to letters is a parameter.
-/
namespace Hokora.InviteCodes
open BigEndian EpochWire HandshakeInitiator HandshakeResponder PyValue SerialCrc
open List

structure StrMethods where
  upper : Char → List Char
  isspace : Char → Bool
  repr : String → String
  upper_ascii : ∀ c, c.toNat < 128 → upper c = [c.toUpper]
  isspace_ascii : ∀ c, c.toNat < 128 → (isspace c = true ↔
    9 ≤ c.toNat ∧ c.toNat ≤ 13 ∨ 28 ≤ c.toNat ∧ c.toNat ≤ 32)

def StrMethods.strip (str : StrMethods) (s : List Char) : List Char :=
  (s.dropWhile str.isspace).rdropWhile str.isspace

def inviteCodePrefix : List Char := "HOK-".toList

def crcStep (crc : BitVec 8) : BitVec 8 :=
  if crc &&& 0x80 ≠ 0 then (crc <<< 1) ^^^ 0x31 else crc <<< 1

def crc8 (data : Bytes) : BitVec 8 :=
  data.foldl (fun crc byte => crcStep^[8] (crc ^^^ byte.toBitVec)) 0

def alphabet : List Char := "ABCDEFGHIJKLMNOPQRSTUVWXYZ234567".toList

def byteBits (s : Bytes) : List Bool := s.flatMap fun b => bits 8 b.toNat

def b32encode (s : Bytes) : List Char :=
  let bs := byteBits s ++ replicate ((5 - 8 * s.length % 5) % 5) false
  let digits := (words 5 (bs.length / 5) bs).map fun g => alphabet.getD (ofBits g) 'A'
  digits ++ replicate ((8 - digits.length % 8) % 8) '='

def b32decode (s : List Char) : Except String Bytes :=
  if s.any fun c => 128 ≤ c.toNat then
    .error "string argument should contain only ASCII characters"
  else if s.length % 8 ≠ 0 then .error "Incorrect padding"
  else
    let quanta := s.rdropWhile (· = '=')
    match quanta.mapM alphabet.idxOf?, s.length - quanta.length with
    | none, _ => .error "Non-base32 digit found"
    | some digits, 0 | some digits, 1 | some digits, 3 | some digits, 4 | some digits, 6 =>
      .ok ((words 8 (5 * digits.length / 8) (digits.flatMap (bits 5))).map
        fun g => UInt8.ofNat (ofBits g))
    | some _, _ => .error "Incorrect padding"

def rawWithChecksum (raw : Bytes) : Bytes := raw ++ [.ofBitVec (crc8 raw)]

def encodeInvite (token destHash : String) : Py String := do
  let token ← fromHex (.str token)
  let dest ← fromHex (.str destHash)
  let encoded := (b32encode (rawWithChecksum (token ++ dest))).rdropWhile (· = '=')
  let chunks := words 5 ((encoded.length + 4) / 5) encoded
  pure (String.ofList (inviteCodePrefix ++ intercalate ['-'] chunks))

def readInvite (rawWithChecksum : Bytes) : Except String (String × String) :=
  if rawWithChecksum.length < 2 then .error "Invite code too short"
  else
    let raw := rawWithChecksum.dropLast
    let expected := rawWithChecksum.getLastD 0
    let actual := UInt8.ofBitVec (crc8 raw)
    if actual ≠ expected then
      .error ("Invite code checksum mismatch: expected 0x" ++ hexByte expected ++ ", got 0x" ++
        hexByte actual)
    else if raw.length < 32 then
      .error ("Invite code data too short: " ++ toString raw.length ++ " bytes")
    else .ok (toHex (raw.take 16), toHex ((raw.drop 16).take 16))

def clean (upper : List Char) : List Char := upper.filter (· ≠ '-')

def decodeInvite (str : StrMethods) (code : String) : Except String (String × String) :=
  let upper := str.strip (code.toList.flatMap str.upper)
  if inviteCodePrefix.isPrefixOf upper then
    let clean := clean (upper.drop inviteCodePrefix.length)
    let padded := clean ++ replicate ((8 - clean.length % 8) % 8) '='
    match b32decode padded with
    | .ok rawWithChecksum => readInvite rawWithChecksum
    | .error e => .error ("Invalid invite code encoding: " ++ e)
  else
    .error ("Invite code must start with 'HOK-', got " ++
      str.repr (String.ofList (code.toList.take 8)))

lemma crcStep_eq : crcStep = shift 0x31 := by
  funext c
  revert c
  decide

lemma top_bits {b : UInt8} : (top (bits 8 b.toNat) : BitVec 8) = b.toBitVec := by
  have h : ∀ v : BitVec 8, top (bits 8 v.toNat) = v := by decide
  exact h b.toBitVec

variable {data bs : Bytes} {a c : Char} {code' : String}

lemma foldl_crc {crc : BitVec 8} :
    data.foldl (fun crc byte => crcStep^[8] (crc ^^^ byte.toBitVec)) crc =
      (byteBits data).foldl (feed 0x31) crc := by
  induction data generalizing crc with
  | nil => rfl
  | cons b data ih =>
    have hb : (bits 8 b.toNat).foldl (feed 0x31) crc = crcStep^[8] (crc ^^^ b.toBitVec) := by
      rw [foldl_feed length_bits.le,length_bits,top_bits,crcStep_eq]
    rw [foldl_cons,ih,← hb,← foldl_append]
    rfl

lemma crc8_eq : crc8 data = (byteBits data).foldl (feed 0x31) 0 :=
  foldl_crc

lemma crc8_concat {raw : Bytes} {k : UInt8} : crc8 (raw ++ [k]) = 0 ↔ .ofBitVec (crc8 raw) = k := by
  have hc : crc8 (raw ++ [k]) = crcStep^[8] (crc8 raw ^^^ k.toBitVec) := by
    rw [crc8,foldl_append]
    rfl
  have hz : crcStep^[8] 0 = 0 := by decide
  have hi : Function.Injective crcStep^[8] := by
    rw [crcStep_eq]
    exact (shift_injective (by decide)).iterate 8
  rw [hc,hi.eq_iff' hz]
  exact BitVec.xor_eq_zero_iff.trans ⟨fun h => by rw [h],fun h => by rw [← h]⟩

lemma readInvite_spec {s : Bytes} (hs : s.length = 33) :
    crc8 s = 0 ∧ readInvite s = .ok (toHex (s.take 16), toHex ((s.drop 16).take 16)) ∨
      crc8 s ≠ 0 ∧ ∃ e, readInvite s = .error e := by
  obtain ⟨raw,k,rfl⟩ := s.eq_nil_or_concat'.resolve_left (by rintro rfl; cases hs)
  have hr : raw.length = 32 := by simpa using hs
  unfold readInvite
  rw [if_neg (by omega),Ne,crc8_concat]
  simp only [dropLast_concat,getLastD_concat]
  by_cases hk : UInt8.ofBitVec (crc8 raw) = k
  · refine .inl ⟨hk,?_⟩
    rw [if_neg (not_not_intro hk),if_neg (by omega),take_append_of_le_length (by omega),
      drop_append_of_le_length (by omega),take_append_of_le_length (by simp [hr])]
  · exact .inr ⟨hk,_,if_pos hk⟩

def digitBits (c : Char) : List Bool := bits 5 (alphabet.idxOf c)

def decoded (s : List Char) : Bytes :=
  (words 8 33 (s.flatMap digitBits)).map fun g => UInt8.ofNat (ofBits g)

variable {s : List Char}

lemma length_flatMap_digitBits : (s.flatMap digitBits).length = 5 * s.length := by
  induction s with
  | nil => rfl
  | cons c s ih =>
    rw [flatMap_cons,length_append,ih,digitBits,length_bits,length_cons]
    omega

-- The quantifier over all characters has a decision procedure of its own.
lemma forall_of_all {l : List Char} {p : Char → Prop} [DecidablePred p]
    (h : l.all (fun c => decide (p c)) = true) : ∀ c ∈ l, p c :=
  fun c hc => of_decide_eq_true (all_eq_true.mp h c hc)

lemma mapM_idxOf? (hs : ∀ c ∈ s, c ∈ alphabet) :
    s.mapM alphabet.idxOf? = some (s.map alphabet.idxOf) := by
  induction s with
  | nil => rfl
  | cons c s ih =>
    have hc : alphabet.idxOf? c = some (alphabet.idxOf c) := by
      have hall : ∀ c ∈ alphabet, alphabet.idxOf? c = some (alphabet.idxOf c) :=
        forall_of_all (by decide)
      exact hall c (hs c mem_cons_self)
    rw [mapM_cons,hc,ih fun d hd => hs d (mem_cons_of_mem _ hd)]
    rfl

lemma rdropWhile_padding (hs : ∀ c ∈ s, c ∈ alphabet) (n : ℕ) :
    (s ++ replicate n '=').rdropWhile (· = '=') = s := by
  have hl : s.rdropWhile (· = '=') = s := by
    refine rdropWhile_eq_self_iff.mpr fun hne => ?_
    have hall : ∀ c ∈ alphabet, ¬ decide (c = '=') = true := forall_of_all (by decide)
    exact hall _ (hs _ (getLast_mem hne))
  induction n with
  | zero => rw [replicate_zero,append_nil,hl]
  | succ n ih => rw [replicate_succ',← append_assoc,
    rdropWhile_concat_pos _ _ _ (by decide),ih]

lemma b32decode_padded (hs : ∀ c ∈ s, c ∈ alphabet) (hl : s.length = 53) :
    b32decode (s ++ replicate 3 '=') = .ok (decoded s) := by
  have ha : (s ++ replicate 3 '=').any (fun c => 128 ≤ c.toNat) = false := by
    rw [any_append,any_eq_false.mpr fun c hc => ?_,Bool.false_or]
    · decide
    have hall : ∀ c ∈ alphabet, ¬ decide (128 ≤ c.toNat) = true :=
      forall_of_all (by decide)
    exact hall c (hs c hc)
  have hst := rdropWhile_padding hs 3
  unfold b32decode
  rw [ha,if_neg Bool.false_ne_true,if_neg (by simp [hl])]
  simp only [hst,mapM_idxOf? hs]
  rw [length_append,Nat.add_sub_cancel_left]
  simp only [length_replicate,length_map,hl,flatMap_map]
  rfl

lemma byteBits_decoded (hl : s.length = 53) :
    byteBits (decoded s) = (s.flatMap digitBits).take 264 := by
  have hw : ∀ g ∈ words 8 33 (s.flatMap digitBits), bits 8 (UInt8.ofNat (ofBits g)).toNat = g := by
    intro g hg
    have hg8 : g.length = 8 :=
      length_of_mem_words (by rw [length_flatMap_digitBits,hl]; decide) hg
    have hlt := ofBits_lt g
    rw [hg8] at hlt
    rw [UInt8.toNat_ofNat',Nat.mod_eq_of_lt hlt,← hg8,bits_ofBits]
  rw [byteBits,decoded,flatMap_map,flatMap_congr hw]
  exact flatMap_id'.trans flatten_words

lemma byteBits_injective {s s' : Bytes} (hl : s.length = s'.length)
    (h : byteBits s = byteBits s') : s = s' := by
  have hw : s.map (fun b => bits 8 b.toNat) = s'.map fun b => bits 8 b.toNat := by
    rw [← words_flatMap fun _ => length_bits,← words_flatMap fun _ => length_bits,hl]
    exact congrArg _ h
  refine map_injective_iff.mpr (fun b b' hb => UInt8.toNat_inj.mp ?_) hw
  rw [← ofBits_bits b.toNat_lt,← ofBits_bits b'.toNat_lt]
  exact congrArg ofBits hb

lemma length_decoded : (decoded s).length = 33 := by
  rw [decoded,length_map,length_words]

lemma decoded_replaced {u v : List Char} {b : Char} (hl : (u ++ a :: v).length = 53)
    (ha : crc8 (decoded (u ++ a :: v)) = 0) (hb : crc8 (decoded (u ++ b :: v)) = 0) :
    decoded (u ++ b :: v) = decoded (u ++ a :: v) := by
  have hl' : (u ++ b :: v).length = 53 := by simpa using hl
  have hu : u.length ≤ 52 := by
    rw [length_append,length_cons] at hl
    omega
  -- The bits before the digit, those of the digit that belong to a byte, and the rest.
  have hs : ∀ c, ((u ++ c :: v).flatMap digitBits).take 264 = u.flatMap digitBits ++
      (digitBits c).take (264 - 5 * u.length) ++
        (v.flatMap digitBits).take (264 - 5 * u.length - 5) := by
    intro c
    rw [flatMap_append,flatMap_cons,← append_assoc,take_append,
      take_append,length_append,length_flatMap_digitBits,digitBits,length_bits,
      take_of_length_le (by rw [length_flatMap_digitBits]; omega),Nat.sub_sub]
  by_cases hsa : (digitBits b).take (264 - 5 * u.length) = (digitBits a).take (264 - 5 * u.length)
  · refine byteBits_injective (length_decoded.trans length_decoded.symm) ?_
    rw [byteBits_decoded hl,byteBits_decoded hl',hs,hs,hsa]
  rw [crc8_eq,byteBits_decoded hl,hs] at ha
  rw [crc8_eq,byteBits_decoded hl',hs] at hb
  refine absurd (hb.trans ha.symm) (foldl_feed_ne (by decide) ?_ ?_ hsa)
  · simp [digitBits]
  · simp [digitBits]

def symbols (s : Bytes) : List Char := (b32encode s).rdropWhile (· = '=')

lemma getD_alphabet {g : List Bool} (hg : g.length = 5) :
    alphabet.getD (ofBits g) 'A' ∈ alphabet ∧ digitBits (alphabet.getD (ofBits g) 'A') = g := by
  have hlt := ofBits_lt g
  rw [hg] at hlt
  have hall : ∀ n < 32, alphabet.getD n 'A' ∈ alphabet ∧
      alphabet.idxOf (alphabet.getD n 'A') = n := by
    decide
  obtain ⟨hm,hi⟩ := hall _ hlt
  refine ⟨hm,?_⟩
  rw [digitBits,hi,← hg,bits_ofBits]

lemma length_byteBits {s : Bytes} : (byteBits s).length = 8 * s.length := by
  induction s with
  | nil => rfl
  | cons b s ih =>
    rw [byteBits,flatMap_cons,length_append,length_bits,length_cons]
    change 8 + (byteBits s).length = _
    omega

lemma symbols_spec {s : Bytes} (hs : s.length = 33) :
    (∀ c ∈ symbols s, c ∈ alphabet) ∧ (symbols s).length = 53 ∧ decoded (symbols s) = s := by
  have hb : (byteBits s).length = 264 := by rw [length_byteBits,hs]
  have hl : (byteBits s ++ [false]).length = 265 := by simp [hb]
  have hw : ∀ g ∈ words 5 53 (byteBits s ++ [false]), g.length = 5 :=
    fun g hg => length_of_mem_words (by rw [hl]) hg
  have hm : ∀ c ∈ (words 5 53 (byteBits s ++ [false])).map fun g => alphabet.getD (ofBits g) 'A',
      c ∈ alphabet := by
    intro c hc
    obtain ⟨g,hg,rfl⟩ := mem_map.mp hc
    exact (getD_alphabet (hw g hg)).1
  have heq : symbols s =
      (words 5 53 (byteBits s ++ [false])).map fun g => alphabet.getD (ofBits g) 'A' := by
    unfold symbols b32encode
    simp only [hs,Nat.reduceMul,Nat.reduceMod,Nat.reduceSub,replicate_one,hl,Nat.reduceDiv]
    exact rdropWhile_padding hm _
  rw [heq]
  refine ⟨hm,by simp,byteBits_injective (length_decoded.trans hs.symm) ?_⟩
  rw [byteBits_decoded (by simp),flatMap_map,
    flatMap_congr fun g hg => (getD_alphabet (hw g hg)).2,flatMap_id',flatten_words,
    take_take,take_left' (by rw [hb]; rfl)]

def codeOf (s : Bytes) : List Char :=
  inviteCodePrefix ++ intercalate ['-'] (words 5 (((symbols s).length + 4) / 5) (symbols s))

lemma hexDigit_digitChar : ∀ n < 16, hexDigit n.digitChar = some n ∧
    n.digitChar.isWhitespace = false := by
  decide

lemma fromHexChars_toHex : fromHexChars (toHex bs).toList = some bs := by
  induction bs with
  | nil => rfl
  | cons b bs ih =>
    have hb := b.toNat_lt
    obtain ⟨hh,hs⟩ := hexDigit_digitChar (b.toNat / 16) (by omega)
    obtain ⟨hl,-⟩ := hexDigit_digitChar (b.toNat % 16) (by omega)
    have hc : (toHex (b :: bs)).toList =
        (b.toNat / 16).digitChar :: (b.toNat % 16).digitChar :: (toHex bs).toList := by
      simp [toHex,hexByte]
    rw [hc,fromHexChars,hs,if_neg Bool.false_ne_true,hh,hl,ih]
    simp [Nat.div_add_mod]

lemma fromHex_toHex : fromHex (.str (toHex bs)) = .ok bs := by
  simp [fromHex,fromHexChars_toHex]

lemma encodeInvite_eq {token dest : Bytes} : encodeInvite (toHex token) (toHex dest) =
    .ok (String.ofList (codeOf (rawWithChecksum (token ++ dest)))) := by
  unfold encodeInvite
  rw [fromHex_toHex,fromHex_toHex]
  rfl

lemma clean_intercalate {xs : List (List Char)} (h : ∀ x ∈ xs, ∀ c ∈ x, c ≠ '-') :
    clean (intercalate ['-'] xs) = xs.flatten := by
  have hk : ∀ x ∈ xs, clean x = x := fun x hx =>
    filter_eq_self.mpr fun c hc => decide_eq_true (h x hx c hc)
  induction xs with
  | nil => rfl
  | cons x xs ih =>
    have hx := hk x mem_cons_self
    have hxs := ih (fun y hy => h y (mem_cons_of_mem _ hy)) fun y hy =>
      hk y (mem_cons_of_mem _ hy)
    cases xs with
    | nil => simpa [intercalate] using hx
    | cons y ys =>
      rw [intercalate_cons_cons,clean,filter_append,filter_append, flatten_cons,← hxs]
      exact congrArg₂ (· ++ ·) ((append_nil _).trans hx) rfl

lemma alphabet_ne_hyphen : ∀ c ∈ alphabet, c ≠ '-' := forall_of_all (by decide)

lemma codeOf_spec {s : Bytes} (hs : s.length = 33) :
    ∃ body, codeOf s = inviteCodePrefix ++ body ∧ clean body = symbols s := by
  obtain ⟨hm,hl,-⟩ := symbols_spec hs
  have hf : (words 5 11 (symbols s)).flatten = symbols s := by
    rw [flatten_words,take_of_length_le (by rw [hl]; decide)]
  refine ⟨_,rfl,?_⟩
  rw [hl,clean_intercalate,hf]
  intro x hx c hc
  refine alphabet_ne_hyphen c (hm c ?_)
  rw [← hf]
  exact mem_flatten.mpr ⟨x,hx,hc⟩

/-- ASCII without blanks and control characters. -/
def Printed (c : Char) : Prop := 32 < c.toNat ∧ c.toNat < 128

/-- A printed character that upper-casing keeps. -/
def Capital (c : Char) : Prop := Printed c ∧ c.toUpper = c

lemma ascii_cases {P : Char → Prop} (h : ∀ n < 128, P (Char.ofNat n))
    (hc : c.toNat < 128) : P c := by
  have hn := h c.toNat hc
  rwa [Char.ofNat_toNat] at hn

instance : DecidablePred Printed := fun _ => inferInstanceAs (Decidable (_ ∧ _))

instance : DecidablePred Capital := fun _ => inferInstanceAs (Decidable (_ ∧ _))

lemma Printed.toUpper (h : Printed c) : Printed c.toUpper ∧ (c.toUpper = '-' ↔ c = '-') :=
  ascii_cases (P := fun c => Printed c → Printed c.toUpper ∧ (c.toUpper = '-' ↔ c = '-'))
    (by decide) h.2 h

lemma Capital.of_toLower (ha : Capital a) (h : c.toLower = a.toLower) :
    Printed c ∧ c.toUpper = a := by
  have hl : ∀ {c : Char}, c.toNat < 128 → c.toLower.toUpper = c.toUpper ∧
      (Printed c.toLower ↔ Printed c) :=
    ascii_cases (P := fun c => c.toLower.toUpper = c.toUpper ∧ (Printed c.toLower ↔ Printed c))
      (by decide)
  have hc : c.toNat < 128 := by
    by_contra hge
    have hk : c.toLower = c := by
      refine dif_neg fun hlet => hge ?_
      have hle : c.toNat ≤ 'Z'.toNat := hlet.2
      exact hle.trans_lt (by decide)
    rw [hk] at h
    rw [h] at hge
    exact hge ((hl ha.1.2).2.mpr ha.1).2
  refine ⟨(hl hc).2.mp ?_,?_⟩
  · rw [h]
    exact (hl ha.1.2).2.mpr ha.1
  · rw [← (hl hc).1,h,(hl ha.1.2).1,ha.2]

lemma map_toUpper_of_toLower {t : List Char} (ht : ∀ c ∈ t, Capital c)
    (h : s.map Char.toLower = t.map Char.toLower) :
    (∀ c ∈ s, Printed c) ∧ s.map Char.toUpper = t := by
  induction s generalizing t with
  | nil =>
    obtain rfl : t = [] := map_eq_nil_iff.mp h.symm
    exact ⟨forall_mem_nil _,rfl⟩
  | cons c s ih =>
    cases t with
    | nil => cases h
    | cons a t =>
      obtain ⟨hh,hta⟩ := cons_eq_cons.mp h
      obtain ⟨hc,hca⟩ := (ht a mem_cons_self).of_toLower hh
      obtain ⟨hs,hst⟩ := ih (fun d hd => ht d (mem_cons_of_mem _ hd)) hta
      exact ⟨forall_mem_cons.mpr ⟨hc,hs⟩,by rw [map_cons,hca,hst]⟩

variable {str : StrMethods} {code : String} {body : List Char}

lemma strip_upper (hs : ∀ c ∈ s, Printed c) :
    str.strip (s.flatMap str.upper) = s.map Char.toUpper := by
  have hu : s.flatMap str.upper = s.map Char.toUpper := by
    rw [flatMap_congr fun c hc => str.upper_ascii c (hs c hc).2,map_eq_flatMap]
  have hsp : ∀ c ∈ s.map Char.toUpper, ¬ str.isspace c = true := by
    intro c hc
    obtain ⟨d,hd,rfl⟩ := mem_map.mp hc
    obtain ⟨hlo,ha⟩ := (hs d hd).toUpper.1
    rw [str.isspace_ascii _ ha]
    omega
  rw [StrMethods.strip,hu,dropWhile_eq_self_iff.mpr fun hl => hsp _ (getElem_mem hl),
    rdropWhile_eq_self_iff.mpr fun hne => hsp _ (getLast_mem hne)]

lemma decodeInvite_typed (hc : ∀ c ∈ code.toList, Printed c)
    (hu : code.toList.map Char.toUpper = inviteCodePrefix ++ body)
    (hm : ∀ c ∈ clean body, c ∈ alphabet) (hl : (clean body).length = 53) :
    decodeInvite str code = readInvite (decoded (clean body)) := by
  have hd := b32decode_padded hm hl
  unfold decodeInvite
  simp only [strip_upper hc,hu,drop_left,hl]
  rw [if_pos (List.isPrefixOf_iff_prefix.mpr (prefix_append _ _))]
  simp only [Nat.reduceMod,Nat.reduceSub,hd]

/-- The same code with letters in either case and hyphens anywhere behind the prefix. -/
def Retyped (code code' : String) : Prop :=
  (code'.toList.take 4).map Char.toLower = (code.toList.take 4).map Char.toLower ∧
    (clean (code'.toList.drop 4)).map Char.toLower = (clean (code.toList.drop 4)).map Char.toLower

/-- One Base32 character stands in the place of another. -/
def Mistyped (code code' : String) : Prop :=
  ∃ before a b after, code.toList = before ++ a :: after ∧ code'.toList = before ++ b :: after ∧
    a ∈ alphabet ∧ b ∈ alphabet ∧ a ≠ b

lemma alphabet_capital : ∀ c ∈ alphabet, Capital c := forall_of_all (by decide)

lemma capital_of_clean (h : ∀ c ∈ clean s, c ∈ alphabet) : ∀ c ∈ s, Capital c := by
  intro c hc
  by_cases hh : c = '-'
  · rw [hh]
    decide
  · exact alphabet_capital c (h c (mem_filter.mpr ⟨hc,decide_eq_true hh⟩))

lemma decodeInvite_retyped (hco : code.toList = inviteCodePrefix ++ body)
    (hm : ∀ c ∈ clean body, c ∈ alphabet) (hl : (clean body).length = 53)
    (h : Retyped code code') : decodeInvite str code' = readInvite (decoded (clean body)) := by
  obtain ⟨hs,hr⟩ := h
  have hf : inviteCodePrefix.length = 4 := rfl
  rw [hco,take_left' hf] at hs
  rw [hco,drop_left' hf] at hr
  obtain ⟨hp,hpr⟩ := map_toUpper_of_toLower (forall_of_all (by decide)) hs
  obtain ⟨hp',hcl⟩ := map_toUpper_of_toLower (fun c hc => alphabet_capital c (hm c hc)) hr
  have hall : ∀ c ∈ code'.toList.drop 4, Printed c := by
    intro c hc
    by_cases hh : c = '-'
    · rw [hh]
      decide
    · exact hp' c (mem_filter.mpr ⟨hc,decide_eq_true hh⟩)
  have hc' : clean ((code'.toList.drop 4).map Char.toUpper) = clean body := by
    rw [← hcl,clean,filter_map,clean]
    refine congrArg _ (filter_congr fun c hc => ?_)
    exact decide_eq_decide.mpr (not_congr (hall c hc).toUpper.2)
  rw [← hc'] at hm hl ⊢
  refine decodeInvite_typed (fun c hc => ?_) ?_ hm hl
  · rw [← take_append_drop 4 code'.toList] at hc
    exact (mem_append.mp hc).elim (hp c) (hall c)
  · rw [← hpr,← map_append,take_append_drop]

lemma decodeInvite_mistyped (hco : code.toList = inviteCodePrefix ++ body)
    (hm : ∀ c ∈ clean body, c ∈ alphabet) (hl : (clean body).length = 53)
    (hcr : crc8 (decoded (clean body)) = 0) (h : Mistyped code code') :
    (∃ e, decodeInvite str code' = .error e) ∨
      decodeInvite str code' = readInvite (decoded (clean body)) := by
  obtain ⟨before,a,b,after,hsp,hc',ha,hb,hne⟩ := h
  have hca : ∀ c ∈ code'.toList, Capital c := by
    have ho : ∀ c ∈ before ++ a :: after, Capital c := by
      rw [← hsp,hco]
      exact forall_mem_append.mpr ⟨forall_of_all (by decide),capital_of_clean hm⟩
    obtain ⟨hbe,hr⟩ := forall_mem_append.mp ho
    rw [hc']
    exact forall_mem_append.mpr ⟨hbe,forall_mem_cons.mpr
      ⟨alphabet_capital b hb,(forall_mem_cons.mp hr).2⟩⟩
  have hup : code'.toList.map Char.toUpper = code'.toList :=
    (map_congr_left fun c hc => (hca c hc).2).trans (map_id' _)
  have hp : (∃ u, before = inviteCodePrefix ++ u ∧ body = u ++ a :: after) ∨
      ∃ xs, inviteCodePrefix = before ++ a :: xs := by
    rcases append_eq_append_iff.mp (hco.symm.trans hsp) with h | ⟨u,hs,hu⟩
    · exact .inl h
    cases u with
    | nil => exact .inl ⟨[],by simpa using hs.symm,hu.symm⟩
    | cons x xs =>
      cases hu
      exact .inr ⟨xs,hs⟩
  obtain ⟨u,rfl,rfl⟩ | ⟨xs,hs⟩ := hp
  · have hcl : ∀ c ∈ alphabet, clean (u ++ c :: after) = clean u ++ c :: clean after := by
      intro c hc
      simp [clean,alphabet_ne_hyphen c hc]
    rw [hcl a ha] at hm hl hcr ⊢
    obtain ⟨hu,hr⟩ := forall_mem_append.mp hm
    have hm' : ∀ c ∈ clean (u ++ b :: after), c ∈ alphabet := by
      rw [hcl b hb]
      exact forall_mem_append.mpr ⟨hu,forall_mem_cons.mpr ⟨hb,(forall_mem_cons.mp hr).2⟩⟩
    have hl' : (clean (u ++ b :: after)).length = 53 := by
      rw [hcl b hb]
      simpa using hl
    rw [decodeInvite_typed (fun c hc => (hca c hc).1)
      (by rw [hup,hc',append_assoc]) hm' hl',hcl b hb]
    obtain ⟨hcr',-⟩ | ⟨-,he⟩ := readInvite_spec length_decoded
    · exact .inr (congrArg readInvite (decoded_replaced hl hcr hcr'))
    · exact .inl he
  · -- The prefix is not there any more.
    refine .inl ⟨_,if_neg ?_⟩
    rw [strip_upper fun c hc => (hca c hc).1,hup,hc',hs,
      isPrefixOf_iff_prefix,prefix_append_right_inj,cons_prefix_cons]
    exact fun h => hne h.1

/-- A code is read in every spelling, and with a wrong character it is refused or read all the
same. -/
theorem invites_survive_typing (str : StrMethods) {token dest : Bytes} (htoken : token.length = 16)
    (hdest : dest.length = 16) : ∃ code, encodeInvite (toHex token) (toHex dest) = .ok code ∧
      (∀ code', Retyped code code' → decodeInvite str code' = .ok (toHex token, toHex dest)) ∧
      ∀ code', Mistyped code code' → (∃ e, decodeInvite str code' = .error e) ∨
        decodeInvite str code' = .ok (toHex token, toHex dest) := by
  have hle : (rawWithChecksum (token ++ dest)).length = 33 := by
    simp [rawWithChecksum,htoken,hdest]
  obtain ⟨hm,hl,hd⟩ := symbols_spec hle
  obtain ⟨body,hb,hc⟩ := codeOf_spec hle
  have hco : (String.ofList (codeOf (rawWithChecksum (token ++ dest)))).toList =
      inviteCodePrefix ++ body := by
    rw [String.toList_ofList,hb]
  have hcr : crc8 (rawWithChecksum (token ++ dest)) = 0 :=
    crc8_concat.mpr rfl
  have hr : readInvite (decoded (clean body)) = .ok (toHex token, toHex dest) := by
    rw [hc,hd]
    obtain ⟨-,hok⟩ | ⟨hba,-⟩ := readInvite_spec hle
    · rw [hok,rawWithChecksum,append_assoc,take_left' htoken,drop_left' htoken, take_left' hdest]
    · exact absurd hcr hba
  rw [← hc] at hm hl
  refine ⟨_,encodeInvite_eq,fun code' h => ?_,fun code' h => ?_⟩
  · rw [decodeInvite_retyped hco hm hl h,hr]
  · rw [← hr]
    exact decodeInvite_mistyped hco hm hl (by rw [hc,hd,hcr]) h

def asciiMethods : StrMethods where
  upper c := [c.toUpper]
  isspace c := (9 ≤ c.toNat && c.toNat ≤ 13) || (28 ≤ c.toNat && c.toNat ≤ 32)
  repr s := "'" ++ s ++ "'"
  upper_ascii _ _ := rfl
  isspace_ascii _ _ := by simp

def sampleToken : Bytes := (range 16).map (UInt8.ofNat <| 17 * ·)

def sampleDest : Bytes := (range 16).map (UInt8.ofNat <| 240 + ·)

/-- Typed in small letters, the code is read as it was written. -/
theorem smallLetters_read : ∃ code, encodeInvite (toHex sampleToken) (toHex sampleDest) = .ok code ∧
    decodeInvite asciiMethods (String.ofList (code.toList.map Char.toLower)) =
      .ok (toHex sampleToken, toHex sampleDest) := by
  obtain ⟨code,hc,hr,-⟩ := invites_survive_typing asciiMethods
    (show sampleToken.length = 16 by rfl) (show sampleDest.length = 16 by rfl)
  refine ⟨code,hc,hr _ ?_⟩
  rw [Except.ok.inj (hc.symm.trans encodeInvite_eq)]
  constructor
  · decide +kernel
  · decide +kernel

end Hokora.InviteCodes
