import Mathlib.Algebra.Ring.Int.Defs
import Hokora.PyValue

/-!
# MessagePack

Packing and unpacking as the node calls them: text is decoded, keys of maps are text or bytes, and
nesting has a limit. Floats of eight bytes go through a given format, which stands for the rounding
to a double; floats of four bytes are only read. An extension is read as the list of its code and
its data; that a timestamp has no length is left out.
-/
namespace Hokora.Msgpack
open BigEndian PyValue
open List

structure FloatFormat where
  encode : FloatVal → Bytes
  decode : Bytes → FloatVal
  exact : FloatVal → Prop
  length_encode : ∀ x, (encode x).length = 8
  decode_encode : ∀ x, exact x → decode (encode x) = x

inductive Head where
  | nil
  | bool (b : Bool)
  | int (i : ℤ)
  | float (x : FloatVal)
  | str (n : ℕ)
  | bin (n : ℕ)
  | array (n : ℕ)
  | map (n : ℕ)
  | ext (n : ℕ)

def tagged (tag : UInt8) (w n : ℕ) : Py Bytes := .ok (tag :: bytesBE w n)

def packNat (n : ℕ) : Py Bytes :=
  if n < 0x80 then .ok [UInt8.ofNat n]
  else if n < 2 ^ 8 then tagged 0xcc 1 n
  else if n < 2 ^ 16 then tagged 0xcd 2 n
  else if n < 2 ^ 32 then tagged 0xce 4 n
  else if n < 2 ^ 64 then tagged 0xcf 8 n
  else .error .overflowError

def packNeg (n : ℕ) : Py Bytes :=
  if n ≤ 0x20 then .ok [UInt8.ofNat (0x100 - n)]
  else if n ≤ 2 ^ 7 then tagged 0xd0 1 (2 ^ 8 - n)
  else if n ≤ 2 ^ 15 then tagged 0xd1 2 (2 ^ 16 - n)
  else if n ≤ 2 ^ 31 then tagged 0xd2 4 (2 ^ 32 - n)
  else if n ≤ 2 ^ 63 then tagged 0xd3 8 (2 ^ 64 - n)
  else .error .overflowError

def packInt : ℤ → Py Bytes
  | .ofNat n => packNat n
  | .negSucc n => packNeg (n + 1)

def packSize (fix : UInt8) (limit : ℕ) (one : Option UInt8) (two four : UInt8) (n : ℕ) : Py Bytes :=
  if n < limit then .ok [UInt8.ofNat (fix.toNat + n)]
  else if one.isSome ∧ n < 2 ^ 8 then tagged (one.getD 0) 1 n
  else if n < 2 ^ 16 then tagged two 2 n
  else if n < 2 ^ 32 then tagged four 4 n
  else .error .valueError

variable (fmt : FloatFormat)

def packHead : Head → Py Bytes
  | .nil => .ok [0xc0]
  | .bool false => .ok [0xc2]
  | .bool true => .ok [0xc3]
  | .int i => packInt i
  | .float x => .ok (0xcb :: fmt.encode x)
  | .str n => packSize 0xa0 0x20 (some 0xd9) 0xda 0xdb n
  | .bin n => packSize 0 0 (some 0xc4) 0xc5 0xc6 n
  | .array n => packSize 0x90 0x10 none 0xdc 0xdd n
  | .map n => packSize 0x80 0x10 none 0xde 0xdf n
  | .ext _ => .error .valueError

def sized (w : ℕ) (head : ℕ → Head) (bs : Bytes) : Py (Head × Bytes) :=
  if bs.length < w then .error .valueError else .ok (head (natBE (bs.take w)), bs.drop w)

def signed (w n : ℕ) : ℤ := if n < 2 ^ (8 * w - 1) then n else n - 2 ^ (8 * w)

def readDouble (bs : Bytes) : Py (Head × Bytes) :=
  if bs.length < 8 then .error .valueError
  else .ok (.float (fmt.decode (bs.take 8)), bs.drop 8)

/-- An IEEE float from its code: a sign, bits of exponent and bits of fraction. -/
def binaryFloat (bits places n : ℕ) : FloatVal :=
  let exponent := n / 2 ^ places % 2 ^ bits
  let fraction := n % 2 ^ places
  let negative := 2 ^ (bits + places) ≤ n
  if exponent = 2 ^ bits - 1 then
    if fraction ≠ 0 then .nan else if negative then .negInf else .posInf
  else
    let magnitude : ℕ :=
      if exponent = 0 then fraction * 2 else (2 ^ places + fraction) * 2 ^ exponent
    .fin (mkRat (if negative then -(magnitude : ℤ) else magnitude)
      (2 ^ (2 ^ (bits - 1) - 1 + places)))

def unpackTagged (tag : ℕ) (bs : Bytes) : Py (Head × Bytes) :=
  match tag with
  | 0xc0 => .ok (.nil, bs)
  | 0xc2 => .ok (.bool false, bs)
  | 0xc3 => .ok (.bool true, bs)
  | 0xc4 => sized 1 .bin bs
  | 0xc5 => sized 2 .bin bs
  | 0xc6 => sized 4 .bin bs
  | 0xc7 => sized 1 .ext bs
  | 0xc8 => sized 2 .ext bs
  | 0xc9 => sized 4 .ext bs
  | 0xca => sized 4 (fun n => .float (binaryFloat 8 23 n)) bs
  | 0xcb => readDouble fmt bs
  | 0xcc => sized 1 (fun n => .int n) bs
  | 0xcd => sized 2 (fun n => .int n) bs
  | 0xce => sized 4 (fun n => .int n) bs
  | 0xcf => sized 8 (fun n => .int n) bs
  | 0xd0 => sized 1 (fun n => .int (signed 1 n)) bs
  | 0xd1 => sized 2 (fun n => .int (signed 2 n)) bs
  | 0xd2 => sized 4 (fun n => .int (signed 4 n)) bs
  | 0xd3 => sized 8 (fun n => .int (signed 8 n)) bs
  | 0xd4 => .ok (.ext 1, bs)
  | 0xd5 => .ok (.ext 2, bs)
  | 0xd6 => .ok (.ext 4, bs)
  | 0xd7 => .ok (.ext 8, bs)
  | 0xd8 => .ok (.ext 16, bs)
  | 0xd9 => sized 1 .str bs
  | 0xda => sized 2 .str bs
  | 0xdb => sized 4 .str bs
  | 0xdc => sized 2 .array bs
  | 0xdd => sized 4 .array bs
  | 0xde => sized 2 .map bs
  | 0xdf => sized 4 .map bs
  | _ => .error .valueError

def unpackHead : Bytes → Py (Head × Bytes)
  | [] => .error .valueError
  | tag :: bs =>
    let n := tag.toNat
    if n < 0x80 then .ok (.int n, bs)
    else if n < 0x90 then .ok (.map (n - 0x80), bs)
    else if n < 0xa0 then .ok (.array (n - 0x90), bs)
    else if n < 0xc0 then .ok (.str (n - 0xa0), bs)
    else if n < 0xe0 then unpackTagged fmt n bs
    else .ok (.int (n - 0x100), bs)

def utf8 (s : String) : Bytes := s.toUTF8.data.toList

def ofUtf8 (bs : Bytes) : Py String :=
  match String.fromUTF8? ⟨bs.toArray⟩ with
  | some s => .ok s
  | none => .error .valueError

def packText (s : String) : Py Bytes := do
  let head ← packHead fmt (.str (utf8 s).length)
  pure (head ++ utf8 s)

def packAll (f : Val → Py Bytes) : List Val → Py Bytes
  | [] => .ok []
  | v :: vs => do
      let first ← f v
      let rest ← packAll f vs
      pure (first ++ rest)

def packEntries (f : Val → Py Bytes) : List (String × Val) → Py Bytes
  | [] => .ok []
  | e :: es => do
      let key ← packText fmt e.1
      let first ← f e.2
      let rest ← packEntries f es
      pure (key ++ first ++ rest)

def packAt : ℕ → Val → Py Bytes
  | 0, _ => .error .valueError
  | _ + 1, .none => packHead fmt .nil
  | _ + 1, .bool b => packHead fmt (.bool b)
  | _ + 1, .int i => packHead fmt (.int i)
  | _ + 1, .float x => packHead fmt (.float x)
  | _ + 1, .str s => packText fmt s
  | _ + 1, .bytes b => do
      let head ← packHead fmt (.bin b.length)
      pure (head ++ b)
  | depth + 1, .list l => do
      let head ← packHead fmt (.array l.length)
      let items ← packAll (packAt depth) l
      pure (head ++ items)
  | depth + 1, .dict d => do
      let head ← packHead fmt (.map d.length)
      let entries ← packEntries fmt (packAt depth) d
      pure (head ++ entries)

def packDepth : ℕ := 512

def packb (v : Val) : Py Bytes := packAt fmt packDepth v

def takeBytes (n : ℕ) (bs : Bytes) : Py (Bytes × Bytes) :=
  if bs.length < n then .error .valueError else .ok (bs.take n, bs.drop n)

def unpackAll (f : Bytes → Py (Val × Bytes)) : ℕ → Bytes → Py (List Val × Bytes)
  | 0, bs => .ok ([], bs)
  | n + 1, bs => do
      let (v, bs₁) ← f bs
      let (vs, bs₂) ← unpackAll f n bs₁
      pure (v :: vs, bs₂)

/-- A key of a map, which is text or bytes. -/
def unpackKey (bs : Bytes) : Py (String × Bytes) := do
  let (head, bs₁) ← unpackHead fmt bs
  match head with
  | .str n => do
      let (raw, bs₂) ← takeBytes n bs₁
      let s ← ofUtf8 raw
      pure (s, bs₂)
  | .bin n => do
      let (raw, bs₂) ← takeBytes n bs₁
      pure (blobText raw, bs₂)
  | _ => .error .valueError

def setEntry (d : List (String × Val)) (k : String) (v : Val) : List (String × Val) :=
  if k ∈ d.map Prod.fst then d.map fun e => if e.1 = k then (k, v) else e else d ++ [(k, v)]

def unpackEntries (f : Bytes → Py (Val × Bytes)) :
    ℕ → List (String × Val) → Bytes → Py (List (String × Val) × Bytes)
  | 0, d, bs => .ok (d, bs)
  | n + 1, d, bs => do
      let (k, bs₁) ← unpackKey fmt bs
      let (v, bs₂) ← f bs₁
      unpackEntries f n (setEntry d k v) bs₂

/-- Code -1 is a timestamp, in one of three forms with less than a second of nanoseconds. -/
def extension (code : UInt8) (data : Bytes) : Py Val :=
  if code ≠ 0xff || data.length = 4 || (data.length = 8 && natBE data / 2 ^ 34 < 10 ^ 9) ||
      (data.length = 12 && natBE (data.take 4) < 10 ^ 9) then
    .ok (.list [.int (signed 1 code.toNat), .bytes data])
  else .error .valueError

def unpackBody (f : Bytes → Py (Val × Bytes)) (head : Head) (bs : Bytes) : Py (Val × Bytes) :=
  match head with
  | .nil => .ok (.none, bs)
  | .bool b => .ok (.bool b, bs)
  | .int i => .ok (.int i, bs)
  | .float x => .ok (.float x, bs)
  | .str n => do
      let (raw, rest) ← takeBytes n bs
      let s ← ofUtf8 raw
      pure (.str s, rest)
  | .bin n => do
      let (raw, rest) ← takeBytes n bs
      pure (.bytes raw, rest)
  | .array n => do
      let (vs, rest) ← unpackAll f n bs
      pure (.list vs, rest)
  | .map n => do
      let (d, rest) ← unpackEntries fmt f n [] bs
      pure (.dict d, rest)
  | .ext n => do
      let (raw, rest) ← takeBytes (n + 1) bs
      let v ← extension (raw.headD 0) raw.tail
      pure (v, rest)

def unpackAt : ℕ → Bytes → Py (Val × Bytes)
  | 0, _ => .error .valueError
  | depth + 1, bs => do
      let (head, rest) ← unpackHead fmt bs
      unpackBody fmt (unpackAt depth) head rest

def unpackDepth : ℕ := 1024

def unpackb (bs : Bytes) : Py Val := do
  let (v, rest) ← unpackAt fmt unpackDepth bs
  if rest = [] then pure v else .error .valueError

variable {fmt} {bs : Bytes} {d : List (String × Val)} {v : Val} {f : Val → Py Bytes} {depth n w : ℕ}
  {rest : Bytes} {es : List (String × Val)}

lemma packEntries_cons {e : String × Val} {key first : Bytes}
    (hk : packText fmt e.1 = .ok key) (hf : f e.2 = .ok first)
    (hr : packEntries fmt f es = .ok rest) :
    packEntries fmt f (e :: es) = .ok (key ++ first ++ rest) := by
  rw [packEntries,hk,ok_bind,hf,ok_bind,hr]
  rfl

lemma packAt_dict {head entries : Bytes} (hh : packHead fmt (.map d.length) = .ok head)
    (he : packEntries fmt (packAt fmt depth) d = .ok entries) :
    packAt fmt (depth + 1) (.dict d) = .ok (head ++ entries) := by
  rw [packAt,hh,ok_bind,he]
  rfl

lemma packAt_bytes {b head : Bytes} (hh : packHead fmt (.bin b.length) = .ok head) :
    packAt fmt (depth + 1) (.bytes b) = .ok (head ++ b) := by
  rw [packAt,hh]
  rfl

lemma sized_bytesBE (h : n < 256 ^ w) {head : ℕ → Head} :
    sized w head (bytesBE w n ++ rest) = .ok (head n, rest) := by
  unfold sized
  rw [length_append,length_bytesBE,if_neg (by omega),
    take_left' (length_bytesBE w n),drop_left' (length_bytesBE w n),natBE_bytesBE w n h]

lemma unpackHead_tagged {tag : UInt8} (head : ℕ → Head)
    (ht : ∀ rest, unpackHead fmt (tag :: rest) = sized w head rest) (hn : n < 256 ^ w)
    (h : tagged tag w n = .ok bs) (rest : Bytes) :
    unpackHead fmt (bs ++ rest) = .ok (head n, rest) := by
  cases h
  rw [cons_append,ht,sized_bytesBE hn]

lemma unpackHead_packNat (h : packNat n = .ok bs) :
    unpackHead fmt (bs ++ rest) = .ok (.int n, rest) := by
  unfold packNat at h
  split_ifs at h with h₁ h₂ h₃ h₄ h₅
  · cases h
    have hn : (UInt8.ofNat n).toNat = n := by
      rw [UInt8.toNat_ofNat']
      omega
    simp [unpackHead,hn,h₁]
  · exact unpackHead_tagged (fun n => .int n) (fun _ => rfl) h₂ h rest
  · exact unpackHead_tagged (fun n => .int n) (fun _ => rfl) h₃ h rest
  · exact unpackHead_tagged (fun n => .int n) (fun _ => rfl) h₄ h rest
  · exact unpackHead_tagged (fun n => .int n) (fun _ => rfl) (by omega) h rest

lemma signed_complement (hn : 0 < n) (hle : n ≤ 2 ^ (8 * w - 1)) (hw : 0 < w) :
    signed w (2 ^ (8 * w) - n) = -n := by
  have hd : 2 ^ (8 * w) = 2 * 2 ^ (8 * w - 1) := by
    rw [← Nat.pow_succ']
    congr 1
    omega
  unfold signed
  push_cast [show n ≤ 2 ^ (8 * w) by omega]
  omega

lemma unpackHead_packNeg (hn : 0 < n) (h : packNeg n = .ok bs) :
    unpackHead fmt (bs ++ rest) = .ok (.int (-n), rest) := by
  unfold packNeg at h
  split_ifs at h with h₁ h₂ h₃ h₄ h₅
  · cases h
    have hb : (UInt8.ofNat (0x100 - n)).toNat = 0x100 - n := by
      rw [UInt8.toNat_ofNat']
      omega
    have hl : ∀ k ≤ 0xe0, ¬ 0x100 - n < k := by omega
    have hi : ((0x100 - n : ℕ) : ℤ) - 0x100 = -n := by omega
    simp only [cons_append,nil_append,unpackHead,hb,hl 0x80 (by omega),
      hl 0x90 (by omega),hl 0xa0 (by omega),hl 0xc0 (by omega),hl 0xe0 (by omega),
      if_false,hi]
  · rw [← signed_complement (w := 1) hn h₂ (by omega)]
    exact unpackHead_tagged (fun n => .int (signed 1 n)) (fun _ => rfl) (by omega) h rest
  · rw [← signed_complement (w := 2) hn h₃ (by omega)]
    exact unpackHead_tagged (fun n => .int (signed 2 n)) (fun _ => rfl) (by omega) h rest
  · rw [← signed_complement (w := 4) hn h₄ (by omega)]
    exact unpackHead_tagged (fun n => .int (signed 4 n)) (fun _ => rfl) (by omega) h rest
  · rw [← signed_complement (w := 8) hn h₅ (by omega)]
    exact unpackHead_tagged (fun n => .int (signed 8 n)) (fun _ => rfl) (by omega) h rest

lemma unpackHead_packSize {fix : UInt8} {limit : ℕ} {one : Option UInt8} {two four : UInt8}
    {head : ℕ → Head}
    (hfi : ∀ k < limit, ∀ rest, unpackHead fmt (UInt8.ofNat (fix.toNat + k) :: rest) =
      .ok (head k, rest))
    (ho : ∀ tag ∈ one, ∀ rest, unpackHead fmt (tag :: rest) = sized 1 head rest)
    (ht : ∀ rest, unpackHead fmt (two :: rest) = sized 2 head rest)
    (hf : ∀ rest, unpackHead fmt (four :: rest) = sized 4 head rest)
    (h : packSize fix limit one two four n = .ok bs) :
    unpackHead fmt (bs ++ rest) = .ok (head n, rest) := by
  unfold packSize at h
  split_ifs at h with h₁ h₂ h₃ h₄
  · cases h
    exact hfi n h₁ rest
  · obtain ⟨hs,hlt⟩ := h₂
    obtain ⟨tag,rfl⟩ := Option.isSome_iff_exists.mp hs
    exact unpackHead_tagged head (ho tag rfl) hlt h rest
  · exact unpackHead_tagged head ht h₃ h rest
  · exact unpackHead_tagged head hf h₄ h rest

lemma toNat_fix (fix : UInt8) {k limit : ℕ} (hk : k < limit) (h : fix.toNat + limit ≤ 0x100) :
    (UInt8.ofNat (fix.toNat + k)).toNat = fix.toNat + k := by
  rw [UInt8.toNat_ofNat']
  omega

lemma unpackHead_packHead {head : Head} (hx : ∀ x, head = .float x → fmt.exact x)
    (h : packHead fmt head = .ok bs) (rest : Bytes) :
    unpackHead fmt (bs ++ rest) = .ok (head, rest) := by
  cases head with
  | nil =>
    cases h
    rfl
  | bool b =>
    cases b with
    | false =>
      cases h
      rfl
    | true =>
      cases h
      rfl
  | int i =>
    cases i with
    | ofNat n => exact unpackHead_packNat h
    | negSucc n => exact unpackHead_packNeg (Nat.succ_pos n) h
  | float x =>
    cases h
    have hl := fmt.length_encode x
    change readDouble fmt (fmt.encode x ++ rest) = _
    unfold readDouble
    rw [length_append,hl,if_neg (by omega),take_left' hl,drop_left' hl,
      fmt.decode_encode x (hx x rfl)]
  | str n =>
    refine unpackHead_packSize ?_ ?_ (fun _ => rfl) (fun _ => rfl) h
    · intro k hk rest
      have hb := toNat_fix 0xa0 hk (by decide)
      have hv : (0xa0 : UInt8).toNat = 0xa0 := rfl
      rw [hv] at hb ⊢
      simp only [unpackHead,hb]
      rw [if_neg (by omega),if_neg (by omega),if_neg (by omega),if_pos (by omega),
        Nat.add_sub_cancel_left]
    · rintro tag ⟨⟩ rest
      rfl
  | bin n =>
    refine unpackHead_packSize ?_ ?_ (fun _ => rfl) (fun _ => rfl) h
    · intro k hk
      cases hk
    · rintro tag ⟨⟩ rest
      rfl
  | array n =>
    refine unpackHead_packSize ?_ ?_ (fun _ => rfl) (fun _ => rfl) h
    · intro k hk rest
      have hb := toNat_fix 0x90 hk (by decide)
      have hv : (0x90 : UInt8).toNat = 0x90 := rfl
      rw [hv] at hb ⊢
      simp only [unpackHead,hb]
      rw [if_neg (by omega),if_neg (by omega),if_pos (by omega),Nat.add_sub_cancel_left]
    · rintro tag ⟨⟩
  | map n =>
    refine unpackHead_packSize ?_ ?_ (fun _ => rfl) (fun _ => rfl) h
    · intro k hk rest
      have hb := toNat_fix 0x80 hk (by decide)
      have hv : (0x80 : UInt8).toNat = 0x80 := rfl
      rw [hv] at hb ⊢
      simp only [unpackHead,hb]
      rw [if_neg (by omega),if_pos (by omega),Nat.add_sub_cancel_left]
    · rintro tag ⟨⟩
  | ext n => cases h

inductive WellFormed (fmt : FloatFormat) : Val → Prop
  | none : WellFormed fmt .none
  | bool (b : Bool) : WellFormed fmt (.bool b)
  | int (i : ℤ) : WellFormed fmt (.int i)
  | float {x : FloatVal} : fmt.exact x → WellFormed fmt (.float x)
  | str (s : String) : WellFormed fmt (.str s)
  | bytes (b : Bytes) : WellFormed fmt (.bytes b)
  | list {l : List Val} : (∀ v ∈ l, WellFormed fmt v) → WellFormed fmt (.list l)
  | dict {d : List (String × Val)} : (d.map Prod.fst).Nodup → (∀ e ∈ d, WellFormed fmt e.2) →
      WellFormed fmt (.dict d)

lemma takeBytes_append (h : bs.length = n) : takeBytes n (bs ++ rest) = .ok (bs, rest) := by
  unfold takeBytes
  rw [length_append,if_neg (by omega),take_left' h,drop_left' h]

lemma ofUtf8_utf8 {s : String} : ofUtf8 (utf8 s) = .ok s := by
  have h : String.fromUTF8? ⟨(utf8 s).toArray⟩ = some s := by
    exact dif_pos s.isValidUTF8
  unfold ofUtf8
  rw [h]

lemma unpackKey_packText {s : String} (h : packText fmt s = .ok bs) (rest : Bytes) :
    unpackKey fmt (bs ++ rest) = .ok (s, rest) := by
  obtain ⟨head,hh,h⟩ := bind_ok h
  cases h
  have hr := unpackHead_packHead (by rintro x ⟨⟩) hh (utf8 s ++ rest)
  unfold unpackKey
  rw [append_assoc,hr,ok_bind]
  simp only
  rw [takeBytes_append rfl,ok_bind]
  rw [ofUtf8_utf8]
  rfl

variable {g : Bytes → Py (Val × Bytes)}

lemma unpackAll_packAll {l : List Val}
    (hfg : ∀ v ∈ l, ∀ bs rest, f v = .ok bs → g (bs ++ rest) = .ok (v, rest))
    (h : packAll f l = .ok bs) (rest : Bytes) :
    unpackAll g l.length (bs ++ rest) = .ok (l, rest) := by
  induction l generalizing bs with
  | nil =>
    cases h
    rfl
  | cons v vs ih =>
    obtain ⟨first,hf,h⟩ := bind_ok h
    obtain ⟨others,ho,h⟩ := bind_ok h
    cases h
    have hh := hfg v mem_cons_self first (others ++ rest) hf
    have ht := ih (fun w hw => hfg w (mem_cons_of_mem v hw)) ho
    simp [unpackAll,hh,ht]

lemma setEntry_fresh {k : String} (h : k ∉ d.map Prod.fst) :
    setEntry d k v = d ++ [(k, v)] := if_neg h

lemma unpackEntries_packEntries
    (hfg : ∀ e ∈ es, ∀ bs rest, f e.2 = .ok bs → g (bs ++ rest) = .ok (e.2, rest))
    (hk : ((d ++ es).map Prod.fst).Nodup) (h : packEntries fmt f es = .ok bs) (rest : Bytes) :
    unpackEntries fmt g es.length d (bs ++ rest) = .ok (d ++ es, rest) := by
  induction es generalizing d bs with
  | nil =>
    cases h
    simp [unpackEntries]
  | cons e es ih =>
    obtain ⟨key,hke,h⟩ := bind_ok h
    obtain ⟨first,hf,h⟩ := bind_ok h
    obtain ⟨others,ho,h⟩ := bind_ok h
    cases h
    have hfr : e.1 ∉ d.map Prod.fst := by
      rw [map_append,nodup_append] at hk
      intro hm
      exact hk.2.2 e.1 hm e.1 (by simp) rfl
    have hs : d ++ e :: es = (d ++ [(e.1, e.2)]) ++ es := by simp
    have ht := unpackKey_packText hke (first ++ (others ++ rest))
    have hv := hfg e mem_cons_self first (others ++ rest) hf
    have hta := ih (d := d ++ [(e.1, e.2)]) (fun w hw => hfg w (mem_cons_of_mem e hw)) (hs ▸ hk) ho
    simp only [length_cons,unpackEntries,append_assoc,ht,ok_bind,hv,setEntry_fresh hfr]
    rw [hs]
    simpa using hta

lemma unpackAt_head {head : Head} (hx : ∀ x, head = .float x → fmt.exact x)
    (h : packHead fmt head = .ok bs) {body : Bytes} :
    unpackAt fmt (depth + 1) (bs ++ body) = unpackBody fmt (unpackAt fmt depth) head body := by
  rw [unpackAt,unpackHead_packHead hx h,ok_bind]

lemma unpackAt_packAt (hv : WellFormed fmt v) {depth' : ℕ} (hle : depth ≤ depth')
    (h : packAt fmt depth v = .ok bs) (rest : Bytes) :
    unpackAt fmt depth' (bs ++ rest) = .ok (v, rest) := by
  induction depth generalizing v depth' bs rest with
  | zero => cases h
  | succ depth ih =>
    obtain ⟨depth',rfl⟩ : ∃ k, depth' = k + 1 := ⟨depth' - 1,by omega⟩
    have hle' : depth ≤ depth' := by omega
    cases hv with
    | none => exact unpackAt_head (by rintro x ⟨⟩) h
    | bool b => exact unpackAt_head (by rintro x ⟨⟩) h
    | int i => exact unpackAt_head (by rintro x ⟨⟩) h
    | float hex =>
      refine unpackAt_head ?_ h
      rintro x ⟨⟩
      exact hex
    | str s =>
      obtain ⟨head,hh,h⟩ := bind_ok h
      cases h
      rw [append_assoc,unpackAt_head (by rintro x ⟨⟩) hh]
      simp only [unpackBody,takeBytes_append,ok_bind,ofUtf8_utf8]
      rfl
    | bytes b =>
      obtain ⟨head,hh,h⟩ := bind_ok h
      cases h
      rw [append_assoc,unpackAt_head (by rintro x ⟨⟩) hh]
      simp only [unpackBody,takeBytes_append,ok_bind]
      rfl
    | list hl =>
      obtain ⟨head,hh,h⟩ := bind_ok h
      obtain ⟨items,hi,h⟩ := bind_ok h
      cases h
      have hall := unpackAll_packAll (g := unpackAt fmt depth')
        (fun v hv bs rest hbs => ih (hl v hv) hle' hbs rest) hi rest
      rw [append_assoc,unpackAt_head (by rintro x ⟨⟩) hh]
      simp only [unpackBody,hall,ok_bind]
      rfl
    | dict hk hd =>
      obtain ⟨head,hh,h⟩ := bind_ok h
      obtain ⟨entries,hen,h⟩ := bind_ok h
      cases h
      have hall := unpackEntries_packEntries (g := unpackAt fmt depth') (d := [])
        (fun e he bs rest hbs => ih (hd e he) hle' hbs rest) hk hen rest
      rw [append_assoc,unpackAt_head (by rintro x ⟨⟩) hh]
      simp only [unpackBody,hall,ok_bind]
      rfl

lemma packDepth_le : packDepth ≤ unpackDepth := by decide

lemma unpackb_packb (hv : WellFormed fmt v) (h : packb fmt v = .ok bs) :
    unpackb fmt bs = .ok v := by
  have hr := unpackAt_packAt hv packDepth_le h []
  rw [append_nil] at hr
  unfold unpackb
  rw [hr]
  rfl

lemma unpackb_trailing (hv : WellFormed fmt v) (h : packb fmt v = .ok bs) (hr : rest ≠ []) :
    unpackb fmt (bs ++ rest) = .error .valueError := by
  unfold unpackb
  rw [unpackAt_packAt hv packDepth_le h rest,ok_bind]
  exact if_neg hr

/-- Doubles as they are read; nothing is packed with it. -/
def readFormat : FloatFormat where
  encode _ := replicate 8 0
  decode bs := binaryFloat 11 52 (natBE bs)
  exact _ := False
  length_encode _ := rfl
  decode_encode _ := False.elim

def zeroFormat : FloatFormat where
  encode _ := replicate 8 0
  decode _ := .fin 0
  exact x := x = .fin 0
  length_encode _ := rfl
  decode_encode _ h := h.symm

end Hokora.Msgpack
