import Mathlib.Data.List.Forall2
import Hokora.Msgpack

/-!
# The size of packed values

Sizes without the packed bytes, so that long values need not be computed.
-/
namespace Hokora.PackedSize
open BigEndian List Msgpack PyValue

def plus (x y : Option ℕ) : Option ℕ := x.bind fun m => y.map fun n => m + n

variable {d : List (String × Val)} {l : List Val} {x y : Option ℕ} {e : PyError} {v : Val} {n : ℕ}

lemma mem_plus {k : ℕ} : plus x y = some k ↔ ∃ m n, x = some m ∧ y = some n ∧ k = m + n := by
  cases x with
  | none => simp [plus]
  | some m =>
    cases y with
    | none => simp [plus]
    | some n => simp [plus,eq_comm]

/-- The first size is there wherever the second is, and is no larger. -/
def Le (x y : Option ℕ) : Prop := ∀ n, y = some n → ∃ m, x = some m ∧ m ≤ n

lemma Le.refl (x : Option ℕ) : Le x x := fun n h => ⟨n,h,le_rfl⟩

lemma Le.plus {x' y' : Option ℕ} (hx : Le x x') (hy : Le y y') : Le (plus x y) (plus x' y') := by
  intro k hk
  obtain ⟨m,n,hm,hn,rfl⟩ := mem_plus.mp hk
  obtain ⟨a,ha,ham⟩ := hx m hm
  obtain ⟨b,hb,hbn⟩ := hy n hn
  exact ⟨a + b,mem_plus.mpr ⟨a,b,ha,hb,rfl⟩,Nat.add_le_add ham hbn⟩

/-- The size is at least a number, if it is there. -/
def AtLeast (n : ℕ) (x : Option ℕ) : Prop := ∀ m, x = some m → n ≤ m

lemma AtLeast.plus_left (h : AtLeast n x) (y : Option ℕ) : AtLeast n (plus x y) := by
  intro k hk
  obtain ⟨a,b,ha,-,rfl⟩ := mem_plus.mp hk
  exact (h a ha).trans (Nat.le_add_right a b)

lemma AtLeast.plus_right (x : Option ℕ) (h : AtLeast n y) : AtLeast n (plus x y) := by
  intro k hk
  obtain ⟨a,b,-,hb,rfl⟩ := mem_plus.mp hk
  exact (h b hb).trans (Nat.le_add_left b a)

variable {m limit : ℕ} {s : String} {r : List Val}

lemma AtLeast.plus (hx : AtLeast m x) (hy : AtLeast n y) : AtLeast (m + n) (plus x y) := by
  intro k hk
  obtain ⟨a,b,ha,hb,rfl⟩ := mem_plus.mp hk
  exact Nat.add_le_add (hx a ha) (hy b hb)

def sizeNat (n : ℕ) : Option ℕ :=
  if n < 0x80 then some 1
  else if n < 2 ^ 8 then some 2
  else if n < 2 ^ 16 then some 3
  else if n < 2 ^ 32 then some 5
  else if n < 2 ^ 64 then some 9
  else none

def sizeNeg (n : ℕ) : Option ℕ :=
  if n ≤ 0x20 then some 1
  else if n ≤ 2 ^ 7 then some 2
  else if n ≤ 2 ^ 15 then some 3
  else if n ≤ 2 ^ 31 then some 5
  else if n ≤ 2 ^ 63 then some 9
  else none

def sizeInt : ℤ → Option ℕ
  | .ofNat n => sizeNat n
  | .negSucc n => sizeNeg (n + 1)

def sizeLength (limit : ℕ) (short : Bool) (n : ℕ) : Option ℕ :=
  if n < limit then some 1
  else if short ∧ n < 2 ^ 8 then some 2
  else if n < 2 ^ 16 then some 3
  else if n < 2 ^ 32 then some 5
  else none

def sizeHead : Head → Option ℕ
  | .nil => some 1
  | .bool _ => some 1
  | .int i => sizeInt i
  | .float _ => some 9
  | .str n => sizeLength 0x20 true n
  | .bin n => sizeLength 0 true n
  | .array n => sizeLength 0x10 false n
  | .map n => sizeLength 0x10 false n
  | .ext _ => none

def sizeText (s : String) : Option ℕ :=
  plus (sizeHead (.str s.utf8ByteSize)) (some s.utf8ByteSize)

def sizeAll (f : Val → Option ℕ) : List Val → Option ℕ
  | [] => some 0
  | v :: vs => plus (f v) (sizeAll f vs)

def sizeEntries (f : Val → Option ℕ) : List (String × Val) → Option ℕ
  | [] => some 0
  | e :: es => plus (plus (sizeText e.1) (f e.2)) (sizeEntries f es)

def sizeAt : ℕ → Val → Option ℕ
  | 0, _ => none
  | _ + 1, .none => sizeHead .nil
  | _ + 1, .bool b => sizeHead (.bool b)
  | _ + 1, .int i => sizeHead (.int i)
  | _ + 1, .float x => sizeHead (.float x)
  | _ + 1, .str s => sizeText s
  | _ + 1, .bytes b => plus (sizeHead (.bin b.length)) (some b.length)
  | depth + 1, .list l => plus (sizeHead (.array l.length)) (sizeAll (sizeAt depth) l)
  | depth + 1, .dict d => plus (sizeHead (.map d.length)) (sizeEntries (sizeAt depth) d)

def lengthOf (x : Py Bytes) : Option ℕ := x.toOption.map List.length

lemma lengthOf_ok {bs : Bytes} : lengthOf (.ok bs) = some bs.length := rfl

lemma lengthOf_error : lengthOf (.error e) = none := rfl

lemma lengthOf_eq_some {x : Py Bytes} : lengthOf x = some n ↔ ∃ bs, x = .ok bs ∧ bs.length = n := by
  cases x with
  | error e => simp [lengthOf_error]
  | ok bs => simp [lengthOf_ok]

lemma lengthOf_append (x y : Py Bytes) :
    lengthOf (do let a ← x; let b ← y; pure (a ++ b)) = plus (lengthOf x) (lengthOf y) := by
  cases x with
  | error e => rfl
  | ok a =>
    cases y with
    | error e => rfl
    | ok b =>
      simp only [ok_bind,pure,Except.pure,lengthOf_ok,length_append]
      rfl

lemma lengthOf_append_ok (x : Py Bytes) (b : Bytes) :
    lengthOf (do let a ← x; pure (a ++ b)) = plus (lengthOf x) (some b.length) :=
  lengthOf_append x (.ok b)

lemma sizeInt_eq {i : ℤ} : sizeInt i = lengthOf (packInt i) := by
  cases i with
  | ofNat n =>
    simp only [sizeInt,packInt,sizeNat,packNat]
    split_ifs <;> rfl
  | negSucc n =>
    simp only [sizeInt,packInt,sizeNeg,packNeg]
    split_ifs <;> rfl

lemma sizeLength_eq (fix : UInt8) (limit : ℕ) (one : Option UInt8) (two four : UInt8) (n : ℕ) :
    sizeLength limit one.isSome n = lengthOf (packSize fix limit one two four n) := by
  unfold sizeLength packSize
  split_ifs <;> rfl

variable (fmt : FloatFormat)

lemma sizeHead_eq (head : Head) : sizeHead head = lengthOf (packHead fmt head) := by
  cases head with
  | nil => rfl
  | bool b => cases b <;> rfl
  | int i => exact sizeInt_eq
  | float x => rw [packHead,lengthOf_ok,length_cons,fmt.length_encode]; rfl
  | str n => exact sizeLength_eq 0xa0 0x20 (some 0xd9) 0xda 0xdb n
  | bin n => exact sizeLength_eq 0 0 (some 0xc4) 0xc5 0xc6 n
  | array n => exact sizeLength_eq 0x90 0x10 none 0xdc 0xdd n
  | map n => exact sizeLength_eq 0x80 0x10 none 0xde 0xdf n
  | ext n => rfl

lemma length_utf8 : (utf8 s).length = s.utf8ByteSize := by
  rfl

lemma sizeText_eq : sizeText s = lengthOf (packText fmt s) := by
  unfold sizeText packText
  rw [lengthOf_append_ok,length_utf8,sizeHead_eq fmt]

variable {f : Val → Option ℕ} {g : Val → Py Bytes}

lemma sizeAll_eq (h : ∀ v, f v = lengthOf (g v)) (l : List Val) :
    sizeAll f l = lengthOf (packAll g l) := by
  induction l with
  | nil => rfl
  | cons v vs ih => rw [sizeAll,packAll,lengthOf_append,h,ih]

lemma packEntries_append {e : String × Val} {es : List (String × Val)} :
    packEntries fmt g (e :: es) =
      (do let a ← (do let key ← packText fmt e.1; let first ← g e.2; pure (key ++ first))
          let rest ← packEntries fmt g es
          pure (a ++ rest)) := by
  rw [packEntries]
  cases packText fmt e.1 with
  | error x => rfl
  | ok key =>
    cases g e.2 with
    | error x => rfl
    | ok first => rfl

lemma sizeEntries_eq (h : ∀ v, f v = lengthOf (g v)) (d : List (String × Val)) :
    sizeEntries f d = lengthOf (packEntries fmt g d) := by
  induction d with
  | nil => rfl
  | cons e es ih =>
    rw [packEntries_append,lengthOf_append,lengthOf_append,sizeEntries,sizeText_eq fmt,h,ih]

lemma sizeAt_eq (depth : ℕ) (v : Val) : sizeAt depth v = lengthOf (packAt fmt depth v) := by
  induction depth generalizing v with
  | zero => rfl
  | succ depth ih =>
    cases v with
    | none => exact sizeHead_eq fmt _
    | bool b => exact sizeHead_eq fmt _
    | int i => exact sizeHead_eq fmt _
    | float x => exact sizeHead_eq fmt _
    | str s => exact sizeText_eq fmt
    | bytes b => rw [sizeAt,packAt,lengthOf_append_ok,sizeHead_eq fmt]
    | list l => rw [sizeAt,packAt,lengthOf_append,sizeHead_eq fmt,sizeAll_eq ih]
    | dict d => rw [sizeAt,packAt,lengthOf_append,sizeHead_eq fmt,sizeEntries_eq fmt ih]

lemma sizeLength_mono {short : Bool} (h : m ≤ n) :
    Le (sizeLength limit short m) (sizeLength limit short n) := by
  intro k hk
  unfold sizeLength at hk ⊢
  split_ifs at hk ⊢ <;> simp_all <;> omega

/-- The first value packs wherever the second does, into no more bytes. -/
def Within (v w : Val) : Prop := ∀ depth, Le (sizeAt depth v) (sizeAt depth w)

lemma Within.refl (v : Val) : Within v v := fun _ => .refl _

lemma within_bool {a b : Bool} : Within (.bool a) (.bool b) := by
  intro depth
  cases depth <;> exact .refl _

lemma sizeAll_append : Le (sizeAll f l) (sizeAll f (l ++ r)) := by
  induction l with
  | nil => exact fun n _ => ⟨0,rfl,Nat.zero_le n⟩
  | cons v vs ih => exact (Le.refl (f v)).plus ih

lemma within_list : Within (.list l) (.list (l ++ r)) := by
  intro depth
  cases depth with
  | zero => exact .refl _
  | succ depth =>
    have hl : l.length ≤ (l ++ r).length := by simp
    exact (sizeLength_mono hl).plus sizeAll_append

def EntryWithin (e e' : String × Val) : Prop := e.1 = e'.1 ∧ Within e.2 e'.2

lemma EntryWithin.of (key : String) {w : Val} (h : Within v w) :
    EntryWithin (key, v) (key, w) := ⟨rfl,h⟩

lemma EntryWithin.refl (key : String) (v : Val) : EntryWithin (key, v) (key, v) :=
  .of key (.refl v)

lemma within_dict {d' : List (String × Val)} (h : List.Forall₂ EntryWithin d d')
    {more : List (String × Val)} : Within (.dict d) (.dict (d' ++ more)) := by
  have he : ∀ depth,
      Le (sizeEntries (sizeAt depth) d) (sizeEntries (sizeAt depth) (d' ++ more)) := by
    intro depth
    induction h with
    | nil => exact fun n _ => ⟨0,rfl,Nat.zero_le n⟩
    | cons hh _ ih =>
      rw [cons_append,sizeEntries,sizeEntries,hh.1]
      exact ((Le.refl _).plus (hh.2 depth)).plus ih
  have hl : d.length ≤ (d' ++ more).length := by
    rw [length_append,h.length_eq]
    exact Nat.le_add_right _ _
  intro depth
  cases depth with
  | zero => exact .refl _
  | succ depth => exact (sizeLength_mono hl).plus (he depth)

/-- A value that packs into at least so many bytes, if it packs. -/
def Large (n : ℕ) (v : Val) : Prop := ∀ depth, AtLeast n (sizeAt depth v)

lemma large_bytes {b : Bytes} : Large b.length (.bytes b) := by
  intro depth
  cases depth with
  | zero => exact fun _ h => nomatch h
  | succ depth =>
    refine .plus_right _ ?_
    intro m hm
    exact (Option.some.inj hm).le

lemma large_list (h : ∀ v ∈ l, Large n v) : Large (n * l.length) (.list l) := by
  have hall : ∀ depth, AtLeast (n * l.length) (sizeAll (sizeAt depth) l) := by
    intro depth
    induction l with
    | nil => exact fun m _ => Nat.zero_le m
    | cons v vs ih =>
      rw [length_cons,Nat.mul_succ,Nat.add_comm]
      exact (h v mem_cons_self depth).plus (ih fun w hw => h w (mem_cons_of_mem v hw))
  intro depth
  cases depth with
  | zero => exact fun _ h => nomatch h
  | succ depth => exact (hall depth).plus_right _

lemma large_mem (hv : v ∈ l) (h : Large n v) : Large n (.list l) := by
  have hall : ∀ depth, AtLeast n (sizeAll (sizeAt depth) l) := by
    intro depth
    induction l with
    | nil => cases hv
    | cons w ws ih =>
      rcases mem_cons.mp hv with rfl | hv
      · exact (h depth).plus_left _
      · exact (ih hv).plus_right _
  intro depth
  cases depth with
  | zero => exact fun _ h => nomatch h
  | succ depth => exact (hall depth).plus_right _

lemma large_dict {e : String × Val} (he : e ∈ d) (h : Large n e.2) : Large n (.dict d) := by
  have hen : ∀ depth, AtLeast n (sizeEntries (sizeAt depth) d) := by
    intro depth
    induction d with
    | nil => cases he
    | cons e' es ih =>
      rcases mem_cons.mp he with rfl | he
      · exact ((h depth).plus_right _).plus_left _
      · exact (ih he).plus_right _
  intro depth
  cases depth with
  | zero => exact fun _ h => nomatch h
  | succ depth => exact (hen depth).plus_right _

lemma large_lookup {k : String} (hv : d.lookup k = some v) (h : Large n v) : Large n (.dict d) := by
  obtain ⟨before,after,rfl,-⟩ := lookup_eq_some_iff.mp hv
  exact large_dict (e := (k, v)) (by simp) h

def Raises (e : PyError) : Prop := e = .valueError ∨ e = .overflowError

lemma append_error {x y : Py Bytes} (h : (do let a ← x; let b ← y; pure (a ++ b)) = .error e) :
    x = .error e ∨ y = .error e := by
  cases x with
  | error e' => exact .inl h
  | ok a =>
    cases y with
    | error e' => exact .inr h
    | ok b => cases h

variable {fmt}

lemma packInt_error {i : ℤ} (h : packInt i = .error e) : Raises e := by
  cases i with
  | ofNat n =>
    simp only [packInt,packNat,tagged] at h
    split_ifs at h
    cases h
    exact .inr rfl
  | negSucc n =>
    simp only [packInt,packNeg,tagged] at h
    split_ifs at h
    cases h
    exact .inr rfl

lemma packSize_error {fix : UInt8} {one : Option UInt8} {two four : UInt8}
    (h : packSize fix limit one two four n = .error e) : Raises e := by
  simp only [packSize,tagged] at h
  split_ifs at h
  cases h
  exact .inl rfl

lemma packHead_error {head : Head} (h : packHead fmt head = .error e) : Raises e := by
  cases head with
  | nil => cases h
  | bool b => cases b <;> cases h
  | int i => exact packInt_error h
  | float x => cases h
  | str n => exact packSize_error h
  | bin n => exact packSize_error h
  | array n => exact packSize_error h
  | map n => exact packSize_error h
  | ext n =>
    cases h
    exact .inl rfl

lemma packText_error (h : packText fmt s = .error e) : Raises e := by
  rcases append_error (y := .ok (utf8 s)) h with hh | hn
  · exact packHead_error hh
  · cases hn

lemma packAll_error {f : Val → Py Bytes} (hf : ∀ v e, f v = .error e → Raises e)
    (h : packAll f l = .error e) : Raises e := by
  induction l with
  | nil => cases h
  | cons v vs ih =>
    rcases append_error h with hfi | hr
    · exact hf v e hfi
    · exact ih hr

lemma packEntries_error {f : Val → Py Bytes} (hf : ∀ v e, f v = .error e → Raises e)
    (h : packEntries fmt f d = .error e) : Raises e := by
  induction d with
  | nil => cases h
  | cons x xs ih =>
    rw [packEntries_append] at h
    rcases append_error h with he | hr
    · rcases append_error he with hk | hv
      · exact packText_error hk
      · exact hf _ _ hv
    · exact ih hr

lemma packAt_error {depth : ℕ} (h : packAt fmt depth v = .error e) : Raises e := by
  induction depth generalizing v e with
  | zero =>
    cases h
    exact .inl rfl
  | succ depth ih =>
    cases v with
    | none => exact packHead_error h
    | bool b => exact packHead_error h
    | int i => exact packHead_error h
    | float x => exact packHead_error h
    | str s => exact packText_error h
    | bytes b =>
      rcases append_error (y := .ok b) h with hh | hn
      · exact packHead_error hh
      · cases hn
    | list l =>
      rcases append_error h with hh | hi
      · exact packHead_error hh
      · exact packAll_error (fun v e hv => ih hv) hi
    | dict d =>
      rcases append_error h with hh | he
      · exact packHead_error hh
      · exact packEntries_error (fun v e hv => ih hv) he

end Hokora.PackedSize
